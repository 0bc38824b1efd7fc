namespace OrgClient.Text

/-- An ASCII letter or digit. -/
def isAsciiAlnum (c : Char) : Bool :=
  c.isAlpha || c.isDigit

/-- The text with ASCII capitals made small. -/
def lowerAscii (s : String) : String :=
  String.ofList (s.toList.map Char.toLower)

/-- Equality of texts up to ASCII case. -/
def equalsIgnoringCase (s t : String) : Bool :=
  lowerAscii s == lowerAscii t

/-- Whether `pre` is an initial part of `s`. -/
def startsWith (s pre : String) : Bool :=
  pre.toList.isPrefixOf s.toList

def dropPrefix? (s pre : String) : Option String :=
  if startsWith s pre then some (String.ofList (s.toList.drop pre.length)) else none

end OrgClient.Text
