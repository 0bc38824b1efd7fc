import OrgClient.Text.Letters

namespace OrgClient.Text

/-- An ASCII letter, digit or underscore. -/
def isNameChar (c : Char) : Bool :=
  isAsciiAlnum c || c == '_'

/-- A name is an ASCII letter followed by ASCII letters, digits and underscores. -/
def isNameChars : List Char → Bool
  | [] => false
  | c :: cs => c.isAlpha && cs.all isNameChar

def isName (s : String) : Bool :=
  isNameChars s.toList

def isPath (s : String) : Bool :=
  (s.toList.splitOn '.').all isNameChars

/-- A record id has 15 or 18 ASCII letters and digits. -/
def isRecordId (s : String) : Bool :=
  (s.length == 15 || s.length == 18) && s.toList.all isAsciiAlnum

end OrgClient.Text
