import OrgClient.Text.Letters

namespace OrgClient.Http

open Text

/-- Names and values, in order. Names are compared without regard to case. -/
abbrev Headers := List (String × String)

namespace Headers

/-- Sets the value of a name, behind all others, in place of the values it had. -/
def set (hs : Headers) (name value : String) : Headers :=
  hs.filter (fun h => !equalsIgnoringCase h.1 name) ++ [(name, value)]

/-- The first value of a name. -/
def get? (hs : Headers) (name : String) : Option String :=
  (hs.find? fun h => equalsIgnoringCase h.1 name).map (·.2)

/-- Adds a value to a name that has none. -/
def setDefault (hs : Headers) (name value : String) : Headers :=
  if (hs.get? name).isSome then hs else hs ++ [(name, value)]

def values (hs : Headers) (name : String) : List String :=
  (hs.filter fun h => equalsIgnoringCase h.1 name).map (·.2)

/-- The small-letter name of each line with all values of the name, joined by commas. -/
def joined (hs : Headers) : List (String × String) :=
  hs.map fun h => (lowerAscii h.1, ", ".intercalate (hs.values h.1))

end Headers

def isHeaderNameChar (c : Char) : Bool :=
  isAsciiAlnum c || "!#$%&'*+-.^_|~".toList.contains c || c.toNat == 96

def isHeaderName (s : String) : Bool :=
  !s.isEmpty && s.toList.all isHeaderNameChar

/-- Whether a text can be the value of a header: a tab is the only control in it. -/
def isHeaderValue (s : String) : Bool :=
  s.toList.all fun c => c == '\t' || (' ' ≤ c && c != '\x7f')

/-- Whether a value can be read as text: it is printable ASCII and tabs. -/
def isReadableValue (s : String) : Bool :=
  s.toList.all fun c => c == '\t' || (' ' ≤ c && c ≤ '~')

end OrgClient.Http
