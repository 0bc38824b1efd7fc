namespace OrgClient.Text

/-- A backslash stands before quotes, backslashes and the letters of control characters. -/
def escapeChar : Char → List Char
  | '\'' => ['\\', '\'']
  | '"' => ['\\', '"']
  | '\\' => ['\\', '\\']
  | '\n' => ['\\', 'n']
  | '\r' => ['\\', 'r']
  | '\t' => ['\\', 't']
  | '\x08' => ['\\', 'b']
  | '\x0c' => ['\\', 'f']
  | c => [c]

/-- The body of the quoted string that denotes `s`. -/
def escape (s : String) : String :=
  String.ofList (s.toList.flatMap escapeChar)

/-- The quoted string that denotes `s`. -/
def quote (s : String) : String :=
  "'" ++ escape s ++ "'"

/-- A wildcard of `LIKE` patterns loses its meaning behind a backslash. -/
def escapeWildcard : Char → List Char
  | '%' => ['\\', '%']
  | '_' => ['\\', '_']
  | c => [c]

/-- The body of the quoted pattern that matches exactly `s`. -/
def escapeLike (s : String) : String :=
  String.ofList ((escape s).toList.flatMap escapeWildcard)

end OrgClient.Text
