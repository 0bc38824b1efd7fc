import OrgClient.Text.Letters

namespace OrgClient.Http

open Text

def isTokenChar (c : Char) : Bool :=
  isAsciiAlnum c || c == '_' || c == '.'

/-- The length of the access token at the head of a text, or zero. It is `00` and at least thirteen
letters and digits, an exclamation mark, and letters, digits, underscores and dots. -/
def tokenLength : List Char → Nat
  | '0' :: '0' :: cs =>
    let org := cs.takeWhile isAsciiAlnum
    match cs.dropWhile isAsciiAlnum with
    | '!' :: rest =>
      let key := rest.takeWhile isTokenChar
      if 13 ≤ org.length && !key.isEmpty then 3 + org.length + key.length else 0
    | _ => 0
  | _ => 0

/-- The length of the session id at the head of a text, or zero. It is `sid=` and at least twenty
letters and digits. -/
def sessionLength : List Char → Nat
  | 's' :: 'i' :: 'd' :: '=' :: cs =>
    let key := cs.takeWhile isAsciiAlnum
    if 20 ≤ key.length then 4 + key.length else 0
  | _ => 0

/-- Replaces what a measure of credentials finds, from left to right. The number is of characters
that are still to be skipped. -/
def replaceFound (found : List Char → Nat) (mark : List Char) : Nat → List Char → List Char
  | _, [] => []
  | skip + 1, _ :: cs => replaceFound found mark skip cs
  | 0, c :: cs =>
    match found (c :: cs) with
    | 0 => c :: replaceFound found mark 0 cs
    | n + 1 => mark ++ replaceFound found mark n cs

def withoutCredentials (cs : List Char) : List Char :=
  replaceFound sessionLength "sid=[REDACTED]".toList 0
    (replaceFound tokenLength "[REDACTED_TOKEN]".toList 0 cs)

/-- The longest initial part that has at most so many UTF-8 bytes. -/
def takeBytes (limit : Nat) : List Char → List Char
  | [] => []
  | c :: cs => if c.utf8Size ≤ limit then c :: takeBytes (limit - c.utf8Size) cs else []

/-- The greatest number of UTF-8 bytes that are kept of a message. -/
def maxMessageBytes : Nat := 500

def truncate (cs : List Char) : List Char :=
  if (String.ofList cs).utf8ByteSize ≤ maxMessageBytes then cs
  else takeBytes maxMessageBytes cs ++ "...[truncated]".toList

def redact (message : String) : String :=
  String.ofList (truncate (withoutCredentials message.toList))

end OrgClient.Http
