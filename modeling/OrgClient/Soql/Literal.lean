import OrgClient.Calendar.Date
import OrgClient.Json.Value
import OrgClient.Soql.Error
import OrgClient.Text.Quoted

namespace OrgClient.Soql

open Number Text Calendar

/-- A value that a field is compared with. -/
inductive Literal where
  | string (s : String)
  | integer (n : Int)
  | number (x : Double)
  | boolean (b : Bool)
  | date (d : Date)
  | instant (t : Instant)
  /-- A date named by its relation to today, as `LAST_N_DAYS:30`. -/
  | relativeDate (text : String)
  | null
  deriving DecidableEq, Repr

def relativeDates : List String :=
  ["YESTERDAY", "TODAY", "TOMORROW", "LAST_WEEK", "THIS_WEEK", "NEXT_WEEK", "LAST_MONTH",
    "THIS_MONTH", "NEXT_MONTH", "LAST_90_DAYS", "NEXT_90_DAYS", "LAST_QUARTER", "THIS_QUARTER",
    "NEXT_QUARTER", "LAST_YEAR", "THIS_YEAR", "NEXT_YEAR", "LAST_FISCAL_QUARTER",
    "THIS_FISCAL_QUARTER", "NEXT_FISCAL_QUARTER", "LAST_FISCAL_YEAR", "THIS_FISCAL_YEAR",
    "NEXT_FISCAL_YEAR"]

def countedDates : List String :=
  ["DAYS", "WEEKS", "MONTHS", "QUARTERS", "YEARS", "FISCAL_QUARTERS", "FISCAL_YEARS"].flatMap
    fun unit => ["LAST_N_" ++ unit, "NEXT_N_" ++ unit, "N_" ++ unit ++ "_AGO"]

/-- A relative date is a known name, or a known name, a colon and digits. -/
def isRelativeDate (text : String) : Bool :=
  match text.toList.span (· ≠ ':') with
  | (_, []) => relativeDates.contains text
  | (name, _ :: n) =>
    countedDates.contains (String.ofList name) && !n.isEmpty && n.all Char.isDigit

namespace Literal

def relativeDate? (text : String) : Except Error Literal :=
  if isRelativeDate text then .ok (.relativeDate text)
  else .error (.literalType ("'" ++ text ++ "' is not a date literal"))

def today : Literal :=
  .relativeDate "TODAY"

def ofString? : Option String → Literal
  | none => .null
  | some s => .string s

def ofInt? : Option Int → Literal
  | none => .null
  | some n => .integer n

/-- The literal of a JSON scalar; an integer that does not fit 63 bits and a sign is rounded. -/
def ofJson? : Json → Except Error Literal
  | .null => .ok .null
  | .bool b => .ok (.boolean b)
  | .int n =>
    if Int64.minValue.toInt ≤ n && n ≤ Int64.maxValue.toInt then .ok (.integer n)
    else .ok (.number (.ofFraction (n < 0) n.natAbs 1))
  | .float x => .ok (.number x)
  | .str s => .ok (.string s)
  | .arr _ => .error (.literalType "arrays are not literals; use a list operator")
  | .obj _ => .error (.literalType "objects are not literals")

def isString : Literal → Bool
  | .string _ => true
  | _ => false

/-- The text of a literal; numbers must be finite. -/
def render : Literal → Except Error String
  | .string s => .ok (quote s)
  | .integer n => .ok (intText n)
  | .number x =>
    if x.isFinite then .ok (Layout.plain.text x)
    else .error (.literalType ("non-finite number " ++ Layout.plain.text x))
  | .boolean true => .ok "true"
  | .boolean false => .ok "false"
  | .date d => .ok d.text
  | .instant t => .ok t.text
  | .relativeDate text => .ok text
  | .null => .ok "null"

/-- The texts of all literals of a list, or the first error. -/
def renderAll : List Literal → Except Error (List String)
  | [] => .ok []
  | l :: ls => do return (← l.render) :: (← renderAll ls)

end Literal

end OrgClient.Soql
