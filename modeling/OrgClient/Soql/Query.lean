import OrgClient.Soql.Field
import OrgClient.Soql.Literal

namespace OrgClient.Soql

/-- A comparison of a field with one value. -/
inductive Comparison where
  | eq | ne | lt | le | gt | ge | like
  deriving DecidableEq, Repr

def Comparison.text : Comparison → String
  | .eq => "="
  | .ne => "!="
  | .lt => "<"
  | .le => "<="
  | .gt => ">"
  | .ge => ">="
  | .like => "LIKE"

/-- A comparison of a field with a list of values. -/
inductive Membership where
  | isIn | notIn | includes | excludes
  deriving DecidableEq, Repr

def Membership.text : Membership → String
  | .isIn => "IN"
  | .notIn => "NOT IN"
  | .includes => "INCLUDES"
  | .excludes => "EXCLUDES"

/-- How the conditions of a group are joined. -/
inductive Connective where
  | and | or
  deriving DecidableEq, Repr

def Connective.separator : Connective → String
  | .and => " AND "
  | .or => " OR "

inductive Subtotals where
  | cube | rollup
  deriving DecidableEq, Repr

inductive Direction where
  | ascending | descending
  deriving DecidableEq, Repr

inductive Nulls where
  | first | last
  deriving DecidableEq, Repr

inductive Purpose where
  | view | update | reference
  deriving DecidableEq, Repr

def Purpose.text : Purpose → String
  | .view => "VIEW"
  | .update => "UPDATE"
  | .reference => "REFERENCE"

inductive Statistics where
  | tracking | viewstat
  deriving DecidableEq, Repr

def Statistics.text : Statistics → String
  | .tracking => "TRACKING"
  | .viewstat => "VIEWSTAT"

structure Ordering where
  field : FieldRef
  direction : Option Direction
  nulls : Option Nulls
  deriving Repr

mutual

inductive Condition where
  | compare (field : FieldRef) (op : Comparison) (value : Literal)
  | oneOf (field : FieldRef) (op : Membership) (values : List Literal)
  /-- The field is compared with the rows of another query. -/
  | within (field : FieldRef) (op : Membership) (query : Query)
  | group (op : Connective) (children : List Condition) (negated : Bool)

/-- Fields to group rows by, and a condition on groups. -/
structure Grouping where
  fields : List FieldRef
  subtotals : Option Subtotals
  having : Option Condition

/-- The clauses of a query other than its table. -/
structure Clauses where
  select : List FieldRef
  filter : Option Condition
  grouping : Option Grouping
  order : List Ordering
  limit : Option Nat
  offset : Option Nat
  purposes : List Purpose
  statistics : Option Statistics

structure Query where
  target : String
  clauses : Clauses

end

namespace Clauses

def empty : Clauses :=
  ⟨[], none, none, [], none, none, [], none⟩

def addFields (c : Clauses) (fields : List FieldRef) : Clauses :=
  { c with select := c.select ++ fields }

def withFilter (c : Clauses) (condition : Condition) : Clauses :=
  { c with filter := some condition }

def withGrouping (c : Clauses) (grouping : Grouping) : Clauses :=
  { c with grouping := some grouping }

def addOrdering (c : Clauses) (ordering : Ordering) : Clauses :=
  { c with order := c.order ++ [ordering] }

/-- Sets the greatest number of rows. -/
def withLimit (c : Clauses) (limit : Nat) : Clauses :=
  { c with limit := some limit }

def withOffset (c : Clauses) (offset : Nat) : Clauses :=
  { c with offset := some offset }

def addPurpose (c : Clauses) (purpose : Purpose) : Clauses :=
  { c with purposes := c.purposes ++ [purpose] }

def withStatistics (c : Clauses) (statistics : Statistics) : Clauses :=
  { c with statistics := some statistics }

end Clauses

def Condition.all (cs : List Condition) : Condition :=
  .group .and cs false

def Condition.any (cs : List Condition) : Condition :=
  .group .or cs false

def Condition.negate : Condition → Condition
  | .group op children negated => .group op children (!negated)
  | c => .group .and [c] true

def Condition.isGroup : Condition → Bool
  | .group .. => true
  | _ => false

end OrgClient.Soql
