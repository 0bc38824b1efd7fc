import OrgClient.Soql.Query
import OrgClient.Text.Blank

namespace OrgClient.Soql

/-- Keeps the first of equal texts. -/
def firstOccurrences : List String → List String
  | [] => []
  | s :: ss => s :: (firstOccurrences ss).filter (· ≠ s)

def Ordering.render (o : Ordering) : String :=
  o.field.render
    ++ (match o.direction with
      | none => ""
      | some .ascending => " ASC"
      | some .descending => " DESC")
    ++ (match o.nulls with
      | none => ""
      | some .first => " NULLS FIRST"
      | some .last => " NULLS LAST")

/-- The fields of a grouping, in a call if there are subtotals. -/
def groupedFields (fields : List FieldRef) (subtotals : Option Subtotals) : String :=
  let list := ", ".intercalate (FieldRef.renderAll fields)
  match subtotals with
  | none => list
  | some .cube => "CUBE(" ++ list ++ ")"
  | some .rollup => "ROLLUP(" ++ list ++ ")"

namespace Clauses

/-- The distinct columns of a query. -/
def columns (c : Clauses) : List String :=
  firstOccurrences (c.select.map FieldRef.renderSelect)

/-- The distinct purposes of a query. -/
def purposeTexts (c : Clauses) : List String :=
  firstOccurrences (c.purposes.map Purpose.text)

def tail (c : Clauses) : String :=
  (if c.order.isEmpty then "" else " ORDER BY " ++ ", ".intercalate (c.order.map Ordering.render))
    ++ (match c.limit with
      | none => ""
      | some n => " LIMIT " ++ Number.natText n)
    ++ (match c.offset with
      | none => ""
      | some n => " OFFSET " ++ Number.natText n)
    ++ (if c.purposes.isEmpty then "" else " FOR " ++ " ".intercalate c.purposeTexts)
    ++ (match c.statistics with
      | none => ""
      | some s => " UPDATE " ++ s.text)

end Clauses

/-- The text of a comparison; patterns must be strings. -/
def renderComparison (field : FieldRef) (op : Comparison) (value : Literal) :
    Except Error String :=
  if op = .like && !value.isString then
    .error (.literalType ("LIKE on " ++ field.render ++ " needs a string pattern"))
  else do
    return field.render ++ " " ++ op.text ++ " " ++ (← value.render)

def renderMembership (field : FieldRef) (op : Membership) (list : String) : String :=
  field.render ++ " " ++ op.text ++ " (" ++ list ++ ")"

/-- The conditions of a group joined, behind `NOT` if negated. -/
def renderGroup (op : Connective) (negated : Bool) (parts : List String) : String :=
  let joined := op.separator.intercalate parts
  if negated then "NOT (" ++ joined ++ ")" else joined

def Clauses.assemble (c : Clauses) (target filter grouping : String) : String :=
  "SELECT " ++ ", ".intercalate c.columns ++ " FROM " ++ target ++ filter ++ grouping ++ c.tail

mutual

def Condition.render : Condition → Except Error String
  | .compare field op value => renderComparison field op value
  | .oneOf field op values =>
    if values.isEmpty then .error (.emptyListOperand field.render)
    else do
      return renderMembership field op (", ".intercalate (← Literal.renderAll values))
  | .within field op query => do
    return renderMembership field op (← query.compose)
  | .group op children negated =>
    if children.isEmpty then .error .emptyConditionGroup
    else do
      return renderGroup op negated (← Condition.renderParts children)

/-- The texts of the conditions of a group; groups among them are in parentheses. -/
def Condition.renderParts : List Condition → Except Error (List String)
  | [] => .ok []
  | c :: cs => do
    let text ← c.render
    return (if c.isGroup then "(" ++ text ++ ")" else text) :: (← Condition.renderParts cs)

def Grouping.render : Grouping → Except Error String
  | ⟨fields, subtotals, having⟩ =>
    if fields.isEmpty then .error .emptyGroupBy
    else
      match having with
      | none => .ok (groupedFields fields subtotals)
      | some condition => do
        return groupedFields fields subtotals ++ " HAVING " ++ (← condition.render)

def Query.compose : Query → Except Error String
  | ⟨target, ⟨select, filter, grouping, order, limit, offset, purposes, statistics⟩⟩ =>
    let clauses : Clauses :=
      ⟨select, filter, grouping, order, limit, offset, purposes, statistics⟩
    if select.isEmpty then .error .missingSelectFields
    else if Text.isBlankText target then .error .missingFromTarget
    else do
      let filter ←
        match filter with
        | none => pure ""
        | some condition => do pure (" WHERE " ++ (← condition.render))
      let grouping ←
        match grouping with
        | none => pure ""
        | some g => do pure (" GROUP BY " ++ (← g.render))
      return clauses.assemble (Text.trimBlank target) filter grouping

end

def Condition.display (c : Condition) : String :=
  match c.render with
  | .ok text => text
  | .error e => "<invalid condition: " ++ e.message ++ ">"

end OrgClient.Soql
