namespace OrgClient.Soql

inductive Error where
  | missingSelectFields
  | missingFromTarget
  | invalidFieldReference (table field reason : String)
  | literalType (text : String)
  | emptyListOperand (field : String)
  | emptyConditionGroup
  | emptyGroupBy
  deriving DecidableEq, Repr

def Error.message : Error → String
  | .missingSelectFields => "query has no SELECT fields"
  | .missingFromTarget => "query has no FROM target"
  | .invalidFieldReference table field reason =>
    "invalid field reference " ++ table ++ "." ++ field ++ ": " ++ reason
  | .literalType text => "unsupported literal: " ++ text
  | .emptyListOperand field => "empty value list for " ++ field
  | .emptyConditionGroup => "condition group has no children"
  | .emptyGroupBy => "GROUP BY without fields"

def Error.code : Error → String
  | .missingSelectFields => "MissingSelectFields"
  | .missingFromTarget => "MissingFromTarget"
  | .invalidFieldReference .. => "InvalidFieldReference"
  | .literalType _ => "LiteralType"
  | .emptyListOperand _ => "EmptyListOperand"
  | .emptyConditionGroup => "EmptyConditionGroup"
  | .emptyGroupBy => "EmptyGroupBy"

end OrgClient.Soql
