/-! What a lint run allows and which rules it runs. -/
namespace SchemaLint

/-- Puts an id in its place in an ascending list, unless it is there. -/
def insertAscending (id : String) : List String → List String
  | [] => [id]
  | next :: rest =>
    if id < next then id :: next :: rest
    else if id = next then next :: rest
    else next :: insertAscending id rest

/-- The ids in ascending order of their code points, each once. -/
def ascending (ids : List String) : List String := ids.foldr insertAscending []

/-- Which rules run. With a list of the only ones to run, the list of disabled
ones has no say. -/
structure Selection where
  enabled : Bool := true
  disabled : List String := []
  only : Option (List String) := none
  deriving DecidableEq, Repr

namespace Selection

def runs (selection : Selection) (ruleId : String) : Bool :=
  selection.enabled &&
    match selection.only with
    | some ids => ids.contains ruleId
    | none => !selection.disabled.contains ruleId

/-- Every rule that the selection names. -/
def named (selection : Selection) : List String :=
  selection.disabled ++ selection.only.getD []

end Selection

/-- What the rules measure statements against. -/
structure Policy where
  tableTablespaces : List String := ["ACCTDATA", "ACCTIMS", "ACCTGLOBDATA", "IAAUDITDATA"]
  indexTablespaces : List String := ["ACCTINDX", "ACCTGLOBINDX", "IAAUDITINDX"]
  tempPrefix : String := "temp_"
  deriving DecidableEq, Repr

structure Config where
  selection : Selection := {}
  policy : Policy := {}
  /-- The line after the results of each statement. -/
  separator : String := String.ofList (List.replicate 53 '-')
  deriving DecidableEq, Repr

end SchemaLint
