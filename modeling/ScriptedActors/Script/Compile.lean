import ScriptedActors.Script.Statements
import ScriptedActors.Statement.ActionTable
set_option autoImplicit false

/-!
# Compiling scripts

Every statement is parsed. A script compiles to its actions, or to one diagnostic for each
statement that cannot be parsed.
-/
namespace ScriptedActors

/-- What is wrong with the statement that starts on a line of a script. -/
structure Diagnostic where
  script : String
  line : Nat
  message : String
deriving DecidableEq

def Diagnostic.text (d : Diagnostic) : String := s!"{d.script}:{d.line}: {d.message}"

namespace Script

def diagnose (s : Script) (table : ActionTable) (statements : List Statement) : List Diagnostic :=
  statements.filterMap fun statement =>
    match table.parse statement.text with
    | .ok _ => none
    | .error error => some ⟨s.name, statement.line, error.message⟩

def actions (table : ActionTable) (statements : List Statement) : List Action :=
  statements.filterMap fun statement => (table.parse statement.text).toOption

def compile (s : Script) (table : ActionTable) : Except (List Diagnostic) (List Action) :=
  match s.diagnose table s.statements with
  | [] => .ok (actions table s.statements)
  | diagnostics => .error diagnostics

end Script
end ScriptedActors
