import ScriptedActors.Statement.Grammar
set_option autoImplicit false

/-!
# Statements

A statement is parsed by the reader that its first word is bound to. The reader must take every
token.
-/
namespace ScriptedActors

abbrev ActionTable := KeywordTable (Reading Action)

namespace ActionTable

def vocabulary : List (String × Reading Action) :=
  [("log", Grammar.log), ("wait", Grammar.wait), ("js", Grammar.js), ("set", Grammar.set),
    ("get", Grammar.get), ("run", Grammar.run), ("check", Grammar.check),
    ("pause", Grammar.constant .pause), ("terminate", Grammar.constant .terminate),
    ("respawn", Grammar.constant .respawn), ("destroy", Grammar.constant .destroy),
    ("remove", Grammar.constant .remove), ("delete", Grammar.constant .delete),
    ("still", Grammar.constant .stopMoving), ("sleeping", Grammar.constant .sleeping),
    ("use", Grammar.select), ("select", Grammar.select), ("create", Grammar.create),
    ("look", Grammar.look), ("move", Grammar.move), ("teleport", Grammar.teleport),
    ("tag", Grammar.tag), ("meta", Grammar.metadata), ("animation", Grammar.animation),
    ("viewer", Grammar.viewer), ("passenger", Grammar.passenger), ("controller", Grammar.controller),
    ("event", Grammar.event), ("listen", Grammar.listen), ("command", Grammar.command),
    ("continue", Grammar.constant .proceed), ("permission", Grammar.permission),
    ("placeholder", Grammar.placeholder)]

def empty : ActionTable := KeywordTable.empty "action"

def builtin : ActionTable := empty.registerAll vocabulary

def resolveAction (table : ActionTable) (keyword : String) : Except LookupError (Reading Action) :=
  match table.resolve keyword with
  | some reading => .ok reading
  | none => .error (.action keyword)

/-- Read all arguments of a keyword. -/
def complete (reading : Reading Action) : Reading Action := do
  let action ← reading
  Reading.finish
  return action

def parseTokens (table : ActionTable) : List Token → Except StatementError Action
  | [] => .error .empty
  | .word keyword :: arguments =>
    match table.resolveAction keyword with
    | .error error => .error (.unknown error)
    | .ok reading => ((complete reading).outcome ⟨keyword, arguments⟩).1
  | token :: _ => .error (.unknown (.action token.text))

def parse (table : ActionTable) (statement : String) : Except StatementError Action :=
  match Token.scan statement with
  | .error fault => .error (.unterminated fault)
  | .ok tokens => table.parseTokens tokens

end ActionTable
end ScriptedActors
