import ScriptedActors.Proofs.Statement.Readers
import ScriptedActors.Statement.ActionTable

set_option autoImplicit false

/-!
# The productions of the grammar

A production relates the tokens after a keyword to the action that they ask for. It is stated
without a reader: which tokens there are, which of them are words of the grammar, and which texts
the action has. The reader of every built-in keyword recognises the production of that keyword.
-/
namespace ScriptedActors
open Text Reading

def Comparison.words : Comparison → List String
  | .eq => ["==", "=", "is"]
  | .ne => ["!=", "not"]
  | .gt => [">"]
  | .ge => [">="]
  | .lt => ["<"]
  | .le => ["<="]

def SelectBy.words : SelectBy → List String
  | .id => ["id"]
  | .uniqueId => ["uniqueid", "uuid"]

def CollectionOp.words : CollectionOp → List String
  | .add => ["add"]
  | .remove => ["remove"]

def Sender.words : Sender → List String
  | .player => ["player"]
  | .operator => ["op", "operator"]
  | .console => ["console", "server"]

/-- A token of any kind whose text is one of some words, up to case. -/
def Token.Says (token : Token) (words : List String) : Prop :=
  ∃ word ∈ words, sameName word token.text = true

def Token.joined (tokens : List Token) : String := join " " (tokens.map Token.text)

/-- Which tokens ask for which action. -/
abbrev Production := List Token → Action → Prop

namespace Production

inductive Bare (action : Action) : Production
  | intro : Bare action [] action

inductive One (make : String → Action) : Production
  | intro (t : Token) : One make [t] (make t.text)

inductive Rest (make : String → Action) : Production
  | intro (ts : List Token) (h : ts ≠ []) : Rest make ts (make (Token.joined ts))

inductive Place (make : Location → Action) : Production
  | intro (t : Token) (l : Location) (h : Location.ofText t.text = .ok l) : Place make [t] (make l)

inductive Collection (make : CollectionOp → String → Action) : Production
  | intro (op : CollectionOp) (word t : Token) (h : word.Says op.words) :
      Collection make [word, t] (make op t.text)

inductive Wait : Production
  | intro (t : Token) (ticks : UInt64) (h : readDuration t.text = some ticks) : Wait [t] (.wait ticks)

inductive Set : Production
  | intro (name to_ : Token) (value : List Token) (hto : isWord "to" to_ = true) (h : value ≠ []) :
      Set (name :: to_ :: value) (.set name.text (Token.joined value))

inductive Check : Production
  | intro (op : Comparison) (left word right : Token) (h : word.Says op.words) :
      Check [left, word, right] (.check left.text op right.text)

inductive Select : Production
  | plain (t : Token) : Select [t] (.select t.text .id)
  | by (key : SelectBy) (t by_ word : Token) (hby : isWord "by" by_ = true) (h : word.Says key.words) :
      Select [t, by_, word] (.select t.text key)

inductive Create : Production
  | intro (id kind place : Token) (l : Location) (h : Location.ofText place.text = .ok l) :
      Create [id, kind, place] (.create id.text kind.text l)

inductive Look : Production
  | plain (t : Token) (l : Location) (hplain : isWord "smooth" t = false)
      (h : Location.ofText t.text = .ok l) : Look [t] (.look l false)
  | smooth (word t : Token) (l : Location) (hsmooth : isWord "smooth" word = true)
      (h : Location.ofText t.text = .ok l) : Look [word, t] (.look l true)

inductive Tag : Production
  | remove (word key : Token) (h : word.Says ["remove"]) : Tag [word, key] (.tag key.text none)
  | set (word key value : Token) (h : word.Says ["set"]) (hplain : isWord "to" value = false) :
      Tag [word, key, value] (.tag key.text (some value.text))
  | setTo (word key to_ value : Token) (h : word.Says ["set"]) (hto : isWord "to" to_ = true) :
      Tag [word, key, to_, value] (.tag key.text (some value.text))

inductive Metadata : Production
  | plain (key value : Token) (hplain : isWord "to" value = false) :
      Metadata [key, value] (.metadata key.text (metadataValue value))
  | withTo (key to_ value : Token) (hto : isWord "to" to_ = true) :
      Metadata [key, to_, value] (.metadata key.text (metadataValue value))

inductive Event : Production
  | read (field : Token) : Event [field] (.event field.text none)
  | write (field to_ : Token) (value : List Token) (hto : isWord "to" to_ = true) (h : value ≠ []) :
      Event (field :: to_ :: value) (.event field.text (some (Token.joined value)))

inductive Listen : Production
  | intro (event : Token) (body : String) : Listen [event, .block body] (.listen event.text body)

inductive Command : Production
  | plain (line : Token) : Command [line] (.command line.text .player)
  | as (sender : Sender) (line as_ word : Token) (has : isWord "as" as_ = true)
      (h : word.Says sender.words) : Command [line, as_, word] (.command line.text sender)

end Production
end ScriptedActors
