import ScriptedActors.Proofs.Script.Cuts
import ScriptedActors.Script.Library

set_option autoImplicit false

/-!
# Scripts put together

A body may be cut in two wherever a line ends and no statement is open. Its statements are those of the
two parts, and it compiles to the actions of both, or else to what is wrong with both. Only the numbers
of the lines tell that something stands in front.
-/
namespace ScriptedActors
open Text

def Statement.shift (count : Nat) (t : Statement) : Statement := { t with line := t.line + count }

def Diagnostic.shift (count : Nat) (d : Diagnostic) : Diagnostic := { d with line := d.line + count }

def EndsLine (text : String) : Prop := text.toList = [] ∨ text.toList.getLast? = some '\n'

/-- The braces of the last statement are closed, so that another one may follow. -/
def Closes (statements : List Statement) : Prop :=
  ∀ t ∈ statements.getLast?, t.balance t.lines.length ≤ 0

namespace Cut
variable {number : Nat} {lines more : List (List Char)} {statements others : List Statement}

theorem shift (h : Cut number lines statements) (count : Nat) :
    Cut (number + count) lines (statements.map (Statement.shift count)) := by
  induction h with
  | nil => exact .nil
  | @idle number _ _ _ hskipped _ ih =>
    rw [Nat.add_right_comm] at ih
    exact .idle hskipped ih
  | @block number _ _ _ hblock hunclosed _ ih =>
    rw [Nat.add_right_comm] at ih
    exact .block hblock hunclosed ih

theorem balance_statementAt (number : Nat) {block : List (List Char)} (hblock : IsBlock block)
    (hfree : ∀ line ∈ block, '\n' ∉ line) :
    (statementAt number block).balance (statementAt number block).lines.length = balanceOf block := by
  have hlines : (statementAt number block).lines = block := by
    rw [Statement.lines, statementAt, String.toList_ofList]
    exact split_intercalate '\n' block (List.length_pos_iff.mp hblock.length_pos) hfree
  rw [Statement.balance, List.take_length, hlines, balanceOf]

theorem append (h : Cut number lines statements) (hfree : ∀ line ∈ lines, '\n' ∉ line)
    (hcloses : Closes statements) (hmore : Cut (number + lines.length) more others) :
    Cut number (lines ++ more) (statements ++ others) := by
  induction h with
  | nil => exact hmore
  | idle hskipped _ ih =>
    rw [List.length_cons, ← Nat.add_assoc, Nat.add_right_comm] at hmore
    exact .idle hskipped (ih (List.forall_mem_cons.mp hfree).2 hcloses hmore)
  | @block number first rest statements hblock hunclosed hrest ih =>
    obtain ⟨hfirst, hfree⟩ := List.forall_mem_append.mp hfree
    rw [List.length_append, ← Nat.add_assoc] at hmore
    rw [List.append_assoc, List.cons_append]
    refine .block hblock ?_ (ih hfree ?_ hmore)
    · -- An unclosed block is the last statement.
      intro hopen
      rw [hunclosed hopen] at hrest
      rw [hrest.unique .nil] at hcloses
      have hclosed : (statementAt number first).balance (statementAt number first).lines.length ≤ 0 :=
        hcloses _ rfl
      rw [balance_statementAt number hblock hfirst] at hclosed
      omega
    · intro t ht
      apply hcloses
      rw [Option.mem_def] at ht
      rw [Option.mem_def, List.getLast?_cons, ht]
      rfl

theorem of_skipped (number : Nat) (h : ∀ line ∈ lines, isSkipped line = true) : Cut number lines [] := by
  induction lines generalizing number with
  | nil => exact .nil
  | cons line rest ih =>
    obtain ⟨hline, hrest⟩ := List.forall_mem_cons.mp h
    exact .idle hline (ih (number + 1) hrest)

end Cut

theorem trimmedLines_append {a : String} (h : EndsLine a) (b : String) :
    trimmedLines (a ++ b) = trimmedLines a ++ trimmedLines b := by
  rw [trimmedLines, String.toList_append, lines_append h, List.map_append, trimmedLines, trimmedLines]

namespace Script

theorem statements_append (name : String) {a : String} (b : String) (hends : EndsLine a)
    (hcloses : Closes (statements (.ofText name a))) :
    statements (.ofText name (a ++ b)) = statements (.ofText name a) ++
      (statements (.ofText name b)).map (Statement.shift (trimmedLines a).length) := by
  have hfirst := cut_statements (.ofText name a)
  have hsecond := (cut_statements (.ofText name b)).shift (trimmedLines a).length
  have hwhole : Cut 1 (trimmedLines (a ++ b)) _ := cut_statements (.ofText name (a ++ b))
  rw [trimmedLines_append hends] at hwhole
  exact hwhole.unique (hfirst.append (newline_notMem_trimmedLines a) hcloses hsecond)

theorem statements_of_skipped (name : String) {gap : String}
    (h : ∀ line ∈ trimmedLines gap, isSkipped line = true) : statements (.ofText name gap) = [] :=
  (cut_statements (.ofText name gap)).unique (.of_skipped 1 h)

variable {table : ActionTable}

theorem diagnosticsOf_eq (s : Script) :
    ScriptLibrary.diagnosticsOf table s = s.diagnose table s.statements := by
  rw [ScriptLibrary.diagnosticsOf, compile]
  cases s.diagnose table s.statements with
  | nil => rfl
  | cons d ds => rfl

theorem compile_eq_ok_iff (s : Script) (nodes : List Action) : s.compile table = .ok nodes ↔
    ScriptLibrary.diagnosticsOf table s = [] ∧ nodes = actions table s.statements := by
  rw [diagnosticsOf_eq, compile]
  cases s.diagnose table s.statements with
  | nil => simp [eq_comm]
  | cons d ds => simp

theorem compile_eq_error_iff (s : Script) (diagnostics : List Diagnostic) :
    s.compile table = .error diagnostics ↔
      ScriptLibrary.diagnosticsOf table s ≠ [] ∧ diagnostics = ScriptLibrary.diagnosticsOf table s := by
  rw [diagnosticsOf_eq, compile]
  cases s.diagnose table s.statements with
  | nil => simp
  | cons d ds => simp [eq_comm]

theorem diagnose_shift (s : Script) (count : Nat) (statements : List Statement) :
    s.diagnose table (statements.map (Statement.shift count)) =
      (s.diagnose table statements).map (Diagnostic.shift count) := by
  rw [diagnose, diagnose, List.filterMap_map, List.map_filterMap]
  congr 1
  funext t
  rw [Function.comp_apply, Statement.shift]
  cases table.parse t.text with
  | error error => rfl
  | ok node => rfl

theorem actions_shift (count : Nat) (statements : List Statement) :
    actions table (statements.map (Statement.shift count)) = actions table statements := by
  rw [actions, actions, List.filterMap_map]
  rfl

/-- A script is made of two, the second of which begins after a number of lines. -/
structure Composes (table : ActionTable) (whole first second : Script) (count : Nat) : Prop where
  statements : whole.statements = first.statements ++ second.statements.map (Statement.shift count)
  compiles : ∀ nodes, whole.compile table = .ok nodes ↔ ∃ front back,
    first.compile table = .ok front ∧ second.compile table = .ok back ∧ nodes = front ++ back
  fails : ∀ diagnostics, whole.compile table = .error diagnostics ↔
    ¬((∃ front, first.compile table = .ok front) ∧ ∃ back, second.compile table = .ok back) ∧
      diagnostics = ScriptLibrary.diagnosticsOf table first ++
        (ScriptLibrary.diagnosticsOf table second).map (Diagnostic.shift count)

structure DiffersInLines (table : ActionTable) (s other : Script) : Prop where
  texts : s.statements.map Statement.text = other.statements.map Statement.text
  compiles : ∀ nodes, s.compile table = .ok nodes ↔ other.compile table = .ok nodes
  messages : (ScriptLibrary.diagnosticsOf table s).map (fun d => (d.script, d.message)) =
    (ScriptLibrary.diagnosticsOf table other).map fun d => (d.script, d.message)

section Composing
variable {whole first second : Script} {count : Nat}

theorem diagnosticsOf_append (hfirst : first.name = whole.name) (hsecond : second.name = whole.name)
    (h : whole.statements = first.statements ++ second.statements.map (Statement.shift count)) :
    ScriptLibrary.diagnosticsOf table whole = ScriptLibrary.diagnosticsOf table first ++
      (ScriptLibrary.diagnosticsOf table second).map (Diagnostic.shift count) := by
  have hrename (s : Script) (hname : s.name = whole.name) (statements : List Statement) :
      whole.diagnose table statements = s.diagnose table statements := by
    rw [diagnose, diagnose, hname]
  rw [diagnosticsOf_eq, diagnosticsOf_eq, diagnosticsOf_eq, h, ← hrename first hfirst,
    ← hrename second hsecond, ← diagnose_shift, diagnose, List.filterMap_append]
  rfl

theorem composes_of_statements (hfirst : first.name = whole.name) (hsecond : second.name = whole.name)
    (h : whole.statements = first.statements ++ second.statements.map (Statement.shift count)) :
    Composes table whole first second count := by
  have hdiagnostics : ScriptLibrary.diagnosticsOf table whole =
      ScriptLibrary.diagnosticsOf table first ++
        (ScriptLibrary.diagnosticsOf table second).map (Diagnostic.shift count) :=
    diagnosticsOf_append hfirst hsecond h
  have hactions : actions table whole.statements =
      actions table first.statements ++ actions table second.statements := by
    rw [← actions_shift count second.statements, h, actions, List.filterMap_append]
    rfl
  have hnone : ScriptLibrary.diagnosticsOf table whole = [] ↔
      ScriptLibrary.diagnosticsOf table first = [] ∧ ScriptLibrary.diagnosticsOf table second = [] := by
    rw [hdiagnostics, List.append_eq_nil_iff, List.map_eq_nil_iff]
  refine ⟨h, ?_, ?_⟩
  · intro nodes
    simp only [compile_eq_ok_iff, hnone, hactions]
    constructor
    · rintro ⟨⟨hfront, hback⟩, hnodes⟩
      exact ⟨_, _, ⟨hfront, rfl⟩, ⟨hback, rfl⟩, hnodes⟩
    · rintro ⟨front, back, ⟨hfront, rfl⟩, ⟨hback, rfl⟩, hnodes⟩
      exact ⟨⟨hfront, hback⟩, hnodes⟩
  · intro diagnostics
    simp only [compile_eq_error_iff, compile_eq_ok_iff, exists_and_left, exists_eq, and_true, ne_eq,
      hnone]
    rw [hdiagnostics]

theorem Composes.messages (h : Composes table whole first second count)
    (hfirst : first.name = whole.name) (hsecond : second.name = whole.name) :
    (ScriptLibrary.diagnosticsOf table whole).map (fun d => (d.script, d.message)) =
      (ScriptLibrary.diagnosticsOf table first).map (fun d => (d.script, d.message)) ++
        (ScriptLibrary.diagnosticsOf table second).map fun d => (d.script, d.message) := by
  rw [diagnosticsOf_append hfirst hsecond h.statements, List.map_append, List.map_map]
  rfl

end Composing

theorem Composes.differsInLines {whole other first second : Script} {count shorter : Nat}
    (h : Composes table whole first second count) (hother : Composes table other first second shorter)
    (hfirst : first.name = whole.name) (hsecond : second.name = whole.name)
    (hname : other.name = whole.name) : DiffersInLines table whole other where
  texts := by
    rw [h.statements, hother.statements, List.map_append, List.map_append, List.map_map, List.map_map]
    rfl
  compiles nodes := (h.compiles nodes).trans (hother.compiles nodes).symm
  messages := by
    rw [h.messages hfirst hsecond,
      hother.messages (hfirst.trans hname.symm) (hsecond.trans hname.symm)]

/-- Where a line ends and no statement is open, the parts of a body are compiled apart from each other,
and blank lines and comments in between do nothing but count. -/
theorem composes_append (table : ActionTable) (name a b : String) (hends : EndsLine a)
    (hcloses : Closes (statements (.ofText name a))) :
    Composes table (.ofText name (a ++ b)) (.ofText name a) (.ofText name b) (trimmedLines a).length ∧
      ∀ gap, EndsLine gap → (∀ line ∈ trimmedLines gap, line = [] ∨ line.head? = some '#') →
        Composes table (.ofText name (a ++ gap ++ b)) (.ofText name a) (.ofText name b)
          ((trimmedLines a).length + (trimmedLines gap).length) ∧
        DiffersInLines table (.ofText name (a ++ gap ++ b)) (.ofText name (a ++ b)) := by
  have hjoined : Composes table (.ofText name (a ++ b)) (.ofText name a) (.ofText name b) (trimmedLines a).length :=
    composes_of_statements rfl rfl (statements_append name b hends hcloses)
  refine ⟨hjoined, ?_⟩
  intro gap hgap hidle
  have hnothing : statements (.ofText name gap) = [] :=
    statements_of_skipped name fun line hline => (isSkipped_iff line).mpr (hidle line hline)
  have hfront : statements (.ofText name (a ++ gap)) = statements (.ofText name a) := by
    rw [statements_append name gap hends hcloses, hnothing, List.map_nil, List.append_nil]
  have hfrontEnds : EndsLine (a ++ gap) := by
    rw [EndsLine, String.toList_append]
    rcases hgap with hgap | hgap
    · rw [hgap, List.append_nil]
      exact hends
    · rw [List.getLast?_append, hgap]
      exact .inr rfl
  have hwhole := statements_append name b hfrontEnds (hfront ▸ hcloses)
  rw [hfront, trimmedLines_append hends, List.length_append] at hwhole
  have hparted : Composes table (.ofText name (a ++ gap ++ b)) (.ofText name a) (.ofText name b)
      ((trimmedLines a).length + (trimmedLines gap).length) := composes_of_statements rfl rfl hwhole
  exact ⟨hparted, hparted.differsInLines hjoined rfl rfl rfl⟩

/-- A closing brace too many ends the first part, and a statement that cannot be parsed begins the second. -/
theorem composes_after_stray_brace :
    let a := "run x\nlisten join \x7b\n log x\n\x7d \x7d\n\n"
    let b := "# next\nfly away\nlog \x7b\n"
    let gap := "  \n # more\n"
    EndsLine a ∧ Closes (Script.statements (.ofText "s" a)) ∧ EndsLine gap ∧
      (∀ line ∈ trimmedLines gap, line = [] ∨ line.head? = some '#') ∧
      Composes ActionTable.builtin (.ofText "s" (a ++ b)) (.ofText "s" a) (.ofText "s" b) 5 ∧
      Composes ActionTable.builtin (.ofText "s" (a ++ gap ++ b)) (.ofText "s" a) (.ofText "s" b) 7 := by
  intro a b gap
  have hends : EndsLine a := .inr (by decide)
  have hcloses : Closes (Script.statements (.ofText "s" a)) := by
    intro t ht
    have hlast : (Script.statements (.ofText "s" a)).getLast? = some ⟨2, "listen join \x7b\nlog x\n\x7d \x7d"⟩ := by
      decide
    obtain rfl : ⟨2, "listen join \x7b\nlog x\n\x7d \x7d"⟩ = t := Option.some.inj (hlast.symm.trans ht)
    decide
  have hgap : EndsLine gap := .inr (by decide)
  have hidle : ∀ line ∈ trimmedLines gap, line = [] ∨ line.head? = some '#' := by decide
  obtain ⟨hjoined, hparted⟩ := composes_append ActionTable.builtin "s" a b hends hcloses
  have hparted := (hparted gap hgap hidle).1
  have hcount : (trimmedLines a).length = 5 := by decide
  have hgapCount : (trimmedLines gap).length = 2 := by decide
  rw [hcount] at hjoined hparted
  rw [hgapCount] at hparted
  exact ⟨hends, hcloses, hgap, hidle, hjoined, hparted⟩

end Script
end ScriptedActors
