import Mathlib.Data.List.Basic
import LexicalScope.Proofs.Table.Law
import LexicalScope.Session.Basic

set_option autoImplicit false

/-!
# What the context of a table is good for

The context of a table says whether events are reported and how much room a frame reserves. No
operation asks for it but to emit events: with any other context it gives the same answer and leaves
the same frames and floor behind. A table with a silent context emits nothing.

## Main definitions

* `LexicalScope.Table.unobserved`, `LexicalScope.Child.unobserved`,
  `LexicalScope.Effect.unobserved`, `LexicalScope.Reply.unobserved` — a table, a child, an effect
  and a reply, as far as they do not depend on contexts.
* `LexicalScope.Table.Reports` — only a table that logs emits events.

## Main results

* `LexicalScope.Table.insertAll_unobserved`, `LexicalScope.Table.assignAll_unobserved` and the
  like — an operation on the unobserved table.
* `LexicalScope.Table.answer?_unobserved` — so do questions, but for what they show of contexts.
* `LexicalScope.Table.isLaw_reports` — every operation keeps the context, and emits nothing if it is
  silent.
-/

namespace LexicalScope

/-- The child as if it had been opened on a table that reports nothing. -/
def Child.unobserved (c : Child) : Child :=
  { c with hasSpan := false }

/-- The table with a context that reports nothing. -/
def Table.unobserved (t : Table) : Table :=
  { t with context := .quiet }

/-- The same answer and table, with a context that reports nothing. -/
def Effect.unobserved {α : Type} (e : Effect α) : Effect α :=
  { answer := e.answer, table := e.table.unobserved, trace := [] }

/-- The reply with every context that it shows replaced by one that reports nothing. -/
def Reply.unobserved : Reply → Reply
  | context _ => context .quiet
  | handle child? table => handle (child?.map Child.unobserved) table.unobserved
  | reply => reply

/-- Whether a question shows a context. -/
def Query.showsContext : Query → Bool
  | .context | .table | .handle => true
  | _ => false

/-- The unobserved child has the same base. -/
@[simp] lemma Child.base_unobserved (c : Child) : c.unobserved.base = c.base := rfl

/-- What is unobserved stays as it is. -/
@[simp] lemma Reply.unobserved_unobserved (r : Reply) : r.unobserved.unobserved = r.unobserved := by
  cases r with
  | handle child? table => cases child? <;> rfl
  | _ => rfl

namespace Table

variable {α : Type}

/-- The unobserved table has the same frames. -/
@[simp] lemma stack_unobserved (t : Table) : t.unobserved.stack = t.stack := rfl

/-- The unobserved table has the same floor. -/
@[simp] lemma floor_unobserved (t : Table) : t.unobserved.floor = t.floor := rfl

/-! ## Operations on the unobserved table -/

/-- A declaration on the unobserved table. -/
lemma insert_unobserved (t : Table) (name typeTag value : String) :
    t.unobserved.insert name typeTag value =
      (t.insert name typeTag value).map Effect.unobserved := by
  simp only [insert, stack_unobserved]
  cases t.stack <;> rfl

/-- A miss on the unobserved table. -/
lemma miss_unobserved (t : Table) (name : String) :
    (t.unobserved.miss name : Option (Effect (Except Refusal α))) =
      (t.miss name).map Effect.unobserved := by
  simp only [miss, stack_unobserved]
  cases t.stack <;> rfl

/-- Overwriting a value on the unobserved table. -/
lemma assign_unobserved (t : Table) (name value : String) :
    t.unobserved.assign name value = (t.assign name value).map Effect.unobserved := by
  simp only [assign, stack_unobserved]
  cases t.stack.locate name with
  | none => exact miss_unobserved t name
  | some p => rfl

/-- A removal on the unobserved table. -/
lemma erase_unobserved (t : Table) (name : String) :
    t.unobserved.erase name = (t.erase name).map Effect.unobserved := by
  simp only [erase, stack_unobserved]
  split
  · rfl
  · split
    · exact miss_unobserved t name
    · rfl

/-- Leaving a scope on the unobserved table. -/
lemma exit_unobserved (t : Table) : t.unobserved.exit = t.exit.map Effect.unobserved := by
  simp only [exit, stack_unobserved, floor_unobserved]
  cases t.stack with
  | nil => rfl
  | cons f outer => by_cases hfloor : outer.length ≤ t.floor <;> simp only [hfloor] <;> rfl

/-- Copies are declared in the unobserved table as they are in the table. -/
theorem insertAll_unobserved (t : Table) (bs : List Binding) :
    t.unobserved.insertAll bs = (t.insertAll bs).map Effect.unobserved := by
  induction bs generalizing t with
  | nil => rfl
  | cons b bs ih =>
    rw [insertAll, insertAll, insert_unobserved]
    cases t.insert b.name b.typeTag b.value with
    | none => rfl
    | some first =>
      simp only [Option.map_some, Effect.unobserved, ih]
      cases first.table.insertAll bs <;> rfl

/-- Values are written back in the unobserved table as they are in the table. -/
theorem assignAll_unobserved (t : Table) (level : Nat) (bs : List Binding) :
    t.unobserved.assignAll level bs = (t.assignAll level bs).unobserved := by
  induction bs generalizing t with
  | nil => rfl
  | cons b bs ih =>
    simp only [assignAll, stack_unobserved]
    cases (t.stack.outside level).locate b.name with
    | none => exact ih t
    | some p =>
      have hrest := ih { t with stack := t.stack.setValueAt p b.value }
      simp only [unobserved] at hrest
      simp only [unobserved, hrest]
      rfl

/-- Seeding on the unobserved table. -/
lemma seed_unobserved (t : Table) (level : Nat) :
    t.unobserved.seed level = (t.seed level).map Effect.unobserved := by
  rw [seed, seed, stack_unobserved]
  split
  · exact insertAll_unobserved t _
  · rfl

/-- A write-back across a level of the unobserved table. -/
lemma writeBack_unobserved (t : Table) (level : Nat) :
    t.unobserved.writeBack level = (t.writeBack level).map Effect.unobserved := by
  rw [writeBack, writeBack, stack_unobserved]
  split
  · exact congrArg some (assignAll_unobserved t level _)
  · rfl

/-- Closing a child on the unobserved table. -/
lemma close_unobserved (t : Table) (c : Child) :
    c.unobserved.close t.unobserved = (c.close t).map Effect.unobserved := by
  rw [Child.close, Child.close, stack_unobserved, Child.base_unobserved]
  split <;> rfl

/-- Opening a child on the unobserved table. -/
lemma openChild_unobserved (t : Table) :
    t.unobserved.openChild =
      { answer := t.openChild.answer.unobserved
        table := t.openChild.table.unobserved
        trace := [] } :=
  rfl

/-- What is shown of the unobserved table is what is shown of the table, except for contexts. -/
theorem answer?_unobserved (t : Table) (c? : Option Child) (q : Query) :
    q.answer? (c?.map Child.unobserved) t.unobserved =
      (q.answer? c? t).map Reply.unobserved := by
  cases q <;> simp only [Query.answer?, current?, stack_unobserved, Option.map_map] <;> rfl

/-- A question that does not show a context is answered without one. -/
lemma unobserved_of_answer? {t : Table} {c? : Option Child} {q : Query}
    (hq : q.showsContext = false) {r : Reply} (h : q.answer? c? t = some r) : r.unobserved = r := by
  cases q <;> simp_all [Query.answer?, Query.showsContext] <;> grind [Reply.unobserved]

/-! ## Only a table that logs emits events -/

/-- The context stays as it is, and if it is silent, nothing is emitted. -/
def Reports (t : Table) (trace : List Emission) (t' : Table) : Prop :=
  t'.context = t.context ∧ (t.context.tracer = .silent → trace = [])

/-- Where nothing happens, nothing is emitted. -/
lemma reports_refl (t : Table) : Reports t [] t :=
  ⟨rfl, fun _ => rfl⟩

/-- An event that goes through the context is emitted only if the context logs. -/
lemma reports_emit (t : Table) (event : Event) (level : Nat) {t' : Table}
    (h : t'.context = t.context) : Reports t (t.context.emit event level) t' :=
  ⟨h, fun hsilent => emit_of_silent hsilent event level⟩

/-- A table that emits an event logs. -/
lemma Reports.tracer_eq_log {t t' : Table} {trace : List Emission} (h : Reports t trace t')
    {e : Emission} (he : e ∈ trace) : t.context.tracer = .log := by
  cases htracer : t.context.tracer with
  | silent =>
    rw [h.2 htracer] at he
    exact absurd he List.not_mem_nil
  | log => rfl

/-- Declarations go through the context. -/
lemma reports_insertAll (t : Table) (bs : List Binding) : Follows Reports t (t.insertAll bs) := by
  cases hstack : t.stack with
  | nil =>
    cases bs with
    | nil => exact reports_refl t
    | cons b bs =>
      have hnone : t.insertAll (b :: bs) = none := by simp only [insertAll, insert, hstack]
      rw [hnone]
      exact reports_refl t
  | cons f outer =>
    rw [insertAll_of_stack_eq_cons hstack]
    refine ⟨rfl, fun hsilent => ?_⟩
    exact List.flatMap_eq_nil_iff.2 fun b _ => emit_of_silent hsilent _ _

/-- A miss goes through the context. -/
lemma reports_miss (t : Table) (name : String) :
    Follows Reports t (t.miss name : Option (Effect (Except Refusal α))) := by
  rw [miss]
  split
  · exact reports_refl t
  · exact reports_emit t _ _ rfl

/-- Overwriting a value goes through the context. -/
lemma reports_assign (t : Table) (name value : String) :
    Follows Reports t (t.assign name value) := by
  rw [assign]
  split
  · exact reports_miss t name
  · exact reports_emit t _ _ rfl

/-- A removal goes through the context. -/
lemma reports_erase (t : Table) (name : String) : Follows Reports t (t.erase name) := by
  rw [erase]
  split
  · exact reports_refl t
  · split
    · exact reports_miss t name
    · exact reports_emit t _ _ rfl

/-- Leaving a scope goes through the context. -/
lemma reports_exit (t : Table) : Follows Reports t t.exit := by
  rw [exit]
  split
  · exact reports_refl t
  · split
    · exact reports_refl t
    · exact reports_emit t _ _ rfl

/-- Every value that is written back goes through the context. -/
lemma reports_assignAll (t : Table) (level : Nat) (bs : List Binding) :
    Follows Reports t (some (t.assignAll level bs)) := by
  refine ⟨context_assignAll t level bs, fun hsilent => ?_⟩
  simp only [emitted]
  induction bs generalizing t with
  | nil => rfl
  | cons b bs ih =>
    rw [assignAll]
    split
    · exact ih t hsilent
    · rename_i p _
      have hrest := ih { t with stack := t.stack.setValueAt p b.value } hsilent
      simp only [emit_of_silent hsilent, hrest, List.append_nil]

/-- Closing a child goes through the context. -/
lemma reports_close (t : Table) (c : Child) : Follows Reports t (c.close t) := by
  rw [Child.close]
  split
  · exact reports_emit t _ _ rfl
  · exact reports_refl t

/-- **Every operation keeps the context, and emits nothing if it is silent.** -/
theorem isLaw_reports : IsLaw Reports where
  rest := reports_refl
  insertAll := reports_insertAll
  assign := reports_assign
  erase := reports_erase
  enter t := reports_emit t _ _ rfl
  exit := reports_exit
  assignAll := reports_assignAll
  openChild t := reports_emit t _ _ rfl
  close := reports_close

end Table

end LexicalScope
