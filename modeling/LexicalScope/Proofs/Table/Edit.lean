import Mathlib.Data.List.Basic
import LexicalScope.Session.Step
import LexicalScope.Proofs.Table.Transfer

set_option autoImplicit false

/-!
# Tables after an operation

An operation on a table answers, leaves a table behind and emits events, or it is not carried
out. Here the table afterwards and the reply are of interest, and each operation that changes one
table is described by one equation for either. An operation that is refused, or not carried out,
leaves the table as it was.

## Main definitions

* `LexicalScope.Table.afterwards` — the table after an operation.
* `LexicalScope.Table.edited` — the table after an edit.
* `LexicalScope.Table.replyOf`, `LexicalScope.Table.replyTo` — the reply to an operation, and to
  an edit.
* `LexicalScope.Frame.extend` — the frame with several bindings declared after all others.

## Main results

* `LexicalScope.Table.afterwards_insertAll`, `LexicalScope.Table.edited_insert` — declarations
  extend the current frame.
* `LexicalScope.Table.edited_assign`, `LexicalScope.Table.edited_erase`,
  `LexicalScope.Table.edited_enter`, `LexicalScope.Table.edited_exit` — the other edits.
* `LexicalScope.Table.replyTo_assign`, `LexicalScope.Table.replyTo_erase`,
  `LexicalScope.Table.replyTo_exit` — the replies to edits that may be refused.
-/

namespace LexicalScope

/-- The frame with `bs` declared, in order, after all others. -/
def Frame.extend (f : Frame) (bs : List Binding) : Frame :=
  { f with bindings := f.bindings ++ bs }

namespace Table

/-- The table after an operation: what the operation leaves behind, or the table itself if the
operation is not carried out. -/
def afterwards {α : Type} (t : Table) : Option (Effect α) → Table
  | none => t
  | some e => e.table

/-- An operation that is not carried out leaves the table as it was. -/
@[simp] lemma afterwards_none {α : Type} (t : Table) :
    t.afterwards (none : Option (Effect α)) = t := rfl

/-- An operation that is carried out leaves its table behind. -/
@[simp] lemma afterwards_some {α : Type} (t : Table) (e : Effect α) :
    t.afterwards (some e) = e.table := rfl

/-- The table after an edit. -/
def edited (t : Table) : Edit → Table
  | .insert name typeTag value => t.afterwards (t.insert name typeTag value)
  | .assign name value => t.afterwards (t.assign name value)
  | .erase name => t.afterwards (t.erase name)
  | .enter => t.enter.table
  | .exit => t.afterwards t.exit

/-- A miss changes nothing. -/
@[simp] lemma afterwards_miss {α : Type} (t : Table) (name : String) :
    t.afterwards (t.miss name : Option (Effect (Except Refusal α))) = t := by
  unfold miss
  split <;> rfl

/-- Copies extend the current frame, stamped with its level. -/
theorem afterwards_insertAll {t : Table} {f : Frame} {outer : Stack}
    (h : t.stack = f :: outer) (bs : List Binding) :
    t.afterwards (t.insertAll bs) =
      { t with stack := f.extend (bs.map fun b => b.atLevel outer.length) :: outer } := by
  rw [insertAll_of_stack_eq_cons h, afterwards_some]
  rfl

/-- A declaration extends the current frame by one binding. -/
theorem edited_insert {t : Table} {f : Frame} {outer : Stack} (h : t.stack = f :: outer)
    (name typeTag value : String) :
    t.edited (.insert name typeTag value) =
      { t with stack := f.extend [⟨name, typeTag, value, outer.length⟩] :: outer } := by
  simp only [edited, insert, h, afterwards_some]
  rfl

/-- Overwriting a value is an assignment on the stack, whether the name refers to something or
not. -/
theorem edited_assign (t : Table) (name value : String) :
    t.edited (.assign name value) = { t with stack := t.stack.assign name value } := by
  rw [edited]
  cases h : t.stack.locate name with
  | none =>
    have hnone : t.resolve name = none := (t.stack.locate_eq_none_iff name).1 h
    rw [assign_of_resolve_eq_none value hnone, afterwards_miss,
      Stack.assign_of_resolve_eq_none hnone]
  | some p => rw [assign_eq h, afterwards_some]

/-- Removing a name erases it from the current frame, whether the frame declares it or not. -/
theorem edited_erase {t : Table} {f : Frame} {outer : Stack} (h : t.stack = f :: outer)
    (name : String) :
    t.edited (.erase name) = { t with stack := f.erase name :: outer } := by
  simp only [edited, erase, h]
  cases hf : f.find? name with
  | none =>
    have hnot : ∀ b ∈ f.bindings, ¬ (b.name == name) = true := by
      rw [Frame.find?, List.find?_eq_none] at hf
      exact hf
    have herase : f.erase name = f := by
      rw [Frame.erase, List.eraseP_of_forall_not hnot]
    rw [afterwards_miss, herase, ← h]
  | some b => rfl

/-- Entering a scope adds an empty frame. -/
theorem edited_enter (t : Table) :
    t.edited .enter = { t with stack := Frame.empty t.stack.length :: t.stack } := rfl

/-- Leaving a scope takes the current frame away, unless it stands at the floor. -/
theorem edited_exit {t : Table} {f : Frame} {outer : Stack} (h : t.stack = f :: outer) :
    t.edited .exit = if outer.length ≤ t.floor then t else { t with stack := outer } := by
  simp only [edited, exit, h]
  split <;> rfl

/-- The level of a table is the number of frames outside of the current one. -/
lemma level_of_cons {t : Table} {f : Frame} {outer : Stack} (h : t.stack = f :: outer) :
    t.level = outer.length := by
  rw [level, h, List.length_cons, Nat.add_sub_cancel]

/-! ## Replies -/

/-- The reply to an operation: what it answers, or that it is not carried out. -/
def replyOf {α : Type} (reply : α → Reply) : Option (Effect α) → Reply
  | none => .outOfRange
  | some e => reply e.answer

/-- The reply to an edit. -/
def replyTo (t : Table) : Edit → Reply
  | .insert name typeTag value => replyOf (fun _ => .done) (t.insert name typeTag value)
  | .assign name value => replyOf (.ofExcept fun _ => .done) (t.assign name value)
  | .erase name => replyOf (.ofExcept .removed) (t.erase name)
  | .enter => .done
  | .exit => replyOf (.ofExcept fun _ => .done) t.exit

section

variable {t : Table} {f : Frame} {outer : Stack}

/-- A miss is refused, and the refusal names what was not found. -/
lemma replyOf_miss (h : t.stack = f :: outer) {α : Type} (reply : α → Reply) (name : String) :
    replyOf (.ofExcept reply) (t.miss name) = .refused (.unbound name) := by
  simp only [miss, h]
  rfl

/-- A declaration is never refused. -/
lemma replyTo_insert (h : t.stack = f :: outer) (name typeTag value : String) :
    t.replyTo (.insert name typeTag value) = .done := by
  simp only [replyTo, insert, h]
  rfl

/-- Overwriting a value is refused exactly if the name refers to nothing. -/
theorem replyTo_assign (h : t.stack = f :: outer) (name value : String) :
    t.replyTo (.assign name value) =
      if (t.resolve name).isSome then .done else .refused (.unbound name) := by
  rw [replyTo, resolve, ← Stack.isSome_locate]
  cases hloc : t.stack.locate name with
  | none =>
    have hnone : t.resolve name = none := (t.stack.locate_eq_none_iff name).1 hloc
    rw [assign_of_resolve_eq_none value hnone, replyOf_miss h]
    rfl
  | some p =>
    rw [assign_eq hloc]
    rfl

/-- Removing a name answers the first binding of the name in the current frame, and is refused
exactly if there is none. -/
theorem replyTo_erase (h : t.stack = f :: outer) (name : String) :
    t.replyTo (.erase name) =
      (f.find? name).elim (.refused (.unbound name)) .removed := by
  simp only [replyTo, erase, h]
  cases f.find? name with
  | none => exact replyOf_miss h _ name
  | some b => rfl

/-- Leaving a scope is refused exactly at the floor. -/
theorem replyTo_exit (h : t.stack = f :: outer) :
    t.replyTo .exit = if outer.length ≤ t.floor then .refused .atFloor else .done := by
  simp only [replyTo, exit, h]
  split <;> rfl

/-- Every edit of a table that has a current frame is carried out or refused. -/
theorem replyTo_ne_outOfRange (h : t.stack = f :: outer) (e : Edit) :
    t.replyTo e ≠ .outOfRange := by
  cases e with
  | insert name typeTag value => simp [replyTo_insert h]
  | assign name value =>
    rw [replyTo_assign h]
    split <;> simp
  | erase name =>
    rw [replyTo_erase h]
    cases f.find? name <;> simp
  | enter => simp [replyTo]
  | exit =>
    rw [replyTo_exit h]
    split <;> simp

end

end Table

end LexicalScope
