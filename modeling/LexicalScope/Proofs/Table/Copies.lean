import Mathlib.Data.List.Basic
import LexicalScope.Proofs.Stack.Names
import LexicalScope.Proofs.Table.Edit

set_option autoImplicit false

/-!
# Frames with copies

A copy declares the bindings of a whole stack in one frame, in the order in which resolution meets
them. So the first match in the frame is what the name refers to in the stack, however the bindings
of the name are distributed over its frames.

## Main definitions

* `LexicalScope.Frame.bindingsOf` — the bindings of a name in a frame.
* `LexicalScope.Stack.copies` — the bindings of a stack as they are declared at a level.

## Main results

* `LexicalScope.Stack.find?_copies` — the first copy of a name is that of what it refers to.
* `LexicalScope.Stack.resolve_extend_copies` — what names refer to after a copy.
* `LexicalScope.Table.copyInto_of_stack_eq_cons`, `LexicalScope.Table.seed_of_stack_eq_cons` — a
  copy, and seeding, extend the current frame.
-/

namespace LexicalScope

/-- What passes a test after the first entry that passes it is removed. -/
lemma filter_eraseP {α : Type} (test : α → Bool) (xs : List α) :
    (xs.eraseP test).filter test = (xs.filter test).tail := by
  induction xs with
  | nil => rfl
  | cons x xs ih =>
    cases hx : test x with
    | true => rw [List.eraseP_cons_of_pos hx, List.filter_cons_of_pos hx, List.tail_cons]
    | false =>
      have hnot : ¬ test x = true := by simp [hx]
      rw [List.eraseP_cons_of_neg hnot, List.filter_cons_of_neg hnot,
        List.filter_cons_of_neg hnot, ih]

namespace Frame

/-- What is found in an extended frame was found in the frame, or else among the new bindings. -/
lemma find?_extend (f : Frame) (bs : List Binding) (name : String) :
    (f.extend bs).find? name = (f.find? name).or (bs.find? fun b => b.name == name) := by
  rw [find?, extend, List.find?_append, find?]

/-- The bindings of a name in the frame, in order. -/
def bindingsOf (f : Frame) (name : String) : List Binding :=
  f.bindings.filter fun b => b.name == name

/-- What is found under a name is the first of its bindings. -/
lemma head?_bindingsOf (f : Frame) (name : String) : (f.bindingsOf name).head? = f.find? name :=
  List.head?_filter

/-- Removing a name removes the first of its bindings. -/
lemma bindingsOf_erase (f : Frame) (name : String) :
    (f.erase name).bindingsOf name = (f.bindingsOf name).tail :=
  filter_eraseP _ f.bindings

end Frame

namespace Stack

/-- The bindings of a stack in the order in which resolution meets them, as they are declared at
`level`. -/
def copies (s : Stack) (level : Nat) : List Binding :=
  s.scan.map fun b => b.atLevel level

/-- There is one copy for each binding. -/
lemma length_copies (s : Stack) (level : Nat) : (s.copies level).length = s.size := by
  rw [copies, List.length_map, length_scan]

/-- The copies carry the level that they are declared at. -/
lemma scopeLevel_of_mem_copies {s : Stack} {level : Nat} {b : Binding} (h : b ∈ s.copies level) :
    b.scopeLevel = level := by
  obtain ⟨c, -, rfl⟩ := List.mem_map.1 h
  rfl

/-- The bindings of a name in a frame that is extended by copies. -/
lemma bindingsOf_extend_copies (f : Frame) (s : Stack) (level : Nat) (name : String) :
    (f.extend (s.copies level)).bindingsOf name =
      f.bindingsOf name ++
        (s.scan.filter fun b => b.name == name).map fun b => b.atLevel level := by
  rw [Frame.bindingsOf, Frame.extend, List.filter_append, copies, List.filter_map]
  rfl

/-- The first copy of a name is that of the binding that the name refers to. -/
theorem find?_copies (s : Stack) (level : Nat) (name : String) :
    ((s.copies level).find? fun b => b.name == name) =
      (s.resolve name).map fun b => b.atLevel level := by
  rw [copies, List.find?_map, resolve_eq_find?_scan]
  rfl

/-- **What names refer to after a copy.** A name that the current frame declared refers to what it
did. Any other name refers to the copy of what it refers to in the source; if it refers to nothing
there, it refers to what it did. -/
theorem resolve_extend_copies (f : Frame) (outer source : Stack) (level : Nat) (name : String) :
    resolve (f.extend (source.copies level) :: outer) name =
      if (f.find? name).isSome then resolve (f :: outer) name
      else ((source.resolve name).map fun b => b.atLevel level).or (resolve (f :: outer) name) := by
  rw [resolve_cons, resolve_cons, Frame.find?_extend, find?_copies]
  cases f.find? name with
  | none => rfl
  | some b => rfl

end Stack

/-- A copy extends the current frame of the receiver by the copies of the source, and reports each
at the level of the receiver. -/
theorem Table.copyInto_of_stack_eq_cons (source : Table) {receiver : Table} {f : Frame}
    {outer : Stack} (h : receiver.stack = f :: outer) :
    source.copyInto receiver =
      some
        { answer := ()
          table := { receiver with stack := f.extend (source.stack.copies receiver.level) :: outer }
          trace := source.stack.scan.flatMap fun b =>
            receiver.context.emit (.declared b.name) receiver.level } := by
  rw [copyInto, insertAll_of_stack_eq_cons h, ← level_of_cons h]
  rfl

/-- Seeding across a level extends the current frame by the copies of what lies outside, and reports
each at the level of the table. -/
theorem Table.seed_of_stack_eq_cons {t : Table} {f : Frame} {outer : Stack} {level : Nat}
    (hlevel : level ≤ t.stack.length) (h : t.stack = f :: outer) :
    t.seed level =
      some
        { answer := ()
          table := { t with stack := f.extend ((t.stack.outside level).copies t.level) :: outer }
          trace := (t.stack.outside level).scan.flatMap fun b =>
            t.context.emit (.declared b.name) t.level } := by
  rw [seed, if_pos hlevel, insertAll_of_stack_eq_cons h, ← level_of_cons h]
  rfl

end LexicalScope
