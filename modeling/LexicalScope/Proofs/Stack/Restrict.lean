import Mathlib.Data.List.Basic
import LexicalScope.Proofs.Stack.First
import LexicalScope.Proofs.Stack.Names

set_option autoImplicit false

/-!
# One name of a stack

The *restriction* of a stack to a name keeps, in every frame, the bindings of that name in their
order, and forgets all others. What is done under other names is not seen in it, and what is done
under the name can be done on the restriction itself, although the bindings of the name stand at
other places there.

## Main definitions

* `LexicalScope.Frame.restrict`, `LexicalScope.Stack.restrict` — a frame and a stack with the
  bindings of one name only.

## Main results

* `LexicalScope.Stack.resolve_restrict` — the name refers to the same binding.
* `LexicalScope.Stack.restrict_assign`, `LexicalScope.Stack.restrict_assign_of_ne`,
  `LexicalScope.Stack.restrict_assignAll` — assignments to the name are made in the restriction,
  those to other names are not seen there.
* `LexicalScope.Stack.scan_restrict`, `LexicalScope.Stack.visible_restrict` — what is copied and
  what is written back.
-/

namespace LexicalScope

/-- Removing the first entry that passes one test is not seen among those that pass another one, if
none passes both. -/
lemma filter_eraseP_of_disjoint {α : Type} {test keep : α → Bool}
    (h : ∀ x, test x = true → keep x = false) (xs : List α) :
    (xs.eraseP test).filter keep = xs.filter keep := by
  induction xs with
  | nil => rfl
  | cons x xs ih =>
    cases hx : test x with
    | true => rw [List.eraseP_cons_of_pos hx, List.filter_cons_of_neg (by simp [h x hx])]
    | false =>
      rw [List.eraseP_cons_of_neg (by simp [hx]), List.filter_cons, List.filter_cons, ih]

variable {name other : String}

/-! ## Frames -/

namespace Frame

/-- The frame with the bindings of `name` only. -/
def restrict (name : String) (f : Frame) : Frame :=
  { f with bindings := f.bindings.filter fun b => b.name == name }

/-- The restricted frame keeps its level. -/
@[simp] lemma level_restrict (f : Frame) : (f.restrict name).level = f.level := rfl

/-- The restricted frame has the bindings of the name. -/
@[simp] lemma bindings_restrict (f : Frame) :
    (f.restrict name).bindings = f.bindings.filter fun b => b.name == name := rfl

/-- There is nothing to leave out of an empty frame. -/
@[simp] lemma restrict_empty (level : Nat) : (empty level).restrict name = empty level := rfl

/-- The name finds in the restricted frame what it finds in the frame. -/
@[simp] lemma find?_restrict (f : Frame) : (f.restrict name).find? name = f.find? name := by
  simp only [find?, bindings_restrict, List.find?_filter, and_self, Bool.decide_eq_true]

/-- Removing the first binding of the name is seen in the restriction. -/
lemma restrict_erase (f : Frame) : (f.erase name).restrict name = (f.restrict name).erase name := by
  simp only [restrict, erase, List.eraseP_filter, Bool.and_self]

/-- Removing a binding of another name is not seen. -/
lemma restrict_erase_of_ne (f : Frame) (h : other ≠ name) :
    (f.erase other).restrict name = f.restrict name := by
  have hnot : ∀ b : Binding, (b.name == other) = true → (b.name == name) = false := by
    intro b hb
    rw [beq_iff_eq] at hb
    simpa [hb] using h
  simp only [restrict, erase, filter_eraseP_of_disjoint hnot]

end Frame

/-! ## Stacks -/

namespace Stack

/-- The stack with the bindings of `name` only. -/
def restrict (name : String) (s : Stack) : Stack :=
  s.map (Frame.restrict name)

/-- There is nothing to leave out where there are no frames. -/
@[simp] lemma restrict_nil : restrict name [] = [] := rfl

/-- A stack is restricted frame by frame. -/
@[simp] lemma restrict_cons (f : Frame) (s : Stack) :
    restrict name (f :: s) = f.restrict name :: s.restrict name := rfl

/-- The restricted stack has as many frames as the stack. -/
@[simp] lemma length_restrict (s : Stack) : (s.restrict name).length = s.length :=
  List.length_map _

/-- A stack is restricted part by part. -/
lemma restrict_append (s u : Stack) : restrict name (s ++ u) = s.restrict name ++ u.restrict name :=
  List.map_append

/-- What lies outside of a level of the restricted stack is the restriction of what lies outside. -/
@[simp] lemma outside_restrict (s : Stack) (level : Nat) :
    (s.restrict name).outside level = (s.outside level).restrict name := by
  rw [outside, length_restrict, restrict, ← List.map_drop, outside, restrict]

/-- What lies inside of a level of the restricted stack is the restriction of what lies inside. -/
@[simp] lemma inside_restrict (s : Stack) (level : Nat) :
    (s.restrict name).inside level = (s.inside level).restrict name := by
  rw [inside, length_restrict, restrict, ← List.map_take, inside, restrict]

/-- The name refers to the same binding. -/
@[simp] theorem resolve_restrict (s : Stack) : (s.restrict name).resolve name = s.resolve name := by
  induction s with
  | nil => rfl
  | cons f s ih => rw [restrict_cons, resolve_cons, resolve_cons, Frame.find?_restrict, ih]

/-! ## Assignments -/

/-- **An assignment to the name is made in the restriction.**

**Proof sketch.** Induction on the stack. A frame declares the name exactly if its restriction
does, so both assignments stop at the same frame, and they overwrite the first binding of the name
there. -/
theorem restrict_assign (s : Stack) (v : String) :
    (s.assign name v).restrict name = (s.restrict name).assign name v := by
  induction s with
  | nil => rfl
  | cons f s ih =>
    rw [restrict_cons, assign_cons, assign_cons, Frame.find?_restrict]
    split
    · rw [restrict_cons, Frame.restrict, Frame.bindings_restrict,
        setFirst_filter _ (fun _ h => h) fun _ _ => rfl]
      rfl
    · rw [restrict_cons, ih]

/-- An assignment to another name is not seen. -/
theorem restrict_assign_of_ne (s : Stack) (h : other ≠ name) (v : String) :
    (s.assign other v).restrict name = s.restrict name := by
  induction s with
  | nil => rfl
  | cons f s ih =>
    have htest : ∀ b : Binding, (b.name == other) = true → (b.name == name) = false := by
      intro b hb
      rw [beq_iff_eq] at hb
      simpa [hb] using h
    rw [assign_cons]
    split
    · rw [restrict_cons, Frame.restrict, filter_setFirst_of_disjoint _ htest fun _ _ => rfl]
      rfl
    · rw [restrict_cons, ih, restrict_cons]

/-- Of a sequence of assignments, those to the name are made in the restriction. -/
theorem restrict_assignAll (s : Stack) (bs : List Binding) :
    (s.assignAll bs).restrict name =
      (s.restrict name).assignAll (bs.filter fun b => b.name == name) := by
  induction bs generalizing s with
  | nil => rfl
  | cons b bs ih =>
    rw [assignAll_cons, ih]
    by_cases hb : b.name = name
    · subst hb
      rw [List.filter_cons_of_pos (by simp), assignAll_cons, restrict_assign]
    · rw [List.filter_cons_of_neg (by simpa using hb), restrict_assign_of_ne s hb]

/-! ## What crosses a border -/

/-- The scan of the restriction consists of the bindings of the name in the scan. -/
theorem scan_restrict (s : Stack) :
    (s.restrict name).scan = s.scan.filter fun b => b.name == name := by
  induction s with
  | nil => rfl
  | cons f s ih =>
    rw [restrict_cons, scan_cons, scan_cons, List.filter_append, ih, Frame.bindings_restrict]

/-- Taking the first binding of each name and the bindings of one name go in either order. -/
lemma firstOfEachName_filter (bs : List Binding) :
    firstOfEachName (bs.filter fun b => b.name == name) =
      (firstOfEachName bs).filter fun b => b.name == name := by
  induction bs with
  | nil => rfl
  | cons b bs ih =>
    rw [firstOfEachName]
    by_cases hb : b.name = name
    · rw [List.filter_cons_of_pos (by simpa using hb), List.filter_cons_of_pos (by simpa using hb),
        firstOfEachName, ih, List.filter_comm]
    · rw [List.filter_cons_of_neg (by simpa using hb), List.filter_cons_of_neg (by simpa using hb),
        ih, List.filter_filter]
      -- a binding of the name has another name than `b`, so it is not left out on account of `b`
      apply List.filter_congr
      intro c _
      by_cases hc : c.name = name
      · simp [hc, Ne.symm hb]
      · simp [hc]

/-- What is visible in the restriction is what is visible under the name. -/
theorem visible_restrict (s : Stack) :
    (s.restrict name).visible = s.visible.filter fun b => b.name == name := by
  rw [visible, scan_restrict, firstOfEachName_filter, visible]

end Stack

end LexicalScope
