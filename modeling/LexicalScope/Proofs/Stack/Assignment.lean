import Mathlib.Data.List.Basic
import LexicalScope.Proofs.Stack.Positions

set_option autoImplicit false

/-!
# Assignments on a stack

Assigning to a name overwrites the value of the binding that the name refers to. A sequence of
assignments changes values of visible bindings only, so what it can do to a stack is described
by the values that names have afterwards.

## Main definitions

* `LexicalScope.Stack.assign` — overwrites the value of what a name refers to.
* `LexicalScope.Stack.assignAll` — assigns the values of a list of bindings to their names.

## Main results

* `LexicalScope.Stack.resolve_assign`, `LexicalScope.Stack.resolve_assignAll` — what names refer
  to after assignments.
* `LexicalScope.Stack.assign_append` — an assignment goes to the innermost part of a stack that
  declares the name.
* `LexicalScope.Stack.bindingAt?_assignAll` — assignments change visible bindings only.
* `LexicalScope.Stack.assignAll_ext` — two sequences of assignments to one stack that agree on
  what every name refers to leave the same stack behind.
-/

namespace LexicalScope

namespace Stack

/-! ## One assignment -/

/-- The stack with the value of the binding that `name` refers to overwritten; nothing changes
if the name refers to nothing. -/
def assign (s : Stack) (name value : String) : Stack :=
  match s.locate name with
  | some p => s.setValueAt p value
  | none => s

/-- An assignment to a name that has a position writes there. -/
lemma assign_of_locate {s : Stack} {name : String} {p : Position} (h : s.locate name = some p)
    (v : String) : s.assign name v = s.setValueAt p v := by
  rw [assign, h]

/-- An assignment to a name that refers to nothing changes nothing. -/
lemma assign_of_resolve_eq_none {s : Stack} {name : String} (h : s.resolve name = none)
    (v : String) : s.assign name v = s := by
  rw [assign, (s.locate_eq_none_iff name).2 h]

/-- An assignment keeps the shape. -/
@[simp] lemma shape_assign (s : Stack) (name v : String) : (s.assign name v).shape = s.shape := by
  unfold assign
  split
  · exact shape_setValueAt s _ v
  · rfl

/-- An assignment keeps the number of frames. -/
@[simp] lemma length_assign (s : Stack) (name v : String) :
    (s.assign name v).length = s.length :=
  length_eq_of_shape (shape_assign s name v)

/-- An assignment to a single frame leaves a single frame. -/
lemma exists_assign_singleton (f : Frame) (name v : String) : ∃ g, assign [f] name v = [g] := by
  apply List.length_eq_one_iff.1
  rw [length_assign, List.length_singleton]

/-- In a single frame a name refers to the first binding of the name. -/
lemma resolve_singleton (f : Frame) (name : String) : resolve [f] name = f.find? name := by
  rw [resolve_cons, resolve_nil, Option.or_none]

/-- What a name refers to stands at the position of the name. -/
lemma resolve_eq_bind (s : Stack) (name : String) :
    s.resolve name = (s.locate name).bind s.bindingAt? := by
  cases h : s.locate name with
  | none => rw [(s.locate_eq_none_iff name).1 h, Option.bind_none]
  | some p => rw [Option.bind_some, bindingAt?_of_locate h]

/-- What a name refers to has that name. -/
lemma name_of_resolve {s : Stack} {name : String} {b : Binding} (h : s.resolve name = some b) :
    b.name = name := by
  obtain ⟨f, -, hf⟩ := List.exists_of_findSome?_eq_some h
  exact Frame.name_of_find? hf

/-- Different names have different positions. -/
lemma eq_of_locate {s : Stack} {name other : String} {p : Position}
    (h : s.locate name = some p) (h' : s.locate other = some p) : name = other := by
  obtain ⟨b, hb⟩ := exists_resolve_of_locate h
  have hb' : s.resolve other = some b := by
    rw [← bindingAt?_of_locate h', bindingAt?_of_locate h, hb]
  rw [← name_of_resolve hb, name_of_resolve hb']

/-- **What names refer to after an assignment**: the name itself to its binding with the new
value, every other name to what it referred to before.

**Proof sketch.** All names keep their positions, since the shape is kept. Only the binding at
the position of the assigned name is written, and no other name has that position. -/
theorem resolve_assign (s : Stack) (name other v : String) :
    (s.assign name v).resolve other =
      if other = name then (s.resolve name).map fun b => b.setValue v else s.resolve other := by
  cases hn : s.locate name with
  | none =>
    have hnone := (s.locate_eq_none_iff name).1 hn
    rw [assign_of_resolve_eq_none hnone]
    split
    · rename_i heq
      rw [heq, hnone, Option.map_none]
    · rfl
  | some p =>
    have hloc : (s.setValueAt p v).locate other = s.locate other :=
      locate_congr (shape_setValueAt s p v) other
    rw [assign_of_locate hn, resolve_eq_bind, hloc]
    by_cases heq : other = name
    · rw [if_pos heq, heq, hn, Option.bind_some, bindingAt?_setValueAt, if_pos rfl,
        bindingAt?_of_locate hn]
    · rw [if_neg heq, resolve_eq_bind]
      cases ho : s.locate other with
      | none => rfl
      | some q =>
        have hqp : q ≠ p := by
          intro h
          exact heq (eq_of_locate (h ▸ ho) hn)
        rw [Option.bind_some, Option.bind_some, bindingAt?_setValueAt, if_neg hqp]

/-- A frame that declares the name receives the assignment. -/
lemma assign_cons_of_index? {f : Frame} {name : String} {i : Nat} (h : f.index? name = some i)
    (s : Stack) (v : String) : assign (f :: s) name v = f.setValueAt i v :: s := by
  have hloc : locate (f :: s) name = some ⟨s.length, i⟩ := by
    rw [locate, h]
  rw [assign_of_locate hloc, setValueAt, if_pos rfl]

/-- A frame that does not declare the name leaves the assignment to the outer frames. -/
lemma assign_cons_of_index?_eq_none {f : Frame} {name : String} (h : f.index? name = none)
    (s : Stack) (v : String) : assign (f :: s) name v = f :: assign s name v := by
  have hloc : locate (f :: s) name = locate s name := by
    rw [locate, h]
  cases hs : locate s name with
  | none => rw [assign, hloc, hs, assign, hs]
  | some p =>
    have hp := depth_lt_of_locate hs
    rw [assign_of_locate (hloc.trans hs), assign_of_locate hs, setValueAt, if_neg (by omega)]

/-- An assignment goes to the innermost part of a stack that declares the name. -/
theorem assign_append (s u : Stack) (name v : String) :
    assign (s ++ u) name v =
      if (s.resolve name).isSome then s.assign name v ++ u else s ++ u.assign name v := by
  induction s with
  | nil => simp
  | cons f s ih =>
    rw [List.cons_append, resolve_cons, Option.isSome_or, ← f.isSome_index? name]
    cases hf : f.index? name with
    | some i =>
      rw [assign_cons_of_index? hf, assign_cons_of_index? hf]
      simp
    | none =>
      rw [assign_cons_of_index?_eq_none hf, assign_cons_of_index?_eq_none hf, ih]
      split <;> simp_all

/-! ## Sequences of assignments -/

/-- The stack after assigning the value of each of `bs`, in order, to its name. -/
def assignAll (s : Stack) (bs : List Binding) : Stack :=
  bs.foldl (fun s b => s.assign b.name b.value) s

/-- Without bindings nothing is assigned. -/
@[simp] lemma assignAll_nil (s : Stack) : s.assignAll [] = s := rfl

/-- The first binding is assigned first. -/
@[simp] lemma assignAll_cons (s : Stack) (b : Binding) (bs : List Binding) :
    s.assignAll (b :: bs) = (s.assign b.name b.value).assignAll bs := rfl

/-- Assignments are made one part after the other. -/
lemma assignAll_append (s : Stack) (bs cs : List Binding) :
    s.assignAll (bs ++ cs) = (s.assignAll bs).assignAll cs :=
  List.foldl_append

/-- Assignments keep the shape. -/
@[simp] theorem shape_assignAll (s : Stack) (bs : List Binding) :
    (s.assignAll bs).shape = s.shape := by
  induction bs generalizing s with
  | nil => rfl
  | cons b bs ih => rw [assignAll_cons, ih, shape_assign]

/-- Assignments keep the number of frames. -/
@[simp] lemma length_assignAll (s : Stack) (bs : List Binding) :
    (s.assignAll bs).length = s.length :=
  length_eq_of_shape (shape_assignAll s bs)

/-- Assignments leave every name at its position. -/
lemma locate_assignAll (s : Stack) (bs : List Binding) (name : String) :
    (s.assignAll bs).locate name = s.locate name :=
  locate_congr (shape_assignAll s bs) name

/-- **What names refer to after assignments** to different names: a name that is among them
refers to its binding with the assigned value, every other name to what it referred to
before. -/
theorem resolve_assignAll (s : Stack) {bs : List Binding}
    (hbs : bs.Pairwise fun b c => b.name ≠ c.name) (name : String) :
    (s.assignAll bs).resolve name =
      (s.resolve name).map fun b =>
        (bs.find? fun c => c.name == name).elim b fun c => b.setValue c.value := by
  induction bs generalizing s with
  | nil => simp
  | cons b bs ih =>
    obtain ⟨hb, hbs⟩ := List.pairwise_cons.1 hbs
    rw [assignAll_cons, ih _ hbs, resolve_assign]
    by_cases heq : name = b.name
    · subst heq
      -- the first assignment to the name is the only one
      have hnone : (bs.find? fun c => c.name == b.name) = none := by
        rw [List.find?_eq_none]
        intro c hc
        simpa using (hb c hc).symm
      rw [hnone, List.find?_cons_of_pos (by simp), if_pos rfl, Option.map_map]
      rfl
    · rw [if_neg heq, List.find?_cons_of_neg (by simpa using Ne.symm heq)]

/-- Assignments change the binding at a position only if its name refers to it. -/
theorem bindingAt?_assignAll (s : Stack) (bs : List Binding) (p : Position) :
    (s.assignAll bs).bindingAt? p = s.bindingAt? p ∨
      ∃ name, s.locate name = some p := by
  induction bs generalizing s with
  | nil => exact Or.inl rfl
  | cons b bs ih =>
    rw [assignAll_cons]
    rcases ih (s.assign b.name b.value) with h | ⟨name, h⟩
    · rw [h]
      cases hb : s.locate b.name with
      | none => exact Or.inl (by rw [assign, hb])
      | some q =>
        rw [assign_of_locate hb, bindingAt?_setValueAt]
        by_cases hpq : p = q
        · exact Or.inr ⟨b.name, hpq ▸ hb⟩
        · exact Or.inl (if_neg hpq)
    · exact Or.inr ⟨name, by rwa [locate_congr (shape_assign s b.name b.value)] at h⟩

/-- Two sequences of assignments to one stack that agree on what every name refers to leave the
same stack behind.

**Proof sketch.** Both results have the shape of the stack, so names have the same positions in
them. At the position of a name stands what the name refers to, which is the same in both. At
every other position both hold what the stack held. -/
theorem assignAll_ext {s : Stack} {bs cs : List Binding}
    (h : ∀ name, (s.assignAll bs).resolve name = (s.assignAll cs).resolve name) :
    s.assignAll bs = s.assignAll cs := by
  apply ext_of_shape
  · rw [shape_assignAll, shape_assignAll]
  · intro p
    by_cases hp : ∃ name, s.locate name = some p
    · obtain ⟨name, hname⟩ := hp
      have hb : (s.assignAll bs).locate name = some p := by rw [locate_assignAll, hname]
      have hc : (s.assignAll cs).locate name = some p := by rw [locate_assignAll, hname]
      rw [bindingAt?_of_locate hb, bindingAt?_of_locate hc, h]
    · rw [(bindingAt?_assignAll s bs p).resolve_right hp,
        (bindingAt?_assignAll s cs p).resolve_right hp]

end Stack

end LexicalScope
