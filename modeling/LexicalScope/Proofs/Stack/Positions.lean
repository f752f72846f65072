import Mathlib.Data.List.Basic
import LexicalScope.Stack

set_option autoImplicit false

/-!
# Positions in a stack

A position names a binding by the depth of its frame and its index there. The *shape* of a
stack is what remains when all values are forgotten: frames, levels, names, types and order.
Where a name is found depends on the shape alone, so writing values moves nothing.

## Main definitions

* `LexicalScope.Stack.bindingAt?` — the binding at a position.
* `LexicalScope.Stack.shape` — the stack with all values blanked.

## Main results

* `LexicalScope.Stack.bindingAt?_of_locate` — the binding at the position of a name is the one
  that the name refers to.
* `LexicalScope.Stack.locate_shape`, `LexicalScope.Stack.resolve_shape` — the position of a name
  depends on the shape alone, and so does what it refers to, up to its value.
* `LexicalScope.Stack.bindingAt?_setValueAt`, `LexicalScope.Stack.shape_setValueAt` — a write
  at a position changes the value there and nothing else.
* `LexicalScope.Stack.ext_of_shape` — a stack is determined by its shape and the bindings at
  its positions.
-/

namespace LexicalScope

/-! ## Shapes -/

/-- The binding with its value blanked. -/
def Binding.shape (b : Binding) : Binding :=
  b.setValue ""

/-- Bindings of one shape differ in their values only. -/
lemma Binding.setValue_eq_of_shape {b c : Binding} (h : b.shape = c.shape) (v : String) :
    b.setValue v = c.setValue v := by
  rw [← b.setValue_setValue "" v, ← c.setValue_setValue "" v]
  exact congrArg (fun d => d.setValue v) h

/-- The frame with all values blanked. -/
def Frame.shape (f : Frame) : Frame :=
  { f with bindings := f.bindings.map Binding.shape }

namespace Frame

/-- The shape of a frame carries its level. -/
@[simp] lemma level_shape (f : Frame) : f.shape.level = f.level := rfl

/-- The bindings in the shape of a frame are the shapes of its bindings. -/
@[simp] lemma bindings_shape (f : Frame) : f.shape.bindings = f.bindings.map Binding.shape := rfl

/-- The index of a name depends on the shape alone. -/
lemma index?_shape (f : Frame) (name : String) : f.shape.index? name = f.index? name := by
  simp only [index?, bindings_shape, List.findIdx?_map]
  rfl

/-- The first binding of a name in the shape is the shape of the first binding. -/
lemma find?_shape (f : Frame) (name : String) :
    f.shape.find? name = (f.find? name).map Binding.shape := by
  simp only [find?, bindings_shape, List.find?_map]
  rfl

/-- Overwriting a value keeps the shape. -/
lemma shape_setValueAt (f : Frame) (i : Nat) (v : String) :
    (f.setValueAt i v).shape = f.shape := by
  have hmap : (f.bindings.modify i fun b => b.setValue v).map Binding.shape =
      f.bindings.map Binding.shape := by
    apply List.ext_getElem?
    intro j
    simp only [List.getElem?_map, List.getElem?_modify]
    by_cases hij : i = j
    · subst hij
      cases f.bindings[i]? <;> simp [Binding.shape]
    · simp [hij]
  simp only [shape, setValueAt, hmap]

end Frame

namespace Stack

/-- The stack with all values blanked. -/
def shape (s : Stack) : Stack :=
  s.map Frame.shape

/-- The shape of no frames. -/
@[simp] lemma shape_nil : shape [] = [] := rfl

/-- The shape of the innermost frame and that of the others. -/
@[simp] lemma shape_cons (f : Frame) (s : Stack) : shape (f :: s) = f.shape :: shape s := rfl

/-- The shape of a stack is found part by part. -/
lemma shape_append (s u : Stack) : shape (s ++ u) = shape s ++ shape u :=
  List.map_append

/-- What lies outside of a level has the outside of the shape as its shape. -/
lemma shape_outside (s : Stack) (level : Nat) :
    (s.outside level).shape = s.shape.outside level := by
  rw [outside, outside, shape, shape, List.map_drop, List.length_map]

/-- The shape has as many frames as the stack. -/
@[simp] lemma length_shape (s : Stack) : s.shape.length = s.length :=
  List.length_map _

/-- Stacks of one shape have equally many frames. -/
lemma length_eq_of_shape {s u : Stack} (h : s.shape = u.shape) : s.length = u.length := by
  rw [← length_shape s, h, length_shape]

/-- The position of a name depends on the shape alone. -/
theorem locate_shape (s : Stack) (name : String) : s.shape.locate name = s.locate name := by
  induction s with
  | nil => rfl
  | cons f s ih =>
    rw [shape_cons, locate, locate, Frame.index?_shape, length_shape, ih]

/-- Stacks of one shape find every name at the same position. -/
lemma locate_congr {s u : Stack} (h : s.shape = u.shape) (name : String) :
    s.locate name = u.locate name := by
  rw [← locate_shape s, h, locate_shape]

/-- A name refers in the shape to the shape of what it refers to. -/
theorem resolve_shape (s : Stack) (name : String) :
    s.shape.resolve name = (s.resolve name).map Binding.shape := by
  induction s with
  | nil => rfl
  | cons f s ih =>
    rw [shape_cons, resolve_cons, resolve_cons, Frame.find?_shape, ih]
    cases f.find? name <;> rfl

/-- In stacks of one shape, names refer to bindings of one shape. -/
lemma exists_resolve_of_shape {s u : Stack} (h : s.shape = u.shape) {name : String} {b : Binding}
    (hb : s.resolve name = some b) : ∃ c, u.resolve name = some c ∧ c.shape = b.shape := by
  have hmap := u.resolve_shape name
  rw [← h, resolve_shape, hb, Option.map_some] at hmap
  exact Option.map_eq_some_iff.1 hmap.symm

/-! ## Positions -/

/-- The binding at a position. -/
def bindingAt? : Stack → Position → Option Binding
  | [], _ => none
  | f :: outer, p => if p.depth = outer.length then f.bindings[p.index]? else bindingAt? outer p

/-- Nothing stands where there are no frames. -/
@[simp] lemma bindingAt?_nil (p : Position) : bindingAt? [] p = none := rfl

/-- No binding stands deeper than the innermost frame. -/
lemma bindingAt?_eq_none {s : Stack} {p : Position} (h : s.length ≤ p.depth) :
    s.bindingAt? p = none := by
  induction s with
  | nil => rfl
  | cons f s ih =>
    rw [List.length_cons] at h
    rw [bindingAt?, if_neg (by omega), ih (by omega)]

/-- In the outer frames, an inner frame does not change what stands at a position. -/
lemma bindingAt?_cons_of_lt {s : Stack} {p : Position} (f : Frame) (h : p.depth < s.length) :
    bindingAt? (f :: s) p = s.bindingAt? p := by
  rw [bindingAt?, if_neg (by omega)]

/-- In the outer part of a stack, the inner part does not change what stands at a position. -/
lemma bindingAt?_append_of_lt (s : Stack) {u : Stack} {p : Position} (h : p.depth < u.length) :
    bindingAt? (s ++ u) p = u.bindingAt? p := by
  induction s with
  | nil => rfl
  | cons f s ih =>
    rw [List.cons_append, bindingAt?_cons_of_lt f (by rw [List.length_append]; omega), ih]

/-- What is in the innermost frame stands at its depth. -/
lemma bindingAt?_cons_length (f : Frame) (s : Stack) (i : Nat) :
    bindingAt? (f :: s) ⟨s.length, i⟩ = f.bindings[i]? := by
  rw [bindingAt?, if_pos rfl]

/-- A name is located in one of the frames of the stack. -/
lemma depth_lt_of_locate {s : Stack} {name : String} {p : Position}
    (h : s.locate name = some p) : p.depth < s.length := by
  induction s with
  | nil => simp [locate] at h
  | cons f s ih =>
    rw [locate] at h
    cases hf : f.index? name with
    | some i =>
      simp only [hf, Option.some.injEq] at h
      subst h
      simp
    | none =>
      simp only [hf] at h
      have := ih h
      rw [List.length_cons]
      omega

/-- The binding at the position of a name is the one that the name refers to. -/
theorem bindingAt?_of_locate {s : Stack} {name : String} {p : Position}
    (h : s.locate name = some p) : s.bindingAt? p = s.resolve name := by
  induction s with
  | nil => simp [locate] at h
  | cons f s ih =>
    rw [locate] at h
    rw [resolve_cons]
    have hsome := f.isSome_index? name
    cases hf : f.index? name with
    | some i =>
      simp only [hf, Option.some.injEq] at h
      subst h
      rw [bindingAt?_cons_length, f.getElem?_index? name hf]
      rw [hf, Option.isSome_some] at hsome
      obtain ⟨b, hb⟩ := Option.isSome_iff_exists.1 hsome.symm
      rw [hb, Option.some_or]
    | none =>
      simp only [hf] at h
      rw [hf, Option.isSome_none] at hsome
      have hnone : f.find? name = none := by simpa using hsome.symm
      rw [hnone, Option.none_or, bindingAt?_cons_of_lt f (depth_lt_of_locate h), ih h]

/-- A name that has a position refers to something. -/
lemma exists_resolve_of_locate {s : Stack} {name : String} {p : Position}
    (h : s.locate name = some p) : ∃ b, s.resolve name = some b := by
  rw [← Option.isSome_iff_exists, ← isSome_locate, h, Option.isSome_some]

/-- A name that has no position refers to nothing. -/
lemma locate_eq_none_iff (s : Stack) (name : String) :
    s.locate name = none ↔ s.resolve name = none := by
  rw [← Option.isNone_iff_eq_none, ← Option.isNone_iff_eq_none, ← Option.not_isSome,
    ← Option.not_isSome, isSome_locate]

/-! ## Writing at a position -/

/-- A write changes the value at its position and nothing else. -/
theorem bindingAt?_setValueAt (s : Stack) (p q : Position) (v : String) :
    (s.setValueAt p v).bindingAt? q =
      if q = p then (s.bindingAt? p).map fun b => b.setValue v else s.bindingAt? q := by
  induction s with
  | nil => simp [setValueAt]
  | cons f s ih =>
    rw [setValueAt]
    by_cases hp : p.depth = s.length
    · rw [if_pos hp]
      by_cases hq : q.depth = s.length
      · rw [bindingAt?, if_pos hq, bindingAt?, if_pos hp, bindingAt?, if_pos hq,
          Frame.bindings_setValueAt, List.getElem?_modify]
        have hpq : q = p ↔ p.index = q.index := by
          constructor
          · intro h
            rw [h]
          · intro h
            cases p
            cases q
            simp_all
        by_cases hi : p.index = q.index
        · rw [if_pos (hpq.2 hi)]
          simp [hi]
        · rw [if_neg (mt hpq.1 hi)]
          simp [hi]
      · have hne : q ≠ p := by
          intro h
          exact hq (h ▸ hp)
        rw [bindingAt?, if_neg hq, if_neg hne, bindingAt?, if_neg hq]
    · rw [if_neg hp, bindingAt?, length_setValueAt, ih]
      by_cases hq : q.depth = s.length
      · have hne : q ≠ p := by
          intro h
          exact hp (h ▸ hq)
        rw [if_pos hq, if_neg hne, bindingAt?, if_pos hq]
      · rw [if_neg hq, bindingAt?, if_neg hp, bindingAt?, if_neg hq]

/-- A write keeps the shape. -/
@[simp] theorem shape_setValueAt (s : Stack) (p : Position) (v : String) :
    (s.setValueAt p v).shape = s.shape := by
  induction s with
  | nil => rfl
  | cons f s ih =>
    rw [setValueAt]
    split
    · rw [shape_cons, shape_cons, Frame.shape_setValueAt]
    · rw [shape_cons, shape_cons, ih]

/-- A write in the outer part of a stack leaves the inner part alone. -/
lemma setValueAt_append {u : Stack} {p : Position} (s : Stack) (h : p.depth < u.length)
    (v : String) : setValueAt (s ++ u) p v = s ++ setValueAt u p v := by
  induction s with
  | nil => rfl
  | cons f s ih =>
    rw [List.cons_append, setValueAt, if_neg (by rw [List.length_append]; omega), ih,
      List.cons_append]

/-! ## Extensionality -/

/-- A stack is determined by its shape and the bindings at its positions.

**Proof sketch.** Induction on the stack. The frames innermost in the two stacks have equal
levels by their shapes, and equal bindings by the positions of greatest depth. The positions of
smaller depth are those of the outer frames. -/
theorem ext_of_shape {s u : Stack} (hshape : s.shape = u.shape)
    (hat : ∀ p, s.bindingAt? p = u.bindingAt? p) : s = u := by
  induction s generalizing u with
  | nil =>
    have hlen := length_eq_of_shape hshape
    exact (List.length_eq_zero_iff.1 hlen.symm).symm
  | cons f s ih =>
    cases u with
    | nil => simp at hshape
    | cons g u =>
      rw [shape_cons, shape_cons, List.cons.injEq] at hshape
      obtain ⟨hframe, houter⟩ := hshape
      have hlen : s.length = u.length := length_eq_of_shape houter
      have hbindings : f.bindings = g.bindings := by
        apply List.ext_getElem?
        intro i
        have := hat ⟨s.length, i⟩
        rwa [bindingAt?_cons_length, hlen, bindingAt?_cons_length] at this
      have hlevel : f.level = g.level := by
        rw [← Frame.level_shape f, hframe, Frame.level_shape]
      have hfg : f = g := by
        cases f
        cases g
        simp_all
      have hsu : s = u := by
        apply ih houter
        intro p
        by_cases hp : p.depth < s.length
        · have := hat p
          rwa [bindingAt?_cons_of_lt f hp, bindingAt?_cons_of_lt g (hlen ▸ hp)] at this
        · rw [bindingAt?_eq_none (by omega), bindingAt?_eq_none (by omega)]
      rw [hfg, hsu]

end Stack

end LexicalScope
