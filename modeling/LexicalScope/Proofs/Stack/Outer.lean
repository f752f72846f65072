import Mathlib.Data.List.Basic
import LexicalScope.Proofs.Stack.Assignment

set_option autoImplicit false

/-!
# Outer parts of stacks

A level cuts a stack in what is inside and what is outside. A stack *stands on* another one if
its outermost frames are the frames of the other, up to assignments. This is what inner scopes
can do to the scopes outside of them: put frames on top and overwrite values of visible
bindings.

## Main definitions

* `LexicalScope.Stack.StandsOn` — the outermost frames are those of another stack, up to
  assignments.

## Main results

* `LexicalScope.Stack.StandsOn.assignAll`, `LexicalScope.Stack.StandsOn.writeBack` — assignments
  to the whole stack, or outside of a level that is not below the other stack, change nothing
  about it.
* `LexicalScope.Stack.StandsOn.eq_of_length` — without frames on top, the stack is the other
  one up to assignments.
-/

namespace LexicalScope

namespace Stack

/-! ## Cutting a stack -/

/-- The whole stack lies outside of a level that it does not reach. -/
lemma outside_of_length_le {s : Stack} {level : Nat} (h : s.length ≤ level) :
    s.outside level = s := by
  rw [outside, Nat.sub_eq_zero_of_le h, List.drop_zero]

/-- Nothing lies inside of a level that the stack does not go beyond. -/
lemma inside_of_length_le {s : Stack} {level : Nat} (h : s.length ≤ level) :
    s.inside level = [] := by
  rw [inside, Nat.sub_eq_zero_of_le h, List.take_zero]

/-- A frame on top of the stack lies inside of the levels that the stack reaches. -/
lemma outside_cons_of_le {s : Stack} {level : Nat} (f : Frame) (h : level ≤ s.length) :
    outside (f :: s) level = s.outside level := by
  rw [outside, List.length_cons, Nat.succ_sub h, List.drop_succ_cons, outside]

/-- The innermost frame lies inside of every level that the other frames reach. -/
lemma inside_cons_of_le {s : Stack} {level : Nat} (f : Frame) (h : level ≤ s.length) :
    inside (f :: s) level = f :: s.inside level := by
  rw [inside, List.length_cons, Nat.succ_sub h, List.take_succ_cons, inside]

/-- Replacing what is outside of a level by as many frames keeps the cut where it is. -/
lemma outside_append_of_length {s u : Stack} {level : Nat}
    (h : u.length = (s.outside level).length) : outside (s.inside level ++ u) level = u := by
  have hlen : (s.inside level ++ u).length - level = (s.inside level).length := by
    rw [List.length_append, h, ← List.length_append, inside_append_outside, inside,
      List.length_take]
    omega
  rw [outside, hlen, List.drop_left]

/-- Replacing what is outside of a level by as many frames keeps what is inside. -/
lemma inside_append_of_length {s u : Stack} {level : Nat}
    (h : u.length = (s.outside level).length) :
    inside (s.inside level ++ u) level = s.inside level := by
  have hlen : (s.inside level ++ u).length - level = (s.inside level).length := by
    rw [List.length_append, h, ← List.length_append, inside_append_outside, inside,
      List.length_take]
    omega
  rw [inside.eq_def (s.inside level ++ u), hlen, List.take_left]

/-- A stack is cut behind its outer part by the length of that part. -/
lemma outside_append (s u : Stack) : outside (s ++ u) u.length = u := by
  rw [outside, List.length_append, Nat.add_sub_cancel, List.drop_left]

/-- What lies inside of the outer part of a stack is the inner part. -/
lemma inside_append (s u : Stack) : inside (s ++ u) u.length = s := by
  rw [inside, List.length_append, Nat.add_sub_cancel, List.take_left]

/-- Cutting at a level within the inner part leaves the outer part whole. -/
lemma outside_append_of_le (s : Stack) {u : Stack} {level : Nat} (h : u.length ≤ level) :
    outside (s ++ u) level = outside s (level - u.length) ++ u := by
  have hlen : (s ++ u).length - level = s.length - (level - u.length) := by
    rw [List.length_append]
    omega
  rw [outside, outside, hlen, List.drop_append_of_le_length (by omega)]

/-- Outside of a level that is itself outside of another one, it does not matter what is inside
of the other one. -/
lemma outside_outside {s : Stack} {level further : Nat} (h : further ≤ level)
    (hlen : level ≤ s.length) : (s.outside level).outside further = s.outside further := by
  rw [outside, length_outside s hlen, outside, List.drop_drop, outside]
  congr 1
  omega

/-- The sizes of the two parts of a stack add up. -/
lemma size_append (s u : Stack) : size (s ++ u) = size s + size u := by
  rw [← length_scan, scan_append, List.length_append, length_scan, length_scan]

/-- Where a name is located outside of a level there is a binding. -/
lemma isSome_bindingAt?_of_locate_outside {s : Stack} {level : Nat} {name : String} {p : Position}
    (h : (s.outside level).locate name = some p) : (s.bindingAt? p).isSome = true := by
  rw [← inside_append_outside s level, bindingAt?_append_of_lt _ (depth_lt_of_locate h),
    bindingAt?_of_locate h, ← isSome_locate, h, Option.isSome_some]

/-! ## Standing on another stack -/

/-- The outermost frames of `s` are the frames of `base`, up to assignments. -/
def StandsOn (s base : Stack) : Prop :=
  ∃ upper bs, s = upper ++ base.assignAll bs

variable {s base : Stack}

/-- A stack stands on itself. -/
lemma StandsOn.refl (s : Stack) : s.StandsOn s :=
  ⟨[], [], rfl⟩

/-- A stack still stands on the other with more frames on top. -/
lemma StandsOn.append (h : s.StandsOn base) (u : Stack) : StandsOn (u ++ s) base := by
  obtain ⟨upper, bs, rfl⟩ := h
  exact ⟨u ++ upper, bs, (List.append_assoc _ _ _).symm⟩

/-- A stack still stands on the other with one more frame on top. -/
lemma StandsOn.cons (h : s.StandsOn base) (f : Frame) : StandsOn (f :: s) base :=
  h.append [f]

/-- The frames under the innermost one stand on the other stack too, if there is a frame on
top of it. -/
lemma StandsOn.tail {f : Frame} (h : StandsOn (f :: s) base) (hlen : base.length ≤ s.length) :
    s.StandsOn base := by
  obtain ⟨upper, bs, heq⟩ := h
  cases upper with
  | nil =>
    have hcount := congrArg List.length heq
    rw [List.nil_append, length_assignAll, List.length_cons] at hcount
    omega
  | cons g upper =>
    rw [List.cons_append, List.cons.injEq] at heq
    exact ⟨upper, bs, heq.2⟩

/-- The outside of a level that is not below the other stack stands on it too. -/
lemma StandsOn.outside (h : s.StandsOn base) {level : Nat} (hlevel : base.length ≤ level) :
    (s.outside level).StandsOn base := by
  obtain ⟨upper, bs, rfl⟩ := h
  have hle : (base.assignAll bs).length ≤ level := by rwa [length_assignAll]
  exact ⟨_, bs, outside_append_of_le upper hle⟩

/-- An assignment reaches the frames on top, or else the other stack. -/
lemma StandsOn.assign (h : s.StandsOn base) (name v : String) :
    (s.assign name v).StandsOn base := by
  obtain ⟨upper, bs, rfl⟩ := h
  rw [assign_append]
  split
  · exact ⟨_, bs, rfl⟩
  · refine ⟨upper, bs ++ [⟨name, "", v, 0⟩], ?_⟩
    rw [assignAll_append, assignAll_cons, assignAll_nil]

/-- Assignments reach the frames on top, or else the other stack. -/
theorem StandsOn.assignAll (h : s.StandsOn base) (bs : List Binding) :
    (s.assignAll bs).StandsOn base := by
  induction bs generalizing s with
  | nil => exact h
  | cons b bs ih =>
    rw [assignAll_cons]
    exact ih (h.assign b.name b.value)

/-- Assignments outside of a level that is not below the other stack change nothing about
standing on it. -/
theorem StandsOn.writeBack (h : s.StandsOn base) {level : Nat} (hlevel : base.length ≤ level)
    (bs : List Binding) :
    StandsOn (s.inside level ++ (s.outside level).assignAll bs) base :=
  ((h.outside hlevel).assignAll bs).append _

/-- Without frames on top, the stack is the other one up to assignments. -/
theorem StandsOn.eq_of_length (h : s.StandsOn base) (hlen : s.length = base.length) :
    ∃ bs, s = base.assignAll bs := by
  obtain ⟨upper, bs, rfl⟩ := h
  rw [List.length_append, length_assignAll] at hlen
  have hnil : upper = [] := by
    apply List.length_eq_zero_iff.1
    omega
  exact ⟨bs, by rw [hnil, List.nil_append]⟩

end Stack

end LexicalScope
