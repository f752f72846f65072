import Mathlib.Data.List.Basic
import LexicalScope.Proofs.Stack.Names
import LexicalScope.Proofs.Stack.Outer

set_option autoImplicit false

/-!
# Shadowed outer frames

An inner declaration shadows an outer one of the same name. If a frame declares every name of the
frames outside of it, then nothing that goes by names gets past it: whatever is assigned from
further inside ends at this frame or before. So the outer frames stay not only in shape but as
they are.

## Main definitions

* `LexicalScope.Stack.Shadows` — the outermost frames are those of another stack, and the frame on
  top of them declares all its names.

## Main results

* `LexicalScope.Stack.Shadows.outside_eq` — the outermost frames are those of the other stack.
* `LexicalScope.Stack.Shadows.assignAll`, `LexicalScope.Stack.Shadows.writeBack` — assignments to
  the whole stack, or outside of a level inside of the shadowing frame, change nothing about it.
-/

namespace LexicalScope

namespace Stack

/-- The outermost frames of `s` are the frames of `outer`, and the frame on top of them declares
every name that they declare. -/
def Shadows (s outer : Stack) : Prop :=
  ∃ upper f, s = upper ++ f :: outer ∧ outer.names ⊆ names [f]

variable {s outer : Stack}

/-- The outermost frames are those of the shadowed stack. -/
theorem Shadows.outside_eq (h : s.Shadows outer) : s.outside outer.length = outer := by
  obtain ⟨upper, f, rfl, -⟩ := h
  rw [List.append_cons, outside_append]

/-- A stack still shadows the other with more frames on top. -/
lemma Shadows.append (h : s.Shadows outer) (u : Stack) : Shadows (u ++ s) outer := by
  obtain ⟨upper, f, rfl, hf⟩ := h
  exact ⟨u ++ upper, f, (List.append_assoc _ _ _).symm, hf⟩

/-- A stack still shadows the other with one more frame on top. -/
lemma Shadows.cons (h : s.Shadows outer) (f : Frame) : Shadows (f :: s) outer :=
  h.append [f]

/-- The frames under the innermost one shadow the other stack too, if the innermost one is not
itself the frame on top of it. -/
lemma Shadows.tail {f : Frame} (h : Shadows (f :: s) outer) (hlen : outer.length < s.length) :
    s.Shadows outer := by
  obtain ⟨upper, g, heq, hg⟩ := h
  cases upper with
  | nil =>
    rw [List.nil_append, List.cons.injEq] at heq
    rw [heq.2] at hlen
    omega
  | cons e upper =>
    rw [List.cons_append, List.cons.injEq] at heq
    exact ⟨upper, g, heq.2, hg⟩

/-- Another innermost frame that declares the names of the old one shadows what the old one did. -/
lemma Shadows.of_names_subset {f g : Frame} (h : Shadows (f :: s) outer)
    (hfg : names [f] ⊆ names [g]) : Shadows (g :: s) outer := by
  obtain ⟨upper, e, heq, he⟩ := h
  cases upper with
  | nil =>
    rw [List.nil_append, List.cons.injEq] at heq
    obtain ⟨rfl, rfl⟩ := heq
    exact ⟨[], g, rfl, he.trans hfg⟩
  | cons d upper =>
    rw [List.cons_append, List.cons.injEq] at heq
    exact ⟨g :: upper, e, by rw [heq.2, List.cons_append], he⟩

/-- The outside of a level inside of the shadowing frame shadows the other stack too. -/
lemma Shadows.outside (h : s.Shadows outer) {level : Nat} (hlevel : outer.length < level) :
    (s.outside level).Shadows outer := by
  obtain ⟨upper, f, rfl, hf⟩ := h
  exact ⟨_, f, outside_append_of_le upper (by rwa [List.length_cons]), hf⟩

/-- An assignment ends at the shadowing frame or before.

**Proof sketch.** What the frames on top do not declare is assigned to the shadowing frame with
the frames under it. That frame declares every name of theirs, so it takes the assignment, and it
declares the same names afterwards. -/
lemma Shadows.assign (h : s.Shadows outer) (name v : String) :
    (s.assign name v).Shadows outer := by
  obtain ⟨upper, f, rfl, hf⟩ := h
  rw [assign_append]
  split
  · exact ⟨_, f, rfl, hf⟩
  · obtain ⟨g, hg⟩ := exists_assign_singleton f name v
    have htaken : Stack.assign (f :: outer) name v = g :: outer := by
      rw [← List.singleton_append, assign_append_of_names_subset hf, hg, List.singleton_append]
    have hnames : names [g] = names [f] := by
      rw [← hg, names_assign]
    exact ⟨upper, g, by rw [htaken], hnames ▸ hf⟩

/-- Assignments end at the shadowing frame or before. -/
theorem Shadows.assignAll (h : s.Shadows outer) (bs : List Binding) :
    (s.assignAll bs).Shadows outer := by
  induction bs generalizing s with
  | nil => exact h
  | cons b bs ih =>
    rw [assignAll_cons]
    exact ih (h.assign b.name b.value)

/-- Assignments outside of a level inside of the shadowing frame end at that frame or before. -/
theorem Shadows.writeBack (h : s.Shadows outer) {level : Nat} (hlevel : outer.length < level)
    (bs : List Binding) :
    Shadows (s.inside level ++ (s.outside level).assignAll bs) outer :=
  ((h.outside hlevel).assignAll bs).append _

end Stack

end LexicalScope
