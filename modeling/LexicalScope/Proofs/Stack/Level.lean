import Mathlib.Data.List.Basic
import LexicalScope.Proofs.Stack.Assignment

set_option autoImplicit false

/-!
# Level stamps

In a *leveled* stack every frame carries the number of frames outside of it, and every binding
carries the level of its frame. All bindings, outermost first, are then sorted by level.

## Main definitions

* `LexicalScope.Frame.IsAt` — a frame and its bindings carry a level.
* `LexicalScope.Stack.IsLeveled` — every frame carries the level that it stands at.

## Main results

* `LexicalScope.Stack.IsLeveled.isAt` — the frame at a place, counted from the root, carries
  that place as its level.
* `LexicalScope.Stack.IsLeveled.scopeLevel_of_bindingAt?` — what stands at a position carries its
  depth as its level.
* `LexicalScope.Stack.IsLeveled.pairwise_bindings` — the bindings are sorted by level.
* `LexicalScope.Stack.IsLeveled.of_shape` — whether a stack is leveled depends on its shape
  alone.
-/

namespace LexicalScope

/-- The frame and all its bindings carry `level`. -/
def Frame.IsAt (f : Frame) (level : Nat) : Prop :=
  f.level = level ∧ ∀ b ∈ f.bindings, b.scopeLevel = level

/-- Whether a frame and its bindings carry a level can be decided. -/
instance (f : Frame) (level : Nat) : Decidable (f.IsAt level) :=
  inferInstanceAs (Decidable (_ ∧ _))

/-- The frame of an empty scope carries the level of the scope. -/
lemma Frame.isAt_empty (level : Nat) : (Frame.empty level).IsAt level := by
  refine ⟨rfl, ?_⟩
  intro b hb
  simp at hb

/-- Whether a frame carries a level depends on its shape alone. -/
lemma Frame.IsAt.of_shape {f g : Frame} {level : Nat} (hf : f.IsAt level)
    (h : g.shape = f.shape) : g.IsAt level := by
  obtain ⟨hlevel, hbindings⟩ := hf
  refine ⟨?_, ?_⟩
  · rw [← Frame.level_shape g, h, Frame.level_shape, hlevel]
  · intro b hb
    have hmem : b.shape ∈ f.bindings.map Binding.shape := by
      rw [← Frame.bindings_shape, ← h, Frame.bindings_shape]
      exact List.mem_map_of_mem hb
    obtain ⟨c, hc, hcb⟩ := List.mem_map.1 hmem
    have hlevels : c.shape.scopeLevel = b.shape.scopeLevel := by rw [hcb]
    rw [← hbindings c hc]
    exact hlevels.symm

namespace Stack

/-- Every frame carries the number of frames outside of it. -/
def IsLeveled : Stack → Prop
  | [] => True
  | f :: outer => f.IsAt outer.length ∧ IsLeveled outer

/-- Whether a stack is leveled can be decided, frame by frame. -/
instance decidableIsLeveled : (s : Stack) → Decidable s.IsLeveled
  | [] => inferInstanceAs (Decidable True)
  | f :: outer =>
    have := decidableIsLeveled outer
    inferInstanceAs (Decidable (f.IsAt outer.length ∧ IsLeveled outer))

/-- The stack without frames is leveled. -/
@[simp] lemma isLeveled_nil : IsLeveled [] := trivial

/-- A stack is leveled if its innermost frame carries the number of the others, and these are
leveled. -/
@[simp] lemma isLeveled_cons (f : Frame) (s : Stack) :
    IsLeveled (f :: s) ↔ f.IsAt s.length ∧ s.IsLeveled := Iff.rfl

/-- The outer part of a leveled stack is leveled. -/
lemma IsLeveled.drop {s : Stack} (h : s.IsLeveled) (n : Nat) : IsLeveled (s.drop n) := by
  induction s generalizing n with
  | nil => simp
  | cons f s ih =>
    cases n with
    | zero => exact h
    | succ n => exact ih h.2 n

/-- What lies outside of a level in a leveled stack is leveled. -/
lemma IsLeveled.outside {s : Stack} (h : s.IsLeveled) (level : Nat) :
    (s.outside level).IsLeveled :=
  h.drop _

/-- Whether a stack is leveled depends on its shape alone. -/
lemma IsLeveled.of_shape {s u : Stack} (hs : s.IsLeveled) (h : u.shape = s.shape) :
    u.IsLeveled := by
  induction s generalizing u with
  | nil =>
    have hlen := length_eq_of_shape h
    rw [List.length_eq_zero_iff.1 hlen]
    exact isLeveled_nil
  | cons f s ih =>
    cases u with
    | nil => exact isLeveled_nil
    | cons g u =>
      rw [shape_cons, shape_cons, List.cons.injEq] at h
      obtain ⟨hframe, houter⟩ := h
      refine ⟨?_, ih hs.2 houter⟩
      rw [length_eq_of_shape houter]
      exact hs.1.of_shape hframe

/-- The frame at a place, counted from the root, carries that place as its level. -/
theorem IsLeveled.isAt {s : Stack} (h : s.IsLeveled) {i : Nat} {f : Frame}
    (hf : s.reverse[i]? = some f) : f.IsAt i := by
  induction s with
  | nil => simp at hf
  | cons g s ih =>
    rw [List.reverse_cons] at hf
    by_cases hi : i < s.length
    · rw [List.getElem?_append_left (by rwa [List.length_reverse])] at hf
      exact ih h.2 hf
    · have hlen : i < (s.reverse ++ [g]).length := (List.getElem?_eq_some_iff.1 hf).1
      rw [List.length_append, List.length_reverse, List.length_singleton] at hlen
      have heq : i = s.reverse.length := by
        rw [List.length_reverse]
        omega
      rw [heq, List.getElem?_concat_length, Option.some.injEq] at hf
      rw [← hf, heq, List.length_reverse]
      exact h.1

/-- What stands at a position carries the depth of the position as its level. -/
lemma IsLeveled.scopeLevel_of_bindingAt? {s : Stack} (h : s.IsLeveled) {p : Position} {b : Binding}
    (hb : s.bindingAt? p = some b) : b.scopeLevel = p.depth := by
  induction s with
  | nil => simp at hb
  | cons f s ih =>
    rw [bindingAt?] at hb
    split at hb
    · rename_i hp
      rw [h.1.2 b (List.mem_of_getElem? hb), hp]
    · exact ih h.2 hb

/-- Bindings carry levels below the number of frames. -/
lemma IsLeveled.scopeLevel_lt {s : Stack} (h : s.IsLeveled) {b : Binding}
    (hb : b ∈ s.bindings) : b.scopeLevel < s.length := by
  obtain ⟨f, hf, hbf⟩ := List.mem_flatMap.1 hb
  obtain ⟨i, hi⟩ := List.mem_iff_getElem?.1 hf
  have hlt := (List.getElem?_eq_some_iff.1 hi).1
  rw [List.length_reverse] at hlt
  rw [(h.isAt hi).2 b hbf]
  exact hlt

/-- The bindings, outermost first, are sorted by level.

**Proof sketch.** Induction on the stack. The bindings of the innermost frame come last and all
carry its level, which is the number of frames outside of it. All others carry less. -/
theorem IsLeveled.pairwise_bindings {s : Stack} (h : s.IsLeveled) :
    s.bindings.Pairwise fun b c => b.scopeLevel ≤ c.scopeLevel := by
  induction s with
  | nil => exact List.Pairwise.nil
  | cons f s ih =>
    have hsplit : bindings (f :: s) = bindings s ++ f.bindings := by
      simp [bindings]
    rw [hsplit, List.pairwise_append]
    refine ⟨ih h.2, ?_, ?_⟩
    · apply List.pairwise_of_forall_mem_list
      intro b hb c hc
      have hlevel := h.1.2 b hb
      have hlevel' := h.1.2 c hc
      omega
    · intro b hb c hc
      have := h.2.scopeLevel_lt hb
      rw [h.1.2 c hc]
      omega

end Stack

end LexicalScope
