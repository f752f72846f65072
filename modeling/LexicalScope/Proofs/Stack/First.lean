import Mathlib.Data.List.Basic
import LexicalScope.Proofs.Stack.Assignment

set_option autoImplicit false

/-!
# Overwriting the first binding

An assignment looks a name up and then writes at the place that was found. The two are one here:
the first binding of a list that passes a test gets another value. So an assignment goes through
the frames from the innermost one outward, and is carried out in the first that declares the name.

## Main definitions

* `LexicalScope.setFirst` — overwrites the value of the first binding that passes a test.

## Main results

* `LexicalScope.setFirst_append`, `LexicalScope.setFirst_append_of_forall_not` — which part of a
  list is changed.
* `LexicalScope.setFirst_filter`, `LexicalScope.filter_setFirst_of_disjoint` — bindings that are
  left out do not matter.
* `LexicalScope.Stack.assign_cons` — an assignment overwrites the first binding of the name in the
  innermost frame, or else goes to the outer frames.
-/

namespace LexicalScope

/-- The bindings with the value of the first one that passes the test overwritten. -/
def setFirst (test : Binding → Bool) (value : String) : List Binding → List Binding
  | [] => []
  | b :: bs => if test b then b.setValue value :: bs else b :: setFirst test value bs

section

variable {test keep : Binding → Bool} {value : String}

/-- What is found by the test is overwritten. -/
lemma modify_eq_setFirst {bs : List Binding} {i : Nat} (h : bs.findIdx? test = some i) :
    (bs.modify i fun b => b.setValue value) = setFirst test value bs := by
  induction bs generalizing i with
  | nil => simp at h
  | cons b bs ih =>
    rw [List.findIdx?_cons] at h
    rw [setFirst]
    split
    · rename_i hb
      rw [if_pos hb, Option.some.injEq] at h
      rw [← h, List.modify_zero_cons]
    · rename_i hb
      rw [if_neg hb] at h
      obtain ⟨j, hj, rfl⟩ := Option.map_eq_some_iff.1 h
      rw [List.modify_succ_cons, ih hj]

/-- Nothing changes if no binding passes the test. -/
lemma setFirst_of_forall_not {bs : List Binding} (h : ∀ b ∈ bs, test b = false) :
    setFirst test value bs = bs := by
  induction bs with
  | nil => rfl
  | cons b bs ih =>
    obtain ⟨hb, hbs⟩ := List.forall_mem_cons.1 h
    rw [setFirst, if_neg (by simp [hb]), ih hbs]

/-- Only what the test says of the bindings matters. -/
lemma setFirst_congr {test' : Binding → Bool} {bs : List Binding}
    (h : ∀ b ∈ bs, test b = test' b) : setFirst test value bs = setFirst test' value bs := by
  induction bs with
  | nil => rfl
  | cons b bs ih =>
    obtain ⟨hb, hbs⟩ := List.forall_mem_cons.1 h
    rw [setFirst, setFirst, hb, ih hbs]

/-- If no binding of the first part passes the test, the second part is changed. -/
lemma setFirst_append_of_forall_not {bs : List Binding} (h : ∀ b ∈ bs, test b = false)
    (cs : List Binding) : setFirst test value (bs ++ cs) = bs ++ setFirst test value cs := by
  induction bs with
  | nil => rfl
  | cons b bs ih =>
    obtain ⟨hb, hbs⟩ := List.forall_mem_cons.1 h
    rw [List.cons_append, setFirst, if_neg (by simp [hb]), ih hbs, List.cons_append]

/-- If no binding of the second part passes the test, the first part is changed. -/
lemma setFirst_append {cs : List Binding} (h : ∀ c ∈ cs, test c = false) (bs : List Binding) :
    setFirst test value (bs ++ cs) = setFirst test value bs ++ cs := by
  induction bs with
  | nil => exact setFirst_of_forall_not h
  | cons b bs ih =>
    rw [List.cons_append, setFirst, setFirst]
    split
    · rw [List.cons_append]
    · rw [ih, List.cons_append]

/-- The stamps stay the same. -/
lemma exists_of_mem_setFirst {bs : List Binding} {b : Binding} (h : b ∈ setFirst test value bs) :
    ∃ c ∈ bs, c.scopeLevel = b.scopeLevel := by
  induction bs with
  | nil => simp [setFirst] at h
  | cons c bs ih =>
    rw [setFirst] at h
    split at h
    · rcases List.mem_cons.1 h with rfl | h
      · exact ⟨c, List.mem_cons_self, rfl⟩
      · exact ⟨b, List.mem_cons_of_mem c h, rfl⟩
    · rcases List.mem_cons.1 h with rfl | h
      · exact ⟨b, List.mem_cons_self, rfl⟩
      · obtain ⟨d, hd, hlevel⟩ := ih h
        exact ⟨d, List.mem_cons_of_mem c hd, hlevel⟩

/-- Bindings that are left out do not matter, if all that pass the test are kept, whatever their
value. -/
lemma setFirst_filter (bs : List Binding) (htest : ∀ b, test b = true → keep b = true)
    (hkeep : ∀ b v, keep (b.setValue v) = keep b) :
    setFirst test value (bs.filter keep) = (setFirst test value bs).filter keep := by
  induction bs with
  | nil => rfl
  | cons b bs ih =>
    by_cases hb : test b = true
    · have hb' := htest b hb
      rw [List.filter_cons_of_pos hb', setFirst, if_pos hb, setFirst, if_pos hb,
        List.filter_cons_of_pos (by rw [hkeep, hb'])]
    · rw [setFirst, if_neg hb, List.filter_cons, List.filter_cons, ← ih]
      split
      · rw [setFirst, if_neg hb]
      · rfl

/-- What is done to bindings that are left out is not seen. -/
lemma filter_setFirst_of_disjoint (bs : List Binding)
    (htest : ∀ b, test b = true → keep b = false)
    (hkeep : ∀ b v, keep (b.setValue v) = keep b) :
    (setFirst test value bs).filter keep = bs.filter keep := by
  induction bs with
  | nil => rfl
  | cons b bs ih =>
    rw [setFirst]
    split
    · rename_i hb
      have hb' := htest b hb
      rw [List.filter_cons_of_neg (by rw [hkeep, hb']; simp),
        List.filter_cons_of_neg (by rw [hb']; simp)]
    · rw [List.filter_cons, List.filter_cons, ih]

end

namespace Stack

/-- An assignment overwrites the first binding of the name in the innermost frame, or else goes to
the outer frames. -/
theorem assign_cons (f : Frame) (s : Stack) (name v : String) :
    assign (f :: s) name v =
      if (f.find? name).isSome then
        { f with bindings := setFirst (fun b => b.name == name) v f.bindings } :: s
      else f :: s.assign name v := by
  rw [← f.isSome_index? name]
  cases hf : f.index? name with
  | none => rw [assign_cons_of_index?_eq_none hf, Option.isSome_none, if_neg Bool.false_ne_true]
  | some i =>
    rw [assign_cons_of_index? hf, Option.isSome_some, if_pos rfl, Frame.setValueAt,
      modify_eq_setFirst hf]

end Stack

end LexicalScope
