import Mathlib.Data.Finset.Card
import Mathlib.Data.Finset.Dedup
import LexicalScope.Proofs.Stack.Assignment

set_option autoImplicit false

/-!
# The names of a stack

A name is declared by a stack if some frame has a binding of that name, which is exactly if the
name refers to something. The visible bindings are one for each declared name, the one that the
name refers to.

## Main definitions

* `LexicalScope.Stack.names` — the declared names.

## Main results

* `LexicalScope.Stack.mem_names` — the declared names are those that refer to something.
* `LexicalScope.Stack.find?_visible`, `LexicalScope.Stack.pairwise_visible` — the visible
  bindings have different names, and the one of a name is what the name refers to.
* `LexicalScope.Stack.assignAll_of_perm_visible` — the order in which the visible bindings are
  assigned to another stack does not matter.
* `LexicalScope.Stack.countP_visible` — the visible bindings that another stack declares are
  counted by the names that both declare.
* `LexicalScope.Stack.resolve_assignAll_visible`, `LexicalScope.Stack.bindingAt?_assignAll_visible`
  — what becomes of a stack to which the visible bindings of another one are assigned.
* `LexicalScope.Stack.assign_append_of_names_subset` — an assignment does not get through frames
  that declare all names of the frames under them.
-/

namespace LexicalScope

/-- A name is not found in a frame exactly if no binding has it. -/
lemma Frame.find?_eq_none_iff (f : Frame) (name : String) :
    f.find? name = none ↔ ∀ b ∈ f.bindings, b.name ≠ name := by
  simp [find?]

namespace Stack

/-! ## The scan -/

/-- A name refers to the first binding of the name in the scan. -/
theorem resolve_eq_find?_scan (s : Stack) (name : String) :
    s.resolve name = s.scan.find? fun b => b.name == name := by
  induction s with
  | nil => rfl
  | cons f s ih => rw [resolve_cons, scan_cons, List.find?_append, ih, Frame.find?]

/-- A name refers to nothing exactly if no frame has a binding of it. -/
lemma resolve_eq_none_iff (s : Stack) (name : String) :
    s.resolve name = none ↔ ∀ f ∈ s, ∀ b ∈ f.bindings, b.name ≠ name := by
  simp [resolve, Frame.find?_eq_none_iff]

/-- The names that some binding of the stack has. -/
def names (s : Stack) : Finset String :=
  (s.scan.map Binding.name).toFinset

/-- The declared names are those that refer to something. -/
theorem mem_names (s : Stack) (name : String) :
    name ∈ s.names ↔ (s.resolve name).isSome = true := by
  rw [resolve_eq_find?_scan, List.find?_isSome]
  simp [names]

/-- The declared names are those that have a position. -/
lemma mem_names_iff_locate (s : Stack) (name : String) :
    name ∈ s.names ↔ (s.locate name).isSome = true := by
  rw [mem_names, isSome_locate]

/-! ## Assignments -/

/-- An assignment declares no name and forgets none. -/
lemma names_assign (s : Stack) (name v : String) : (s.assign name v).names = s.names := by
  ext other
  rw [mem_names_iff_locate, mem_names_iff_locate, locate_congr (shape_assign s name v)]

/-- Assignments declare no name and forget none. -/
lemma names_assignAll (s : Stack) (bs : List Binding) : (s.assignAll bs).names = s.names := by
  ext other
  rw [mem_names_iff_locate, mem_names_iff_locate, locate_assignAll]

/-- An assignment does not get through frames that declare all names of the frames under them. -/
lemma assign_append_of_names_subset {s u : Stack} (h : u.names ⊆ s.names) (name v : String) :
    assign (s ++ u) name v = s.assign name v ++ u := by
  rw [assign_append]
  split
  · rfl
  · rename_i hs
    have hu : ¬ (u.resolve name).isSome := by
      intro hu
      exact hs ((mem_names s name).1 (h ((mem_names u name).2 hu)))
    rw [Option.not_isSome_iff_eq_none] at hs hu
    rw [assign_of_resolve_eq_none hs, assign_of_resolve_eq_none hu]

/-! ## First bindings -/

/-- The first binding of a name survives. -/
lemma find?_firstOfEachName (bs : List Binding) (name : String) :
    ((firstOfEachName bs).find? fun b => b.name == name) =
      bs.find? fun b => b.name == name := by
  induction bs with
  | nil => rfl
  | cons b bs ih =>
    rw [firstOfEachName]
    by_cases hb : b.name = name
    · rw [List.find?_cons_of_pos (by simpa using hb), List.find?_cons_of_pos (by simpa using hb)]
    · rw [List.find?_cons_of_neg (by simpa using hb), List.find?_cons_of_neg (by simpa using hb),
        ← ih, List.find?_filter]
      -- bindings of the searched name pass the filter, so it does not change the search
      congr 1
      funext c
      by_cases hc : c.name = name
      · simp [hc, Ne.symm hb]
      · simp [hc]

/-- The survivors have different names. -/
lemma pairwise_firstOfEachName (bs : List Binding) :
    (firstOfEachName bs).Pairwise fun b c => b.name ≠ c.name := by
  induction bs with
  | nil => exact List.Pairwise.nil
  | cons b bs ih =>
    rw [firstOfEachName, List.pairwise_cons]
    refine ⟨?_, ih.filter _⟩
    intro c hc
    have := (List.mem_filter.1 hc).2
    simpa using Ne.symm (by simpa using this)

/-! ## Visible bindings -/

/-- The visible binding of a name is the one that the name refers to. -/
theorem find?_visible (s : Stack) (name : String) :
    (s.visible.find? fun b => b.name == name) = s.resolve name := by
  rw [visible, find?_firstOfEachName, resolve_eq_find?_scan]

/-- The visible bindings have different names. -/
theorem pairwise_visible (s : Stack) : s.visible.Pairwise fun b c => b.name ≠ c.name :=
  pairwise_firstOfEachName s.scan

/-- The names of the visible bindings are the declared ones. -/
lemma mem_map_visible (s : Stack) (name : String) :
    name ∈ s.visible.map Binding.name ↔ name ∈ s.names := by
  rw [mem_names, ← find?_visible, List.find?_isSome]
  simp

/-- The visible bindings whose names another stack declares are counted by the names that both
stacks declare. -/
theorem countP_visible (s u : Stack) :
    (s.visible.countP fun b => (u.resolve b.name).isSome) = (s.names ∩ u.names).card := by
  set shared := s.visible.filter fun b => (u.resolve b.name).isSome with hshared
  have hnodup : (shared.map Binding.name).Nodup := by
    rw [List.Nodup, List.pairwise_map]
    exact (pairwise_visible s).filter _
  have hset : (shared.map Binding.name).toFinset = s.names ∩ u.names := by
    ext name
    rw [List.mem_toFinset, Finset.mem_inter, ← mem_map_visible, mem_names u]
    simp only [hshared, List.mem_map, List.mem_filter]
    constructor
    · rintro ⟨b, ⟨hb, hu⟩, rfl⟩
      exact ⟨⟨b, hb, rfl⟩, hu⟩
    · rintro ⟨⟨b, hb, rfl⟩, hu⟩
      exact ⟨b, ⟨hb, hu⟩, rfl⟩
  rw [List.countP_eq_length_filter, ← hset, List.toFinset_card_of_nodup hnodup, List.length_map]

/-- Assigning what is visible in one stack to another gives every name that both declare the
value that it has in the first, and leaves the other names alone. -/
theorem resolve_assignAll_visible (s u : Stack) (name : String) :
    (u.assignAll s.visible).resolve name =
      (u.resolve name).map fun b => (s.resolve name).elim b fun c => b.setValue c.value := by
  rw [resolve_assignAll u (pairwise_visible s), find?_visible]

/-- What stands at a position keeps its name, type and level when the visible bindings of another
stack are assigned. It gets the value that its name has there, if its name refers to it and is
declared there; otherwise it stays as it is. -/
theorem bindingAt?_assignAll_visible (s u : Stack) (p : Position) :
    (u.assignAll s.visible).bindingAt? p =
      (u.bindingAt? p).map fun b =>
        if u.locate b.name = some p then (s.resolve b.name).elim b fun c => b.setValue c.value
        else b := by
  by_cases hp : ∃ name, u.locate name = some p
  · obtain ⟨name, hname⟩ := hp
    have hname' : (u.assignAll s.visible).locate name = some p := by
      rw [locate_assignAll, hname]
    rw [bindingAt?_of_locate hname', bindingAt?_of_locate hname, resolve_assignAll_visible]
    cases hb : u.resolve name with
    | none => rfl
    | some b =>
      rw [Option.map_some, Option.map_some, name_of_resolve hb, if_pos hname]
  · rw [(bindingAt?_assignAll u s.visible p).resolve_right hp]
    have hnot : ∀ b : Binding, ¬ u.locate b.name = some p := fun b hb => hp ⟨b.name, hb⟩
    simp only [if_neg (hnot _), Option.map_id']

/-- Assigning what is visible in another stack once more changes nothing. -/
theorem assignAll_visible_assignAll (s u : Stack) :
    (u.assignAll s.visible).assignAll s.visible = u.assignAll s.visible := by
  rw [← assignAll_append]
  apply assignAll_ext
  intro name
  rw [assignAll_append, resolve_assignAll_visible, resolve_assignAll_visible, Option.map_map]
  cases s.resolve name <;> rfl

/-! ## The order of what is visible -/

/-- Of bindings with different names, each is the one of its name. -/
lemma find?_of_mem {bs : List Binding} (h : bs.Pairwise fun b c => b.name ≠ c.name) {b : Binding}
    (hb : b ∈ bs) : (bs.find? fun c => c.name == b.name) = some b := by
  induction bs with
  | nil => simp at hb
  | cons c bs ih =>
    obtain ⟨hc, hbs⟩ := List.pairwise_cons.1 h
    rcases List.mem_cons.1 hb with rfl | hb
    · exact List.find?_cons_of_pos (by simp)
    · rw [List.find?_cons_of_neg (by simpa using hc b hb), ih hbs hb]

/-- The visible bindings are those that their own names refer to. -/
lemma mem_visible (s : Stack) (b : Binding) : b ∈ s.visible ↔ s.resolve b.name = some b := by
  rw [← find?_visible]
  exact ⟨find?_of_mem (pairwise_visible s), List.mem_of_find?_eq_some⟩

/-- No binding is visible twice. -/
lemma nodup_visible (s : Stack) : s.visible.Nodup :=
  (pairwise_visible s).imp fun h heq => h (congrArg Binding.name heq)

/-- In any order of the visible bindings, the one of a name is what the name refers to. -/
lemma find?_of_perm_visible {s : Stack} {bs : List Binding} (h : bs.Perm s.visible)
    (name : String) : (bs.find? fun b => b.name == name) = s.resolve name := by
  have hbs : bs.Pairwise fun b c => b.name ≠ c.name :=
    (h.pairwise_iff fun h => h.symm).2 (pairwise_visible s)
  cases hr : s.resolve name with
  | some b =>
    have hname := name_of_resolve hr
    rw [← hname] at hr ⊢
    exact find?_of_mem hbs (h.mem_iff.2 ((mem_visible s b).2 hr))
  | none =>
    rw [List.find?_eq_none]
    intro b hb heq
    have hvisible := (mem_visible s b).1 (h.mem_iff.1 hb)
    rw [beq_iff_eq.1 heq, hr] at hvisible
    exact absurd hvisible (by simp)

/-- The visible bindings of a stack can be assigned to another one in any order. -/
theorem assignAll_of_perm_visible {s : Stack} {bs : List Binding} (h : bs.Perm s.visible)
    (u : Stack) : u.assignAll bs = u.assignAll s.visible := by
  have hbs : bs.Pairwise fun b c => b.name ≠ c.name :=
    (h.pairwise_iff fun h => h.symm).2 (pairwise_visible s)
  apply assignAll_ext
  intro name
  rw [resolve_assignAll u hbs, resolve_assignAll u (pairwise_visible s), find?_of_perm_visible h,
    find?_visible]

end Stack

end LexicalScope
