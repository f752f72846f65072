import Mathlib.Data.List.Dedup
import LexicalScope.Proofs.Flat.Machine
import LexicalScope.Proofs.Stack.Level
import LexicalScope.Proofs.Stack.Names
import LexicalScope.Proofs.Stack.Outer

set_option autoImplicit false

/-!
# Frames and stamps

In a leveled stack the stamps of the bindings tell the frames apart. So everything that is done
with frames can be told from the list of all bindings: what a name refers to, what an assignment
changes, what lies outside and inside of a level, in which order bindings are copied, and which
values are written back.

## Main definitions

* `LexicalScope.Stack.IsStamped` — all bindings of a frame carry one stamp, which is greater than
  those of the outer frames.

## Main results

* `LexicalScope.Stack.IsStamped.resolve_bindings`, `LexicalScope.Stack.IsStamped.bindings_assign`
  — what a name refers to.
* `LexicalScope.Stack.IsLeveled.bindings_outside`,
  `LexicalScope.Stack.IsLeveled.bindings_inside` — the two sides of a level.
* `LexicalScope.Stack.IsLeveled.scan_outside` — the order of copies.
* `LexicalScope.Stack.IsStamped.bindings_assignAll_visible`,
  `LexicalScope.Stack.IsStamped.countP_visible` — write-backs.
-/

namespace LexicalScope

namespace Flat

/-- What lies outside of a level in two lists of bindings is found part by part. -/
lemma outside_append (base : Nat) (bs cs : List Binding) :
    outside base (bs ++ cs) = outside base bs ++ outside base cs :=
  List.filter_append ..

/-- What lies inside of a level in two lists of bindings is found part by part. -/
lemma inside_append (base : Nat) (bs cs : List Binding) :
    inside base (bs ++ cs) = inside base bs ++ inside base cs :=
  List.filter_append ..

/-- Going outwards, the bindings stamped with the innermost level come first. -/
lemma inwardOut_succ (limit : Nat) (bs : List Binding) :
    inwardOut (limit + 1) bs =
      (bs.filter fun b => b.scopeLevel == limit) ++ inwardOut limit bs := by
  rw [inwardOut, List.range_succ, List.reverse_append, List.flatMap_append]
  simp [inwardOut]

/-- Greater stamps than the limit do not matter. -/
lemma inwardOut_outside {limit base : Nat} (h : limit ≤ base) (bs : List Binding) :
    inwardOut limit (outside base bs) = inwardOut limit bs := by
  induction limit with
  | zero => rfl
  | succ limit ih =>
    rw [inwardOut_succ, inwardOut_succ, ih (by omega), outside, List.filter_filter]
    congr 2
    funext b
    by_cases hb : b.scopeLevel = limit
    · simp [hb]
      omega
    · simp [hb]

end Flat

namespace Stack

variable {s outer : Stack} {f : Frame} {name : String}

/-! ## The current frame comes last -/

/-- The bindings of the innermost frame come last. -/
lemma bindings_cons (f : Frame) (s : Stack) : bindings (f :: s) = bindings s ++ f.bindings := by
  simp [bindings]

/-- The bindings of the outer part of a stack come first. -/
lemma bindings_append (s u : Stack) : bindings (s ++ u) = bindings u ++ bindings s := by
  simp [bindings]

/-- The size counts the bindings. -/
lemma length_bindings (s : Stack) : s.bindings.length = s.size := by
  induction s with
  | nil => rfl
  | cons f s ih =>
    rw [bindings_cons, List.length_append, ih, size_cons]
    omega

/-! ## Stamps tell the frames apart -/

/-- All bindings of a frame carry one stamp, which is greater than those of the outer frames. -/
def IsStamped : Stack → Prop
  | [] => True
  | f :: outer =>
    (∃ level, (∀ b ∈ f.bindings, b.scopeLevel = level) ∧
      ∀ b ∈ bindings outer, b.scopeLevel < level) ∧ IsStamped outer

/-- In a leveled stack the stamps say where the bindings stand. -/
lemma IsLeveled.isStamped (h : s.IsLeveled) : s.IsStamped := by
  induction s with
  | nil => trivial
  | cons f s ih => exact ⟨⟨s.length, h.1.2, fun _ hb => h.2.scopeLevel_lt hb⟩, ih h.2⟩

/-- What lies inside of a level is stamped, although its stamps do not begin at the root. -/
lemma IsStamped.inside (h : s.IsStamped) (level : Nat) : (s.inside level).IsStamped := by
  have htake : ∀ n, IsStamped (s.take n) := by
    intro n
    induction s generalizing n with
    | nil => rw [List.take_nil]; trivial
    | cons f s ih =>
      obtain ⟨⟨top, hframe, houter⟩, hs⟩ := h
      cases n with
      | zero => trivial
      | succ n =>
        refine ⟨⟨top, hframe, fun b hb => houter b ?_⟩, ih hs n⟩
        rw [← List.take_append_drop n s, bindings_append]
        exact List.mem_append_right _ hb
  exact htake _

/-- If the current frame declares the name, the bindings of the name in the current frame are
those with the greatest stamp. -/
lemma IsStamped.isTop_of_isSome (h : IsStamped (f :: outer)) (hname : (f.find? name).isSome) :
    (∀ b ∈ bindings outer, Flat.isTop (bindings (f :: outer)) name b = false) ∧
      ∀ b ∈ f.bindings, Flat.isTop (bindings (f :: outer)) name b = (b.name == name) := by
  obtain ⟨⟨level, hframe, houter⟩, -⟩ := h
  obtain ⟨top, htop⟩ := Option.isSome_iff_exists.1 hname
  have hmem : top ∈ f.bindings := List.mem_of_find?_eq_some htop
  refine ⟨?_, ?_⟩
  · intro b hb
    have hlt := houter b hb
    have hlevel := hframe top hmem
    simp only [Flat.isTop, Bool.and_eq_false_iff, List.all_eq_false]
    refine Or.inr ⟨top, ?_, ?_⟩
    · rw [bindings_cons]
      exact List.mem_append_right _ hmem
    · simp [Frame.name_of_find? htop]
      omega
  · intro b hb
    have hall : ((bindings (f :: outer)).all fun c =>
        c.name != name || c.scopeLevel ≤ b.scopeLevel) = true := by
      rw [List.all_eq_true]
      intro c hc
      have hle : c.scopeLevel ≤ b.scopeLevel := by
        rw [hframe b hb]
        rw [bindings_cons] at hc
        rcases List.mem_append.1 hc with hc | hc
        · exact (houter c hc).le
        · exact (hframe c hc).le
      simp [hle]
    rw [Flat.isTop, hall, Bool.and_true]

/-- If the current frame does not declare the name, the bindings of the name with the greatest
stamp are those of the outer frames. -/
lemma isTop_of_eq_none (outer : Stack) (hname : f.find? name = none) :
    (∀ b, Flat.isTop (bindings (f :: outer)) name b = Flat.isTop (bindings outer) name b) ∧
      ∀ b ∈ f.bindings, Flat.isTop (bindings (f :: outer)) name b = false := by
  have hnot : ∀ b ∈ f.bindings, (b.name == name) = false := by
    intro b hb
    have := List.find?_eq_none.1 hname b hb
    simpa using this
  refine ⟨?_, ?_⟩
  · intro b
    have hall : (f.bindings.all fun c => c.name != name || c.scopeLevel ≤ b.scopeLevel) = true := by
      rw [List.all_eq_true]
      intro c hc
      simp [bne, hnot c hc]
    rw [Flat.isTop, Flat.isTop, bindings_cons, List.all_append, hall, Bool.and_true]
  · intro b hb
    rw [Flat.isTop, hnot b hb, Bool.false_and]

/-! ## What a name refers to -/

/-- **A name refers to the earliest of its bindings with the greatest stamp.**

**Proof sketch.** Induction on the stack. If the current frame declares the name, its bindings of
the name have the greatest stamp, and no other binding has; otherwise the current frame plays no
part. -/
theorem IsStamped.resolve_bindings (h : s.IsStamped) (name : String) :
    Flat.resolve s.bindings name = s.resolve name := by
  induction s with
  | nil => rfl
  | cons f s ih =>
    rw [Flat.resolve, resolve_cons, ← ih h.2]
    cases hf : f.find? name with
    | some b =>
      obtain ⟨hnone, htop⟩ := h.isTop_of_isSome (by rw [hf, Option.isSome_some])
      generalize Flat.isTop (bindings (f :: s)) name = test at hnone htop ⊢
      have houter : (bindings s).find? test = none := by
        rw [List.find?_eq_none]
        intro c hc
        simp [hnone c hc]
      have hframe : f.bindings.find? test = f.find? name := by
        rw [Frame.find?, ← List.head?_filter, ← List.head?_filter, List.filter_congr htop]
      rw [bindings_cons, List.find?_append, houter, hframe, hf, Option.none_or, Option.some_or]
    | none =>
      obtain ⟨htop, hnone⟩ := isTop_of_eq_none s hf
      rw [Flat.resolve, ← funext htop]
      generalize Flat.isTop (bindings (f :: s)) name = test at hnone ⊢
      have hframe : f.bindings.find? test = none := by
        rw [List.find?_eq_none]
        intro c hc
        simp [hnone c hc]
      rw [bindings_cons, List.find?_append, hframe, Option.or_none, Option.none_or]

/-- A name that is declared at the root and twice in the scope inside. -/
example :
    Flat.resolve [⟨"x", "int", "1", 0⟩, ⟨"x", "int", "2", 1⟩, ⟨"x", "int", "3", 1⟩] "x" =
      some ⟨"x", "int", "2", 1⟩ := by decide

/-- **An assignment changes the earliest of the bindings of the name with the greatest stamp.** -/
theorem IsStamped.bindings_assign (h : s.IsStamped) (name v : String) :
    (s.assign name v).bindings = Flat.assign s.bindings name v := by
  induction s with
  | nil => rfl
  | cons f s ih =>
    rw [assign_cons, Flat.assign]
    cases hf : f.find? name with
    | some b =>
      obtain ⟨hnone, htop⟩ := h.isTop_of_isSome (by rw [hf, Option.isSome_some])
      generalize Flat.isTop (bindings (f :: s)) name = test at hnone htop ⊢
      rw [Option.isSome_some, if_pos rfl, bindings_cons, bindings_cons,
        setFirst_append_of_forall_not hnone, setFirst_congr htop]
    | none =>
      obtain ⟨htop, hnone⟩ := isTop_of_eq_none s hf
      rw [Option.isSome_none, if_neg Bool.false_ne_true, bindings_cons, ih h.2, Flat.assign,
        ← funext htop]
      generalize Flat.isTop (bindings (f :: s)) name = test at hnone ⊢
      rw [bindings_cons, setFirst_append hnone]

/-- An assignment keeps the stamps. -/
lemma IsStamped.assign (h : s.IsStamped) (name v : String) : (s.assign name v).IsStamped := by
  induction s with
  | nil => trivial
  | cons f s ih =>
    obtain ⟨⟨level, hframe, houter⟩, hs⟩ := h
    rw [assign_cons]
    split
    · refine ⟨⟨level, fun b hb => ?_, houter⟩, hs⟩
      obtain ⟨c, hc, hlevel⟩ := exists_of_mem_setFirst hb
      rw [← hlevel, hframe c hc]
    · refine ⟨⟨level, hframe, fun b hb => ?_⟩, ih hs⟩
      rw [hs.bindings_assign] at hb
      obtain ⟨c, hc, hlevel⟩ := exists_of_mem_setFirst hb
      rw [← hlevel]
      exact houter c hc

/-- A sequence of assignments can be told from the bindings. -/
theorem IsStamped.bindings_assignAll (h : s.IsStamped) (bs : List Binding) :
    (s.assignAll bs).bindings = Flat.assignAll s.bindings bs := by
  induction bs generalizing s with
  | nil => rfl
  | cons b bs ih =>
    rw [assignAll_cons, ih (h.assign _ _), h.bindings_assign]
    rfl

/-! ## The two sides of a level -/

/-- Outside of a level lie the bindings with lesser stamps. -/
theorem IsLeveled.bindings_outside (h : s.IsLeveled) (level : Nat) :
    (s.outside level).bindings = Flat.outside level s.bindings := by
  induction s with
  | nil => rw [outside_of_length_le (Nat.zero_le level)]; rfl
  | cons f s ih =>
    by_cases hle : level ≤ s.length
    · have hframe : Flat.outside level f.bindings = [] := by
        rw [Flat.outside, List.filter_eq_nil_iff]
        intro b hb
        simp [h.1.2 b hb, hle]
      rw [outside_cons_of_le f hle, ih h.2, bindings_cons, Flat.outside_append, hframe,
        List.append_nil]
    · have hall : Flat.outside level (bindings (f :: s)) = bindings (f :: s) := by
        rw [Flat.outside, List.filter_eq_self]
        intro b hb
        have hlt := h.scopeLevel_lt hb
        rw [List.length_cons] at hlt
        rw [decide_eq_true_eq]
        omega
      rw [outside_of_length_le (by rw [List.length_cons]; omega), hall]

/-- Inside of a level lie the bindings with the stamp of the level and greater ones. -/
theorem IsLeveled.bindings_inside (h : s.IsLeveled) (level : Nat) :
    (s.inside level).bindings = Flat.inside level s.bindings := by
  induction s with
  | nil => rw [inside_of_length_le (Nat.zero_le level)]; rfl
  | cons f s ih =>
    by_cases hle : level ≤ s.length
    · have hframe : Flat.inside level f.bindings = f.bindings := by
        rw [Flat.inside, List.filter_eq_self]
        intro b hb
        simp [h.1.2 b hb, hle]
      rw [inside_cons_of_le f hle, bindings_cons, ih h.2, bindings_cons, Flat.inside_append, hframe]
    · have hnone : Flat.inside level (bindings (f :: s)) = [] := by
        rw [Flat.inside, List.filter_eq_nil_iff]
        intro b hb
        have hlt := h.scopeLevel_lt hb
        rw [List.length_cons] at hlt
        rw [decide_eq_true_eq]
        omega
      rw [inside_of_length_le (by rw [List.length_cons]; omega), hnone]
      rfl

/-- The bindings of the current frame are those with the greatest stamp, and all others lie
outside. -/
lemma IsLeveled.filter_bindings (h : IsLeveled (f :: outer)) :
    ((bindings (f :: outer)).filter fun b => b.scopeLevel == outer.length) = f.bindings ∧
      ((bindings (f :: outer)).filter fun b => b.scopeLevel != outer.length) = bindings outer := by
  have hlt : ∀ b ∈ bindings outer, (b.scopeLevel == outer.length) = false := by
    intro b hb
    have := h.2.scopeLevel_lt hb
    rw [beq_eq_false_iff_ne]
    omega
  have heq : ∀ b ∈ f.bindings, (b.scopeLevel == outer.length) = true := by
    intro b hb
    simp [h.1.2 b hb]
  rw [bindings_cons, List.filter_append, List.filter_append]
  refine ⟨?_, ?_⟩
  · rw [List.filter_eq_nil_iff.2 (by simpa using hlt), List.filter_eq_self.2 heq, List.nil_append]
  · rw [List.filter_eq_self.2 (by simpa [bne] using hlt),
      List.filter_eq_nil_iff.2 (by simpa [bne] using heq), List.append_nil]

/-! ## The order of copies -/

/-- Copies are made from the greatest stamp to the least. -/
theorem IsLeveled.scan_eq (h : s.IsLeveled) : s.scan = Flat.inwardOut s.length s.bindings := by
  induction s with
  | nil => rfl
  | cons f s ih =>
    obtain ⟨hframe, -⟩ := h.filter_bindings
    have hrest : Flat.inwardOut s.length (bindings (f :: s)) =
        Flat.inwardOut s.length (bindings s) := by
      have hout := h.bindings_outside s.length
      rw [outside_cons_of_le f le_rfl, outside_length] at hout
      rw [hout, Flat.inwardOut_outside le_rfl]
    rw [scan_cons, List.length_cons, Flat.inwardOut_succ, hframe, hrest, ih h.2]

/-- What lies outside of a level is copied from the greatest stamp below the level to the
least. -/
theorem IsLeveled.scan_outside (h : s.IsLeveled) {level : Nat} (hle : level ≤ s.length) :
    (s.outside level).scan = Flat.inwardOut level s.bindings := by
  rw [(h.outside level).scan_eq, length_outside s hle, h.bindings_outside,
    Flat.inwardOut_outside le_rfl]

/-- The inner scope is copied first, each scope in its order. -/
example :
    Flat.inwardOut 2 [⟨"x", "int", "1", 0⟩, ⟨"y", "int", "2", 1⟩, ⟨"x", "int", "3", 1⟩] =
      [⟨"y", "int", "2", 1⟩, ⟨"x", "int", "3", 1⟩, ⟨"x", "int", "1", 0⟩] := by decide

/-! ## Write-backs -/

/-- What the names refer to are the visible bindings, in some order. -/
lemma IsStamped.perm_referents (h : s.IsStamped) : (Flat.referents s.bindings).Perm s.visible := by
  have hresolve : Flat.resolve s.bindings = s.resolve := funext h.resolve_bindings
  have hnodup : (Flat.referents s.bindings).Nodup := by
    refine List.Nodup.filterMap ?_ (List.nodup_dedup _)
    intro name other b hb hb'
    rw [hresolve] at hb hb'
    rw [← name_of_resolve hb, ← name_of_resolve hb']
  rw [List.perm_ext_iff_of_nodup hnodup s.nodup_visible]
  intro b
  rw [mem_visible, Flat.referents, List.mem_filterMap]
  constructor
  · rintro ⟨name, -, hb⟩
    rw [hresolve] at hb
    rwa [name_of_resolve hb]
  · intro hb
    refine ⟨b.name, ?_, by rw [hresolve, hb]⟩
    have hmem : b ∈ s.bindings := by
      rw [← hresolve] at hb
      exact List.mem_of_find?_eq_some hb
    exact List.mem_dedup.2 (List.mem_map_of_mem hmem)

/-- Writing back what is visible assigns to each name the value of what it refers to. -/
theorem IsStamped.bindings_assignAll_visible {u : Stack} (h : s.IsStamped) (hu : u.IsStamped) :
    (u.assignAll s.visible).bindings =
      Flat.assignAll u.bindings (Flat.referents s.bindings) := by
  rw [← assignAll_of_perm_visible h.perm_referents u, hu.bindings_assignAll]

/-- The visible bindings whose names another stack declares are counted by the names that have
bindings in both. -/
theorem IsStamped.countP_visible {u : Stack} (h : s.IsStamped) (hu : u.IsStamped) :
    (s.visible.countP fun b => (u.resolve b.name).isSome) = Flat.shared s.bindings u.bindings := by
  rw [Flat.shared, ← h.perm_referents.countP_eq]
  simp only [hu.resolve_bindings]

end Stack

end LexicalScope
