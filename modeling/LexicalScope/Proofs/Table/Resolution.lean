import Mathlib.Data.List.Basic
import LexicalScope.Table.Basic
import LexicalScope.Proofs.Stack.Names
import LexicalScope.Proofs.Stack.Outer

set_option autoImplicit false

/-!
# Resolution of names

A name is resolved in three ways: to its binding; to the position of its binding, among the
outermost frames; and together with all other names, to what is visible in the innermost frames.
Each way goes through the frames on its own. Here it is said, without any of them, where the
binding of a name is to be found, and that this is where all three find it.

## Main definitions

* `LexicalScope.Frame.Declares` — a frame has a binding of a name.
* `LexicalScope.Stack.FoundAt` — where the binding of a name stands among the outermost frames.
* `LexicalScope.Stack.keepUnseen` — one step of gathering the first binding of each name.

## Main results

* `LexicalScope.Stack.foundAt_outside_iff` — the position and the binding of a name are what is to
  be found among the outermost frames.
* `LexicalScope.Stack.firstOfEachName_eq_foldl` — the first binding of each name is gathered by
  going through the bindings once and keeping those whose names were not seen yet.
* `LexicalScope.Stack.pairwise_findIdx_firstOfEachName` — the first bindings of all names stand in
  the order in which the names occur for the first time.
* `LexicalScope.Table.resolutions_agree` — the three ways agree.
-/

namespace LexicalScope

/-! ## Where a binding is to be found -/

namespace Frame

/-- Some binding of the frame has the name. -/
def Declares (f : Frame) (name : String) : Prop :=
  ∃ b ∈ f.bindings, b.name = name

/-- The binding `b` stands at `index` in the frame, and is the first that has the name. -/
structure IsFirst (f : Frame) (name : String) (index : Nat) (b : Binding) : Prop where
  /-- The binding stands there. -/
  at_index : f.bindings[index]? = some b
  /-- It has the name. -/
  name_eq : b.name = name
  /-- No older one has it. -/
  name_ne : ∀ j c, j < index → f.bindings[j]? = some c → c.name ≠ name

/-- A frame declares a name exactly if the name finds something in it. -/
lemma declares_iff (f : Frame) (name : String) :
    f.Declares name ↔ (f.find? name).isSome = true := by
  rw [find?, List.find?_isSome]
  simp [Declares]

/-- The index of a name and what is found under it are those of the first binding of the name. -/
lemma isFirst_iff (f : Frame) (name : String) (i : Nat) (b : Binding) :
    f.IsFirst name i b ↔ f.index? name = some i ∧ f.find? name = some b := by
  constructor
  · rintro ⟨hb, hname, hbefore⟩
    obtain ⟨hi, rfl⟩ := List.getElem?_eq_some_iff.1 hb
    have hindex : f.index? name = some i := by
      rw [index?, List.findIdx?_eq_some_iff_getElem]
      refine ⟨hi, by simpa using hname, ?_⟩
      intro j hj
      simpa using hbefore j _ hj (List.getElem?_eq_getElem (hj.trans hi))
    exact ⟨hindex, (f.getElem?_index? name hindex).symm.trans hb⟩
  · rintro ⟨hindex, hfind⟩
    refine ⟨(f.getElem?_index? name hindex).trans hfind, name_of_find? hfind, ?_⟩
    rw [index?, List.findIdx?_eq_some_iff_getElem] at hindex
    obtain ⟨hi, -, hbefore⟩ := hindex
    intro j c hj hc
    obtain ⟨hlt, rfl⟩ := List.getElem?_eq_some_iff.1 hc
    simpa using hbefore j hj

end Frame

namespace Stack

/-- Among the `limit` outermost frames of the stack, counted from the root, the binding of `name` is
`b` and stands at `p`. -/
structure FoundAt (s : Stack) (limit : Nat) (name : String) (p : Position) (b : Binding) :
    Prop where
  /-- The frame at the depth of the position is one of the outermost. -/
  depth_lt : p.depth < limit
  /-- The binding is the first of the name in this frame. -/
  first : ∃ f, s.reverse[p.depth]? = some f ∧ f.IsFirst name p.index b
  /-- No frame inside of this one declares the name. -/
  innermost : ∀ d f, p.depth < d → d < limit → s.reverse[d]? = some f → ¬ f.Declares name

variable {s : Stack} {name : String} {p : Position} {b : Binding}

/-- A frame that declares the name is where its binding is found, if it is the innermost. -/
lemma foundAt_cons_of_index? {f : Frame} {i : Nat} (h : f.index? name = some i) :
    FoundAt (f :: s) (s.length + 1) name p b ↔ p = ⟨s.length, i⟩ ∧ f.find? name = some b := by
  have htop : (f :: s).reverse[s.length]? = some f := by
    rw [List.reverse_cons, ← List.length_reverse, List.getElem?_concat_length]
  constructor
  · rintro ⟨hlt, ⟨g, hg, hfirst⟩, hinner⟩
    have hdeclares : f.Declares name := by
      rw [f.declares_iff, ← f.isSome_index?, h, Option.isSome_some]
    have hdepth : p.depth = s.length := by
      -- a frame further out would not be the innermost one that declares the name
      by_contra hne
      exact hinner s.length f (by omega) (by omega) htop hdeclares
    rw [hdepth, htop, Option.some.injEq] at hg
    subst hg
    obtain ⟨hindex, hfind⟩ := (f.isFirst_iff name p.index b).1 hfirst
    rw [h, Option.some.injEq] at hindex
    exact ⟨by rw [hindex, ← hdepth], hfind⟩
  · rintro ⟨rfl, hfind⟩
    refine ⟨Nat.lt_succ_self _, ⟨f, htop, (f.isFirst_iff name i b).2 ⟨h, hfind⟩⟩, ?_⟩
    intro d g hd hlimit
    exact absurd hd (by show ¬ s.length < d; omega)

/-- A frame that does not declare the name leaves it to the outer frames. -/
lemma foundAt_cons_of_index?_eq_none {f : Frame} (h : f.index? name = none) :
    FoundAt (f :: s) (s.length + 1) name p b ↔ s.FoundAt s.length name p b := by
  have houter : ∀ d, d < s.length → (f :: s).reverse[d]? = s.reverse[d]? := by
    intro d hd
    rw [List.reverse_cons, List.getElem?_append_left (by rwa [List.length_reverse])]
  have htop : (f :: s).reverse[s.length]? = some f := by
    rw [List.reverse_cons, ← List.length_reverse, List.getElem?_concat_length]
  have hnot : ¬ f.Declares name := by
    rw [f.declares_iff, ← f.isSome_index?, h]
    simp
  constructor
  · rintro ⟨hlt, ⟨g, hg, hfirst⟩, hinner⟩
    have hdepth : p.depth < s.length := by
      by_contra hge
      have heq : p.depth = s.length := by omega
      rw [heq, htop, Option.some.injEq] at hg
      subst hg
      exact hnot ⟨b, List.mem_of_getElem? hfirst.at_index, hfirst.name_eq⟩
    refine ⟨hdepth, ⟨g, houter p.depth hdepth ▸ hg, hfirst⟩, ?_⟩
    intro d g' hd hlimit hg'
    exact hinner d g' hd (by omega) (by rwa [houter d hlimit])
  · rintro ⟨hlt, ⟨g, hg, hfirst⟩, hinner⟩
    refine ⟨by omega, ⟨g, by rwa [houter p.depth hlt], hfirst⟩, ?_⟩
    intro d g' hd hlimit hg'
    by_cases hds : d < s.length
    · exact hinner d g' hd hds (by rwa [← houter d hds])
    · have heq : d = s.length := by omega
      rw [heq, htop, Option.some.injEq] at hg'
      exact hg' ▸ hnot

/-- The position of a name, and the binding that it refers to, are what is to be found in the stack.

**Proof sketch.** Induction on the stack. If the innermost frame declares the name, nothing else can
be found, and otherwise the outer frames decide. -/
theorem foundAt_iff (s : Stack) (name : String) (p : Position) (b : Binding) :
    s.FoundAt s.length name p b ↔ s.locate name = some p ∧ s.resolve name = some b := by
  induction s with
  | nil =>
    refine iff_of_false ?_ (by simp [locate])
    rintro ⟨hlt, -, -⟩
    exact Nat.not_lt_zero _ hlt
  | cons f s ih =>
    have hsome := f.isSome_index? name
    rw [List.length_cons, locate, resolve_cons]
    cases hf : f.index? name with
    | some i =>
      rw [foundAt_cons_of_index? hf]
      rw [hf, Option.isSome_some] at hsome
      obtain ⟨c, hc⟩ := Option.isSome_iff_exists.1 hsome.symm
      rw [hc, Option.some_or, Option.some.injEq, eq_comm]
      simp only [Option.some.injEq]
    | none =>
      rw [foundAt_cons_of_index?_eq_none hf, ih]
      rw [hf, Option.isSome_none] at hsome
      have hnone : f.find? name = none := by simpa using hsome.symm
      rw [hnone, Option.none_or]

/-! ## Outer and inner frames -/

/-- Counted from the root, the frames outside of a level come first. -/
lemma reverse_outside (s : Stack) (level : Nat) :
    (s.outside level).reverse = s.reverse.take level := by
  rw [outside, List.reverse_drop]
  by_cases h : level ≤ s.length
  · rw [Nat.sub_sub_self h]
  · rw [List.take_of_length_le, List.take_of_length_le] <;> simp <;> omega

/-- Counted from the root, the frames inside of a level come last. -/
lemma reverse_inside (s : Stack) (level : Nat) :
    (s.inside level).reverse = s.reverse.drop level := by
  rw [inside, List.reverse_take]
  by_cases h : level ≤ s.length
  · rw [Nat.sub_sub_self h]
  · rw [List.drop_of_length_le, List.drop_of_length_le] <;> simp <;> omega

variable {limit : Nat}

/-- Among the outermost frames, the same is found as in the stack that has only these. -/
lemma foundAt_outside :
    (s.outside limit).FoundAt limit name p b ↔ s.FoundAt limit name p b := by
  have hframe : ∀ d, d < limit → (s.outside limit).reverse[d]? = s.reverse[d]? := by
    intro d hd
    rw [reverse_outside, List.getElem?_take_of_lt hd]
  constructor
  · rintro ⟨hlt, ⟨f, hf, hfirst⟩, hinner⟩
    refine ⟨hlt, ⟨f, hframe p.depth hlt ▸ hf, hfirst⟩, ?_⟩
    intro d g hd hlimit hg
    exact hinner d g hd hlimit ((hframe d hlimit).trans hg)
  · rintro ⟨hlt, ⟨f, hf, hfirst⟩, hinner⟩
    refine ⟨hlt, ⟨f, (hframe p.depth hlt).trans hf, hfirst⟩, ?_⟩
    intro d g hd hlimit hg
    exact hinner d g hd hlimit (hframe d hlimit ▸ hg)

/-- The position of a name among the outermost frames, and the binding that it refers to there, are
what is to be found. -/
theorem foundAt_outside_iff (h : limit ≤ s.length) :
    s.FoundAt limit name p b ↔
      (s.outside limit).locate name = some p ∧ (s.outside limit).resolve name = some b := by
  have hwhole := (s.outside limit).foundAt_iff name p b
  rwa [length_outside s h, foundAt_outside] at hwhole

/-- A name refers to something exactly if some frame declares it. -/
lemma isSome_resolve_iff_declares (s : Stack) (name : String) :
    (s.resolve name).isSome = true ↔ ∃ f ∈ s.reverse, f.Declares name := by
  induction s with
  | nil => simp
  | cons f s ih =>
    rw [resolve_cons, Option.isSome_or, Bool.or_eq_true, ← f.declares_iff, ih, List.reverse_cons]
    simp [or_comm]

/-! ## Gathering what is visible -/

/-- The bindings gathered so far, with another one if its name was not seen yet. -/
def keepUnseen (seen : List Binding) (b : Binding) : List Binding :=
  if seen.any fun c => c.name == b.name then seen else seen ++ [b]

/-- What is gathered after some bindings are the first bindings of the names that these have not.

**Proof sketch.** Induction on the bindings. A binding that is passed over has a name that was seen;
one that is kept makes its own name one that was seen, so the others of the name are left out. -/
lemma foldl_keepUnseen (seen bs : List Binding) :
    bs.foldl keepUnseen seen =
      seen ++ (firstOfEachName bs).filter fun b => !seen.any fun c => c.name == b.name := by
  induction bs generalizing seen with
  | nil => simp [firstOfEachName]
  | cons b bs ih =>
    rw [List.foldl_cons, ih, firstOfEachName, List.filter_cons, List.filter_filter, keepUnseen]
    by_cases hb : (seen.any fun c => c.name == b.name) = true
    · -- a name that was not seen is not that of `b`
      have hpass : ∀ c : Binding, ((!seen.any fun d => d.name == c.name) && (c.name != b.name)) =
          !seen.any fun d => d.name == c.name := by
        intro c
        by_cases hc : c.name = b.name
        · simp only [hc, hb, Bool.not_true, Bool.false_and]
        · simp [hc]
      simp only [hb, hpass, if_true, Bool.not_true, Bool.false_eq_true, if_false]
    · have hpass : ∀ c : Binding, (!(seen ++ [b]).any fun d => d.name == c.name) =
          ((!seen.any fun d => d.name == c.name) && (c.name != b.name)) := by
        intro c
        simp [bne, Bool.beq_comm (a := b.name)]
      rw [if_neg hb, if_pos (by simpa using hb), List.append_assoc, List.singleton_append]
      simp only [hpass]

/-- The first binding of each name is gathered by going through the bindings once and keeping those
whose names were not seen yet. -/
theorem firstOfEachName_eq_foldl (bs : List Binding) :
    firstOfEachName bs = bs.foldl keepUnseen [] := by
  rw [foldl_keepUnseen]
  simp

/-- The first bindings of all names stand in the order in which their names first occur. -/
theorem pairwise_findIdx_firstOfEachName (bs : List Binding) :
    (firstOfEachName bs).Pairwise fun b c =>
      (bs.findIdx fun d => d.name == b.name) < bs.findIdx fun d => d.name == c.name := by
  induction bs with
  | nil => exact List.Pairwise.nil
  | cons b bs ih =>
    have hself : ((b :: bs).findIdx fun d => d.name == b.name) = 0 := by
      simp [List.findIdx_cons]
    have hother : ∀ c : Binding, c.name ≠ b.name →
        ((b :: bs).findIdx fun d => d.name == c.name) =
          (bs.findIdx fun d => d.name == c.name) + 1 := by
      intro c hc
      have hne : (b.name == c.name) = false := by simpa using Ne.symm hc
      rw [List.findIdx_cons, hne, cond_false]
    rw [firstOfEachName, List.pairwise_cons]
    refine ⟨?_, ?_⟩
    · intro c hc
      rw [hself, hother c (by simpa using (List.mem_filter.1 hc).2)]
      exact Nat.succ_pos _
    · rw [List.pairwise_filter]
      refine ih.imp ?_
      intro c d hlt hc hd
      rw [hother c (by simpa using hc), hother d (by simpa using hd)]
      omega

/-- Of the visible bindings, the ones with a name are the one that the name refers to. -/
lemma filter_visible (s : Stack) (name : String) :
    (s.visible.filter fun b => b.name == name) = (s.resolve name).toList := by
  rw [← find?_visible]
  have hnames := pairwise_visible s
  generalize s.visible = bs at hnames ⊢
  induction bs with
  | nil => rfl
  | cons b bs ih =>
    obtain ⟨hb, hbs⟩ := List.pairwise_cons.1 hnames
    by_cases hname : b.name = name
    · have hnone : (bs.filter fun c => c.name == name) = [] := by
        rw [List.filter_eq_nil_iff]
        intro c hc
        simpa [← hname] using Ne.symm (hb c hc)
      rw [List.filter_cons_of_pos (by simpa using hname), hnone,
        List.find?_cons_of_pos (by simpa using hname), Option.toList_some]
    · rw [List.filter_cons_of_neg (by simpa using hname), ih hbs,
        List.find?_cons_of_neg (by simpa using hname)]

end Stack

/-! ## Agreement -/

namespace Table

/-- **The resolutions of names agree.** Let `F` be the frames of a table, counted from the root.

* Among the first `limit` frames of `F`, a name is located exactly if one of them declares it. The
  position, and what the name refers to in the table that has only these frames, are given by the
  innermost frame that declares the name, and the first binding of the name in this frame. If
  `limit` counts all frames, that table is the whole one.
* What is visible from `base` inward has one binding for each name that is declared there, and none
  for any other name: the one that the name refers to in the table that has only these frames. The
  bindings stand in the order in which their names occur for the first time as one goes through the
  frames, the innermost first. They are gathered by going through them once and keeping the bindings
  whose names were not seen yet. -/
theorem resolutions_agree (t : Table) {F : List Frame} (hF : F = t.stack.reverse) :
    (∀ limit ≤ F.length, ∃ cut : Table, cut = { t with stack := (F.take limit).reverse } ∧
      (limit = F.length → cut = t) ∧
      cut.stack = t.stack.outside limit ∧
      ∀ name,
        (((t.stack.outside limit).locate name).isSome = true ↔
          ∃ f ∈ F.take limit, f.Declares name) ∧
        ∀ p, ((t.stack.outside limit).locate name = some p →
            ∃ b, t.stack.FoundAt limit name p b) ∧
          ∀ b, t.stack.FoundAt limit name p b →
            (t.stack.outside limit).locate name = some p ∧ cut.resolve name = some b) ∧
    ∀ base ≤ F.length, ∃ cut : Table, cut = { t with stack := (F.drop base).reverse } ∧
      cut.stack = t.stack.inside base ∧
      (∀ name,
        ((∃ b ∈ (t.stack.inside base).visible, b.name = name) ↔
          ∃ f ∈ F.drop base, f.Declares name) ∧
        ((t.stack.inside base).visible.filter fun b => b.name == name) =
          (cut.resolve name).toList) ∧
      ((t.stack.inside base).visible.Pairwise fun b c =>
        (cut.stack.scan.findIdx fun d => d.name == b.name) <
          cut.stack.scan.findIdx fun d => d.name == c.name) ∧
      (t.stack.inside base).visible = cut.stack.scan.foldl Stack.keepUnseen [] := by
  subst hF
  refine ⟨?_, ?_⟩
  · intro limit hlimit
    rw [List.length_reverse] at hlimit ⊢
    rw [← Stack.reverse_outside, List.reverse_reverse]
    refine ⟨_, rfl, ?_, rfl, fun name => ⟨?_, fun p => ⟨?_, ?_⟩⟩⟩
    · rintro rfl
      rw [Stack.outside_length]
    · rw [Stack.isSome_locate, Stack.isSome_resolve_iff_declares]
    · intro hp
      obtain ⟨b, hb⟩ := Stack.exists_resolve_of_locate hp
      exact ⟨b, (Stack.foundAt_outside_iff hlimit).2 ⟨hp, hb⟩⟩
    · exact fun b => (Stack.foundAt_outside_iff hlimit).1
  · intro base _
    rw [← Stack.reverse_inside, List.reverse_reverse]
    refine ⟨_, rfl, rfl, fun name => ⟨?_, Stack.filter_visible _ name⟩, ?_, ?_⟩
    · rw [← Stack.isSome_resolve_iff_declares, ← Stack.mem_names, ← Stack.mem_map_visible,
        List.mem_map]
    · exact Stack.pairwise_findIdx_firstOfEachName _
    · exact Stack.firstOfEachName_eq_foldl _

/-- A table that declares `x` twice in its second frame, which the third one shadows. Among the
first two frames `x` is located at the first of the two, and this is what `x` refers to without the
third frame; from the second frame inward the `x` of the third is visible, and no other. -/
theorem resolutions_agree_shadowed :
    ∃ t cut inner : Table,
      t = ⟨[⟨2, [⟨"y", "int", "5", 2⟩, ⟨"x", "int", "4", 2⟩]⟩,
        ⟨1, [⟨"z", "int", "3", 1⟩, ⟨"x", "int", "2", 1⟩, ⟨"x", "str", "1", 1⟩]⟩,
        ⟨0, [⟨"x", "int", "0", 0⟩]⟩], 0, .quiet⟩ ∧
      cut.stack = t.stack.outside 2 ∧ inner.stack = t.stack.inside 1 ∧
      t.stack.FoundAt 2 "x" ⟨1, 1⟩ ⟨"x", "int", "2", 1⟩ ∧
      cut.resolve "x" = some ⟨"x", "int", "2", 1⟩ ∧
      ((t.stack.inside 1).visible.filter fun b => b.name == "x") = [⟨"x", "int", "4", 2⟩] ∧
      ((t.stack.inside 1).visible.Pairwise fun b c =>
        (inner.stack.scan.findIdx fun d => d.name == b.name) <
          inner.stack.scan.findIdx fun d => d.name == c.name) ∧
      inner.stack.scan.foldl Stack.keepUnseen [] =
        [⟨"y", "int", "5", 2⟩, ⟨"x", "int", "4", 2⟩, ⟨"z", "int", "3", 1⟩] := by
  obtain ⟨hlocate, hvisible⟩ := resolutions_agree
    ⟨[⟨2, [⟨"y", "int", "5", 2⟩, ⟨"x", "int", "4", 2⟩]⟩,
      ⟨1, [⟨"z", "int", "3", 1⟩, ⟨"x", "int", "2", 1⟩, ⟨"x", "str", "1", 1⟩]⟩,
      ⟨0, [⟨"x", "int", "0", 0⟩]⟩], 0, .quiet⟩ rfl
  obtain ⟨cut, hcut, -, hstack, hname⟩ := hlocate 2 (by decide)
  obtain ⟨b, hb⟩ := ((hname "x").2 ⟨1, 1⟩).1 (by decide)
  have hresolve := (((hname "x").2 ⟨1, 1⟩).2 b hb).2
  obtain rfl : b = ⟨"x", "int", "2", 1⟩ := by
    subst hcut
    exact Option.some.inj (hresolve.symm.trans (by decide))
  obtain ⟨inner, hinner, hstack', hnames, horder, hgather⟩ := hvisible 1 (by decide)
  refine ⟨_, cut, inner, rfl, hstack, hstack', hb, hresolve, (hnames "x").2.trans ?_, horder,
    hgather.symm.trans ?_⟩
  · subst hinner
    decide
  · decide

end Table

end LexicalScope
