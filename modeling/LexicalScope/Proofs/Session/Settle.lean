import Mathlib.Data.List.Basic
import LexicalScope.Proofs.Session.Bracket

set_option autoImplicit false

/-!
# Settling children

A loop body runs in a child of the table. At its end the child writes back and is closed, which
*settles* it: the table goes on outside of the child, with the values that its names had inside.
Children that are opened one inside of the other are settled from the innermost outward.

## Main definitions

* `LexicalScope.Table.Carries` — a table is what lies outside of a level of another one, with
  the values that its names have there.
* `LexicalScope.Table.settle` — writes back and closes children, one after the other.
* `LexicalScope.Turn.ExchangesBelow` — the table of a slot is exchanged only while no more than
  some number of children are open on the slot.
* `LexicalScope.Session.FitsTogether` — the children of a slot that were opened inside of these
  hand on the floor.

## Main results

* `LexicalScope.Child.exists_settled` — settling a child carries values to the outside.
* `LexicalScope.Table.exists_settle` — so does settling children that fit together.
* `LexicalScope.Session.FitsTogether.move` — children go on to fit together if the table under them
  is not exchanged.
* `LexicalScope.Session.settled_children_carry_values` — settling the children of a slot carries
  values outward, from the innermost through all others under which the table was not exchanged.
-/

namespace LexicalScope

/-! ## Carried values -/

/-- `t'` is what lies outside of a level of `t`, up to values, and its names have the values that
they have in `t`. -/
structure Table.Carries (level : Nat) (t t' : Table) : Prop where
  /-- The frames are those outside of the level: levels, names, types and order are the same. -/
  shape : t'.stack.shape = (t.stack.outside level).shape
  /-- A name that is declared outside refers to the same binding as there, with the value that it
  has in `t`. -/
  value : ∀ name b, (t.stack.outside level).resolve name = some b →
    t'.stack.locate name = (t.stack.outside level).locate name ∧
      ∃ r, t.resolve name = some r ∧ t'.resolve name = some (b.setValue r.value)
  /-- Every other name refers to nothing. -/
  unbound : ∀ name, (t.stack.outside level).resolve name = none → t'.resolve name = none

namespace Table

/-- A table of the shape of what lies outside of a level carries values from there if its names
have them. -/
lemma carries_of_shape {level : Nat} {t t' : Table}
    (hshape : t'.stack.shape = (t.stack.outside level).shape)
    (hvalue : ∀ name b, (t.stack.outside level).resolve name = some b →
      ∃ r, t.resolve name = some r ∧ t'.resolve name = some (b.setValue r.value)) :
    t.Carries level t' where
  shape := hshape
  value := by
    intro name b hb
    exact ⟨Stack.locate_congr hshape name, hvalue name b hb⟩
  unbound := by
    intro name hnone
    rw [resolve, ← Stack.locate_eq_none_iff, Stack.locate_congr hshape,
      Stack.locate_eq_none_iff, hnone]

/-- Values that are carried across a level, and from there across one further outside, are
carried across both.

**Proof sketch.** What lies outside of the further level is outside of the other one too, so each
of its names has, after the first transfer, the value from the start. The binding that the name
refers to may have got another value in the first transfer, but the second overwrites it. -/
lemma Carries.trans {t u v : Table} {level further : Nat} (h : t.Carries level u)
    (h' : u.Carries further v) (hle : further ≤ level) (hlen : level ≤ t.stack.length) :
    t.Carries further v := by
  have hcut : (t.stack.outside level).outside further = t.stack.outside further :=
    Stack.outside_outside hle hlen
  have hshape : (u.stack.outside further).shape = (t.stack.outside further).shape := by
    rw [Stack.shape_outside, h.shape, ← Stack.shape_outside, hcut]
  apply carries_of_shape (h'.shape.trans hshape)
  intro name b hb
  obtain ⟨b', hb', hbb'⟩ := Stack.exists_resolve_of_shape hshape.symm hb
  obtain ⟨b₁, hb₁⟩ : ∃ b₁, (t.stack.outside level).resolve name = some b₁ := by
    apply Option.isSome_iff_exists.1
    rw [← Stack.inside_append_outside (t.stack.outside level) further, hcut,
      Stack.resolve_append, Option.isSome_or, hb, Option.isSome_some, Bool.or_true]
  obtain ⟨-, r, hr, hu⟩ := h.value name b₁ hb₁
  obtain ⟨-, r', hr', hv⟩ := h'.value name b' hb'
  rw [hu, Option.some.injEq] at hr'
  refine ⟨r, hr, ?_⟩
  rw [hv, ← hr', Binding.value_setValue, Binding.setValue_eq_of_shape hbb']

end Table

/-- **Settling a child.** A child of a table that has all frames outside of it can write back and
be closed. The write-back counts the names that are declared both inside and outside, and
together they carry the values to the outside.

**Proof sketch.** The write-back assigns what is visible inside to the outside, and closing keeps
the outside. A name that the inside declares has its value from there both before, because the
inside is searched first, and afterwards. A name that only the outside declares is left alone. -/
theorem Child.exists_settled {c : Child} {t : Table} (h : c.base ≤ t.stack.length) :
    ∃ w e, c.writeBack t = some w ∧ c.close w.table = some e ∧
      w.answer = ((t.stack.inside c.base).names ∩ (t.stack.outside c.base).names).card ∧
      e.table.stack.length = c.base ∧ t.Carries c.base e.table := by
  obtain ⟨w, hw, hanswer, htable⟩ := Table.writeBack_of_le h
  set written := (t.stack.outside c.base).assignAll (t.stack.inside c.base).visible with hwritten
  have hlen : written.length = (t.stack.outside c.base).length := Stack.length_assignAll _ _
  have hbase : c.base ≤ w.table.stack.length := by
    rw [htable]
    simp only [List.length_append, hlen]
    rw [Stack.length_outside _ h]
    omega
  obtain ⟨e, he, -, hclosed⟩ := Child.close_of_le hbase
  have houtside : e.table.stack = written := by
    rw [hclosed, htable]
    exact Stack.outside_append_of_length hlen
  refine ⟨w, e, hw, he, hanswer, ?_, ?_⟩
  · rw [houtside, hlen, Stack.length_outside _ h]
  · apply Table.carries_of_shape
    · rw [houtside, hwritten, Stack.shape_assignAll]
    · intro name b hb
      have hbefore : t.resolve name = ((t.stack.inside c.base).resolve name).or (some b) := by
        rw [← hb, ← Stack.resolve_append, Stack.inside_append_outside]
        rfl
      rw [hbefore, Table.resolve, houtside, hwritten, Stack.resolve_assignAll_visible, hb]
      cases (t.stack.inside c.base).resolve name with
      | none => exact ⟨b, rfl, rfl⟩
      | some r => exact ⟨r, rfl, rfl⟩

/-! ## Children that fit together -/

/-- Lets each of the children, the innermost first, write back, and closes it. -/
def Table.settle (t : Table) : List Child → Option Table
  | [] => some t
  | c :: cs =>
    match c.writeBack t with
    | none => none
    | some w =>
      match c.close w.table with
      | none => none
      | some e => settle e.table cs

/-- **Settling children** that fit together carries the values from the innermost of them across
the level of the outermost.

**Proof sketch.** Induction on the children inside of the outermost one. Settling the innermost
leaves as many frames as its base says, which is above the base of the next one because that is
the floor that the innermost saved. -/
theorem Table.exists_settle {ground : Nat} {inner : List Child} {c : Child} {outer : List Child}
    {t : Table} (hchain : IsChain ground (inner ++ c :: outer))
    (hle : floorOver ground (inner ++ c :: outer) ≤ t.stack.length) :
    c.base ≤ floorOver ground (inner ++ c :: outer) ∧
      ∃ t', t.settle (inner ++ [c]) = some t' ∧ t.Carries c.base t' := by
  induction inner generalizing t with
  | nil =>
    obtain ⟨w, e, hw, he, -, -, hcarries⟩ := Child.exists_settled hle
    refine ⟨le_refl _, e.table, ?_, hcarries⟩
    simp only [settle, List.nil_append, hw, he]
  | cons d inner ih =>
    rw [List.cons_append, floorOver_cons] at hle
    obtain ⟨hsaved, hlt, hrest⟩ := hchain
    obtain ⟨w, e, hw, he, -, hlen, hcarries⟩ := Child.exists_settled hle
    have hnext : floorOver ground (inner ++ c :: outer) ≤ e.table.stack.length := by
      rw [hlen]
      exact hsaved.ge.trans hlt.le
    obtain ⟨hbase, t', ht', hcarries'⟩ := ih hrest hnext
    rw [hlen] at hnext
    refine ⟨hbase.trans hnext, t', ?_, hcarries.trans hcarries' (hbase.trans hnext) hle⟩
    simp only [List.cons_append, settle, hw, he, ht']

/-! ## Runs that exchange no table under its children -/

/-- The move exchanges the table of the slot only while no more than `n` children are open on the
slot. -/
def Turn.ExchangesBelow (slot n : Nat) (x : Turn) : Prop :=
  x.move.Exchanges slot → (x.before.childrenAt slot).length ≤ n

namespace Session

/-- The session is valid, and the children of the slot, if it has a table, fit together, except for
at most `n` outermost ones: the site is inside of a bracket that has these outside of it. -/
def FitsTogether (slot n : Nat) (u : Session) : Prop :=
  u.Valid ∧ ∀ x, u.site? slot = some x →
    ∃ ground context below, below.length ≤ n ∧ x.IsWithin [] ground context below

variable {slot n : Nat}

/-- Where no more than `n` children are open, nothing has to fit together. -/
lemma fitsTogether_of_length_le {u : Session} (hu : u.Valid)
    (hn : (u.childrenAt slot).length ≤ n) : u.FitsTogether slot n := by
  refine ⟨hu, fun x hx => ⟨_, _, x.children, ?_, Site.isWithin_self (hu.of_site? hx)⟩⟩
  rw [children_of_site? hx]
  exact hn

/-- An exchange of tables leaves the children of a slot open. -/
lemma childrenAt_swap (s : Session) (first second slot : Nat) :
    (s.step (.swap first second)).session.childrenAt slot = s.childrenAt slot := by
  rw [childrenAt, childrenAt, children_swap]

/-- A move that does not exchange the table under them leaves children that fit together.

**Proof sketch.** An exchange of the table needs a slot with no more than `n` children, and there
nothing has to fit together. All other moves act on the site. An action that closes one of the
children outside of the bracket leaves no others open, and a new bracket begins. -/
theorem FitsTogether.move {x : Turn} (h : x.before.FitsTogether slot n)
    (hrule : x.ExchangesBelow slot n) : x.outcome.session.FitsTogether slot n := by
  obtain ⟨s, m⟩ := x
  obtain ⟨hvalid, hfits⟩ := h
  by_cases hswap : m.Exchanges slot
  · apply fitsTogether_of_length_le (hvalid.move m)
    have hfew := hrule hswap
    cases m with
    | step step =>
      cases step with
      | swap first second =>
        rw [Session.move, childrenAt_swap]
        exact hfew
      | _ => exact hswap.elim
    | closeOn k => exact hswap.elim
  · refine ⟨hvalid.move m, fun y hy => ?_⟩
    rw [Turn.outcome, site?_move s hswap] at hy
    obtain ⟨z, hz, rfl⟩ := Option.map_eq_some_iff.1 hy
    obtain ⟨ground, context, below, hbelow, hin⟩ := hfits z hz
    obtain ⟨ground', context', below', hle, hin'⟩ :=
      hin.exists_act (hvalid.of_site? hz) (hvalid.children_of_site? hz) (s.actionOf slot m)
    exact ⟨ground', context', below', hle.trans hbelow, hin'⟩

/-- The children that fit together hand on the floor, which lies below the number of frames. -/
theorem FitsTogether.exists_chain {u : Session} (h : u.FitsTogether slot n) {t : Table}
    (ht : u.tables[slot]? = some t) {inner : List Child} {c : Child} {outer : List Child}
    (hchildren : u.childrenAt slot = inner ++ c :: outer) (hn : n ≤ outer.length) :
    ∃ ground between, IsChain ground (inner ++ c :: between) ∧
      floorOver ground (inner ++ c :: between) < t.stack.length := by
  obtain ⟨hvalid, hfits⟩ := h
  obtain ⟨ground, context, below, hbelow, hin⟩ := hfits _ (site?_of_some ht)
  obtain ⟨inside, hinside, hfloor, hchain, -⟩ := hin.floors
  -- those outside of the bracket are among those outside of `c`
  have hsuffix : below <:+ u.childrenAt slot := ⟨inside, hinside.symm⟩
  have houter : outer <:+ u.childrenAt slot :=
    ⟨inner ++ [c], by rw [hchildren, List.append_assoc, List.singleton_append]⟩
  obtain ⟨between, rfl⟩ := List.suffix_of_suffix_length_le hsuffix houter (hbelow.trans hn)
  obtain rfl : inside = inner ++ c :: between := by
    have heq : inside ++ below = (inner ++ c :: between) ++ below := by
      rw [← hinside, List.append_assoc, List.cons_append]
      exact hchildren
    exact List.append_cancel_right heq
  have hlt := (hvalid.tables t (List.mem_of_getElem? ht)).floor_lt
  exact ⟨ground, between, hchain, hfloor ▸ hlt⟩

/-- The current frame of a table is not outside of its innermost child, if this fits together. -/
lemma FitsTogether.base_lt_length {u : Session} (h : u.FitsTogether slot n) {t : Table}
    (ht : u.tables[slot]? = some t) {c : Child} (hc : u.child? slot = some c)
    (hn : n < (u.childrenAt slot).length) : c.base < t.stack.length := by
  rw [child?_eq_head?] at hc
  obtain ⟨outer, houter⟩ := List.head?_eq_some_iff.1 hc
  rw [houter, List.length_cons] at hn
  rw [← List.nil_append (c :: outer)] at houter
  obtain ⟨ground, between, -, hlt⟩ := h.exists_chain ht houter (Nat.le_of_lt_succ hn)
  exact hlt

/-- **Settled children carry values outward.** Take any session that is reached, in whatever order
children were closed, in which no more than `n` children are open on a slot, and a run from there
that exchanges the table of the slot only while no more than `n` children are open on the slot.
Then for the children that are open on the slot at the end, but for the `n` outermost ones:

* if the innermost child of the slot is one of these, it can write back and be closed; this counts
  the names that are declared both inside and outside of it, and leaves the outside with the values
  that the names declared there had inside;
* each of them and the children inside of it can write back and be closed, the innermost first;
  this leaves the outside of the child with the values that the names declared there had inside of
  the innermost one.

With `n = 0` these are all children of the slot, opened since the slot was last idle. -/
theorem settled_children_carry_values {s : Session} (hs : s.ReachableInAnyOrder) {slot n : Nat}
    (hn : (s.childrenAt slot).length ≤ n) {ms : List Move}
    (hrule : ∀ x ∈ s.turns ms, x.ExchangesBelow slot n) {u : Session} (hu : u = s.ending ms)
    {t : Table} (ht : u.tables[slot]? = some t) :
    (∀ c, u.child? slot = some c → n < (u.childrenAt slot).length →
      ∃ w e, c.writeBack t = some w ∧ c.close w.table = some e ∧
        w.answer = ((t.stack.inside c.base).names ∩ (t.stack.outside c.base).names).card ∧
        t.Carries c.base e.table) ∧
    ∀ inner c outer, u.childrenAt slot = inner ++ c :: outer → n ≤ outer.length →
      ∃ t', t.settle (inner ++ [c]) = some t' ∧ t.Carries c.base t' := by
  have hfits : u.FitsTogether slot n :=
    hu ▸ ending_induction (fun _ h hturn => h.move hturn) (fitsTogether_of_length_le hs.valid hn)
      hrule
  refine ⟨?_, ?_⟩
  · intro c hc hlt
    obtain ⟨w, e, hw, he, hanswer, -, hcarries⟩ :=
      Child.exists_settled (hfits.base_lt_length ht hc hlt).le
    exact ⟨w, e, hw, he, hanswer, hcarries⟩
  · intro inner c outer hchildren hle
    obtain ⟨ground, between, hchain, hfloor⟩ := hfits.exists_chain ht hchildren hle
    exact (Table.exists_settle hchain hfloor.le).2

/-- A table that came to its slot by an exchange under an open child, and two nested children that
were opened on it since, the inner one with a deeper scope that redeclares the loop variable of the
table. Other tables are exchanged meanwhile, and an older child of another slot is closed before
these two. The value of the loop variable reaches the table through both children, and `n`, which
only the table declares, keeps its value. -/
theorem settled_children_carry_values_nested :
    ∃ s u t, s = (ofContexts [.traced, .quiet, .traced]).ending
        [.step (.openChild 0), .step (.openChild 1), .step (.swap 0 1)] ∧
      u = s.ending
        [.step (.edit 0 (.insert "i" "int" "0")), .step (.edit 0 (.insert "n" "int" "9")),
          .step (.openChild 0), .step (.seed 0), .step (.swap 1 2), .step (.openChild 0),
          .closeOn 1, .step (.edit 0 .enter), .step (.edit 0 (.insert "i" "str" "2"))] ∧
      u.tables[0]? = some t ∧ u.childrenAt 0 = [⟨3, 2, false⟩, ⟨2, 1, false⟩, ⟨1, 0, true⟩] ∧
      (∃ w e, (Child.mk 3 2 false).writeBack t = some w ∧
        (Child.mk 3 2 false).close w.table = some e ∧ w.answer = 1 ∧ t.Carries 3 e.table) ∧
      ∃ t', t.settle [⟨3, 2, false⟩, ⟨2, 1, false⟩] = some t' ∧ t.Carries 2 t' ∧
        t'.resolve "i" = some ⟨"i", "int", "2", 1⟩ ∧
        t'.resolve "n" = some ⟨"n", "int", "9", 1⟩ := by
  have hreach : ((ofContexts [.traced, .quiet, .traced]).ending
      [.step (.openChild 0), .step (.openChild 1), .step (.swap 0 1)]).ReachableInAnyOrder :=
    .ending (.ofContexts _) _
  have hrule : ∀ x ∈ ((ofContexts [.traced, .quiet, .traced]).ending
      [.step (.openChild 0), .step (.openChild 1), .step (.swap 0 1)]).turns
        [.step (.edit 0 (.insert "i" "int" "0")), .step (.edit 0 (.insert "n" "int" "9")),
          .step (.openChild 0), .step (.seed 0), .step (.swap 1 2), .step (.openChild 0),
          .closeOn 1, .step (.edit 0 .enter), .step (.edit 0 (.insert "i" "str" "2"))],
      x.ExchangesBelow 0 1 := by
    simp only [turns_cons, turns_nil, List.forall_mem_cons, List.not_mem_nil, false_implies,
      implies_true, Turn.ExchangesBelow, Move.Exchanges, Step.Exchanges]
    decide
  have hsettled := settled_children_carry_values hreach (by decide) hrule rfl rfl
  obtain ⟨w, e, hw, he, hanswer, hcarries⟩ := hsettled.1 ⟨3, 2, false⟩ rfl (by decide)
  obtain ⟨t', ht', hcarries'⟩ :=
    hsettled.2 [⟨3, 2, false⟩] ⟨2, 1, false⟩ [⟨1, 0, true⟩] rfl le_rfl
  refine ⟨_, _, _, rfl, rfl, rfl, rfl, ⟨w, e, hw, he, ?_, hcarries⟩, t', ht', hcarries', ?_, ?_⟩
  · rw [hanswer]
    decide
  · cases ht'
    decide
  · cases ht'
    decide

end Session

end LexicalScope
