import Mathlib.Data.List.Basic
import LexicalScope.Proofs.Session.Restore
import LexicalScope.Proofs.Session.Settle

set_option autoImplicit false

/-!
# Floors and open children

The floor of a table is kept in the table, the floors that were in force before in the children
that are open on it. In a run that exchanges tables only where no child is open, they form one
chain from the root to the innermost child. So the floor says exactly how far the scopes of a
table can be left, no child is ever used on a table with too few frames, and closing a child puts
the floor back to what it was when the child was opened.

## Main definitions

* `LexicalScope.Site.HandsOnFloor` — the floor of a table and those that its children saved form
  one chain.
* `LexicalScope.Session.ExchangesOnlyIdle` — tables are exchanged only where no child is open.
* `LexicalScope.Session.IsGrounded` — all floors of a session are handed on from the root.

## Main results

* `LexicalScope.Session.IsGrounded.step` — steps that exchange idle tables only keep floors handed
  on from the root.
* `LexicalScope.Session.replies_exits` — how often a scope can be left in a row.
* `LexicalScope.Session.IsGrounded.exists_used`, `LexicalScope.Session.IsGrounded.exists_closed` —
  the children of a session can be used and closed.
* `LexicalScope.Session.floor_of_closed` — closing a child puts the floor back.
* `LexicalScope.Session.open_children_hand_on_floors` — all of this for every run over fresh
  tables that exchanges idle tables only.
-/

namespace LexicalScope

/-! ## Chains from the root -/

/-- The children lie below the floor that they set, or at it. -/
lemma IsChain.base_le_floorOver {ground : Nat} {cs : List Child} (h : IsChain ground cs) :
    ∀ c ∈ cs, c.base ≤ floorOver ground cs := by
  induction cs with
  | nil => simp
  | cons c cs ih =>
    obtain ⟨hsaved, hlt, hrest⟩ := h
    refine List.forall_mem_cons.2 ⟨le_refl _, ?_⟩
    intro d hd
    have := ih hrest d hd
    rw [floorOver_cons]
    omega

/-- The bases of children that hand on the floor grow from the outermost to the innermost. -/
lemma IsChain.pairwise_base {ground : Nat} {cs : List Child} (h : IsChain ground cs) :
    cs.Pairwise fun inner outer => outer.base < inner.base := by
  induction cs with
  | nil => exact List.Pairwise.nil
  | cons c cs ih =>
    obtain ⟨hsaved, hlt, hrest⟩ := h
    refine List.pairwise_cons.2 ⟨?_, ih hrest⟩
    intro d hd
    have := hrest.base_le_floorOver d hd
    omega

/-- Each child saved the floor that the ones outside of it had set. -/
lemma IsChain.savedFloor_eq {ground : Nat} {inner : List Child} {c : Child} {outer : List Child}
    (h : IsChain ground (inner ++ c :: outer)) : c.savedFloor = floorOver ground outer := by
  induction inner with
  | nil => exact h.1
  | cons d inner ih => exact ih h.2.2

/-- The floor of a table and the floors that its open children saved, innermost child first, form
one chain that begins with the floor `0` of the root. -/
structure Site.HandsOnFloor (x : Site) : Prop where
  /-- The base of an inner child is greater than that of an outer one. -/
  bases : x.children.Pairwise fun inner outer => outer.base < inner.base
  /-- No base is greater than the level of the table. -/
  base_le_level : ∀ c ∈ x.children, c.base ≤ x.table.level
  /-- The floor is the base of the innermost child, or that of the root. -/
  floor_eq : x.table.floor = floorOver 0 x.children
  /-- Each child saved the base of the next outer one, or the floor of the root. -/
  savedFloor_eq : ∀ inner c outer, x.children = inner ++ c :: outer →
    c.savedFloor = floorOver 0 outer

/-- A site that nothing lies outside of hands on its floor from the root, if it began with the
floor of the root. -/
lemma Site.IsWithin.handsOnFloor {x : Site} {context : Context}
    (h : x.IsWithin [] 0 context []) (hx : x.table.Valid) : x.HandsOnFloor := by
  obtain ⟨inner, hchildren, hfloor, hchain, -⟩ := h.floors
  rw [List.append_nil] at hchildren
  subst hchildren
  refine ⟨hchain.pairwise_base, ?_, hfloor, ?_⟩
  · intro c hc
    have hbase := hchain.base_le_floorOver c hc
    have hlt := hx.floor_lt
    have hlevel := hx.level_add_one
    omega
  · intro inner c outer heq
    rw [heq] at hchain
    exact hchain.savedFloor_eq

namespace Session

variable {s : Session} {slot : Nat} {t : Table}

/-! ## Grounded sessions -/

/-- A step exchanges two tables only while no child is open on either of them. -/
def ExchangesOnlyIdle (u : Session) : Step → Prop
  | .swap first second => u.childrenAt first = [] ∧ u.childrenAt second = []
  | _ => True

/-- No child is open on a slot whose table such a step exchanges. -/
lemma ExchangesOnlyIdle.childrenAt_eq_nil {u : Session} {step : Step} (h : u.ExchangesOnlyIdle step)
    {slot : Nat} (hswap : step.Exchanges slot) : u.childrenAt slot = [] := by
  cases step with
  | swap first second =>
    rcases hswap with rfl | rfl
    · exact h.1
    · exact h.2
  | _ => exact hswap.elim

/-- A step exchanges idle tables only and leaves more than `n` children open on the slot. -/
def LeavesOpen (slot n : Nat) (u : Session) (step : Step) : Prop :=
  u.ExchangesOnlyIdle step ∧ n < ((u.step step).session.childrenAt slot).length

/-- All floors of a session are handed on from the root, and every child is open on a table. -/
structure IsGrounded (u : Session) : Prop where
  /-- The session is valid. -/
  valid : u.Valid
  /-- No site lies in anything else, and all began with the floor of the root. -/
  sites : ∀ slot x, u.site? slot = some x → ∃ context, x.IsWithin [] 0 context []
  /-- The slot of a child has a table. -/
  slots : ∀ c ∈ u.children, ∃ t, u.tables[c.slot]? = some t

/-- On fresh tables all floors are those of the root. -/
lemma isGrounded_ofContexts (contexts : List Context) : (ofContexts contexts).IsGrounded where
  valid := valid_ofContexts contexts
  sites := by
    intro slot x hx
    have hvalid := valid_ofContexts contexts
    have hfloor : x.table.floor = 0 := by
      obtain ⟨c, -, hc⟩ := List.mem_map.1 (List.mem_of_getElem? (table_of_site? hx))
      rw [← hc]
      rfl
    have hchildren : x.children = [] := children_of_site? hx
    have hin := Site.isWithin_self (hvalid.of_site? hx)
    rw [hfloor, hchildren] at hin
    exact ⟨_, hin⟩
  slots := hasTables_ofContexts contexts

/-- At every site of such a session the floors form one chain from the root. -/
lemma IsGrounded.handsOnFloor {u : Session} (h : u.IsGrounded) {x : Site}
    (hx : u.site? slot = some x) : x.HandsOnFloor := by
  obtain ⟨context, hin⟩ := h.sites slot x hx
  exact hin.handsOnFloor (h.valid.of_site? hx)

/-- Steps that exchange idle tables only keep all floors handed on from the root.

**Proof sketch.** A step acts on the site of a slot and does not leave what nothing lies outside
of. If the table of a slot without children is exchanged, it comes from a slot without children,
where the floor is that of the root. -/
theorem IsGrounded.step {u : Session} (h : u.IsGrounded) {step : Step}
    (hrule : u.ExchangesOnlyIdle step) : (u.step step).session.IsGrounded where
  valid := h.valid.step step
  sites := by
    intro slot x hx
    by_cases hswap : step.Exchanges slot
    · cases step with
      | swap first second =>
        obtain ⟨k, hk, hfrom⟩ := exists_of_swap (table_of_site? hx)
        have hidle : u.childrenAt k = [] := by
          rcases hfrom with rfl | hfrom
          · exact hrule.childrenAt_eq_nil hswap
          · exact hrule.childrenAt_eq_nil hfrom
        have hfloor := (h.handsOnFloor (site?_of_some hk)).floor_eq
        simp only [hidle, floorOver_nil] at hfloor
        have hchildren : x.children = [] := by
          rw [children_of_site? hx, childrenAt_swap, hrule.childrenAt_eq_nil hswap]
        have hin := Site.isWithin_self ((h.valid.step _).of_site? hx)
        rw [hfloor, hchildren] at hin
        exact ⟨_, hin⟩
      | _ => exact hswap.elim
    · rw [site?_step u hswap] at hx
      obtain ⟨y, hy, rfl⟩ := Option.map_eq_some_iff.1 hx
      obtain ⟨context, hin⟩ := h.sites slot y hy
      exact ⟨context, hin.act_of_nil (h.valid.of_site? hy) _⟩
  slots := HasTables.step h.slots step

/-! ## Leaving scopes -/

/-- Leaving a scope is refused exactly at the floor. -/
lemma reply_step_exit (ht : s.tables[slot]? = some t) (hvt : t.Valid) :
    (s.step (.edit slot .exit)).reply =
      if t.level ≤ t.floor then .refused .atFloor else .done := by
  obtain ⟨f, outer, hf⟩ := hvt.exists_cons
  have hlevel := Table.level_of_cons hf
  rw [reply_step_edit ht, Table.replyTo_exit hf, hlevel]

/-- A table whose scope is left is one level lower, unless it stood at the floor, and has the same
floor. -/
lemma level_edited_exit (hvt : t.Valid) :
    (t.edited .exit).level = (if t.level ≤ t.floor then t.level else t.level - 1) ∧
      (t.edited .exit).floor = t.floor := by
  obtain ⟨f, outer, hf⟩ := hvt.exists_cons
  have hlevel := Table.level_of_cons hf
  rw [Table.edited_exit hf, hlevel]
  split
  · exact ⟨hlevel, rfl⟩
  · exact ⟨rfl, rfl⟩

/-- **How often a scope can be left.** Scopes can be left in a row as often as the level of the
table is above its floor. Every further try is refused.

**Proof sketch.** Induction on the number of tries. The first one is refused exactly at the floor,
where it leaves the level as it is; otherwise it lowers the level by one. -/
theorem replies_exits (ht : s.tables[slot]? = some t) (hvt : t.Valid) (n : Nat) :
    (s.run (List.replicate n (.edit slot .exit))).map Outcome.reply =
      List.replicate (min n (t.level - t.floor)) .done ++
        List.replicate (n - (t.level - t.floor)) (.refused .atFloor) := by
  induction n generalizing s t with
  | zero => simp
  | succ n ih =>
    have ht' : (s.step (.edit slot .exit)).session.tables[slot]? = some (t.edited .exit) := by
      rw [session_step_edit ht]
      exact getElem?_setTable ht _
    obtain ⟨hlevel, hfloor⟩ := level_edited_exit hvt
    rw [List.replicate_succ, run_cons, List.map_cons, ih ht' (hvt.edited .exit),
      reply_step_exit ht hvt, hlevel, hfloor]
    by_cases hle : t.level ≤ t.floor
    · have hzero : t.level - t.floor = 0 := by omega
      simp only [if_pos hle, hzero, Nat.min_zero, List.replicate_zero, List.nil_append,
        Nat.sub_zero, List.replicate_succ]
    · have hmin : min (n + 1) (t.level - t.floor) = min n (t.level - 1 - t.floor) + 1 := by omega
      have hrest : n + 1 - (t.level - t.floor) = n - (t.level - 1 - t.floor) := by omega
      simp only [if_neg hle, hmin, hrest, List.replicate_succ, List.cons_append]

/-! ## Using and closing children -/

/-- The frames outside of the innermost child of a slot are there. -/
lemma IsGrounded.base_le_length {u : Session} (h : u.IsGrounded) (ht : u.tables[slot]? = some t)
    {c : Child} (hc : u.child? slot = some c) : c.base ≤ t.stack.length := by
  have hfits := h.handsOnFloor (site?_of_some ht)
  have hmem : c ∈ u.childrenAt slot := by
    rw [child?_eq_head?] at hc
    exact List.mem_of_mem_head? hc
  have hbase := hfits.base_le_level c hmem
  have hlevel := (h.valid.tables t (List.mem_of_getElem? ht)).level_add_one
  simp only at hbase
  omega

/-- The innermost child of a slot can be seeded, and it can write back. -/
lemma IsGrounded.exists_used {u : Session} (h : u.IsGrounded) (ht : u.tables[slot]? = some t)
    {c : Child} (hc : u.child? slot = some c) :
    (u.step (.seed slot)).reply = .done ∧ ∃ n, (u.step (.writeBack slot)).reply = .number n := by
  have hle := h.base_le_length ht hc
  obtain ⟨f, outer, hf⟩ := (h.valid.tables t (List.mem_of_getElem? ht)).exists_cons
  refine ⟨?_, ?_⟩
  · rw [Session.step, withChild, withTable_of_some ht]
    simp only [hc, Child.seed, Table.seed, if_pos hle, Table.insertAll_of_stack_eq_cons hf, commit]
  · obtain ⟨e, he, -, -⟩ := Table.writeBack_of_le hle
    refine ⟨e.answer, ?_⟩
    rw [Session.step, withChild, withTable_of_some ht]
    simp only [hc, Child.writeBack, he, commit]

/-- The child that was opened last can be closed. Its table is then at the level below its base,
with the floor that the child saved. -/
lemma IsGrounded.exists_closed {u : Session} (h : u.IsGrounded) {c : OpenChild}
    {rest : List OpenChild} (hcons : u.children = c :: rest) (k : Nat) :
    (u.step (.closeChild k)).reply = .done ∧ (u.step (.closeChild k)).session.children = rest ∧
      ∃ t, (u.step (.closeChild k)).session.tables[c.slot]? = some t ∧
        t.level + 1 = c.child.base ∧ t.floor = c.child.savedFloor := by
  obtain ⟨t, ht⟩ := h.slots c (by rw [hcons]; exact List.mem_cons_self)
  have hchild : u.child? c.slot = some c.child := by
    rw [child?, hcons, List.find?_cons_of_pos (by simp), Option.map_some]
  have hle := h.base_le_length ht hchild
  obtain ⟨e, he, -, htable⟩ := Child.close_of_le hle
  have hpos : 0 < c.child.base := Nat.zero_lt_of_lt (h.valid.children c (by simp [hcons]))
  rw [step_closeChild hcons, closeChild, withTable_of_some ht]
  simp only [he, commit]
  refine ⟨trivial, trivial, e.table, getElem?_setTable ht _, ?_, ?_⟩
  · rw [htable, Table.level]
    simp only [Stack.length_outside _ hle]
    omega
  · rw [htable]

/-- A child that is open in the whole of a run after it was opened saved the floor that was in
force before, and its base is the level that was entered. -/
lemma child_eq_of_leavesOpen (hs : s.Valid) (ht : s.tables[slot]? = some t) {steps : List Step}
    (hrule : Obeys (LeavesOpen slot (s.childrenAt slot).length)
      (s.step (.openChild slot)).session steps)
    {c : OpenChild} {rest : List OpenChild}
    (hcons : ((s.step (.openChild slot)).session.final steps).children = c :: rest)
    (hslot : c.slot = slot)
    (hlen : (((s.step (.openChild slot)).session.final steps).childrenAt slot).length =
      (s.childrenAt slot).length + 1) :
    c.child = t.openChild.answer := by
  have hopen : (s.childrenAt slot).length <
      ((s.step (.openChild slot)).session.childrenAt slot).length := by
    obtain ⟨-, x, hx, hin⟩ := isWithin_openChild hs ht
    obtain ⟨inner, hchildren, -⟩ := hin.floors
    rw [← children_of_site? hx, hchildren, List.length_append, List.length_cons]
    omega
  -- as the child is open in every session of the run, its table is not exchanged
  have hturn : ∀ u step, (s.childrenAt slot).length < (u.childrenAt slot).length →
      LeavesOpen slot (s.childrenAt slot).length u step →
      Turn.KeepsChildOpen slot (s.childrenAt slot).length ⟨u, .step step⟩ := by
    rintro u step hbelow ⟨hidle, hafter⟩
    refine ⟨fun hswap => ?_, hafter⟩
    rw [hidle.childrenAt_eq_nil hswap] at hbelow
    exact Nat.not_lt_zero _ hbelow
  have hstep : ∀ u step,
      (s.childrenAt slot).length < (u.childrenAt slot).length ∧
        u.IsWithin slot t.stack t.stack.length t.context
          (t.openChild.answer :: s.childrenAt slot) →
      LeavesOpen slot (s.childrenAt slot).length u step →
      (s.childrenAt slot).length < ((u.step step).session.childrenAt slot).length ∧
        (u.step step).session.IsWithin slot t.stack t.stack.length t.context
          (t.openChild.answer :: s.childrenAt slot) :=
    fun u step h hleaves =>
      ⟨hleaves.2, h.2.move_of_keepsChildOpen rfl (hturn u step h.1 hleaves)⟩
  obtain ⟨-, hin⟩ := hrule.induction hstep ⟨hopen, isWithin_openChild hs ht⟩
  obtain ⟨t', -, -, -, -, -, -, hchildren⟩ := hin.exists_table hlen
  rw [childrenAt, hcons, List.filter_cons_of_pos (by simp [hslot]), List.map_cons,
    List.cons.injEq] at hchildren
  exact hchildren.1

/-- **Closing a child puts the floor back.** When a child that was opened on a table and stayed
open in a run is closed, the table has the level and the floor that it had before. -/
theorem floor_of_closed (hs : s.IsGrounded) (ht : s.tables[slot]? = some t) {steps : List Step}
    (hrule : Obeys (LeavesOpen slot (s.childrenAt slot).length)
      (s.step (.openChild slot)).session steps)
    {c : OpenChild} {rest : List OpenChild}
    (hcons : ((s.step (.openChild slot)).session.final steps).children = c :: rest)
    (hslot : c.slot = slot)
    (hlen : (((s.step (.openChild slot)).session.final steps).childrenAt slot).length =
      (s.childrenAt slot).length + 1) (k : Nat) :
    ∃ t', (((s.step (.openChild slot)).session.final steps).step
        (.closeChild k)).session.tables[slot]? = some t' ∧
      t'.level = t.level ∧ t'.floor = t.floor := by
  have hidle : s.ExchangesOnlyIdle (.openChild slot) := trivial
  have hground : ((s.step (.openChild slot)).session.final steps).IsGrounded :=
    hrule.induction (fun _ _ h hstep => h.step hstep.1) (hs.step hidle)
  obtain ⟨-, -, t', ht', hlevel, hfloor⟩ := hground.exists_closed hcons k
  have hbase := (hs.valid.tables t (List.mem_of_getElem? ht)).level_add_one
  rw [child_eq_of_leavesOpen hs.valid ht hrule hcons hslot hlen] at hlevel hfloor
  rw [hslot] at ht'
  refine ⟨t', ht', ?_, hfloor⟩
  have : t'.level + 1 = t.stack.length := hlevel
  omega

/-- After as many closings as there are children, none is open, and floors are handed on from the
root. -/
lemma IsGrounded.final_closings {u : Session} (h : u.IsGrounded) {n : Nat}
    (hn : u.children.length = n) (k : Nat) :
    (u.final (List.replicate n (.closeChild k))).IsGrounded ∧
      (u.final (List.replicate n (.closeChild k))).children = [] := by
  refine ⟨?_, HasTables.children_closings h.slots hn k⟩
  clear hn
  induction n generalizing u with
  | zero => exact h
  | succ n ih =>
    have hidle : u.ExchangesOnlyIdle (.closeChild k) := trivial
    rw [List.replicate_succ, final_cons]
    exact ih (h.step hidle)

/-- A table on which no child is open has the floor of the root. -/
lemma IsGrounded.floor_eq_zero {u : Session} (h : u.IsGrounded) (hnil : u.children = [])
    (ht : u.tables[slot]? = some t) : t.floor = 0 := by
  have hfloor := (h.handsOnFloor (site?_of_some ht)).floor_eq
  rw [childrenAt, hnil] at hfloor
  exact hfloor

/-- **Open children hand on floors.** At the end of every run over fresh tables that exchanges two
tables only while no child is open on either of them:

* on each slot, the floor of the table and the floors that its children saved form one chain from
  the root, in which bases grow from the outermost child to the innermost and do not exceed the
  level; leaving a scope is refused exactly at the base of the innermost child, so it can be done
  as many times in a row as the level is above the floor; the innermost child can be seeded and
  can write back; and if a child is opened now, stays open in a run and is then closed, the table
  has its level and its floor again;
* the child that was opened last can be closed, and its table is then at the level below its base
  with the floor that it saved;
* when all children have been closed, every floor is that of the root. -/
theorem open_children_hand_on_floors (contexts : List Context) {steps : List Step}
    (hrule : Obeys ExchangesOnlyIdle (ofContexts contexts) steps) {s : Session}
    (hs : s = (ofContexts contexts).final steps) :
    (∀ slot t, s.tables[slot]? = some t →
      Site.HandsOnFloor { table := t, children := s.childrenAt slot } ∧
      ((s.step (.edit slot .exit)).reply = .refused .atFloor ↔
        t.level = floorOver 0 (s.childrenAt slot)) ∧
      (∀ n, (s.run (List.replicate n (.edit slot .exit))).map Outcome.reply =
        List.replicate (min n (t.level - t.floor)) .done ++
          List.replicate (n - (t.level - t.floor)) (.refused .atFloor)) ∧
      (∀ c, s.child? slot = some c →
        (s.step (.seed slot)).reply = .done ∧ ∃ n, (s.step (.writeBack slot)).reply = .number n) ∧
      ∀ more u, u = (s.step (.openChild slot)).session.final more →
        Obeys (LeavesOpen slot (s.childrenAt slot).length) (s.step (.openChild slot)).session more →
        ∀ c rest k, u.children = c :: rest → c.slot = slot →
          (u.childrenAt slot).length = (s.childrenAt slot).length + 1 →
          ∃ t', (u.step (.closeChild k)).session.tables[slot]? = some t' ∧
            t'.level = t.level ∧ t'.floor = t.floor) ∧
    (∀ c rest k, s.children = c :: rest →
      (s.step (.closeChild k)).reply = .done ∧
        ∃ t, (s.step (.closeChild k)).session.tables[c.slot]? = some t ∧
          t.level + 1 = c.child.base ∧ t.floor = c.child.savedFloor) ∧
    ∀ t ∈ (s.after s.unwind).tables, t.floor = 0 := by
  have hground : s.IsGrounded := by
    rw [hs]
    exact hrule.induction (fun _ _ h hstep => h.step hstep) (isGrounded_ofContexts contexts)
  refine ⟨?_, ?_, ?_⟩
  · intro slot t ht
    have hvt := hground.valid.tables t (List.mem_of_getElem? ht)
    have hfits := hground.handsOnFloor (site?_of_some ht)
    refine ⟨hfits, ?_, replies_exits ht hvt, fun c => hground.exists_used ht, ?_⟩
    · have hfloor := hfits.floor_eq
      have hlt := hvt.floor_lt
      have hlevel := hvt.level_add_one
      simp only at hfloor
      rw [reply_step_exit ht hvt, ← hfloor]
      constructor
      · intro hrefused
        split at hrefused
        · omega
        · simp at hrefused
      · intro heq
        rw [if_pos (by omega)]
    · rintro more u rfl hopen c rest k hcons hslot hlen
      exact floor_of_closed hground ht hopen hcons hslot hlen k
  · intro c rest k hcons
    obtain ⟨hreply, -, hclosed⟩ := hground.exists_closed hcons k
    exact ⟨hreply, hclosed⟩
  · intro t ht
    obtain ⟨slot, hslot⟩ := List.mem_iff_getElem?.1 ht
    obtain ⟨hafter, hnil⟩ := hground.final_closings rfl 0
    exact hafter.floor_eq_zero hnil hslot

/-- Two nested children of one table, with a child of another table opened between them and scopes
entered around each. The scopes in the inner child can be left twice and no further, the inner
child is closed on level `3` with the floor of the outer one, and a third child that is opened and
used leaves level and floor as they are. -/
theorem open_children_hand_on_floors_interleaved :
    ∃ s t, s = (ofContexts [.traced, .quiet, .quiet]).final
        [.swap 1 2, .edit 0 .enter, .openChild 0, .openChild 1, .edit 0 .enter, .swap 2 5,
          .openChild 0, .edit 0 .enter, .edit 0 .enter] ∧
      s.tables[0]? = some t ∧
      Site.HandsOnFloor { table := t, children := [⟨4, 2, true⟩, ⟨2, 0, true⟩] } ∧
      (s.run [.edit 0 .exit, .edit 0 .exit, .edit 0 .exit]).map Outcome.reply =
        [.done, .done, .refused .atFloor] ∧
      (∃ t', (s.step (.closeChild 2)).session.tables[0]? = some t' ∧ t'.level + 1 = 4 ∧
        t'.floor = 2) ∧
      (∃ t', (s.final [.openChild 0, .edit 0 .enter, .closeChild 1]).tables[0]? = some t' ∧
        t'.level = t.level ∧ t'.floor = t.floor) ∧
      ∀ t' ∈ (s.after s.unwind).tables, t'.floor = 0 := by
  have hrule : Obeys ExchangesOnlyIdle (ofContexts [.traced, .quiet, .quiet])
      [.swap 1 2, .edit 0 .enter, .openChild 0, .openChild 1, .edit 0 .enter, .swap 2 5,
        .openChild 0, .edit 0 .enter, .edit 0 .enter] := by
    simp only [Obeys, ExchangesOnlyIdle]
    decide
  obtain ⟨hslots, hclose, hunwind⟩ := open_children_hand_on_floors _ hrule rfl
  obtain ⟨hfits, -, hexits, -, hfloor⟩ := hslots 0 _ rfl
  obtain ⟨-, hclosed⟩ := hclose ⟨0, 4, 2, true⟩ [⟨1, 1, 0, false⟩, ⟨0, 2, 0, true⟩] 2 rfl
  have hopen : Obeys (LeavesOpen 0 2)
      (((ofContexts [.traced, .quiet, .quiet]).final
        [.swap 1 2, .edit 0 .enter, .openChild 0, .openChild 1, .edit 0 .enter, .swap 2 5,
          .openChild 0, .edit 0 .enter, .edit 0 .enter]).step (.openChild 0)).session
      [.edit 0 .enter] := by
    simp only [Obeys, LeavesOpen, ExchangesOnlyIdle]
    decide
  exact ⟨_, _, rfl, rfl, hfits, hexits 3, hclosed,
    hfloor _ _ rfl hopen ⟨0, 7, 4, true⟩ _ 1 rfl rfl rfl, hunwind⟩

end Session

end LexicalScope
