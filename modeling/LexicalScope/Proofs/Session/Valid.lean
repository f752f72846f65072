import Mathlib.Data.List.Basic
import LexicalScope.Proofs.Session.Ends
import LexicalScope.Proofs.Session.Site
import LexicalScope.Proofs.Stack.Level

set_option autoImplicit false

/-!
# Validity of sessions

What all tables and children of a session have at all times: a table has a root frame, its
frames and bindings carry the levels they stand at, and its floor is not above its level; a
child saved a floor below its own base. The last is what keeps the floor in place when a child
is closed on a table that it was not opened on.

## Main definitions

* `LexicalScope.Table.Valid` — the invariant of a table.
* `LexicalScope.Child.Valid` — the invariant of a child.
* `LexicalScope.Session.Valid` — all tables and children are valid.
* `LexicalScope.Session.HasTables` — all children are open on slots that have a table.

## Main results

* `LexicalScope.Site.valid_act` — an action on a site with valid children keeps its table valid.
* `LexicalScope.Session.Valid.move`, `LexicalScope.Session.ReachableInAnyOrder.valid` — every move
  keeps a session valid, so every session that is reached is.
* `LexicalScope.Session.ReachableInAnyOrder.hasTables` — every session that is reached has the
  tables that its children are open on.
* `LexicalScope.Session.HasTables.children_closings` — the children of a session can all be closed.
* `LexicalScope.Session.run_keeps_levels_and_floors` — the invariant, written out, at the end of
  every run over fresh tables.
-/

namespace LexicalScope

/-- A table has a root frame, carries its levels, and has its floor at or below its level. -/
structure Table.Valid (t : Table) : Prop where
  /-- There is a root frame. -/
  ne_nil : t.stack ≠ []
  /-- Frames and bindings carry the levels they stand at. -/
  leveled : t.stack.IsLeveled
  /-- The floor is below the number of frames. -/
  floor_lt : t.floor < t.stack.length

/-- A child saved a floor below its own base. -/
def Child.Valid (c : Child) : Prop :=
  c.savedFloor < c.base

/-- All tables and all open children are valid. -/
structure Session.Valid (s : Session) : Prop where
  /-- The tables are valid. -/
  tables : ∀ t ∈ s.tables, t.Valid
  /-- The open children are valid. -/
  children : ∀ c ∈ s.children, c.child.Valid

/-! ## Tables -/

namespace Table

/-- A valid table has a current frame. -/
lemma Valid.exists_cons {t : Table} (h : t.Valid) : ∃ f outer, t.stack = f :: outer :=
  List.exists_cons_of_ne_nil h.ne_nil

/-- A fresh table is valid. -/
lemma valid_ofContext (c : Context) : (ofContext c).Valid where
  ne_nil := by simp [ofContext]
  leveled := ⟨Frame.isAt_empty 0, trivial⟩
  floor_lt := by simp [ofContext]

/-- A change of values keeps a table valid. -/
lemma Valid.of_shape {t : Table} (h : t.Valid) {s : Stack} (hs : s.shape = t.stack.shape) :
    ({ t with stack := s } : Table).Valid where
  ne_nil := by
    intro hnil
    have hlen := Stack.length_eq_of_shape hs
    have hpos := List.length_pos_iff.2 h.ne_nil
    simp only at hnil
    rw [hnil, List.length_nil] at hlen
    omega
  leveled := h.leveled.of_shape hs
  floor_lt := by
    show t.floor < s.length
    rw [Stack.length_eq_of_shape hs]
    exact h.floor_lt

/-- Another current frame of the same level keeps a table valid. -/
lemma Valid.of_frame {t : Table} (h : t.Valid) {f g : Frame} {outer : Stack}
    (hf : t.stack = f :: outer) (hg : g.IsAt outer.length) :
    ({ t with stack := g :: outer } : Table).Valid where
  ne_nil := List.cons_ne_nil g outer
  leveled := by
    have hleveled := h.leveled
    rw [hf] at hleveled
    exact ⟨hg, hleveled.2⟩
  floor_lt := by
    have hfloor := h.floor_lt
    rwa [hf] at hfloor

/-- The current frame of a valid table carries the number of frames outside of it. -/
lemma Valid.isAt {t : Table} (h : t.Valid) {f : Frame} {outer : Stack}
    (hf : t.stack = f :: outer) : f.IsAt outer.length := by
  have hleveled := h.leveled
  rw [hf] at hleveled
  exact hleveled.1

/-- Copies of bindings keep a table valid. -/
lemma Valid.insertAll {t : Table} (h : t.Valid) (bs : List Binding) :
    (t.afterwards (t.insertAll bs)).Valid := by
  obtain ⟨f, outer, hf⟩ := h.exists_cons
  rw [afterwards_insertAll hf]
  apply h.of_frame hf
  refine ⟨(h.isAt hf).1, ?_⟩
  intro b hb
  rcases List.mem_append.1 hb with hb | hb
  · exact (h.isAt hf).2 b hb
  · obtain ⟨c, -, rfl⟩ := List.mem_map.1 hb
    rfl

/-- Write-backs keep a table valid. -/
lemma Valid.assignAll {t : Table} (h : t.Valid) (level : Nat) (bs : List Binding) :
    (t.assignAll level bs).table.Valid := by
  rw [table_assignAll]
  apply h.of_shape
  rw [Stack.shape_append, Stack.shape_assignAll, ← Stack.shape_append,
    Stack.inside_append_outside]

/-- Edits keep a table valid. -/
lemma Valid.edited {t : Table} (h : t.Valid) (e : Edit) : (t.edited e).Valid := by
  obtain ⟨f, outer, hf⟩ := h.exists_cons
  have hat := h.isAt hf
  cases e with
  | insert name typeTag value =>
    rw [edited_insert hf]
    apply h.of_frame hf
    refine ⟨hat.1, ?_⟩
    intro b hb
    rcases List.mem_append.1 hb with hb | hb
    · exact hat.2 b hb
    · rw [List.mem_singleton.1 hb]
  | assign name value =>
    rw [edited_assign]
    exact h.of_shape (Stack.shape_assign _ _ _)
  | erase name =>
    rw [edited_erase hf]
    apply h.of_frame hf
    refine ⟨hat.1, ?_⟩
    intro b hb
    exact hat.2 b (List.mem_of_mem_eraseP hb)
  | enter =>
    rw [edited_enter]
    exact ⟨List.cons_ne_nil _ _, ⟨Frame.isAt_empty _, h.leveled⟩, Nat.lt_succ_of_lt h.floor_lt⟩
  | exit =>
    rw [edited_exit hf]
    split
    · exact h
    · rename_i hfloor
      have hleveled := h.leveled
      rw [hf] at hleveled
      refine ⟨?_, hleveled.2, ?_⟩
      · intro hnil
        simp only at hnil
        rw [hnil, List.length_nil] at hfloor
        omega
      · show t.floor < outer.length
        omega

/-- Opening a child keeps a table valid: the floor is the level of the new current frame. -/
lemma Valid.openChild {t : Table} (h : t.Valid) : t.openChild.table.Valid :=
  ⟨List.cons_ne_nil _ _, ⟨Frame.isAt_empty _, h.leveled⟩, Nat.lt_succ_self _⟩

/-- The child that is opened on a valid table is valid. -/
lemma Valid.openChild_answer {t : Table} (h : t.Valid) : t.openChild.answer.Valid :=
  h.floor_lt

/-- Closing a valid child keeps a table valid: a frame remains outside of the child, and the
saved floor is below the base. -/
lemma Valid.close {t : Table} (h : t.Valid) {c : Child} (hc : c.Valid) :
    (t.afterwards (c.close t)).Valid := by
  by_cases hbase : c.base ≤ t.stack.length
  · obtain ⟨e, he, -, htable⟩ := Child.close_of_le hbase
    have hlen := t.stack.length_outside hbase
    have hpos : 0 < c.base := Nat.zero_lt_of_lt hc
    rw [he, afterwards_some, htable]
    refine ⟨?_, h.leveled.outside _, ?_⟩
    · apply List.ne_nil_of_length_pos
      rwa [hlen]
    · show c.savedFloor < (t.stack.outside c.base).length
      rw [hlen]
      exact hc
  · rw [Child.close, if_neg hbase, afterwards_none]
    exact h

/-- The level of a valid table is the depth of its current frame. -/
lemma Valid.level_add_one {t : Table} (h : t.Valid) : t.level + 1 = t.stack.length := by
  have hpos := List.length_pos_iff.2 h.ne_nil
  unfold level
  omega

/-- The frame of a valid table at its level, counted from the root, is the current one. -/
lemma Valid.exists_current {t : Table} (h : t.Valid) :
    ∃ f, t.current? = some f ∧ t.stack.reverse[t.level]? = some f := by
  obtain ⟨f, outer, hf⟩ := h.exists_cons
  refine ⟨f, by rw [current?, hf, List.head?_cons], ?_⟩
  have hlevel : t.level = outer.reverse.length := by
    rw [level, hf, List.length_cons, List.length_reverse, Nat.add_sub_cancel]
  rw [hlevel, hf, List.reverse_cons, List.getElem?_concat_length]

/-- Leaving a scope of a valid table keeps the root frame. -/
lemma Valid.getLast?_exit {t : Table} (h : t.Valid) {e : Effect (Except Refusal Unit)}
    (he : t.exit = some e) : e.table.stack.getLast? = t.stack.getLast? := by
  obtain ⟨f, outer, hf⟩ := h.exists_cons
  have htable := edited_exit hf
  rw [Table.edited, he, afterwards_some] at htable
  rw [htable]
  split
  · rfl
  · rename_i hfloor
    have hne : outer ≠ [] := by
      intro hnil
      rw [hnil, List.length_nil] at hfloor
      omega
    rw [hf]
    exact (List.getLast?_cons_of_ne_nil hne).symm

/-- Closing a valid child keeps the root frame of the table. -/
lemma getLast?_close {t : Table} {c : Child} (hc : c.Valid) {e : Effect Nat}
    (he : c.close t = some e) : e.table.stack.getLast? = t.stack.getLast? := by
  have hbase : c.base ≤ t.stack.length := by
    rw [← c.isSome_close_iff t, he, Option.isSome_some]
  obtain ⟨e', he', -, htable⟩ := Child.close_of_le hbase
  rw [he, Option.some.injEq] at he'
  have hpos : 0 < c.base := Nat.zero_lt_of_lt hc
  have hne : t.stack.outside c.base ≠ [] := by
    apply List.ne_nil_of_length_pos
    rwa [t.stack.length_outside hbase]
  rw [he', htable]
  conv_rhs => rw [← Stack.inside_append_outside t.stack c.base]
  rw [List.getLast?_append_of_ne_nil _ hne]

end Table

/-! ## Sites -/

/-- **An action keeps the table of a site valid**, if the children on it are valid.

**Proof sketch.** One case for each action. Copies and edits change the current frame, whose new
bindings are stamped with its level; write-backs change values; a child that is closed leaves
its outside, which is not empty since its base is above the floor that it saved. -/
theorem Site.valid_act {x : Site} (hx : x.table.Valid) (hc : ∀ c ∈ x.children, c.Valid)
    (a : Action) : (x.act a).table.Valid := by
  cases a with
  | rest => exact hx
  | edit e => exact hx.edited e
  | declare bs => exact hx.insertAll bs
  | overwrite bs => exact hx.assignAll _ bs
  | openChild => exact hx.openChild
  | seed =>
    rcases x.act_seed with hact | ⟨bs, hact⟩
    · rw [hact]
      exact hx
    · rw [hact]
      exact hx.insertAll bs
  | writeBack =>
    rcases x.act_writeBack with hact | ⟨c, -, bs, hact⟩
    · rw [hact]
      exact hx
    · rw [hact]
      exact hx.assignAll c.base bs
  | closeChild =>
    rw [act]
    split
    · exact hx
    · rename_i c rest hcons
      apply hx.close
      apply hc
      rw [hcons]
      exact List.mem_cons_self

namespace Session

/-! ## Steps -/

/-- The children of a slot are open in the session. -/
lemma exists_of_mem_childrenAt {s : Session} {slot : Nat} {c : Child}
    (h : c ∈ s.childrenAt slot) : ∃ o ∈ s.children, o.slot = slot ∧ o.child = c := by
  obtain ⟨o, ho, rfl⟩ := List.mem_map.1 h
  obtain ⟨hmem, hslot⟩ := List.mem_filter.1 ho
  exact ⟨o, hmem, by simpa using hslot, rfl⟩

/-- The tables of a session are its tables in some order after an exchange. -/
lemma mem_tables_swap {s : Session} {first second : Nat} {t : Table}
    (h : t ∈ (s.step (.swap first second)).session.tables) : t ∈ s.tables := by
  obtain ⟨slot, hslot⟩ := List.mem_iff_getElem?.1 h
  obtain ⟨k, hk, -⟩ := exists_of_swap hslot
  exact List.mem_of_getElem? hk

/-- Fresh tables are valid, and no child is open on them. -/
lemma valid_ofContexts (contexts : List Context) : (ofContexts contexts).Valid where
  tables := by
    intro t ht
    obtain ⟨c, -, rfl⟩ := List.mem_map.1 ht
    exact Table.valid_ofContext c
  children := by
    intro c hc
    simp [ofContexts] at hc

/-- **Every step keeps a session valid.**

**Proof sketch.** An exchange moves tables and changes none. Every other step acts on each site,
which keeps its table valid. A child that is open afterwards was open before or was opened on a
valid table. -/
theorem Valid.step {s : Session} (hs : s.Valid) (step : Step) : (s.step step).session.Valid where
  tables := by
    intro t ht
    by_cases hswap : ∃ first second, step = .swap first second
    · obtain ⟨first, second, rfl⟩ := hswap
      exact hs.tables t (mem_tables_swap ht)
    · obtain ⟨slot, hslot⟩ := List.mem_iff_getElem?.1 ht
      have hexchange : ¬ step.Exchanges slot := by
        intro h
        cases step with
        | swap first second => exact hswap ⟨first, second, rfl⟩
        | _ => exact h
      have hact := site?_step s hexchange
      rw [site?_of_some hslot] at hact
      obtain ⟨x, hx, hxt⟩ := Option.map_eq_some_iff.1 hact.symm
      obtain ⟨u, hu, rfl⟩ := Option.map_eq_some_iff.1 hx
      have hvalid := Site.valid_act (x := { table := u, children := s.childrenAt slot })
        (hs.tables u (List.mem_of_getElem? hu)) (by
          intro c hc
          obtain ⟨o, ho, -, rfl⟩ := exists_of_mem_childrenAt hc
          exact hs.children o ho) (s.actionAt slot step)
      rwa [hxt] at hvalid
  children := by
    intro c hc
    rcases mem_children_step hc with hc | ⟨t, ht, heq⟩
    · exact hs.children c hc
    · rw [heq]
      exact (hs.tables t (List.mem_of_getElem? ht)).openChild_answer

/-- The table at a site of a valid session is valid. -/
lemma Valid.of_site? {s : Session} (hs : s.Valid) {slot : Nat} {x : Site}
    (h : s.site? slot = some x) : x.table.Valid :=
  hs.tables _ (List.mem_of_getElem? (table_of_site? h))

/-- The children at a site of a valid session are valid. -/
lemma Valid.children_of_site? {s : Session} (hs : s.Valid) {slot : Nat} {x : Site}
    (h : s.site? slot = some x) : ∀ c ∈ x.children, c.Valid := by
  intro c hc
  rw [Session.children_of_site? h] at hc
  obtain ⟨o, ho, -, rfl⟩ := exists_of_mem_childrenAt hc
  exact hs.children o ho

/-- Closing one of the children that are open keeps a session valid. -/
lemma Valid.closeChild {s : Session} (hs : s.Valid) {c : OpenChild} (hc : c ∈ s.children)
    {rest : List OpenChild} (hrest : rest ⊆ s.children) : (s.closeChild c rest).session.Valid := by
  cases ht : s.tables[c.slot]? with
  | none =>
    rw [Session.closeChild, withTable_of_none ht]
    exact hs
  | some t =>
    rw [Session.closeChild, withTable_of_some ht]
    refine ⟨?_, fun d hd => hs.children d (hrest hd)⟩
    intro u hu
    simp only [session_commit ht] at hu
    rcases List.mem_or_eq_of_mem_set hu with hu | rfl
    · exact hs.tables u hu
    · exact (hs.tables t (List.mem_of_getElem? ht)).close (hs.children c hc)

/-- Closing the innermost child of a slot keeps a session valid. -/
lemma Valid.closeOn {s : Session} (hs : s.Valid) (slot : Nat) : (s.closeOn slot).session.Valid := by
  rw [Session.closeOn]
  split
  · rw [session_withTable_answer]
    exact hs
  · rename_i c hc
    obtain ⟨htables, hchildren⟩ :=
      hs.closeChild (List.mem_of_find?_eq_some hc) List.eraseP_subset
    exact ⟨htables, hchildren⟩

/-- **Every move keeps a session valid.** -/
theorem Valid.move {s : Session} (hs : s.Valid) (m : Move) : (s.move m).session.Valid := by
  cases m with
  | step step => exact hs.step step
  | closeOn slot => exact hs.closeOn slot

/-- Every session that is reached is valid. -/
theorem ReachableInAnyOrder.valid {s : Session} (hs : s.ReachableInAnyOrder) : s.Valid :=
  hs.induction valid_ofContexts fun _ m h => h.move m

/-! ## Children and their tables -/

/-- Every child is open on a slot that has a table. -/
def HasTables (s : Session) : Prop :=
  ∀ c ∈ s.children, ∃ t, s.tables[c.slot]? = some t

/-- A step opens no child on a slot without table, and takes no table away. -/
lemma HasTables.step {s : Session} (h : s.HasTables) (step : Step) :
    (s.step step).session.HasTables := by
  intro c hc
  have hbefore : ∃ t, s.tables[c.slot]? = some t := by
    rcases mem_children_step hc with hc | ⟨t, ht, -⟩
    · exact h c hc
    · exact ⟨t, ht⟩
  obtain ⟨t, ht⟩ := hbefore
  have hlt : c.slot < (s.step step).session.tables.length := by
    rw [length_tables_step]
    exact (List.getElem?_eq_some_iff.1 ht).1
  exact ⟨_, List.getElem?_eq_getElem hlt⟩

/-- No child is open on fresh tables. -/
lemma hasTables_ofContexts (contexts : List Context) : (ofContexts contexts).HasTables := by
  intro c hc
  simp [ofContexts] at hc

/-- Closing a child takes no table away. -/
lemma HasTables.closeChild {s : Session} (hs : s.HasTables) (c : OpenChild)
    {rest : List OpenChild} (hrest : rest ⊆ s.children) :
    (s.closeChild c rest).session.HasTables := by
  cases ht : s.tables[c.slot]? with
  | none =>
    rw [Session.closeChild, withTable_of_none ht]
    exact hs
  | some t =>
    rw [Session.closeChild, withTable_of_some ht]
    intro d hd
    obtain ⟨u, hu⟩ := hs d (hrest hd)
    have hlt := (List.getElem?_eq_some_iff.1 hu).1
    rw [← length_tables_commit s c.slot (fun _ => .done) (c.child.close t)] at hlt
    exact ⟨_, List.getElem?_eq_getElem hlt⟩

/-- A move opens no child on a slot without table, and takes no table away. -/
lemma HasTables.move {s : Session} (hs : s.HasTables) (m : Move) :
    (s.move m).session.HasTables := by
  cases m with
  | step step => exact hs.step step
  | closeOn slot =>
    rw [Session.move, closeOn]
    split
    · rw [session_withTable_answer]
      exact hs
    · exact hs.closeChild _ List.eraseP_subset

/-- In every session that is reached, every child is open on a slot that has a table. -/
theorem ReachableInAnyOrder.hasTables {s : Session} (hs : s.ReachableInAnyOrder) : s.HasTables :=
  hs.induction hasTables_ofContexts fun _ m h => h.move m

/-- Closing a child leaves the children open that were opened before it. -/
lemma HasTables.children_closeChild {s : Session} (h : s.HasTables) {c : OpenChild}
    {rest : List OpenChild} (hcons : s.children = c :: rest) (k : Nat) :
    (s.step (.closeChild k)).session.children = rest := by
  obtain ⟨t, ht⟩ := h c (by rw [hcons]; exact List.mem_cons_self)
  rw [step_closeChild hcons, Session.closeChild, withTable_of_some ht]

/-- After as many closings as there are children, none is open. -/
theorem HasTables.children_closings {s : Session} (h : s.HasTables) {n : Nat}
    (hn : s.children.length = n) (k : Nat) :
    (s.final (List.replicate n (.closeChild k))).children = [] := by
  induction n generalizing s with
  | zero => exact List.length_eq_zero_iff.1 hn
  | succ n ih =>
    obtain ⟨c, rest, hcons⟩ := List.exists_cons_of_length_eq_add_one hn
    rw [List.replicate_succ, final_cons]
    apply ih (h.step _)
    rw [h.children_closeChild hcons]
    rw [hcons, List.length_cons] at hn
    omega

/-- Closing all children that are open leaves none. -/
lemma HasTables.children_unwind {s : Session} (h : s.HasTables) :
    (s.after s.unwind).children = [] :=
  h.children_closings rfl 0

/-! ## All runs -/

/-- **Levels and floors in all runs.** At the end of every run over fresh tables, in whatever order
children are closed, each table has a root frame, its frames and bindings carry the levels they
stand at, its bindings are sorted by level, its floor is not above its level, its level is the
place of its current frame, and leaving a scope keeps the root frame; and each open child saved a
floor below its base, so that closing it, on whichever table, keeps the root frame too. -/
theorem run_keeps_levels_and_floors (contexts : List Context) (ms : List Move) :
    (∀ t ∈ ((ofContexts contexts).ending ms).tables,
      t.stack ≠ [] ∧
      (∀ (i : Nat) (f : Frame), t.stack.reverse[i]? = some f →
        f.level = i ∧ ∀ b ∈ f.bindings, b.scopeLevel = i) ∧
      (t.bindings.Pairwise fun b c => b.scopeLevel ≤ c.scopeLevel) ∧
      t.floor ≤ t.level ∧
      t.level + 1 = t.stack.length ∧
      (∃ f, t.current? = some f ∧ t.stack.reverse[t.level]? = some f) ∧
      ∀ e, t.exit = some e → e.table.stack.getLast? = t.stack.getLast?) ∧
    ∀ c ∈ ((ofContexts contexts).ending ms).children,
      c.child.savedFloor < c.child.base ∧
      ∀ t ∈ ((ofContexts contexts).ending ms).tables, ∀ e,
        c.child.close t = some e → e.table.stack.getLast? = t.stack.getLast? := by
  have hvalid := (ReachableInAnyOrder.ofContexts contexts |>.ending ms).valid
  refine ⟨?_, ?_⟩
  · intro t ht
    have hvt := hvalid.tables t ht
    have hlevel := hvt.level_add_one
    have hfloor := hvt.floor_lt
    refine ⟨hvt.ne_nil, ?_, hvt.leveled.pairwise_bindings, by omega, hlevel, hvt.exists_current,
      fun e => hvt.getLast?_exit⟩
    intro i f hf
    exact hvt.leveled.isAt hf
  · intro c hc
    have hvc := hvalid.children c hc
    exact ⟨hvc, fun t _ e => Table.getLast?_close hvc⟩

/-- The invariant after an exchange under two open children, the older one of which is closed
first: the other one, of base `2`, stands on a table with a single frame. -/
theorem run_keeps_levels_and_floors_swap :
    ∃ t ∈ ((ofContexts [.traced, .quiet]).ending
        [.step (.openChild 1), .step (.edit 0 .enter), .step (.openChild 0), .closeOn 1,
          .step (.swap 0 1)]).tables,
      ∃ c ∈ ((ofContexts [.traced, .quiet]).ending
        [.step (.openChild 1), .step (.edit 0 .enter), .step (.openChild 0), .closeOn 1,
          .step (.swap 0 1)]).children,
      t.stack.length < c.child.base ∧ t.floor ≤ t.level ∧
        c.child.savedFloor < c.child.base := by
  have h := run_keeps_levels_and_floors [.traced, .quiet]
    [.step (.openChild 1), .step (.edit 0 .enter), .step (.openChild 0), .closeOn 1,
      .step (.swap 0 1)]
  refine ⟨Table.ofContext .quiet, by decide, ⟨0, ⟨2, 0, true⟩⟩, by decide, by decide, ?_, ?_⟩
  · exact (h.1 _ (by decide)).2.2.2.1
  · exact (h.2 _ (by decide)).1

end Session

end LexicalScope
