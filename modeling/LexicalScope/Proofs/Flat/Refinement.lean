import Mathlib.Data.List.Basic
import LexicalScope.Proofs.Flat.Table
import LexicalScope.Proofs.Session.Law

set_option autoImplicit false

/-!
# Sessions refine sessions over flat tables

A session over tables with frames and a session over flat tables that make the same moves stay in
correspondence: after every move the flat tables are those of the tables, and the same children
are open. What the specification answers is what is answered, and a child that is closed, be it the
one that was opened last or another one, reports as many bindings as the specification deletes.

## Main definitions

* `LexicalScope.Session.flat` — the session over the flat tables of a session.
* `LexicalScope.Outcome.Flattens` — an outcome corresponds to one of the specification.

## Main results

* `LexicalScope.Session.Valid.flattens_step`, `LexicalScope.Session.Valid.flattens_closeOn` — one
  step, and the closing of the innermost child of a slot.
* `LexicalScope.Session.frames_refine_flat_tables` — every run over fresh tables.
-/

namespace LexicalScope

/-- The open child without what only the log shows. -/
def OpenChild.flat (c : OpenChild) : FlatChild :=
  { slot := c.slot, base := c.child.base, savedFloor := c.child.savedFloor }

/-- The frames outside of a child are there exactly if its base is not above the next level. -/
lemma Table.Valid.lt_base_flat_iff {t : Table} (hvt : t.Valid) (c : OpenChild) :
    t.flat.level + 1 < c.flat.base ↔ ¬ c.child.base ≤ t.stack.length := by
  rw [Table.level_flat, hvt.level_add_one, Nat.not_le]
  rfl

/-- The session without frames, contexts and spans. -/
def Session.flat (s : Session) : FlatSession :=
  { tables := s.tables.map Table.flat, children := s.children.map OpenChild.flat }

/-- The outcome of a move corresponds to its outcome in the specification. -/
structure Outcome.Flattens (o : Outcome) (o' : FlatOutcome) : Prop where
  /-- The session of the specification is that of the flat tables. -/
  session : o.session.flat = o'.session
  /-- What the specification answers is the reply. -/
  reply : ∀ r, o'.reply? = some r → o.reply = r
  /-- If a child is closed, then the table of its slot has emitted nothing in the move but the
  event that as many bindings went away as the specification deletes; nothing at all if its
  context is silent. -/
  closing : ∀ k, o'.closing? = some k →
    ∃ t, o.session.tables[k.slot]? = some t ∧
      o.emissionsAt k.slot = t.context.emit (.exited k.reaped) k.base

namespace Session

variable {s : Session} {slot : Nat} {t : Table}

/-! ## Views -/

/-- The flat table of a slot is that of the table of the slot. -/
lemma getElem?_flat (s : Session) (slot : Nat) :
    s.flat.tables[slot]? = s.tables[slot]?.map Table.flat :=
  List.getElem?_map

/-- Putting a table in a slot puts its flat table there. -/
lemma flat_setTable (s : Session) (slot : Nat) (t : Table) :
    (s.setTable slot t).flat = s.flat.setTable slot t.flat := by
  simp only [flat, setTable, FlatSession.setTable, List.map_set]

/-- The first child of a slot is the first one in the specification. -/
lemma find?_children_flat (s : Session) (slot : Nat) :
    s.flat.child? slot = (s.children.find? fun c => c.slot == slot).map OpenChild.flat :=
  List.find?_map

/-- The innermost child of a slot is the innermost one in the specification. -/
lemma child?_flat (s : Session) (slot : Nat) :
    (s.child? slot = none ∧ s.flat.child? slot = none) ∨
      ∃ c : OpenChild, s.child? slot = some c.child ∧ s.flat.child? slot = some c.flat := by
  rw [find?_children_flat, child?]
  cases s.children.find? fun c => c.slot == slot with
  | none => exact Or.inl ⟨rfl, rfl⟩
  | some c => exact Or.inr ⟨c, rfl, rfl⟩

/-! ## What a step needs -/

/-- Where nothing is done, it is enough that the replies agree. -/
lemma flattens_answer {r : Reply} {r? : Option Reply} (h : ∀ r', r? = some r' → r = r') :
    (s.answer r).Flattens (s.flat.answer r?) :=
  ⟨rfl, h, fun _ hk => absurd hk (by simp [FlatSession.answer])⟩

/-- Answering the same and doing nothing else corresponds. -/
lemma flattens_answer_some (s : Session) (r : Reply) :
    (s.answer r).Flattens (s.flat.answer (some r)) :=
  flattens_answer fun _ h => Option.some.inj h

/-- What goes on with the table of a slot corresponds if it does so for the table. -/
lemma flattens_withTable {k : Table → Outcome} {k' : FlatTable → FlatOutcome}
    (h : ∀ t, s.tables[slot]? = some t → (k t).Flattens (k' t.flat)) :
    (s.withTable slot k).Flattens (s.flat.withTable slot k') := by
  rw [withTable, FlatSession.withTable, getElem?_flat]
  cases ht : s.tables[slot]? with
  | none => exact flattens_answer_some s _
  | some t => exact h t ht

/-- What goes on with two tables corresponds if it does so for the two. -/
lemma flattens_withTables {partner : Nat} {k : Table → Table → Outcome}
    {k' : FlatTable → FlatTable → FlatOutcome}
    (h : ∀ t u, s.tables[slot]? = some t → s.tables[partner]? = some u →
      (k t u).Flattens (k' t.flat u.flat)) :
    (s.withTables slot partner k).Flattens (s.flat.withTables slot partner k') := by
  refine flattens_withTable fun t ht => ?_
  split
  · exact flattens_answer_some s _
  · rw [getElem?_flat]
    cases hu : s.tables[partner]? with
    | none => exact flattens_answer_some s _
    | some u => exact h t u ht hu

/-- What goes on with a child and its table corresponds if it does so for the two. -/
lemma flattens_withChild {k : Child → Table → Outcome} {k' : FlatChild → FlatTable → FlatOutcome}
    (h : ∀ (c : OpenChild) t, s.tables[slot]? = some t →
      (k c.child t).Flattens (k' c.flat t.flat)) :
    (s.withChild slot k).Flattens (s.flat.withChild slot k') := by
  refine flattens_withTable fun t ht => ?_
  rcases s.child?_flat slot with ⟨hnone, hnone'⟩ | ⟨c, hc, hc'⟩
  · rw [hnone, hnone']
    exact flattens_answer_some s _
  · rw [hc, hc']
    exact h c t ht

/-! ## Changes -/

/-- An operation corresponds to putting the flat table of the table afterwards in its place. -/
lemma flattens_commit (ht : s.tables[slot]? = some t) {α : Type} {reply : α → Reply}
    {e? : Option (Effect α)} {r : Reply} {u : FlatTable} (htable : (t.afterwards e?).flat = u)
    (hreply : Table.replyOf reply e? = r) :
    (s.commit slot reply e?).Flattens (s.flat.put slot r u) where
  session := by
    rw [session_commit ht, flat_setTable, htable]
    rfl
  reply := by
    intro r' hr'
    rw [reply_commit, hreply]
    exact Option.some.inj hr'
  closing := by
    intro k hk
    simp [FlatSession.put, FlatSession.answer] at hk

/-- Closing a child corresponds to closing it in the specification. -/
lemma flattens_closeChild (hs : s.Valid) (c : OpenChild) (rest : List OpenChild) :
    (s.closeChild c rest).Flattens (s.flat.closeChild c.flat (rest.map OpenChild.flat)) := by
  refine flattens_withTable fun t ht => ?_
  have hvt := hs.tables t (List.mem_of_getElem? ht)
  by_cases hbase : c.child.base ≤ t.stack.length
  · obtain ⟨e, he, hflat, hcontext, htrace⟩ := hvt.flat_close hbase
    rw [he, if_neg fun h => (hvt.lt_base_flat_iff c).1 h hbase]
    refine ⟨?_, fun _ h => Option.some.inj h, ?_⟩
    · simp only [flat, commit, setTable, FlatSession.setTable, List.map_set, hflat]
      rfl
    · intro k hk
      obtain rfl := Option.some.inj hk
      refine ⟨e.table, getElem?_setTable ht _, ?_⟩
      rw [Outcome.emissionsAt, emissionsAt_append_exitSpan, hcontext]
      simp only [commit]
      rw [emissionsAt_observe, htrace]
      exact if_pos rfl
  · rw [if_pos ((hvt.lt_base_flat_iff c).2 hbase), Child.close, if_neg hbase]
    exact ⟨rfl, fun _ h => Option.some.inj h, by simp [FlatSession.answer]⟩

/-- **One step of a session corresponds to one of the specification.**

**Proof sketch.** One case for each kind of step, by what the operation makes of the flat table.
An operation that needs frames which are not there is refused in the specification by comparing
the level. -/
theorem Valid.flattens_step (hs : s.Valid) (step : Step) :
    (s.step step).Flattens (s.flat.step step) := by
  have hvalid : ∀ {k : Nat} {u : Table}, s.tables[k]? = some u → u.Valid :=
    fun hu => hs.tables _ (List.mem_of_getElem? hu)
  cases step with
  | query k q =>
    refine flattens_withTable fun u hu => flattens_answer fun r hr => ?_
    rw [(hvalid hu).answer?_flat _ hr, Option.getD_some]
  | edit k e =>
    refine flattens_withTable fun u hu => ⟨?_, ?_, ?_⟩
    · rw [session_edit hu, flat_setTable, (hvalid hu).flat_edited]
      rfl
    · intro r hr
      rw [reply_edit, ← (hvalid hu).replyTo_flat]
      exact Option.some.inj hr
    · simp [FlatSession.put, FlatSession.answer]
  | copy source receiver =>
    refine flattens_withTables fun u v hu hv => flattens_commit hv ?_ ?_
    · rw [Table.copyInto, (hvalid hv).flat_insertAll, (hvalid hu).scan_eq]
    · exact (hvalid hv).replyOf_insertAll _
  | carry source receiver =>
    refine flattens_withTables fun u v hu hv => ?_
    obtain ⟨htable, hanswer⟩ := (hvalid hu).flat_carryInto (hvalid hv)
    exact flattens_commit hv htable (congrArg Reply.number hanswer)
  | swap first second =>
    refine flattens_withTables fun u v _ _ => ?_
    rw [← flat_setTable, ← flat_setTable]
    exact flattens_answer_some _ _
  | openChild k =>
    refine flattens_withTable fun u hu => ?_
    obtain ⟨htable, hbase, hfloor⟩ := (hvalid hu).flat_openChild
    refine ⟨?_, ?_, by simp [FlatSession.answer]⟩
    · simp only [openChild, flat, List.map_set, List.map_cons, htable, OpenChild.flat, hbase,
        hfloor]
      rfl
    · rintro r hr
      rw [← Option.some.inj hr, ← hbase]
      rfl
  | closeChild k =>
    rw [Session.step, FlatSession.step]
    cases hchildren : s.children with
    | nil =>
      have hnil : s.flat.children = [] := by
        rw [flat, hchildren, List.map_nil]
      rw [hnil]
      exact flattens_withTable fun _ _ => flattens_answer_some s _
    | cons c rest =>
      have hcons : s.flat.children = c.flat :: rest.map OpenChild.flat := by
        rw [flat, hchildren, List.map_cons]
      rw [hcons]
      exact flattens_closeChild hs c rest
  | childLevel k => exact flattens_withChild fun c _ _ => flattens_answer_some s _
  | seed k =>
    refine flattens_withChild fun c u hu => ?_
    have hvu := hvalid hu
    rw [Child.seed, Table.seed]
    by_cases hbase : c.child.base ≤ u.stack.length
    · rw [if_pos hbase, if_neg fun h => (hvu.lt_base_flat_iff c).1 h hbase,
        hvu.leveled.scan_outside hbase]
      exact flattens_commit hu (hvu.flat_insertAll _) (hvu.replyOf_insertAll _)
    · rw [if_neg hbase, if_pos ((hvu.lt_base_flat_iff c).2 hbase)]
      exact flattens_answer_some s _
  | writeBack k =>
    refine flattens_withChild fun c u hu => ?_
    have hvu := hvalid hu
    rw [Child.writeBack]
    by_cases hbase : c.child.base ≤ u.stack.length
    · obtain ⟨e, he, htable, hanswer⟩ := hvu.flat_writeBack hbase
      rw [he, if_neg fun h => (hvu.lt_base_flat_iff c).1 h hbase]
      exact flattens_commit hu htable (congrArg Reply.number hanswer)
    · rw [Table.writeBack, if_neg hbase, if_pos ((hvu.lt_base_flat_iff c).2 hbase)]
      exact flattens_answer_some s _
  | trace k outlet event level =>
    exact flattens_withTable fun _ _ =>
      ⟨rfl, fun _ h => Option.some.inj h, by simp [FlatSession.answer]⟩

/-- **Closing the innermost child of a slot** corresponds to closing it in the specification, also
if children of other slots were opened later. -/
theorem Valid.flattens_closeOn (hs : s.Valid) (slot : Nat) :
    (s.closeOn slot).Flattens (s.flat.closeOn slot) := by
  have herase : (s.flat.children.eraseP fun c => c.slot == slot) =
      (s.children.eraseP fun c => c.slot == slot).map OpenChild.flat := List.eraseP_map
  rw [Session.closeOn, FlatSession.closeOn, find?_children_flat, herase]
  cases s.children.find? fun c => c.slot == slot with
  | none => exact flattens_withTable fun _ _ => flattens_answer_some s _
  | some c =>
    -- the spans that are given to the session afterwards are not part of the flat one
    obtain ⟨hsession, hreply, hclosing⟩ :=
      flattens_closeChild hs c (s.children.eraseP fun c => c.slot == slot)
    exact ⟨hsession, hreply, hclosing⟩

/-- One move corresponds to one of the specification. -/
theorem Valid.flattens_move (hs : s.Valid) (m : Move) :
    (s.move m).Flattens (s.flat.move m) := by
  cases m with
  | step step => exact hs.flattens_step step
  | closeOn slot => exact hs.flattens_closeOn slot

/-! ## Runs -/

/-- Fresh tables correspond to fresh flat tables. -/
lemma flat_ofContexts (contexts : List Context) :
    (ofContexts contexts).flat = FlatSession.fresh contexts.length := by
  have hfresh : Table.flat ∘ Table.ofContext = Function.const Context FlatTable.fresh := rfl
  rw [flat, ofContexts, List.map_map, hfresh, List.map_const]
  rfl

/-- What corresponds goes on in correspondence. -/
theorem Valid.flattens_run (hs : s.Valid) (ms : List Move) :
    List.Forall₂ (fun x o => x.outcome.Flattens o) (s.turns ms) (s.flat.run ms) := by
  induction ms generalizing s with
  | nil => exact List.Forall₂.nil
  | cons m ms ih =>
    have hmove := hs.flattens_move m
    have hrest := ih (hs.move m)
    rw [hmove.session] at hrest
    exact List.Forall₂.cons hmove hrest

/-- **Frames refine flat tables.** Every run over fresh tables, in which the child that was opened
last or the innermost one of any slot may be closed, corresponds, turn by turn, to the run of the
same moves over fresh flat tables: the sessions have the same levels, floors, bindings and children
after each move, what the specification answers is answered (it leaves open only contexts and what
shows a table or a handle as a whole), also that a move is refused or out of range, and closing a
child reports the number of the bindings that the specification deletes. -/
theorem frames_refine_flat_tables (contexts : List Context) (ms : List Move) :
    List.Forall₂ (fun x o => x.outcome.Flattens o) ((ofContexts contexts).turns ms)
      ((FlatSession.fresh contexts.length).run ms) := by
  rw [← flat_ofContexts]
  exact (valid_ofContexts contexts).flattens_run ms

end Session

end LexicalScope
