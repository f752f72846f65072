import Mathlib.Data.List.Basic
import LexicalScope.Proofs.Session.Spans

set_option autoImplicit false

/-!
# Steps out of range

A step is out of range if it needs frames that are not there. In a reachable session this is so
only for a child that is used or closed on a table with fewer frames than lie outside of the child,
as after an exchange of tables. Nothing has been changed by then. A child that can be closed leaves
exactly the frames outside of it, whatever table it is closed on.

## Main definitions

* `LexicalScope.Session.LacksFrames` — a step needs frames outside of a child that the table does
  not have.
* `LexicalScope.Session.closingLog` — what an observer sees of the end of a child.

## Main results

* `LexicalScope.Session.Valid.reply_step_eq_outOfRange_iff` — in a valid session these are the
  steps that are out of range.
* `LexicalScope.Session.step_of_lacksFrames` — such a step changes no table and reports no event.
* `LexicalScope.Session.closeChild_of_le` — closing a child on any table that has the frames
  outside of it.
* `LexicalScope.Session.out_of_range_iff_lacksFrames` — all of this in every session that is
  reached.
-/

namespace LexicalScope

/-- Every question about a table that has a current frame has an answer. -/
theorem Table.isSome_answer? {t : Table} {f : Frame} {outer : Stack} (h : t.stack = f :: outer)
    (c? : Option Child) (q : Query) : ∃ r, q.answer? c? t = some r ∧ r ≠ .outOfRange := by
  cases q <;> simp [Query.answer?, current?, h]

namespace Session

/-- The step uses or closes a child on a table that has fewer frames than lie outside of it. -/
def LacksFrames (s : Session) : Step → Prop
  | .seed slot | .writeBack slot =>
    ∃ c t, s.child? slot = some c ∧ s.tables[slot]? = some t ∧ t.stack.length < c.base
  | .closeChild _ =>
    ∃ c rest t, s.children = c :: rest ∧ s.tables[c.slot]? = some t ∧
      t.stack.length < c.child.base
  | _ => False

variable {s : Session} {slot : Nat}

/-! ## Out of range -/

/-- What goes on with the table of a slot is out of range only if the slot has a table. -/
lemma reply_withTable_eq_outOfRange_iff (k : Table → Outcome) :
    (s.withTable slot k).reply = .outOfRange ↔
      ∃ t, s.tables[slot]? = some t ∧ (k t).reply = .outOfRange := by
  cases ht : s.tables[slot]? with
  | none =>
    rw [withTable_of_none ht]
    simp [answer]
  | some t =>
    rw [withTable_of_some ht]
    simp

/-- What goes on with two tables is not out of range unless it is so for the two. -/
lemma reply_withTables_ne_outOfRange {partner : Nat} {k : Table → Table → Outcome}
    (h : ∀ t u, s.tables[partner]? = some u → (k t u).reply ≠ .outOfRange) :
    (s.withTables slot partner k).reply ≠ .outOfRange := by
  intro hreply
  obtain ⟨t, -, hreply⟩ := (reply_withTable_eq_outOfRange_iff _).1 hreply
  split at hreply
  · simp [answer] at hreply
  · split at hreply
    · simp [answer] at hreply
    · rename_i u hu
      exact h t u hu hreply

/-- What goes on with a child is out of range only if the slot has a child and a table. -/
lemma reply_withChild_eq_outOfRange_iff (k : Child → Table → Outcome) :
    (s.withChild slot k).reply = .outOfRange ↔
      ∃ c t, s.child? slot = some c ∧ s.tables[slot]? = some t ∧
        (k c t).reply = .outOfRange := by
  rw [withChild, reply_withTable_eq_outOfRange_iff]
  cases s.child? slot with
  | none => simp [answer]
  | some c => simp

/-- Copies are declared in any table that has a current frame. -/
lemma Valid.reply_insertAll (hs : s.Valid) {t : Table} (ht : s.tables[slot]? = some t)
    (bs : List Binding) : (s.commit slot (fun _ => .done) (t.insertAll bs)).reply = .done := by
  obtain ⟨f, outer, hf⟩ := (hs.tables t (List.mem_of_getElem? ht)).exists_cons
  rw [Table.insertAll_of_stack_eq_cons hf, commit]

/-- Closing a child is out of range exactly if the table has fewer frames than lie outside of the
child. -/
lemma reply_closeChild_eq_outOfRange_iff (c : OpenChild) (rest : List OpenChild) :
    (s.closeChild c rest).reply = .outOfRange ↔
      ∃ t, s.tables[c.slot]? = some t ∧ t.stack.length < c.child.base := by
  simp only [Session.closeChild, reply_withTable_eq_outOfRange_iff, reply_commit]
  refine exists_congr fun t => and_congr_right fun _ => ?_
  by_cases hle : c.child.base ≤ t.stack.length
  · obtain ⟨e, he, -, -⟩ := Child.close_of_le hle
    rw [he, Table.replyOf]
    simpa using hle
  · rw [Child.close, if_neg hle, Table.replyOf]
    simpa using hle

/-- **In a valid session the steps out of range are those that lack frames outside of a child.**

**Proof sketch.** One case for each kind of step. Every table has a current frame, so questions,
edits and copies are answered or refused. An operation of a child is out of range exactly if the
table has fewer frames than its base says. -/
theorem Valid.reply_step_eq_outOfRange_iff (hs : s.Valid) (step : Step) :
    (s.step step).reply = .outOfRange ↔ s.LacksFrames step := by
  have hcons : ∀ {k : Nat} {t : Table}, s.tables[k]? = some t → ∃ f outer, t.stack = f :: outer :=
    fun ht => (hs.tables _ (List.mem_of_getElem? ht)).exists_cons
  cases step with
  | query k q =>
    refine iff_of_false ?_ fun h => h
    rw [Session.step, reply_withTable_eq_outOfRange_iff]
    rintro ⟨t, ht, hreply⟩
    obtain ⟨f, outer, hf⟩ := hcons ht
    obtain ⟨r, hr, hne⟩ := Table.isSome_answer? hf (s.child? k) q
    rw [hr] at hreply
    exact hne hreply
  | edit k e =>
    refine iff_of_false ?_ fun h => h
    rw [Session.step, reply_withTable_eq_outOfRange_iff]
    rintro ⟨t, ht, hreply⟩
    obtain ⟨f, outer, hf⟩ := hcons ht
    rw [reply_edit] at hreply
    exact Table.replyTo_ne_outOfRange hf e hreply
  | copy source receiver =>
    refine iff_of_false ?_ fun h => h
    refine reply_withTables_ne_outOfRange fun t u hu => ?_
    rw [Table.copyInto, hs.reply_insertAll hu]
    simp
  | carry source receiver =>
    refine iff_of_false ?_ fun h => h
    refine reply_withTables_ne_outOfRange fun t u _ => ?_
    simp [commit]
  | swap first second =>
    refine iff_of_false ?_ fun h => h
    refine reply_withTables_ne_outOfRange fun t u _ => ?_
    simp [answer]
  | openChild k =>
    refine iff_of_false ?_ fun h => h
    rw [Session.step, reply_withTable_eq_outOfRange_iff]
    simp [openChild]
  | closeChild k =>
    rw [Session.step]
    cases hchildren : s.children with
    | nil =>
      refine iff_of_false ?_ ?_
      · simp only [reply_withTable_eq_outOfRange_iff]
        simp [answer]
      · rintro ⟨c, rest, t, hcons, -⟩
        rw [hchildren] at hcons
        simp at hcons
    | cons c rest =>
      simp only [reply_closeChild_eq_outOfRange_iff]
      constructor
      · rintro ⟨t, ht, hlt⟩
        exact ⟨c, rest, t, hchildren, ht, hlt⟩
      · rintro ⟨d, rest', t, hcons, ht, hlt⟩
        rw [hchildren, List.cons.injEq] at hcons
        obtain ⟨rfl, -⟩ := hcons
        exact ⟨t, ht, hlt⟩
  | childLevel k =>
    refine iff_of_false ?_ fun h => h
    rw [Session.step, reply_withChild_eq_outOfRange_iff]
    simp [answer]
  | seed k =>
    rw [Session.step, reply_withChild_eq_outOfRange_iff]
    refine exists_congr fun c => exists_congr fun t => and_congr_right fun _ =>
      and_congr_right fun ht => ?_
    rw [Child.seed, Table.seed]
    split
    · rename_i hle
      rw [hs.reply_insertAll ht]
      simpa using hle
    · rename_i hnot
      simpa [commit, answer] using hnot
  | writeBack k =>
    rw [Session.step, reply_withChild_eq_outOfRange_iff]
    refine exists_congr fun c => exists_congr fun t => and_congr_right fun _ =>
      and_congr_right fun _ => ?_
    rw [Child.writeBack, Table.writeBack]
    split
    · rename_i hle
      simpa [commit] using hle
    · rename_i hnot
      simpa [commit, answer] using hnot
  | trace k outlet event level =>
    refine iff_of_false ?_ fun h => h
    rw [Session.step, reply_withTable_eq_outOfRange_iff]
    simp

/-- Closing a child on a table that has too few frames changes no table and reports no event. -/
lemma closeChild_of_lt {c : OpenChild} {t : Table} (ht : s.tables[c.slot]? = some t)
    (hlt : t.stack.length < c.child.base) (rest : List OpenChild) :
    (s.closeChild c rest).session.tables = s.tables ∧
      ∀ k e spans, LogRecord.event k e spans ∉ (s.closeChild c rest).log := by
  rw [closeChild, withTable_of_some ht, Child.close, if_neg (Nat.not_le_of_lt hlt)]
  refine ⟨rfl, fun k e spans hmem => ?_⟩
  simp only [commit, answer, List.nil_append] at hmem
  split at hmem <;> simp at hmem

/-- **A step that lacks frames changes no table and reports no event.** Using a child does nothing
at all; closing it gives up the handle and leaves the span that it may have. -/
theorem step_of_lacksFrames {step : Step} (h : s.LacksFrames step) :
    (s.step step).session.tables = s.tables ∧
      ∀ k e spans, LogRecord.event k e spans ∉ (s.step step).log := by
  cases step with
  | seed k =>
    obtain ⟨c, t, hc, ht, hlt⟩ := h
    have hstep : s.step (.seed k) = s.answer .outOfRange := by
      rw [Session.step, withChild, withTable_of_some ht]
      simp only [hc, Child.seed, Table.seed, if_neg (Nat.not_le_of_lt hlt), commit]
    rw [hstep]
    exact ⟨rfl, fun _ _ _ => List.not_mem_nil⟩
  | writeBack k =>
    obtain ⟨c, t, hc, ht, hlt⟩ := h
    have hstep : s.step (.writeBack k) = s.answer .outOfRange := by
      rw [Session.step, withChild, withTable_of_some ht]
      simp only [hc, Child.writeBack, Table.writeBack, if_neg (Nat.not_le_of_lt hlt), commit]
    rw [hstep]
    exact ⟨rfl, fun _ _ _ => List.not_mem_nil⟩
  | closeChild k =>
    obtain ⟨c, rest, t, hcons, ht, hlt⟩ := h
    rw [step_closeChild hcons]
    exact closeChild_of_lt ht hlt rest
  | _ => exact h.elim

/-! ## Closing a child -/

/-- What an observer sees of the end of a child that is closed on `t`: the table reports that the
scope of the child was left, if it reports at all, and then the span of the child is left, if it
has one. -/
def closingLog (s : Session) (slot : Nat) (c : Child) (t : Table) (reaped : Nat) :
    List LogRecord :=
  (if t.context.tracer = .log then
    [.event slot ⟨.exited reaped, c.base⟩ s.spans.reverse]
  else []) ++
    if c.hasSpan then [.exitSpan c.base] else []

/-- **Closing a child** on a table that has the frames outside of it leaves exactly these frames,
and the floor that the child saved. -/
theorem closeChild_of_le {c : OpenChild} {t : Table} (ht : s.tables[c.slot]? = some t)
    (hle : c.child.base ≤ t.stack.length) (rest : List OpenChild) :
    (s.closeChild c rest).reply = .done ∧
      (s.closeChild c rest).session.tables =
        s.tables.set c.slot
          { t with stack := t.stack.outside c.child.base, floor := c.child.savedFloor } ∧
      (s.closeChild c rest).log =
        s.closingLog c.slot c.child t (t.stack.inside c.child.base).size := by
  rw [closeChild, withTable_of_some ht, Child.close, if_pos hle]
  refine ⟨rfl, rfl, ?_⟩
  rw [closingLog]
  simp only [commit, Context.emit]
  cases t.context.tracer <;> rfl

/-! ## Closing in any order -/

/-- The child that was opened last is closed in this way too. -/
theorem closeOn_eq_step (hspans : s.HasSpans) (htables : s.HasTables) {c : OpenChild}
    {rest : List OpenChild} (hcons : s.children = c :: rest) (k : Nat) :
    s.closeOn c.slot = s.step (.closeChild k) := by
  obtain ⟨t, ht⟩ := htables c (by rw [hcons]; exact List.mem_cons_self)
  have hafter : (s.closeChild c rest).session.spans =
      spanScopes (s.closeChild c rest).session.children := hspans.closeChild hcons ht
  rw [step_closeChild hcons, closeOn, hcons, List.find?_cons_of_pos (by simp),
    List.eraseP_cons_of_pos (by simp)]
  simp only [← hafter]

/-- The innermost child of a slot is open on a table, and is closed like any other. -/
lemma HasTables.closeOn_eq (htables : s.HasTables) {c : Child} (hc : s.child? slot = some c) :
    ∃ t rest, s.tables[slot]? = some t ∧
      (s.closeOn slot).reply = (s.closeChild ⟨slot, c⟩ rest).reply ∧
      (s.closeOn slot).session.tables = (s.closeChild ⟨slot, c⟩ rest).session.tables ∧
      (s.closeOn slot).log = (s.closeChild ⟨slot, c⟩ rest).log := by
  obtain ⟨o, ho, rfl⟩ := Option.map_eq_some_iff.1 hc
  obtain ⟨t, ht⟩ := htables o (List.mem_of_find?_eq_some ho)
  have hslot : o.slot = slot := by simpa using List.find?_some ho
  subst hslot
  rw [closeOn, ho]
  exact ⟨t, _, ht, rfl, rfl, rfl⟩

/-- **Steps out of range.** In every session that is reached from fresh tables by steps and by
closing children in any order that their slots allow:

* a step is out of range exactly if it seeds, lets write back or closes a child on a table that has
  fewer frames than lie outside of the child; no other step ever is;
* a step out of range changes no table and reports no event;
* wherever a name is located, in a table or outside of a level of it, there is a binding, so that
  what is written has its place;
* the innermost child of a slot is open on a table, and closing it is out of range exactly if this
  table, whichever it is, has fewer frames than lie outside of the child; then no table is changed
  and no event is reported; otherwise closing leaves exactly the frames outside of the child, as
  they are, and the floor that the child saved, changes no other table, and reports, if the table
  reports, that the scope of the child was left and how many bindings went away;
* the step that closes a child closes, in this way, the one that was opened last. -/
theorem out_of_range_iff_lacksFrames (hs : s.ReachableInAnyOrder) :
    (∀ step, (s.step step).reply = .outOfRange ↔ s.LacksFrames step) ∧
    (∀ step, (s.step step).reply = .outOfRange →
      (s.step step).session.tables = s.tables ∧
        ∀ k e spans, LogRecord.event k e spans ∉ (s.step step).log) ∧
    (∀ t ∈ s.tables, ∀ level name p, (t.stack.outside level).locate name = some p →
      (t.stack.bindingAt? p).isSome = true) ∧
    (∀ slot c, s.child? slot = some c →
      ∃ t, s.tables[slot]? = some t ∧
        ((s.closeOn slot).reply = .outOfRange ↔ t.stack.length < c.base) ∧
        (t.stack.length < c.base →
          (s.closeOn slot).session.tables = s.tables ∧
            ∀ k e spans, LogRecord.event k e spans ∉ (s.closeOn slot).log) ∧
        (c.base ≤ t.stack.length →
          (s.closeOn slot).reply = .done ∧
          (s.closeOn slot).session.tables =
            s.tables.set slot
              { t with stack := t.stack.outside c.base, floor := c.savedFloor } ∧
          (t.stack.outside c.base).length = c.base ∧
          ∃ reaped, (t.stack.outside c.base).size + reaped = t.size ∧
            (s.closeOn slot).log = s.closingLog slot c t reaped)) ∧
    ∀ c rest k, s.children = c :: rest → s.step (.closeChild k) = s.closeOn c.slot := by
  have hvalid := hs.valid
  have htables := hs.hasTables
  refine ⟨hvalid.reply_step_eq_outOfRange_iff, ?_, ?_, ?_, ?_⟩
  · intro step hreply
    exact step_of_lacksFrames ((hvalid.reply_step_eq_outOfRange_iff step).1 hreply)
  · intro t _ level name p
    exact Stack.isSome_bindingAt?_of_locate_outside
  · intro slot c hc
    obtain ⟨t, rest, ht, hreply, hsession, hlog⟩ := htables.closeOn_eq hc
    rw [hreply, hsession, hlog]
    refine ⟨t, ht, ?_, fun hlt => closeChild_of_lt ht hlt rest, fun hle => ?_⟩
    · rw [reply_closeChild_eq_outOfRange_iff]
      simp only [ht, Option.some.injEq, exists_eq_left']
    · obtain ⟨hdone, htable, hreport⟩ := closeChild_of_le (c := ⟨slot, c⟩) ht hle rest
      refine ⟨hdone, htable, Stack.length_outside _ hle, _, ?_, hreport⟩
      rw [Table.size, Nat.add_comm, ← Stack.size_append, Stack.inside_append_outside]
  · intro c rest k hcons
    exact (closeOn_eq_step hs.hasSpans htables hcons k).symm

/-- Two tables are exchanged under the children that are open on them. The child of slot `0` can
neither be seeded nor be closed on a table with fewer frames than its base. The child of slot `1`
was opened before it, and is closed first, on a table with frames and bindings of another. -/
theorem out_of_range_iff_lacksFrames_exchanged :
    ∃ s, s = (ofContexts [.traced, .quiet]).final
        [.edit 0 .enter, .edit 0 .enter, .edit 0 (.insert "x" "int" "1"), .openChild 1,
          .openChild 0, .swap 0 1] ∧
      (s.step (.seed 0)).reply = .outOfRange ∧
      (s.closeOn 0).reply = .outOfRange ∧ (s.closeOn 0).session.tables = s.tables ∧
      (s.closeOn 1).reply = .done ∧ (s.closeOn 1).log = [.event 1 ⟨.exited 1, 1⟩ [3]] := by
  have hreach : ((ofContexts [.traced, .quiet]).final
      [.edit 0 .enter, .edit 0 .enter, .edit 0 (.insert "x" "int" "1"), .openChild 1,
        .openChild 0, .swap 0 1]).ReachableInAnyOrder := Reachable.inAnyOrder ⟨_, _, rfl⟩
  obtain ⟨hsteps, -, -, hclose, -⟩ := out_of_range_iff_lacksFrames hreach
  obtain ⟨t, ht, hout, hlacks, -⟩ := hclose 0 ⟨3, 0, true⟩ (by decide)
  obtain ⟨u, hu, -, -, hcloses⟩ := hclose 1 ⟨1, 0, false⟩ (by decide)
  cases ht
  cases hu
  obtain ⟨hdone, -, -, reaped, hsize, hlog⟩ := hcloses (by decide)
  obtain rfl : reaped = 1 := (Nat.zero_add reaped).symm.trans hsize
  exact ⟨_, rfl, (hsteps (.seed 0)).2 ⟨_, _, rfl, rfl, by decide⟩, hout.2 (by decide),
    (hlacks (by decide)).1, hdone, hlog⟩

end Session

end LexicalScope
