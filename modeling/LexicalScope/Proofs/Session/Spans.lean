import Mathlib.Data.List.Basic
import LexicalScope.Proofs.Session.Valid
import LexicalScope.Proofs.Trace.Nesting

set_option autoImplicit false

/-!
# Spans of a run

Whether a child has a span is settled when it is opened, by the tracer that its table has then.
Children are closed in the opposite order, so their spans are nested, whichever tables they are
opened on, and whichever tables they are closed on. The spans that an event is reported with are
those of the children that are open.

## Main definitions

* `LexicalScope.Session.HasSpans` — the open spans are those of the open children.
* `LexicalScope.Session.transcript` — what an observer sees in a run.
* `LexicalScope.Session.Encloses` — what a session has open, and what an observer has seen, since
  certain children were open.

## Main results

* `LexicalScope.Session.ReachableInAnyOrder.hasSpans` — in every session that is reached the open
  spans are those of the open children.
* `LexicalScope.Session.Encloses.final` — a run that keeps the outer children open is nested, except
  for the spans of the children that it leaves open.
* `LexicalScope.Session.HasSpans.spans_of_mem_log` — every event is reported with the spans of the
  children that are open.
* `LexicalScope.Session.nested_of_closed` — what is seen between the opening of a child and its end.
* `LexicalScope.Session.spans_are_nested` — all of this for every run over fresh tables.
-/

namespace LexicalScope

/-- A child with a span adds its scope. -/
lemma spanScopes_cons (c : OpenChild) (cs : List OpenChild) :
    spanScopes (c :: cs) =
      (if c.child.hasSpan then [c.child.base] else []) ++ spanScopes cs := by
  rw [spanScopes, List.filter_cons]
  split <;> rfl

/-- The spans of inner children come before those of outer ones. -/
lemma spanScopes_append (cs ds : List OpenChild) :
    spanScopes (cs ++ ds) = spanScopes cs ++ spanScopes ds := by
  rw [spanScopes, List.filter_append, List.map_append, spanScopes, spanScopes]

/-- A child has a span exactly if the table logs when the child is opened on it. -/
lemma Table.hasSpan_openChild (t : Table) :
    t.openChild.answer.hasSpan = true ↔ t.context.tracer = .log := by
  simp [openChild]

namespace Session

variable {s : Session} {slot : Nat} {t : Table}

/-! ## Spans and children -/

/-- The open spans are those of the open children. -/
def HasSpans (s : Session) : Prop :=
  s.spans = spanScopes s.children

/-- An operation leaves the open spans as they are. -/
lemma spans_commit {α : Type} (s : Session) (slot : Nat) (reply : α → Reply)
    (e? : Option (Effect α)) : (s.commit slot reply e?).session.spans = s.spans := by
  cases e? <;> rfl

/-- Operations leave children and spans alone. -/
lemma HasSpans.commit {α : Type} (h : s.HasSpans) (slot : Nat) (reply : α → Reply)
    (e? : Option (Effect α)) : (s.commit slot reply e?).session.HasSpans := by
  cases e? <;> exact h

/-- A child that is opened has its span among the open ones. -/
lemma HasSpans.openChild (h : s.HasSpans) (slot : Nat) (t : Table) :
    (s.openChild slot t).session.HasSpans := by
  rw [HasSpans, Session.openChild, spanScopes_cons]
  simp only [h.symm]
  split <;> rfl

/-- The child that was opened last takes its span away when it is closed. -/
lemma HasSpans.closeChild (h : s.HasSpans) {c : OpenChild} {rest : List OpenChild}
    (hc : s.children = c :: rest) (ht : s.tables[c.slot]? = some t) :
    (s.closeChild c rest).session.HasSpans := by
  rw [HasSpans, hc, spanScopes_cons] at h
  rw [HasSpans, Session.closeChild, withTable_of_some ht]
  simp only [h]
  split <;> rfl

/-- A step enters and leaves the spans of the children that it opens and closes. -/
lemma HasSpans.step (h : s.HasSpans) (step : Step) : (s.step step).session.HasSpans := by
  have hends := s.ends_step step
  generalize s.step step = o at hends ⊢
  cases hends with
  | answer | report | exchange => exact h
  | commit => exact h.commit ..
  | openChild => exact h.openChild ..
  | closeChild _ hc ht => exact h.closeChild hc ht

/-- Closing the innermost child of a slot leaves the spans of the children open that stay open. -/
lemma HasSpans.closeOn (h : s.HasSpans) (slot : Nat) : (s.closeOn slot).session.HasSpans := by
  rw [Session.closeOn]
  split
  · rw [session_withTable_answer]
    exact h
  · rfl

/-- A move enters and leaves the spans of the children that it opens and closes. -/
lemma HasSpans.move (h : s.HasSpans) (m : Move) : (s.move m).session.HasSpans := by
  cases m with
  | step step => exact h.step step
  | closeOn slot => exact h.closeOn slot

/-- In every session that is reached the open spans are those of the open children. -/
theorem ReachableInAnyOrder.hasSpans (hs : s.ReachableInAnyOrder) : s.HasSpans :=
  hs.induction (fun _ => rfl) fun _ m h => h.move m

/-! ## Logs of steps -/

/-- What is seen of an operation is what its table emits. -/
lemma log_commit {α : Type} (s : Session) (slot : Nat) (reply : α → Reply)
    (e? : Option (Effect α)) :
    (s.commit slot reply e?).log = s.observe slot (Table.emitted e?) := by
  cases e? <;> rfl

/-- What an observer sees when a child is opened: nothing, or that its span is entered, and inside
of the span that its scope is. -/
lemma log_openChild (s : Session) (slot : Nat) (t : Table) :
    (s.openChild slot t).log =
      if t.context.tracer = .log then
        [.enterSpan t.stack.length,
          .event slot ⟨.entered, t.stack.length⟩ (t.stack.length :: s.spans).reverse]
      else [] := by
  rw [openChild]
  cases htracer : t.context.tracer <;>
    simp [Table.openChild, Table.enter, Context.emit, observe, htracer]

/-- What an observer sees when a child is closed: what the table reports, and then that the span of
the child is left, if it has one. -/
lemma log_closeChild {c : OpenChild} (ht : s.tables[c.slot]? = some t) (rest : List OpenChild) :
    (s.closeChild c rest).log =
      s.observe c.slot (Table.emitted (c.child.close t)) ++
        if c.child.hasSpan then [.exitSpan c.child.base] else [] := by
  rw [closeChild, withTable_of_some ht]
  simp only [log_commit]

/-- Closing a child on a table reports that its scope was left, and how many bindings went away, if
the table logs and has the frames outside of the child; otherwise it reports nothing. -/
lemma observe_close (s : Session) (slot : Nat) (c : Child) (t : Table) :
    s.observe slot (Table.emitted (c.close t)) =
      if c.base ≤ t.stack.length ∧ t.context.tracer = .log then
        [.event slot ⟨.exited (t.stack.inside c.base).size, c.base⟩ s.spans.reverse]
      else [] := by
  by_cases hle : c.base ≤ t.stack.length
  · rw [Child.close, if_pos hle]
    cases htracer : t.context.tracer <;> simp [Table.emitted, Context.emit, observe, htracer, hle]
  · rw [Child.close, if_neg hle, if_neg fun h => hle h.1]
    rfl

/-- The events of a table are reported with the open spans. -/
lemma isNested_observe (s : Session) (slot : Nat) (trace : List Emission) :
    IsNested s.spans (s.observe slot trace) := by
  induction trace with
  | nil => exact .nil _
  | cons e trace ih => exact .event slot e ih

/-! ## Logs of runs -/

/-- What an observer sees in a run. -/
def transcript (s : Session) (steps : List Step) : List LogRecord :=
  (s.run steps).flatMap Outcome.log

/-- What is seen of the first step comes before what is seen of the others. -/
lemma transcript_cons (s : Session) (step : Step) (steps : List Step) :
    s.transcript (step :: steps) =
      (s.step step).log ++ (s.step step).session.transcript steps :=
  List.flatMap_cons

/-- What is seen of the first part of a run comes before what is seen of the rest. -/
lemma transcript_append (s : Session) (steps rest : List Step) :
    s.transcript (steps ++ rest) = s.transcript steps ++ (s.final steps).transcript rest := by
  rw [transcript, run_append, List.flatMap_append]
  rfl

/-- The session has children open inside of the children `below`, and the log is that of an
observer for whom all spans that are not those of the children `below` were entered in it: it is
nested, except for the spans of the inner children. -/
def Encloses (below : List OpenChild) (log : List LogRecord) (s : Session) : Prop :=
  ∃ inner, s.children = inner ++ below ∧ IsPending (spanScopes below) (spanScopes inner) log

variable {below : List OpenChild} {log : List LogRecord}

/-- Nothing was opened or seen before a run begins. -/
lemma encloses_self (s : Session) : s.Encloses s.children [] :=
  ⟨[], rfl, .nil _⟩

/-- Events that are reported with the open spans may follow. -/
lemma Encloses.append (h : s.Encloses below log) (hspans : s.HasSpans) {s' : Session}
    (hchildren : s'.children = s.children) {rest : List LogRecord}
    (hrest : IsNested s.spans rest) : s'.Encloses below (log ++ rest) := by
  obtain ⟨inner, hinner, hpending⟩ := h
  refine ⟨inner, hchildren.trans hinner, hpending.append ?_⟩
  rwa [← spanScopes_append, ← hinner, ← hspans]

/-- The span of a child that is opened is entered before anything is reported. -/
lemma Encloses.openChild (h : s.Encloses below log) (hspans : s.HasSpans) (slot : Nat)
    (t : Table) :
    (s.openChild slot t).session.Encloses below (log ++ (s.openChild slot t).log) := by
  obtain ⟨inner, hinner, hpending⟩ := h
  have hopen : s.spans = spanScopes inner ++ spanScopes below := by
    rw [hspans, hinner, spanScopes_append]
  refine ⟨{ slot := slot, child := t.openChild.answer } :: inner, ?_, ?_⟩
  · rw [Session.openChild, hinner, List.cons_append]
  · rw [log_openChild, spanScopes_cons]
    by_cases hlog : t.context.tracer = .log
    · simp only [if_pos hlog, if_pos (t.hasSpan_openChild.2 hlog), hopen]
      rw [List.append_cons]
      exact (hpending.enter t.stack.length).append (.event slot _ (.nil _))
    · simp only [if_neg hlog, if_neg (mt t.hasSpan_openChild.1 hlog), List.append_nil,
        List.nil_append]
      exact hpending

/-- The span of a child that is closed is the innermost one, and is left after the last event. -/
lemma Encloses.closeChild (h : s.Encloses below log) (hspans : s.HasSpans) {c : OpenChild}
    {rest : List OpenChild} (hc : s.children = c :: rest) (ht : s.tables[c.slot]? = some t)
    (hbelow : below.length ≤ rest.length) :
    (s.closeChild c rest).session.Encloses below (log ++ (s.closeChild c rest).log) := by
  obtain ⟨inner, hinner, hpending⟩ := h
  cases inner with
  | nil =>
    have hlen := congrArg List.length (hinner.symm.trans hc)
    rw [List.nil_append, List.length_cons] at hlen
    omega
  | cons d inner =>
    have heq := hinner.symm.trans hc
    rw [List.cons_append, List.cons.injEq] at heq
    obtain ⟨rfl, rfl⟩ := heq
    have hevents := isNested_observe s d.slot (Table.emitted (d.child.close t))
    rw [hspans, hinner, spanScopes_append] at hevents
    have hpending' := hpending.append hevents
    refine ⟨inner, by rw [Session.closeChild, withTable_of_some ht], ?_⟩
    rw [log_closeChild ht, ← List.append_assoc]
    rw [spanScopes_cons] at hpending'
    split at hpending'
    · rename_i hspan
      rw [if_pos hspan]
      exact hpending'.exit
    · rename_i hspan
      rw [if_neg hspan, List.append_nil]
      exact hpending'

/-- **A step that closes none of the outer children** keeps what is open nested in them.

**Proof sketch.** One case for each way in which a step ends. What a table reports, it reports with
the open spans; a child that is opened enters its span first, one that is closed leaves its span
last. -/
theorem Encloses.step (h : s.Encloses below log) (hspans : s.HasSpans) {step : Step}
    (hbelow : below.length ≤ (s.step step).session.children.length) :
    (s.step step).session.Encloses below (log ++ (s.step step).log) := by
  have hends := s.ends_step step
  generalize s.step step = o at hends hbelow ⊢
  cases hends with
  | answer | exchange => exact h.append hspans rfl (.nil _)
  | report => exact h.append hspans rfl (isNested_observe s _ _)
  | commit =>
    rw [log_commit]
    exact h.append hspans (children_commit ..) (isNested_observe s _ _)
  | openChild => exact h.openChild hspans _ _
  | closeChild _ hc ht =>
    refine h.closeChild hspans hc ht ?_
    rwa [Session.closeChild, withTable_of_some ht] at hbelow

/-- The step leaves at least `n` children open. -/
def LeavesChildren (n : Nat) (s : Session) (step : Step) : Prop :=
  n ≤ (s.step step).session.children.length

/-- **A run that closes none of the outer children** is nested, except for the spans of the
children that it leaves open. -/
theorem Encloses.final (h : s.Encloses below log) (hspans : s.HasSpans) {steps : List Step}
    (hrule : Obeys (LeavesChildren below.length) s steps) :
    (s.final steps).Encloses below (log ++ s.transcript steps) := by
  induction steps generalizing s log with
  | nil =>
    rw [transcript, run_nil, List.flatMap_nil, List.append_nil]
    exact h
  | cons step steps ih =>
    rw [final_cons, transcript_cons, ← List.append_assoc]
    exact ih (h.step hspans hrule.1) (hspans.step step) hrule.2

/-! ## Events -/

/-- The children that are open when the step reports its events: one that it opens is among them,
and so is one that it closes. -/
def childrenDuring (s : Session) : Step → List OpenChild
  | .openChild slot => (s.step (.openChild slot)).session.children
  | _ => s.children

/-- The events of a table are seen with the open spans, outermost first. -/
lemma spans_of_mem_observe {k : Nat} {e : Emission} {spans : List Nat} {trace : List Emission}
    (hmem : .event k e spans ∈ s.observe slot trace) : spans = s.spans.reverse := by
  obtain ⟨_, -, heq⟩ := List.mem_map.1 hmem
  rw [LogRecord.event.injEq] at heq
  exact heq.2.2.symm

/-- What is reported of the opening of a child is seen with the span of the child. -/
lemma spans_of_mem_log_openChild {k : Nat} {e : Emission} {spans : List Nat}
    (hmem : .event k e spans ∈ (s.openChild slot t).log) :
    spans = (s.openChild slot t).session.spans.reverse := by
  rcases List.mem_append.1 hmem with hmem | hmem
  · split at hmem <;> simp at hmem
  · exact spans_of_mem_observe hmem

/-- What is reported of the closing of a child is seen with the span of the child. -/
lemma spans_of_mem_log_closeChild {c : OpenChild} (ht : s.tables[c.slot]? = some t)
    {rest : List OpenChild} {k : Nat} {e : Emission} {spans : List Nat}
    (hmem : .event k e spans ∈ (s.closeChild c rest).log) : spans = s.spans.reverse := by
  rw [log_closeChild ht] at hmem
  rcases List.mem_append.1 hmem with hmem | hmem
  · exact spans_of_mem_observe hmem
  · split at hmem <;> simp at hmem

/-- **Every event is reported with the spans of the children that are open**, outermost first. -/
theorem HasSpans.spans_of_mem_log (hspans : s.HasSpans) {step : Step} {k : Nat} {e : Emission}
    {spans : List Nat} (hmem : .event k e spans ∈ (s.step step).log) :
    spans = (spanScopes (s.childrenDuring step)).reverse := by
  have hafter := hspans.step step
  have hends := s.ends_step step
  by_cases hopen : ∃ slot, step = .openChild slot
  · obtain ⟨slot, rfl⟩ := hopen
    rw [childrenDuring, ← hafter]
    generalize s.step (.openChild slot) = o at hends hmem ⊢
    cases hends with
    | answer => exact absurd hmem List.not_mem_nil
    | commit =>
      rw [log_commit] at hmem
      rw [spans_commit]
      exact spans_of_mem_observe hmem
    | openChild => exact spans_of_mem_log_openChild hmem
  · have hduring : s.childrenDuring step = s.children := by
      cases step with
      | openChild slot => exact absurd ⟨slot, rfl⟩ hopen
      | _ => rfl
    rw [hduring, ← hspans]
    generalize s.step step = o at hends hmem
    cases hends with
    | answer | exchange => exact absurd hmem List.not_mem_nil
    | report => exact spans_of_mem_observe hmem
    | commit =>
      rw [log_commit] at hmem
      exact spans_of_mem_observe hmem
    | openChild => exact absurd ⟨_, rfl⟩ hopen
    | closeChild _ hc ht => exact spans_of_mem_log_closeChild ht hmem

/-! ## Brackets -/

/-- What an observer sees when a child is opened on the table of a slot. -/
lemma log_step_openChild (hspans : s.HasSpans) (ht : s.tables[slot]? = some t) :
    (s.step (.openChild slot)).log =
      if t.context.tracer = .log then
        [.enterSpan t.stack.length,
          .event slot ⟨.entered, t.stack.length⟩
            ((spanScopes s.children).reverse ++ [t.stack.length])]
      else [] := by
  rw [Session.step, withTable_of_some ht, log_openChild, List.reverse_cons, hspans]

/-- **The span of a child.** Let a child be opened on the table of a slot, and stay open in a run at
whose end it is the innermost one. The run is nested in the spans that are open with the child.
When the child is then closed, the table that stands in the slot reports, if it logs and has the
frames outside of the child, that the scope was left, and after that the span of the child is left,
which it has if the table logged when the child was opened. -/
theorem nested_of_closed (hspans : s.HasSpans) (htables : s.HasTables)
    (ht : s.tables[slot]? = some t) {b u : Session} (hb : b = (s.step (.openChild slot)).session)
    {more : List Step} (hu : u = b.final more)
    (hrule : Obeys (LeavesChildren (s.children.length + 1)) b more)
    (hlen : u.children.length = s.children.length + 1) (k : Nat) :
    IsNested (spanScopes u.children) (b.transcript more) ∧
    (u.step (.closeChild k)).session.children = s.children ∧
    ∃ t', u.tables[slot]? = some t' ∧
      (u.step (.closeChild k)).log =
        (if t.stack.length ≤ t'.stack.length ∧ t'.context.tracer = .log then
          [.event slot ⟨.exited (t'.stack.inside t.stack.length).size, t.stack.length⟩
            (spanScopes u.children).reverse]
        else []) ++
          if t.context.tracer = .log then [.exitSpan t.stack.length] else [] := by
  have hchildren : b.children = { slot := slot, child := t.openChild.answer } :: s.children := by
    rw [hb, Session.step, withTable_of_some ht, openChild]
  have hbegin : b.HasSpans := hb ▸ hspans.step _
  have hend : u.HasTables := by
    rw [hu]
    exact final_induction (fun _ step h => h.step step) (hb ▸ htables.step _) more
  have hspansEnd : u.spans = spanScopes u.children := by
    rw [hu]
    have hsteps : ∀ (v : Session) step, v.HasSpans → (v.step step).session.HasSpans :=
      fun _ step h => h.step step
    exact final_induction hsteps hbegin more
  obtain ⟨inner, hinner, hpending⟩ :=
    (encloses_self b).final hbegin (by rwa [hchildren, List.length_cons])
  rw [← hu] at hinner
  obtain rfl : inner = [] := by
    rw [hinner, hchildren, List.length_append, List.length_cons] at hlen
    exact List.length_eq_zero_iff.1 (by omega)
  rw [List.nil_append] at hinner
  have hcons := hinner.trans hchildren
  obtain ⟨t', ht'⟩ := hend { slot := slot, child := t.openChild.answer } (by simp [hcons])
  refine ⟨?_, hend.children_closeChild hcons k, t', ht', ?_⟩
  · rw [hinner]
    exact hpending
  · have hbase : t.openChild.answer.base = t.stack.length := rfl
    rw [step_closeChild hcons, log_closeChild ht', observe_close, hspansEnd, hbase]
    simp only [t.hasSpan_openChild]

/-! ## All runs -/

/-- A run over fresh tables is nested, except for the spans of the children that it leaves open. -/
lemma isPending_transcript (contexts : List Context) (steps : List Step) :
    IsPending [] (spanScopes ((ofContexts contexts).final steps).children)
      ((ofContexts contexts).transcript steps) := by
  obtain ⟨inner, hinner, hpending⟩ := (encloses_self (ofContexts contexts)).final rfl
    (.of_forall (fun _ _ => Nat.zero_le _) _ steps)
  have hchildren : (ofContexts contexts).children = [] := rfl
  rw [hchildren, List.append_nil] at hinner
  rw [hinner]
  exact hpending

/-- **Spans are nested** in every run over fresh tables, which report to the log or not, and may be
exchanged at any time:

* the log of the run, completed by leaving the spans of the children that are still open, is nested;
  so it is nested if no child is left open, and after all children that are left have been closed,
  on whichever tables;
* every event of a further step is reported with the spans of the children that are open,
  outermost first;
* a child that is opened on a table has its span entered, and then its scope reported inside of it,
  if the table logs, and nothing is seen of it otherwise; if the child stays open in a run at whose
  end it is the innermost one, the run is nested in the spans that are open with the child; and if
  it is closed then, the table that stands there, if it logs and has the frames outside of the
  child, reports inside of these spans that the scope was left and how many bindings went away;
  after that the span of the child is left, under the scope with which it was entered, if it was
  entered at all, whether there is anything to close or not. -/
theorem spans_are_nested (contexts : List Context) (steps : List Step) {s : Session}
    (hs : s = (ofContexts contexts).final steps) :
    (IsNested []
        ((ofContexts contexts).transcript steps ++ (spanScopes s.children).map .exitSpan) ∧
      (s.children = [] → IsNested [] ((ofContexts contexts).transcript steps)) ∧
      (s.after s.unwind).children = [] ∧
      IsNested [] ((ofContexts contexts).transcript steps ++ s.unwind.flatMap Outcome.log)) ∧
    (∀ step k e spans, .event k e spans ∈ (s.step step).log →
      spans = (spanScopes (s.childrenDuring step)).reverse) ∧
    ∀ slot t b, s.tables[slot]? = some t → b = (s.step (.openChild slot)).session →
      (s.step (.openChild slot)).log =
        (if t.context.tracer = .log then
          [.enterSpan t.stack.length,
            .event slot ⟨.entered, t.stack.length⟩
              ((spanScopes s.children).reverse ++ [t.stack.length])]
        else []) ∧
      ∀ more u k, u = b.final more → Obeys (LeavesChildren (s.children.length + 1)) b more →
        u.children.length = s.children.length + 1 →
          IsNested (spanScopes u.children) (b.transcript more) ∧
          (u.step (.closeChild k)).session.children = s.children ∧
          ∃ t', u.tables[slot]? = some t' ∧
            (u.step (.closeChild k)).log =
              (if t.stack.length ≤ t'.stack.length ∧ t'.context.tracer = .log then
                [.event slot ⟨.exited (t'.stack.inside t.stack.length).size, t.stack.length⟩
                  (spanScopes u.children).reverse]
              else []) ++
                if t.context.tracer = .log then [.exitSpan t.stack.length] else [] := by
  have hreach : s.ReachableInAnyOrder := Reachable.inAnyOrder ⟨contexts, steps, hs⟩
  have hspans := hreach.hasSpans
  have hpending := isPending_transcript contexts steps
  rw [← hs] at hpending
  refine ⟨⟨hpending.close, ?_, hreach.hasTables.children_unwind, ?_⟩, ?_, ?_⟩
  · intro hnil
    rw [hnil] at hpending
    exact hpending
  · have hclosed := isPending_transcript contexts
      (steps ++ List.replicate s.children.length (.closeChild 0))
    have hnone : (s.final (List.replicate s.children.length (.closeChild 0))).children = [] :=
      hreach.hasTables.children_unwind
    rw [transcript_append, final_append, ← hs, hnone] at hclosed
    exact hclosed
  · intro step k e spans
    exact hspans.spans_of_mem_log
  · intro slot t b ht hb
    refine ⟨log_step_openChild hspans ht, ?_⟩
    intro more u k hu hrule hlen
    exact nested_of_closed hspans hreach.hasTables ht hb hu hrule hlen k

/-- A child is opened on a table that logs, and then the table is exchanged for a silent one with
too few frames, while another child is opened and closed on the table that logs. Closing the first
child is out of range; all that is seen of it is that the span is left. -/
theorem spans_are_nested_exchanged :
    ∃ s b u, s = (ofContexts [.traced, .quiet]).final
        [.edit 0 .enter, .openChild 0, .openChild 1] ∧
      b = (s.step (.openChild 0)).session ∧
      u = b.final [.swap 0 1, .openChild 1, .edit 1 (.insert "x" "int" "1"), .closeChild 0] ∧
      (s.step (.openChild 0)).log = [.enterSpan 3, .event 0 ⟨.entered, 3⟩ [2, 3]] ∧
      IsNested [3, 2]
        [.enterSpan 4, .event 1 ⟨.entered, 4⟩ [2, 3, 4], .event 1 ⟨.declared "x", 4⟩ [2, 3, 4],
          .event 1 ⟨.exited 1, 4⟩ [2, 3, 4], .exitSpan 4] ∧
      (u.step (.closeChild 0)).reply = .outOfRange ∧
      (u.step (.closeChild 0)).log = [.exitSpan 3] := by
  obtain ⟨-, -, hopen⟩ := spans_are_nested [.traced, .quiet]
    [.edit 0 .enter, .openChild 0, .openChild 1] rfl
  obtain ⟨hlog, hclose⟩ := hopen 0 _ _ rfl rfl
  obtain ⟨hnested, -, t', ht', hclosed⟩ := hclose
    [.swap 0 1, .openChild 1, .edit 1 (.insert "x" "int" "1"), .closeChild 0] _ 0 rfl
    (by simp only [Obeys, LeavesChildren]; decide) rfl
  refine ⟨_, _, _, rfl, rfl, rfl, hlog, hnested, by decide, ?_⟩
  cases ht'
  exact hclosed

end Session

end LexicalScope
