import Mathlib.Data.List.Basic
import LexicalScope.Proofs.Session.Law
import LexicalScope.Proofs.Session.Projection
import LexicalScope.Proofs.Session.Turns
import LexicalScope.Proofs.Table.Observation

set_option autoImplicit false

/-!
# Observation does not change behaviour

The contexts of the tables say what an observer sees of a run. They have no influence on what the
run does: with other contexts every move has the same reply, unless it is asked for a context, and
leaves the same frames, floors and children behind. What is seen comes from tables that log, and
from children that were opened on such tables.

The proof takes a run on the session in which all contexts are forgotten. Two runs that differ in
their contexts have that one in common.

## Main definitions

* `LexicalScope.Session.unobserved` — the session with contexts that report nothing.
* `LexicalScope.Outcome.AgreesBut` — two outcomes of a move are the same but for contexts.
* `LexicalScope.LogRecord.HasSource` — a record comes from a table that logs or a child with a span.
* `LexicalScope.Session.IsSilent` — there is no such table or child.

## Main results

* `LexicalScope.Session.projects_move` — every move can be made on the unobserved session.
* `LexicalScope.Turn.hasSource_of_mem_log` — where the records come from that are seen of a move.
* `LexicalScope.Session.IsSilent.move` — a silent session stays silent.
* `LexicalScope.Session.contexts_do_not_change_behaviour` — all of this for runs over fresh tables.
-/

namespace LexicalScope

/-- What is kept of the parts of a session without its contexts and spans. -/
def Projection.unobserved : Projection :=
  { table := Table.unobserved, child := Child.unobserved, spans := fun _ => [] }

/-- The session with contexts that report nothing, and without spans. -/
def Session.unobserved (s : Session) : Session :=
  s.project .unobserved

/-- Whether the answer to a move shows a context. -/
def Move.showsContext : Move → Bool
  | .step (.query _ q) => q.showsContext
  | _ => false

/-- Two replies to a move are the same but for the contexts that they show. -/
structure Reply.AgreesBut (m : Move) (r r' : Reply) : Prop where
  /-- The replies are the same if they show no context. -/
  eq : m.showsContext = false → r = r'
  /-- If they show contexts, nothing else is different. -/
  unobserved : r.unobserved = r'.unobserved

/-- Two outcomes of a move are the same but for contexts and for what is seen of the move. -/
structure Outcome.AgreesBut (m : Move) (o o' : Outcome) : Prop where
  /-- The replies are the same, but for contexts. -/
  reply : o.reply.AgreesBut m o'.reply
  /-- The tables have the same frames and floors. -/
  tables : (o.session.tables.map fun t => (t.stack, t.floor)) =
    o'.session.tables.map fun t => (t.stack, t.floor)
  /-- The open children have the same slots, levels and saved floors. -/
  children : (o.session.children.map fun c => (c.slot, c.child.base, c.child.savedFloor)) =
    o'.session.children.map fun c => (c.slot, c.child.base, c.child.savedFloor)

/-- A reply agrees with itself. -/
lemma Reply.AgreesBut.refl (m : Move) (r : Reply) : r.AgreesBut m r :=
  ⟨fun _ => rfl, rfl⟩

/-- Two sessions that are the same unobserved have the same frames and floors, and the same
children. -/
lemma Session.eq_of_unobserved {s s' : Session} (h : s.unobserved = s'.unobserved) :
    (s.tables.map fun t => (t.stack, t.floor)) = (s'.tables.map fun t => (t.stack, t.floor)) ∧
      (s.children.map fun c => (c.slot, c.child.base, c.child.savedFloor)) =
        s'.children.map fun c => (c.slot, c.child.base, c.child.savedFloor) := by
  constructor
  · have htables := congrArg (fun u => u.tables.map fun t => (t.stack, t.floor)) h
    simp only [unobserved, project, List.map_map] at htables
    exact htables
  · have hchildren := congrArg
      (fun u => u.children.map fun c => (c.slot, c.child.base, c.child.savedFloor)) h
    simp only [unobserved, project, List.map_map] at hchildren
    exact hchildren

/-- Two outcomes with one projection are the same but for contexts. -/
lemma Outcome.Projects.agreesBut {m : Move} {o o' p : Outcome}
    (h : o.Projects .unobserved (Reply.AgreesBut m) p)
    (h' : o'.Projects .unobserved (Reply.AgreesBut m) p) : o.AgreesBut m o' where
  reply :=
    ⟨fun hm => (h.reply.eq hm).trans (h'.reply.eq hm).symm,
      h.reply.unobserved.trans h'.reply.unobserved.symm⟩
  tables := (Session.eq_of_unobserved (h.session.trans h'.session.symm)).1
  children := (Session.eq_of_unobserved (h.session.trans h'.session.symm)).2

namespace Session

variable {s : Session} {slot : Nat} {t : Table}

/-! ## Moves on the unobserved session -/

/-- An operation that is carried out on the unobserved table as on the table is projected to
itself. -/
lemma projects_commit_unobserved (ht : s.tables[slot]? = some t) (m : Move) {α : Type}
    (reply : α → Reply) {e? e?' : Option (Effect α)} (h : e?' = e?.map Effect.unobserved) :
    (s.commit slot reply e?).Projects .unobserved (Reply.AgreesBut m)
      (s.unobserved.commit slot reply e?') := by
  subst h
  refine projects_commit ht ?_ ?_
  · cases e? <;> rfl
  · cases e? <;> exact Reply.AgreesBut.refl m _

/-- An edit is projected to itself. -/
lemma projects_edit_unobserved (ht : s.tables[slot]? = some t) (m : Move) (e : Edit) :
    (s.edit slot t e).Projects .unobserved (Reply.AgreesBut m)
      (s.unobserved.edit slot t.unobserved e) := by
  cases e with
  | insert name typeTag value =>
    exact projects_commit_unobserved ht m (fun _ => .done)
      (t.insert_unobserved name typeTag value)
  | assign name value => exact projects_commit_unobserved ht m _ (t.assign_unobserved name value)
  | erase name => exact projects_commit_unobserved ht m _ (t.erase_unobserved name)
  | enter =>
    have henter : some t.unobserved.enter = (some t.enter).map Effect.unobserved := rfl
    exact projects_commit_unobserved ht m (fun _ => .done) henter
  | exit => exact projects_commit_unobserved ht m _ t.exit_unobserved

/-- A question is projected to itself, and its answer to the answer without contexts. -/
lemma agreesBut_answer? (slot : Nat) (q : Query) (c? : Option Child) (t : Table) :
    ((q.answer? c? t).getD .outOfRange).AgreesBut (.step (.query slot q))
      ((q.answer? (c?.map Child.unobserved) t.unobserved).getD .outOfRange) := by
  rw [Table.answer?_unobserved]
  cases hq : q.answer? c? t with
  | none => exact Reply.AgreesBut.refl _ _
  | some r =>
    refine ⟨fun hshows => (Table.unobserved_of_answer? hshows hq).symm, ?_⟩
    rw [Option.map_some, Option.getD_some, Option.getD_some, Reply.unobserved_unobserved]

/-- Closing a child is projected to itself. -/
lemma projects_closeChild_unobserved (m : Move) (s : Session) (c : OpenChild)
    (rest : List OpenChild) :
    (s.closeChild c rest).Projects .unobserved (Reply.AgreesBut m)
      (s.unobserved.closeChild (c.project .unobserved)
        (rest.map (OpenChild.project .unobserved))) := by
  refine projects_closeChild (Reply.AgreesBut.refl m) rest (fun t ht => ?_) rfl
  have hclose : (Projection.unobserved.child c.child).close (Projection.unobserved.table t) =
      (c.child.close t).map Effect.unobserved := t.close_unobserved c.child
  rw [hclose]
  cases c.child.close t with
  | none => exact ⟨rfl, Reply.AgreesBut.refl m _⟩
  | some e => exact ⟨rfl, Reply.AgreesBut.refl m _⟩

/-- The children of the unobserved session have no spans. -/
lemma spanScopes_unobserved (cs : List OpenChild) :
    spanScopes (cs.map (OpenChild.project .unobserved)) = [] := by
  have hfilter : (cs.map (OpenChild.project .unobserved)).filter (fun c => c.child.hasSpan) =
      [] := by
    rw [List.filter_map, List.map_eq_nil_iff, List.filter_eq_nil_iff]
    exact fun _ _ => Bool.false_ne_true
  rw [spanScopes, hfilter, List.map_nil]

/-- **A step can be taken on the unobserved session.** -/
theorem projects_step_unobserved (s : Session) (step : Step) :
    (s.step step).Projects .unobserved (Reply.AgreesBut (.step step)) (s.unobserved.step step) := by
  have hrefl := Reply.AgreesBut.refl (.step step)
  cases step with
  | query k q =>
    refine projects_withTable hrefl fun t _ => projects_answer ?_
    have hchild : s.unobserved.child? k = (s.child? k).map Child.unobserved :=
      child?_project .unobserved s k
    rw [hchild]
    exact agreesBut_answer? k q (s.child? k) t
  | edit k e => exact projects_withTable hrefl fun t ht => projects_edit_unobserved ht _ e
  | copy source receiver =>
    exact projects_withTables hrefl fun t u _ hu =>
      projects_commit_unobserved hu _ _ (u.insertAll_unobserved t.stack.scan)
  | carry source receiver =>
    exact projects_withTables hrefl fun t u _ hu =>
      projects_commit_unobserved hu _ _
        (congrArg some (u.assignAll_unobserved u.stack.length t.stack.visible))
  | swap first second => exact projects_swap hrefl s first second
  | openChild k =>
    refine projects_withTable hrefl fun t _ => ?_
    have hopen := t.openChild_unobserved
    exact projects_openChild hrefl t (congrArg Effect.table hopen).symm
      (congrArg Effect.answer hopen).symm rfl rfl
  | closeChild k =>
    have hclose := projects_closeChild_unobserved (.step (.closeChild k)) s
    exact projects_step_closeChild hrefl s hclose k
  | childLevel k => exact projects_withChild hrefl fun _ _ _ => projects_answer (hrefl _)
  | seed k =>
    exact projects_withChild hrefl fun c t ht =>
      projects_commit_unobserved ht _ _ (t.seed_unobserved c.base)
  | writeBack k =>
    exact projects_withChild hrefl fun c t ht =>
      projects_commit_unobserved ht _ _ (t.writeBack_unobserved c.base)
  | trace k outlet event level => exact projects_withTable hrefl fun _ _ => ⟨rfl, hrefl _⟩

/-- **A move can be made on the unobserved session.** -/
theorem projects_move (s : Session) (m : Move) :
    (s.move m).Projects .unobserved (Reply.AgreesBut m) (s.unobserved.move m) := by
  cases m with
  | step step => exact s.projects_step_unobserved step
  | closeOn slot =>
    have hclose := projects_closeChild_unobserved (.closeOn slot) s
    exact projects_closeOn (Reply.AgreesBut.refl _) s hclose
      (fun cs => (spanScopes_unobserved cs).symm) slot

/-- The turns of a run on the unobserved session are those of the run, move by move.

**Proof sketch.** Induction on the run: a move leads from the unobserved session to that of the
session to which it leads. -/
theorem turns_unobserved (s : Session) (ms : List Move) :
    List.Forall₂
      (fun x y => x.move = y.move ∧
        x.outcome.Projects .unobserved (Reply.AgreesBut x.move) y.outcome)
      (s.turns ms) (s.unobserved.turns ms) := by
  induction ms generalizing s with
  | nil => exact List.Forall₂.nil
  | cons m ms ih =>
    have hmove := s.projects_move m
    have hrest := ih (s.move m).session
    have hsession : (s.move m).session.unobserved = (s.unobserved.move m).session := hmove.session
    rw [hsession] at hrest
    exact List.Forall₂.cons ⟨rfl, hmove⟩ hrest

/-- Unobserved, fresh tables differ in nothing but their number. -/
lemma unobserved_ofContexts {contexts contexts' : List Context}
    (h : contexts.length = contexts'.length) :
    (ofContexts contexts).unobserved = (ofContexts contexts').unobserved := by
  have htables : ∀ cs : List Context, (ofContexts cs).tables.map Table.unobserved =
      List.replicate cs.length (Table.ofContext .quiet) := by
    intro cs
    rw [ofContexts, List.map_map]
    show cs.map (fun _ => Table.ofContext .quiet) = _
    rw [List.map_const']
  have heq : (ofContexts contexts).tables.map Table.unobserved =
      (ofContexts contexts').tables.map Table.unobserved := by
    rw [htables, htables, h]
  exact congrArg (fun tables => Session.mk tables [] []) heq

end Session

/-! ## Where the records come from -/

/-- The record comes from a table that logs, or from a child with a span. -/
def LogRecord.HasSource (s : Session) : LogRecord → Prop
  | .event slot _ _ => ∃ t, s.tables[slot]? = some t ∧ t.context.tracer = .log
  | .enterSpan _ => ∃ t ∈ s.tables, t.context.tracer = .log
  | .exitSpan _ => ∃ c ∈ s.children, c.child.hasSpan = true

/-- Whether a move reports an event straight to the log, past all tables. -/
def Move.bypassesTables : Move → Bool
  | .step (.trace _ .log _ _) => true
  | _ => false

namespace Session

variable {s : Session} {slot : Nat} {t : Table}

/-- The events of an operation come from its table. -/
lemma hasSource_commit (ht : s.tables[slot]? = some t) {α : Type} (reply : α → Reply)
    {e? : Option (Effect α)} (h : Table.Follows Table.Reports t e?) {r : LogRecord}
    (hr : r ∈ (s.commit slot reply e?).log) : r.HasSource s := by
  cases e? with
  | none => exact absurd hr List.not_mem_nil
  | some e =>
    obtain ⟨emission, hmem, rfl⟩ := List.mem_map.1 hr
    exact ⟨t, ht, h.tracer_eq_log hmem⟩

/-- What is seen of the closing of a child comes from its table and from the child. -/
lemma hasSource_closeChild {c : OpenChild} (hc : c ∈ s.children) (rest : List OpenChild)
    {r : LogRecord} (hr : r ∈ (s.closeChild c rest).log) : r.HasSource s := by
  cases ht : s.tables[c.slot]? with
  | none =>
    rw [closeChild, withTable_of_none ht] at hr
    simp [answer] at hr
  | some t =>
    rw [closeChild, withTable_of_some ht] at hr
    rcases List.mem_append.1 hr with hr | hr
    · exact hasSource_commit ht _ (Table.isLaw_reports.close t c.child) hr
    · cases hspan : c.child.hasSpan with
      | false => simp [hspan] at hr
      | true =>
        rw [hspan, if_pos rfl, List.mem_singleton] at hr
        subst hr
        exact ⟨c, hc, hspan⟩

/-- What is seen of the opening of a child comes from its table. -/
lemma hasSource_openChild (ht : s.tables[slot]? = some t) {r : LogRecord}
    (hr : r ∈ (s.openChild slot t).log) : r.HasSource s := by
  rcases List.mem_append.1 hr with hr | hr
  · split at hr
    · rename_i hspan
      rw [List.mem_singleton] at hr
      subst hr
      exact ⟨t, List.mem_of_getElem? ht, beq_iff_eq.1 hspan⟩
    · exact absurd hr List.not_mem_nil
  · obtain ⟨emission, hmem, rfl⟩ := List.mem_map.1 hr
    exact ⟨t, ht, (Table.isLaw_reports.openChild t).tracer_eq_log hmem⟩

/-- What is seen of an event that the user made up comes from the table whose context is to report
it. -/
lemma hasSource_trace {outlet : Outlet} {event : Event} {level : Nat}
    (hm : (Move.step (.trace slot outlet event level)).bypassesTables = false) {r : LogRecord}
    (hr : r ∈ (s.step (.trace slot outlet event level)).log) : r.HasSource s := by
  cases outlet with
  | log => exact absurd hm Bool.true_eq_false_eq_False.elim
  | context =>
    rw [Session.step] at hr
    cases ht : s.tables[slot]? with
    | none =>
      rw [withTable_of_none ht] at hr
      exact absurd hr List.not_mem_nil
    | some t =>
      rw [withTable_of_some ht] at hr
      obtain ⟨emission, hmem, rfl⟩ := List.mem_map.1 hr
      exact ⟨t, ht, (Table.reports_emit t event level rfl).tracer_eq_log hmem⟩

end Session

/-- **Where the records come from that are seen of a move.** Unless the user reports an event past
all tables, every event comes from a table that logs, every span that is entered from such a table,
and every span that is left from a child that has it.

**Proof sketch.** One case for each way in which a step ends, as the operations on tables emit
nothing if the context is silent. -/
theorem Turn.hasSource_of_mem_log {x : Turn} (hm : x.move.bypassesTables = false) {r : LogRecord}
    (hr : r ∈ x.outcome.log) : r.HasSource x.before := by
  obtain ⟨s, m⟩ := x
  cases m with
  | step step =>
    by_cases htrace : ∃ slot outlet event level, step = .trace slot outlet event level
    · obtain ⟨slot, outlet, event, level, rfl⟩ := htrace
      exact Session.hasSource_trace hm hr
    · have h := s.ends_step step
      rw [Turn.outcome, Session.move] at hr
      generalize s.step step = o at h hr
      cases h with
      | answer | exchange => exact absurd hr List.not_mem_nil
      | report slot outlet event level => exact absurd ⟨slot, outlet, event, level, rfl⟩ htrace
      | commit _ ht reply hlaw =>
        exact Session.hasSource_commit ht reply (hlaw Table.isLaw_reports) hr
      | openChild ht => exact Session.hasSource_openChild ht hr
      | closeChild k hc ht =>
        exact Session.hasSource_closeChild (hc ▸ List.mem_cons_self) _ hr
  | closeOn slot =>
    rw [Turn.outcome, Session.move, Session.closeOn] at hr
    split at hr
    · have hlog : (s.withTable slot fun _ => s.answer .noChild).log = [] := by
        rw [Session.withTable]
        split <;> rfl
      rw [hlog] at hr
      exact absurd hr List.not_mem_nil
    · rename_i c hc
      exact Session.hasSource_closeChild (List.mem_of_find?_eq_some hc) _ hr

namespace Session

variable {s : Session}

/-! ## Silent sessions -/

/-- No table logs, and no child has a span. -/
structure IsSilent (s : Session) : Prop where
  /-- No table logs. -/
  tables : ∀ t ∈ s.tables, t.context.tracer = .silent
  /-- No child has a span. -/
  children : ∀ c ∈ s.children, c.child.hasSpan = false

/-- Nothing is seen of a move in a silent session. -/
lemma IsSilent.log_eq_nil (hs : s.IsSilent) {m : Move} (hm : m.bypassesTables = false) :
    (s.move m).log = [] := by
  rw [List.eq_nil_iff_forall_not_mem]
  intro r hr
  have hsource := Turn.hasSource_of_mem_log (x := ⟨s, m⟩) hm hr
  cases r with
  | event slot e spans =>
    obtain ⟨t, ht, hlog⟩ := hsource
    rw [hs.tables t (List.mem_of_getElem? ht)] at hlog
    exact absurd hlog (by decide)
  | enterSpan scope =>
    obtain ⟨t, ht, hlog⟩ := hsource
    rw [hs.tables t ht] at hlog
    exact absurd hlog (by decide)
  | exitSpan scope =>
    obtain ⟨c, hc, hspan⟩ := hsource
    rw [hs.children c hc] at hspan
    exact absurd hspan Bool.false_ne_true

/-- A table that is put in the place of one with the same context brings no new context. -/
lemma exists_context_of_mem_set {slot : Nat} {t u v : Table} (ht : s.tables[slot]? = some t)
    (hcontext : u.context = t.context) (hv : v ∈ s.tables.set slot u) :
    ∃ w ∈ s.tables, v.context = w.context := by
  rcases List.mem_or_eq_of_mem_set hv with hv | rfl
  · exact ⟨v, hv, rfl⟩
  · exact ⟨t, List.mem_of_getElem? ht, hcontext⟩

/-- Tables have no other contexts after a child is closed than before. -/
lemma exists_context_closeChild {c : OpenChild} {rest : List OpenChild} {u : Table}
    (hu : u ∈ (s.closeChild c rest).session.tables) : ∃ t ∈ s.tables, u.context = t.context := by
  cases ht : s.tables[c.slot]? with
  | none =>
    rw [closeChild, withTable_of_none ht] at hu
    exact ⟨u, hu, rfl⟩
  | some t =>
    rw [closeChild, withTable_of_some ht] at hu
    simp only [session_commit ht] at hu
    exact exists_context_of_mem_set ht (Table.isLaw_reports.close t c.child).1 hu

/-- Tables have no other contexts after a move than before. -/
lemma exists_context_move {m : Move} {u : Table} (hu : u ∈ (s.move m).session.tables) :
    ∃ t ∈ s.tables, u.context = t.context := by
  cases m with
  | step step =>
    have h := s.ends_step step
    rw [move] at hu
    generalize s.step step = o at h hu
    cases h with
    | answer | report => exact ⟨u, hu, rfl⟩
    | commit _ ht reply hlaw =>
      rw [session_commit ht] at hu
      exact exists_context_of_mem_set ht (hlaw Table.isLaw_reports).1 hu
    | exchange ht hv =>
      rcases List.mem_or_eq_of_mem_set hu with hu | rfl
      · rcases List.mem_or_eq_of_mem_set hu with hu | rfl
        · exact ⟨u, hu, rfl⟩
        · exact ⟨_, List.mem_of_getElem? hv, rfl⟩
      · exact ⟨_, List.mem_of_getElem? ht, rfl⟩
    | @openChild slot t ht => exact exists_context_of_mem_set (u := t.openChild.table) ht rfl hu
    | closeChild => exact exists_context_closeChild hu
  | closeOn slot =>
    rw [move, closeOn] at hu
    split at hu
    · rw [session_withTable_answer] at hu
      exact ⟨u, hu, rfl⟩
    · exact exists_context_closeChild hu

/-- A child is open after a move only if it was open before, or was opened on a table. -/
lemma mem_children_move {m : Move} {c : OpenChild} (hc : c ∈ (s.move m).session.children) :
    c ∈ s.children ∨ ∃ t ∈ s.tables, c.child = t.openChild.answer := by
  cases m with
  | step step =>
    refine (mem_children_step hc).imp_right ?_
    rintro ⟨t, ht, hchild⟩
    exact ⟨t, List.mem_of_getElem? ht, hchild⟩
  | closeOn slot =>
    left
    rw [move, closeOn] at hc
    split at hc
    · rwa [session_withTable_answer] at hc
    · rename_i d _
      cases ht : s.tables[d.slot]? with
      | none =>
        rw [closeChild, withTable_of_none ht] at hc
        exact hc
      | some t =>
        rw [closeChild, withTable_of_some ht] at hc
        exact List.mem_of_mem_eraseP hc

/-- A silent session stays silent. -/
theorem IsSilent.move (hs : s.IsSilent) (m : Move) : (s.move m).session.IsSilent where
  tables := by
    intro u hu
    obtain ⟨t, ht, hcontext⟩ := exists_context_move hu
    rw [hcontext]
    exact hs.tables t ht
  children := by
    intro c hc
    rcases mem_children_move hc with hc | ⟨t, ht, hchild⟩
    · exact hs.children c hc
    · rw [hchild, Table.openChild, hs.tables t ht]
      rfl

/-- The turns of a run that begins in a silent session are taken in silent sessions. -/
lemma IsSilent.before (hs : s.IsSilent) {ms : List Move} {x : Turn} (hx : x ∈ s.turns ms) :
    x.before.IsSilent := by
  induction ms generalizing s with
  | nil => simp at hx
  | cons m ms ih =>
    rcases List.mem_cons.1 hx with rfl | hx
    · exact hs
    · exact ih (hs.move m) hx

/-- A session that is started with silent contexts is silent. -/
lemma isSilent_ofContexts {contexts : List Context} (h : ∀ c ∈ contexts, c.tracer = .silent) :
    (ofContexts contexts).IsSilent where
  tables := by
    intro t ht
    obtain ⟨c, hc, rfl⟩ := List.mem_map.1 ht
    exact h c hc
  children := fun _ hc => absurd hc List.not_mem_nil

/-! ## Runs with other contexts -/

/-- **Contexts do not change behaviour.** Take two runs of the same moves over equally many fresh
tables with any contexts. The turns of the two correspond to each other. Two that correspond have
the same reply, be it an answer, a refusal, a count or out of range, unless it is asked for a
context, and then nothing else in it is different; and they leave the same frames and floors, and
open children with the same levels and saved floors.

In every turn, unless the user reports an event past all tables, a table with a silent context
emits no event. If all contexts are silent, no event is seen at all and no span is entered. -/
theorem contexts_do_not_change_behaviour {contexts contexts' : List Context}
    (h : contexts.length = contexts'.length) (ms : List Move) :
    List.Forall₂ (fun x y => x.move = y.move ∧ x.outcome.AgreesBut x.move y.outcome)
        ((ofContexts contexts).turns ms) ((ofContexts contexts').turns ms) ∧
      (∀ x ∈ (ofContexts contexts).turns ms, x.move.bypassesTables = false →
        ∀ slot t, x.before.tables[slot]? = some t → t.context.tracer = .silent →
          x.outcome.emissionsAt slot = []) ∧
      ((∀ c ∈ contexts, c.tracer = .silent) →
        ∀ x ∈ (ofContexts contexts).turns ms, x.move.bypassesTables = false →
          x.outcome.log = []) := by
  refine ⟨?_, ?_, ?_⟩
  · have hcommon := (ofContexts contexts').turns_unobserved ms
    rw [← unobserved_ofContexts h] at hcommon
    refine forall₂_of_common ?_ ((ofContexts contexts).turns_unobserved ms) hcommon
    rintro ⟨s, m⟩ ⟨s', m'⟩ ⟨s'', m''⟩ ⟨hm, hx⟩ ⟨hm', hx'⟩
    simp only at hm hm' hx hx'
    subst hm hm'
    exact ⟨rfl, hx.agreesBut hx'⟩
  · intro x _ hm slot t ht hsilent
    rw [Outcome.emissionsAt, List.filterMap_eq_nil_iff]
    intro r hr
    cases r with
    | event k e spans =>
      obtain ⟨u, hu, hlog⟩ := Turn.hasSource_of_mem_log hm hr
      refine if_neg fun hk => ?_
      rw [hk, ht, Option.some.injEq] at hu
      rw [← hu, hsilent] at hlog
      exact absurd hlog (by decide)
    | enterSpan scope => rfl
    | exitSpan scope => rfl
  · intro hsilent x hx hm
    exact ((isSilent_ofContexts hsilent).before hx).log_eq_nil hm

/-- Two silent tables, with little and with much room for bindings, and a table that logs next to
one that does not. Both runs exchange the tables under nested children, refuse a removal, use and
close a child out of range and ask for a context. Nothing is seen of the first run. The second one
enters spans, reports the exchanged table from its new slot, and shows another context. -/
theorem contexts_do_not_change_behaviour_exchanged :
    ∃ s s' ms, s = ofContexts [⟨.silent, 0⟩, ⟨.silent, 99⟩] ∧ s' = ofContexts [.traced, .quiet] ∧
      ms = [.step (.edit 0 (.insert "x" "int" "1")), .step (.openChild 0), .step (.openChild 0),
        .step (.openChild 0), .step (.seed 0), .step (.edit 0 (.erase "y")), .step (.openChild 1),
        .step (.swap 0 1), .step (.seed 0), .step (.writeBack 1), .step (.query 1 .context),
        .closeOn 0, .closeOn 1] ∧
      List.Forall₂ (fun x y => x.move = y.move ∧ x.outcome.AgreesBut x.move y.outcome)
        (s.turns ms) (s'.turns ms) ∧
      (∀ x ∈ s.turns ms, x.move.bypassesTables = false → x.outcome.log = []) ∧
      ((s'.turns ms).map fun x => x.outcome.reply) =
        [.done, .number 1, .number 2, .number 3, .done, .refused (.unbound "y"), .number 1, .done,
          .outOfRange, .number 1, .context .traced, .outOfRange, .done] ∧
      s'.chronicle ms =
        [.event 0 ⟨.declared "x", 0⟩ [], .enterSpan 1, .event 0 ⟨.entered, 1⟩ [1], .enterSpan 2,
          .event 0 ⟨.entered, 2⟩ [1, 2], .enterSpan 3, .event 0 ⟨.entered, 3⟩ [1, 2, 3],
          .event 0 ⟨.declared "x", 3⟩ [1, 2, 3], .event 0 ⟨.missed "y", 3⟩ [1, 2, 3],
          .event 1 ⟨.wroteBack "x", 0⟩ [1, 2, 3], .exitSpan 3, .event 1 ⟨.exited 1, 1⟩ [1, 2]] := by
  have hlength : [Context.mk .silent 0, ⟨.silent, 99⟩].length =
      [Context.traced, .quiet].length := rfl
  obtain ⟨hforall, -, hnothing⟩ := contexts_do_not_change_behaviour hlength
    [.step (.edit 0 (.insert "x" "int" "1")), .step (.openChild 0), .step (.openChild 0),
      .step (.openChild 0), .step (.seed 0), .step (.edit 0 (.erase "y")), .step (.openChild 1),
      .step (.swap 0 1), .step (.seed 0), .step (.writeBack 1), .step (.query 1 .context),
      .closeOn 0, .closeOn 1]
  exact ⟨_, _, _, rfl, rfl, rfl, hforall, hnothing (by decide), by decide, by decide⟩

end Session

end LexicalScope
