import Mathlib.Data.List.Basic
import LexicalScope.Proofs.Session.Ends

set_option autoImplicit false

/-!
# Laws in sessions

If every operation on a table obeys a law, then so does every move in a session, for each of its
tables: a table changes in a move only by its own operations, and the events in the log that bear
the number of its slot are those that it emitted.

## Main definitions

* `LexicalScope.Outcome.emissionsAt` — the events that the table of a slot emitted in a step.
* `LexicalScope.Step.isTrace`, `LexicalScope.Move.isTrace` — the user makes up an event, which is
  not the table's own.

## Main results

* `LexicalScope.Session.step_obeys`, `LexicalScope.Session.move_obeys` — what every operation
  obeys, every step and every move obeys.
-/

namespace LexicalScope

/-! ## The events of one slot -/

/-- The event of the table of a slot, if the record is one. -/
def LogRecord.emissionAt? (slot : Nat) : LogRecord → Option Emission
  | .event k e _ => if k = slot then some e else none
  | .enterSpan _ | .exitSpan _ => none

/-- The events that the table of a slot emitted in a step, in order. -/
def Outcome.emissionsAt (o : Outcome) (slot : Nat) : List Emission :=
  o.log.filterMap (LogRecord.emissionAt? slot)

/-- Whether a step reports an event that the user made up. -/
def Step.isTrace : Step → Bool
  | .trace _ _ _ _ => true
  | _ => false

/-- Whether a move reports an event that the user made up. -/
def Move.isTrace : Move → Bool
  | .step a => a.isTrace
  | .closeOn _ => false

namespace Session

/-- The events of the table of a slot bear the number of the slot. -/
lemma emissionsAt_observe (s : Session) (k slot : Nat) (trace : List Emission) :
    (s.observe k trace).filterMap (LogRecord.emissionAt? slot) =
      if k = slot then trace else [] := by
  rw [observe, List.filterMap_map]
  by_cases hk : k = slot
  · rw [if_pos hk]
    have hsome : LogRecord.emissionAt? slot ∘ (fun e => LogRecord.event k e s.spans.reverse) =
        some := by
      funext e
      simp [LogRecord.emissionAt?, hk]
    rw [hsome, List.filterMap_some]
  · rw [if_neg hk, List.filterMap_eq_nil_iff]
    intro e _
    simp [LogRecord.emissionAt?, hk]

/-- The end of a span is not an event of a table. -/
lemma emissionsAt_append_exitSpan (log : List LogRecord) (c : Child) (slot : Nat) :
    (log ++ if c.hasSpan then [LogRecord.exitSpan c.base] else []).filterMap
        (LogRecord.emissionAt? slot) =
      log.filterMap (LogRecord.emissionAt? slot) := by
  rw [List.filterMap_append]
  split <;> simp [LogRecord.emissionAt?]

variable {R : Table → List Emission → Table → Prop} {s : Session} {slot : Nat} {t : Table}

/-- The table `t` of a slot has become, in the outcome, one that the law allows for the events of
the slot. -/
def Shows (R : Table → List Emission → Table → Prop) (slot : Nat) (t : Table) (o : Outcome) :
    Prop :=
  ∃ t', o.session.tables[slot]? = some t' ∧ R t (o.emissionsAt slot) t'

/-- A step that only answers shows what every law allows. -/
lemma shows_answer (hR : Table.IsLaw R) (ht : s.tables[slot]? = some t) (reply : Reply) :
    Shows R slot t (s.answer reply) :=
  ⟨t, ht, hR.rest t⟩

/-- An operation that puts a table in the place of the one of a slot, and whose events are those
of the slot, shows in the slot what the law allows. -/
lemma shows_set (hR : Table.IsLaw R) (ht : s.tables[slot]? = some t) {k : Nat} {u v : Table}
    (hu : s.tables[k]? = some u) {trace : List Emission} (h : R u trace v) {o : Outcome}
    (htables : o.session.tables = s.tables.set k v)
    (hlog : o.emissionsAt slot = if k = slot then trace else []) :
    Shows R slot t o := by
  rw [Shows, htables, hlog]
  by_cases hk : k = slot
  · subst hk
    rw [ht, Option.some.injEq] at hu
    subst hu
    have hlt : k < s.tables.length := (List.getElem?_eq_some_iff.1 ht).1
    exact ⟨v, List.getElem?_set_self hlt, by rwa [if_pos rfl]⟩
  · exact ⟨t, by rwa [List.getElem?_set_ne hk], by simpa only [if_neg hk] using hR.rest t⟩

/-- An operation that follows the law shows what the law allows. -/
lemma shows_commit (hR : Table.IsLaw R) (ht : s.tables[slot]? = some t) {k : Nat} {u : Table}
    (hu : s.tables[k]? = some u) {α : Type} (reply : α → Reply) {e? : Option (Effect α)}
    (h : Table.Follows R u e?) : Shows R slot t (s.commit k reply e?) := by
  cases e? with
  | none => exact shows_answer hR ht _
  | some e => exact shows_set hR ht hu h rfl (emissionsAt_observe s k slot e.trace)

/-- The closing of a child shows what the law allows, on whichever slot the child is open. -/
lemma shows_closeChild (hR : Table.IsLaw R) (ht : s.tables[slot]? = some t) (c : OpenChild)
    (rest : List OpenChild) : Shows R slot t (s.closeChild c rest) := by
  cases hu : s.tables[c.slot]? with
  | none =>
    rw [closeChild, withTable_of_none hu]
    exact shows_answer hR ht _
  | some u =>
    rw [closeChild, withTable_of_some hu]
    -- the session differs from the committed one in its children and spans only
    obtain ⟨t', ht', hlaw⟩ := shows_commit hR ht hu (fun _ => .done) (hR.close u c.child)
    refine ⟨t', ht', ?_⟩
    rwa [Outcome.emissionsAt, emissionsAt_append_exitSpan]

/-- The closing of the innermost child of any slot shows what the law allows. -/
lemma shows_closeOn (hR : Table.IsLaw R) (ht : s.tables[slot]? = some t) (k : Nat) :
    Shows R slot t (s.closeOn k) := by
  rw [closeOn]
  split
  · rw [withTable]
    split <;> exact shows_answer hR ht _
  · rename_i c _
    obtain ⟨t', ht', hlaw⟩ := shows_closeChild hR ht c (s.children.eraseP fun d => d.slot == k)
    exact ⟨t', ht', hlaw⟩

/-- **What every operation obeys, every step obeys.** The table of a slot and the events that it
emitted in a step, unless the user made the event up, obey every law of tables, in the slot where
the table stands afterwards.

**Proof sketch.** One case for each way in which a step ends. The events that it logs are those of
the operation, with the number of the slot. An exchange only moves tables. -/
theorem step_obeys (hR : Table.IsLaw R) (s : Session) {step : Step} (hstep : step.isTrace = false)
    (ht : s.tables[slot]? = some t) :
    ∃ t', (s.step step).session.tables[s.moved slot step]? = some t' ∧
      R t ((s.step step).emissionsAt slot) t' := by
  by_cases hswap : ∃ first second, step = .swap first second
  · obtain ⟨first, second, rfl⟩ := hswap
    have hlog : (s.step (.swap first second)).emissionsAt slot = [] := by
      rcases step_swap s first second with ⟨reply, -, h⟩ | ⟨u, v, -, -, -, h⟩ <;> rw [h] <;> rfl
    rw [hlog, getElem?_moved]
    exact ⟨t, ht, hR.rest t⟩
  · have hmoved : s.moved slot step = slot := by
      cases step with
      | swap first second => exact absurd ⟨first, second, rfl⟩ hswap
      | _ => rfl
    rw [hmoved]
    have h := s.ends_step step
    generalize s.step step = o at h ⊢
    cases h with
    | answer _ reply => exact shows_answer hR ht reply
    | report => simp [Step.isTrace] at hstep
    | commit _ hu reply hlaw => exact shows_commit hR ht hu reply (hlaw hR)
    | exchange => exact absurd ⟨_, _, rfl⟩ hswap
    | openChild hu =>
      refine shows_set hR ht hu (hR.openChild _) rfl ?_
      rw [Outcome.emissionsAt, openChild]
      simp only [List.filterMap_append, emissionsAt_observe]
      split <;> rfl
    | closeChild => exact shows_closeChild hR ht _ _

/-- **What every operation obeys, every move obeys.** -/
theorem move_obeys (hR : Table.IsLaw R) (s : Session) {m : Move} (hm : m.isTrace = false)
    (ht : s.tables[slot]? = some t) :
    ∃ t', (s.move m).session.tables[s.movedBy slot m]? = some t' ∧
      R t ((s.move m).emissionsAt slot) t' := by
  cases m with
  | step step => exact step_obeys hR s hm ht
  | closeOn k => exact shows_closeOn hR ht k

end Session

end LexicalScope
