import Mathlib.Data.List.Basic
import LexicalScope.Proofs.Session.Valid

set_option autoImplicit false

/-!
# Moves that fail

A table refuses to overwrite or to remove what is not declared where it looks, and to leave a scope
at its floor; a child is of no use on a table with too few frames. Such a move leaves the session
as it was, and all that is seen of it is that a name was not found, if one was looked for. So the
moves that fail can be taken out of a run, and nothing else about the run changes.

## Main definitions

* `LexicalScope.Session.RefusesExactly` — which edits the tables of a session refuse, and for which
  cause.
* `LexicalScope.Turn.fails` — a move fails.
* `LexicalScope.Turn.missReport` — what is seen of a move that fails.
* `LexicalScope.Session.effective` — a run without the moves that fail.

## Main results

* `LexicalScope.Session.Valid.refusesExactly` — the refusals in a valid session.
* `LexicalScope.Turn.idle_of_fails` — a move that fails changes nothing.
* `LexicalScope.Session.turns_effective` — the turns of the run without the moves that fail.
* `LexicalScope.Session.failed_moves_are_invisible` — all of this for every run over fresh tables.
-/

namespace LexicalScope

/-! ## Refusals -/

/-- Which edits the tables of a session refuse, and for which cause. -/
structure Session.RefusesExactly (s : Session) : Prop where
  /-- To overwrite the value of a name that no frame declares. -/
  assign : ∀ slot t, s.tables[slot]? = some t → ∀ name value cause,
    (s.step (.edit slot (.assign name value))).reply = .refused cause ↔
      cause = .unbound name ∧ ∀ f ∈ t.stack, ∀ b ∈ f.bindings, b.name ≠ name
  /-- To remove a name that the current frame does not declare. -/
  erase : ∀ slot t, s.tables[slot]? = some t → ∀ name cause,
    (s.step (.edit slot (.erase name))).reply = .refused cause ↔
      cause = .unbound name ∧ ∃ f, t.current? = some f ∧ ∀ b ∈ f.bindings, b.name ≠ name
  /-- To leave the scope at the floor. -/
  exit : ∀ slot t, s.tables[slot]? = some t → ∀ cause,
    (s.step (.edit slot .exit)).reply = .refused cause ↔
      cause = .atFloor ∧ t.level = t.floor

namespace Session

variable {s : Session} {slot : Nat} {t : Table}

/-- **The refusals in a valid session.** -/
theorem Valid.refusesExactly (hs : s.Valid) : s.RefusesExactly where
  assign := by
    intro slot t ht name value cause
    obtain ⟨f, outer, hf⟩ := (hs.tables t (List.mem_of_getElem? ht)).exists_cons
    rw [reply_step_edit ht, Table.replyTo_assign hf, Table.resolve,
      ← Stack.resolve_eq_none_iff]
    cases t.stack.resolve name <;> simp [eq_comm]
  erase := by
    intro slot t ht name cause
    obtain ⟨f, outer, hf⟩ := (hs.tables t (List.mem_of_getElem? ht)).exists_cons
    have hcurrent : t.current? = some f := by rw [Table.current?, hf, List.head?_cons]
    rw [reply_step_edit ht, Table.replyTo_erase hf]
    simp only [hcurrent, Option.some.injEq, exists_eq_left', ← Frame.find?_eq_none_iff]
    cases f.find? name <;> simp [eq_comm]
  exit := by
    intro slot t ht cause
    have hvt := hs.tables t (List.mem_of_getElem? ht)
    obtain ⟨f, outer, hf⟩ := hvt.exists_cons
    have hlevel := Table.level_of_cons hf
    have hfloor := hvt.floor_lt
    have hlength := hvt.level_add_one
    have hiff : outer.length ≤ t.floor ↔ t.level = t.floor := by omega
    rw [reply_step_edit ht, Table.replyTo_exit hf, ← hiff]
    by_cases hle : outer.length ≤ t.floor <;> simp [hle, eq_comm]

end Session

/-! ## Failure -/

/-- Whether an answer says that a table refused, or that there is no such slot, partner or
child. -/
def Reply.isError : Reply → Bool
  | refused _ | notChild | noChild | noSlot | badPartner => true
  | _ => false

/-- Whether a move uses a child without closing it. -/
def Move.usesChild : Move → Bool
  | .step (.seed _) | .step (.writeBack _) => true
  | _ => false

/-- Whether the move fails: its answer is an error, or it uses a child and is out of range. A child
that is closed out of range has been closed, so this is not a failure. -/
def Turn.fails (x : Turn) : Bool :=
  x.outcome.reply.isError || (x.move.usesChild && x.outcome.reply == .outOfRange)

/-- What is seen of a move that fails: if a name was to be overwritten or removed, the table
reports, at its current level, that it was not found. -/
def Turn.missReport (x : Turn) : List LogRecord :=
  match x.move with
  | .step (.edit slot (.assign name _)) | .step (.edit slot (.erase name)) =>
    match x.before.tables[slot]? with
    | some t => x.before.observe slot (t.context.emit (.missed name) t.level)
    | none => []
  | _ => []

namespace Session

variable {s : Session} {slot : Nat} {t : Table}

/-- The outcome is none of a failure, or it leaves the session as it was and nothing is seen. -/
def IdleOnFailure (s : Session) (o : Outcome) : Prop :=
  o.reply.isError = true ∨ o.reply = .outOfRange → o.session = s ∧ o.log = []

/-- A mere answer changes nothing, failure or not. -/
lemma idleOnFailure_answer (s : Session) (reply : Reply) : s.IdleOnFailure (s.answer reply) :=
  fun _ => ⟨rfl, rfl⟩

/-- A step on one table is idle on failure, if it is for the table that is there. -/
lemma idleOnFailure_withTable {k : Table → Outcome}
    (h : ∀ t, s.tables[slot]? = some t → s.IdleOnFailure (k t)) :
    s.IdleOnFailure (s.withTable slot k) := by
  cases ht : s.tables[slot]? with
  | none =>
    rw [withTable_of_none ht]
    exact idleOnFailure_answer s _
  | some t =>
    rw [withTable_of_some ht]
    exact h t ht

/-- A step on two tables is idle on failure, if it is for any two tables. -/
lemma idleOnFailure_withTables {partner : Nat} {k : Table → Table → Outcome}
    (h : ∀ t u, s.IdleOnFailure (k t u)) : s.IdleOnFailure (s.withTables slot partner k) := by
  refine idleOnFailure_withTable fun t _ => ?_
  split
  · exact idleOnFailure_answer s _
  · split
    · exact idleOnFailure_answer s _
    · exact h t _

/-- A step on a child is idle on failure, if it is for any child and table. -/
lemma idleOnFailure_withChild {k : Child → Table → Outcome} (h : ∀ c t, s.IdleOnFailure (k c t)) :
    s.IdleOnFailure (s.withChild slot k) := by
  refine idleOnFailure_withTable fun t _ => ?_
  split
  · exact idleOnFailure_answer s _
  · exact h _ t

/-- An operation whose answers are no errors is carried out, or has no effect. -/
lemma idleOnFailure_commit {α : Type} {reply : α → Reply}
    (h : ∀ a, (reply a).isError = false ∧ reply a ≠ .outOfRange) (e? : Option (Effect α)) :
    s.IdleOnFailure (s.commit slot reply e?) := by
  cases e? with
  | none => exact idleOnFailure_answer s _
  | some e =>
    rintro (herror | hout)
    · exact absurd herror (by simp [commit, (h e.answer).1])
    · exact absurd hout (h e.answer).2

/-- A miss is refused and reported, and changes nothing. -/
lemma commit_miss (ht : s.tables[slot]? = some t) {f : Frame} {outer : Stack}
    (hf : t.stack = f :: outer) {α : Type} (reply : α → Reply) (name : String) :
    (s.commit slot (.ofExcept reply) (t.miss name)).session = s ∧
      (s.commit slot (.ofExcept reply) (t.miss name)).log =
        s.observe slot (t.context.emit (.missed name) t.level) := by
  rw [Table.level_of_cons hf]
  simp only [Table.miss, hf, commit, setTable_self ht, and_self]

/-- An edit that is refused leaves the session as it was, and all that is seen of it is a miss. -/
lemma idle_edit (ht : s.tables[slot]? = some t) (hvt : t.Valid) {e : Edit}
    (h : (s.step (.edit slot e)).reply.isError = true) :
    (s.step (.edit slot e)).session = s ∧
      (s.step (.edit slot e)).log = Turn.missReport ⟨s, .step (.edit slot e)⟩ := by
  obtain ⟨f, outer, hf⟩ := hvt.exists_cons
  rw [reply_step_edit ht] at h
  cases e with
  | insert name typeTag value => simp [Table.replyTo_insert hf, Reply.isError] at h
  | assign name value =>
    simp only [Session.step, withTable_of_some ht, edit, Turn.missReport, ht]
    cases hr : t.resolve name with
    | none =>
      rw [Table.assign_of_resolve_eq_none value hr]
      exact commit_miss ht hf _ name
    | some b => simp [Table.replyTo_assign hf, hr, Reply.isError] at h
  | erase name =>
    simp only [Session.step, withTable_of_some ht, edit, Turn.missReport, ht]
    cases hfind : f.find? name with
    | none =>
      have hmiss : t.erase name = t.miss name := by
        simp only [Table.erase, hf, hfind]
      rw [hmiss]
      exact commit_miss ht hf _ name
    | some b => simp [Table.replyTo_erase hf, hfind, Reply.isError] at h
  | enter => simp [Table.replyTo, Reply.isError] at h
  | exit =>
    rw [Table.replyTo_exit hf] at h
    split at h
    · rename_i hle
      have hexit : t.exit = some (t.unchanged (.error .atFloor)) := by
        simp only [Table.exit, hf, if_pos hle]
      simp only [Session.step, withTable_of_some ht, edit, hexit]
      exact ⟨setTable_self ht, rfl⟩
    · simp [Reply.isError] at h

/-- A step that is neither an edit nor the closing of a child has no effect on failure. -/
lemma idleOnFailure_step (s : Session) {step : Step} (hedit : ∀ slot e, step ≠ .edit slot e)
    (hclose : ∀ slot, step ≠ .closeChild slot) : s.IdleOnFailure (s.step step) := by
  have hdone : Reply.done.isError = false ∧ Reply.done ≠ .outOfRange := by decide
  have hnumber : ∀ n, (Reply.number n).isError = false ∧ Reply.number n ≠ .outOfRange :=
    fun n => ⟨rfl, by simp⟩
  cases step with
  | query k q => exact idleOnFailure_withTable fun _ _ => idleOnFailure_answer s _
  | edit k e => exact absurd rfl (hedit k e)
  | copy source receiver =>
    exact idleOnFailure_withTables fun _ _ => idleOnFailure_commit (fun _ => hdone) _
  | carry source receiver =>
    exact idleOnFailure_withTables fun _ _ => idleOnFailure_commit hnumber _
  | swap first second =>
    refine idleOnFailure_withTables fun _ _ => ?_
    rintro (h | h) <;> simp [answer, Reply.isError] at h
  | openChild k =>
    refine idleOnFailure_withTable fun _ _ => ?_
    rintro (h | h) <;> simp [openChild, Reply.isError] at h
  | closeChild k => exact absurd rfl (hclose k)
  | childLevel k => exact idleOnFailure_withChild fun _ _ => idleOnFailure_answer s _
  | seed k => exact idleOnFailure_withChild fun _ _ => idleOnFailure_commit (fun _ => hdone) _
  | writeBack k => exact idleOnFailure_withChild fun _ _ => idleOnFailure_commit hnumber _
  | trace k outlet event level =>
    refine idleOnFailure_withTable fun _ _ => ?_
    rintro (h | h) <;> simp [Reply.isError] at h

/-- Closing a child on a table is no error. -/
lemma isError_closeChild {c : OpenChild} (ht : s.tables[c.slot]? = some t)
    (rest : List OpenChild) : (s.closeChild c rest).reply.isError = false := by
  have hreply : (s.closeChild c rest).reply = (s.commit c.slot (fun _ => .done)
      (c.child.close t)).reply := by
    rw [closeChild, withTable_of_some ht]
  rw [hreply, reply_commit]
  cases c.child.close t <;> rfl

/-- The step that closes a child has no effect if it is an error. -/
lemma HasTables.idle_closeChild (hs : s.HasTables)
    (h : (s.step (.closeChild slot)).reply.isError = true) :
    (s.step (.closeChild slot)).session = s ∧ (s.step (.closeChild slot)).log = [] := by
  cases hchildren : s.children with
  | nil =>
    have hidle : s.IdleOnFailure (s.step (.closeChild slot)) := by
      rw [Session.step, hchildren]
      exact idleOnFailure_withTable fun _ _ => idleOnFailure_answer s _
    exact hidle (Or.inl h)
  | cons c rest =>
    obtain ⟨t, ht⟩ := hs c (by rw [hchildren]; exact List.mem_cons_self)
    rw [step_closeChild hchildren, isError_closeChild ht] at h
    exact absurd h Bool.false_ne_true

/-- Closing the innermost child of a slot has no effect if it is an error. -/
lemma HasTables.idle_closeOn (hs : s.HasTables) (h : (s.closeOn slot).reply.isError = true) :
    (s.closeOn slot).session = s ∧ (s.closeOn slot).log = [] := by
  cases hfind : s.children.find? fun c => c.slot == slot with
  | none =>
    have hidle : s.IdleOnFailure (s.closeOn slot) := by
      rw [closeOn, hfind]
      exact idleOnFailure_withTable fun _ _ => idleOnFailure_answer s _
    exact hidle (Or.inl h)
  | some c =>
    obtain ⟨t, ht⟩ := hs c (List.mem_of_find?_eq_some hfind)
    rw [closeOn, hfind, isError_closeChild ht] at h
    exact absurd h Bool.false_ne_true

end Session

namespace Turn

open Session

/-- A move that fails and does not use a child is answered with an error. -/
lemma isError_of_fails {x : Turn} (h : x.fails = true) (hm : x.move.usesChild = false) :
    x.outcome.reply.isError = true := by
  rwa [fails, hm, Bool.false_and, Bool.or_false] at h

/-- **A move that fails changes nothing**, and all that is seen of it is a miss, if it was about a
name.

**Proof sketch.** One case for each kind of move. Most of them are answered with an error only if
there is no slot, partner or child for them; then nothing is done. An edit is refused as its table
says. A child is closed as long as there is one, so that closing fails only if there is none. -/
theorem idle_of_fails {x : Turn} (hx : x.before.ReachableInAnyOrder) (h : x.fails = true) :
    x.outcome.session = x.before ∧ x.outcome.log = x.missReport := by
  obtain ⟨s, m⟩ := x
  have hvalid := hx.valid
  have htables := hx.hasTables
  cases m with
  | step step =>
    by_cases hedit : ∃ slot e, step = .edit slot e
    · obtain ⟨slot, e, rfl⟩ := hedit
      cases ht : s.tables[slot]? with
      | none =>
        have hstep : s.step (.edit slot e) = s.answer .noSlot := by
          rw [Session.step, withTable_of_none ht]
        have hreport : missReport ⟨s, .step (.edit slot e)⟩ = [] := by
          cases e <;> simp only [missReport, ht]
        rw [outcome, Session.move, hstep, hreport]
        exact ⟨rfl, rfl⟩
      | some t =>
        exact idle_edit ht (hvalid.tables t (List.mem_of_getElem? ht)) (isError_of_fails h rfl)
    · by_cases hclose : ∃ slot, step = .closeChild slot
      · obtain ⟨slot, rfl⟩ := hclose
        exact htables.idle_closeChild (isError_of_fails h rfl)
      · have hreport : missReport ⟨s, .step step⟩ = [] := by
          cases step with
          | edit slot e => exact absurd ⟨slot, e, rfl⟩ hedit
          | _ => rfl
        rw [fails, Bool.or_eq_true, Bool.and_eq_true, beq_iff_eq] at h
        rw [hreport]
        exact idleOnFailure_step s (fun slot e heq => hedit ⟨slot, e, heq⟩)
          (fun slot heq => hclose ⟨slot, heq⟩) (h.imp_right And.right)
  | closeOn slot => exact htables.idle_closeOn (isError_of_fails h rfl)

end Turn

namespace Session

/-! ## Runs -/

/-- Leaving entries out of a list takes away what they contribute. -/
lemma flatMap_filter_not {α β : Type} (p : α → Bool) (f : α → List β) (xs : List α) :
    (xs.filter fun x => !p x).flatMap f = xs.flatMap fun x => if p x then [] else f x := by
  induction xs with
  | nil => rfl
  | cons x xs ih => cases hx : p x <;> simp [hx, ih]

/-- The moves of a run without those that fail. -/
def effective (s : Session) (ms : List Move) : List Move :=
  ((s.turns ms).filter fun x => !x.fails).map Turn.move

variable {s : Session}

/-- **The run without the moves that fail** has the turns that are left, and ends in the same
session.

**Proof sketch.** Induction on the run: a move that fails leaves the session as it was, so that the
rest of the run begins in the same session with it and without it. -/
theorem turns_effective (hs : s.ReachableInAnyOrder) (ms : List Move) :
    s.turns (s.effective ms) = ((s.turns ms).filter fun x => !x.fails) ∧
      s.ending (s.effective ms) = s.ending ms := by
  induction ms generalizing s with
  | nil => exact ⟨rfl, rfl⟩
  | cons m ms ih =>
    obtain ⟨hturns, hending⟩ := ih (hs.move m)
    rw [effective, turns_cons, ending_cons]
    cases hfails : (Turn.mk s m).fails with
    | true =>
      obtain ⟨hsession, -⟩ := Turn.idle_of_fails (x := ⟨s, m⟩) hs hfails
      have hsame : (s.move m).session = s := hsession
      rw [List.filter_cons_of_neg (by simp [hfails])]
      rw [hsame] at hturns hending ⊢
      exact ⟨hturns, hending⟩
    | false =>
      rw [List.filter_cons_of_pos (by simp [hfails]), List.map_cons, turns_cons, ending_cons]
      exact ⟨congrArg _ hturns, hending⟩

/-- **Failed moves are invisible.** In every run over fresh tables, which may be exchanged at any
time and whose children may be closed in any order:

* in every session of the run, a table refuses to overwrite a name exactly if no frame declares it,
  and to remove a name exactly if the current frame does not declare it, and the refusal carries
  the name; it refuses to leave its scope exactly if its level is the floor;
* the run without the moves that fail consists of the turns that are left: every other move is made
  in the same session, so it has the same answer, leaves the same tables and children behind, and
  the same is seen of it; and the run ends in the same session;
* what is seen of this run is what is seen of the whole run, except for the moves that fail, and all
  that is seen of these is that a name to be overwritten or removed was not found, at the level of
  the table and only if the table reports. -/
theorem failed_moves_are_invisible (contexts : List Context) (ms : List Move) :
    (∀ x ∈ (ofContexts contexts).turns ms, x.before.RefusesExactly) ∧
    (ofContexts contexts).turns ((ofContexts contexts).effective ms) =
      (((ofContexts contexts).turns ms).filter fun x => !x.fails) ∧
    (ofContexts contexts).ending ((ofContexts contexts).effective ms) =
      (ofContexts contexts).ending ms ∧
    (ofContexts contexts).chronicle ((ofContexts contexts).effective ms) =
      (((ofContexts contexts).turns ms).flatMap fun x =>
        if x.fails then [] else x.outcome.log) ∧
    (ofContexts contexts).chronicle ms =
      ((ofContexts contexts).turns ms).flatMap fun x =>
        if x.fails then x.missReport else x.outcome.log := by
  have hreach : (ofContexts contexts).ReachableInAnyOrder := .ofContexts contexts
  obtain ⟨hturns, hending⟩ := turns_effective hreach ms
  refine ⟨?_, hturns, hending, ?_, ?_⟩
  · intro x hx
    exact (hreach.before hx).valid.refusesExactly
  · rw [chronicle, hturns, flatMap_filter_not]
  · rw [chronicle]
    apply List.flatMap_congr
    intro x hx
    split
    · rename_i hfails
      exact (Turn.idle_of_fails (hreach.before hx) hfails).2
    · rfl

/-- Two tables are exchanged under their children. Six moves fail: `x` is removed where only an
outer frame declares it, a child's own scope is left, `y` is overwritten in either table, and a
child is used on a table with too few frames. Only the table that reports shows a miss. Closing
the child of slot `1` is out of range, and is not a failure. -/
theorem failed_moves_are_invisible_exchanged :
    ∃ s ms, s = ofContexts [.traced, .quiet] ∧
      ms = [.step (.edit 0 (.insert "x" "int" "1")), .step (.openChild 0),
        .step (.edit 0 (.erase "x")), .step (.edit 0 .exit), .step (.edit 1 .enter),
        .step (.edit 1 .enter), .step (.openChild 1), .step (.edit 1 (.assign "y" "2")),
        .step (.swap 0 1), .step (.edit 1 (.assign "y" "2")), .step (.seed 1),
        .step (.writeBack 1), .step (.edit 1 (.assign "x" "3")), .closeOn 0, .closeOn 1] ∧
      s.effective ms =
        [.step (.edit 0 (.insert "x" "int" "1")), .step (.openChild 0), .step (.edit 1 .enter),
          .step (.edit 1 .enter), .step (.openChild 1), .step (.swap 0 1),
          .step (.edit 1 (.assign "x" "3")), .closeOn 0, .closeOn 1] ∧
      s.ending (s.effective ms) = s.ending ms ∧
      s.chronicle (s.effective ms) =
        [.event 0 ⟨.declared "x", 0⟩ [], .enterSpan 1, .event 0 ⟨.entered, 1⟩ [1],
          .event 1 ⟨.updated "x", 0⟩ [1], .exitSpan 1] ∧
      s.chronicle ms =
        [.event 0 ⟨.declared "x", 0⟩ [], .enterSpan 1, .event 0 ⟨.entered, 1⟩ [1],
          .event 0 ⟨.missed "x", 1⟩ [1], .event 1 ⟨.missed "y", 1⟩ [1],
          .event 1 ⟨.updated "x", 0⟩ [1], .exitSpan 1] := by
  obtain ⟨-, -, hending, hless, hall⟩ := failed_moves_are_invisible [.traced, .quiet]
    [.step (.edit 0 (.insert "x" "int" "1")), .step (.openChild 0),
      .step (.edit 0 (.erase "x")), .step (.edit 0 .exit), .step (.edit 1 .enter),
      .step (.edit 1 .enter), .step (.openChild 1), .step (.edit 1 (.assign "y" "2")),
      .step (.swap 0 1), .step (.edit 1 (.assign "y" "2")), .step (.seed 1),
      .step (.writeBack 1), .step (.edit 1 (.assign "x" "3")), .closeOn 0, .closeOn 1]
  exact ⟨_, _, rfl, rfl, by decide, hending, hless.trans (by decide), hall.trans (by decide)⟩

end Session

end LexicalScope
