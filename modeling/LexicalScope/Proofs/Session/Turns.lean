import Mathlib.Data.List.Basic
import LexicalScope.Proofs.Session.Run

set_option autoImplicit false

/-!
# Runs with closings in any order

The steps of a session close the child that was opened last, but children of different slots may
be closed in any order. Here a run consists of *moves*, which are steps and closings of the
innermost child of a slot. Its *turns* are the moves together with the sessions in which they are
made; as a move has one outcome in a session, they tell all that happens in the run.

What does not depend on the order in which children are closed is shown of these runs. The steps
alone are the runs in which every child is closed before those that were opened before it.

## Main definitions

* `LexicalScope.spanScopes` — the scopes of the spans of children.
* `LexicalScope.Session.closeOn` — closes the innermost child of a slot.
* `LexicalScope.Move` — a step, or the closing of the innermost child of a slot.
* `LexicalScope.Turn` — a move in a session.
* `LexicalScope.Session.turns`, `LexicalScope.Session.ending`,
  `LexicalScope.Session.chronicle` — the turns of a run, the session at its end, and what an
  observer sees of it.
* `LexicalScope.Session.ReachableInAnyOrder` — the sessions that are reached from fresh tables by
  steps and by closing children in any order.

## Main results

* `LexicalScope.Session.ending_induction` — what the moves of a run keep, the run keeps.
* `LexicalScope.Session.ReachableInAnyOrder.induction` — what all moves keep holds of every session
  that is reached.
* `LexicalScope.Session.ReachableInAnyOrder.before`,
  `LexicalScope.Session.ReachableInAnyOrder.ending` — every turn of a run is taken in a session
  that is reached, and so is the end of the run.
* `LexicalScope.Session.Reachable.inAnyOrder` — runs of steps are such runs.
-/

namespace LexicalScope

/-! ## Closing on a slot -/

/-- The scopes of the spans of the given children, of those that have one. -/
def spanScopes (cs : List OpenChild) : List Nat :=
  (cs.filter fun c => c.child.hasSpan).map fun c => c.child.base

/-- Closes the innermost child of a slot, also if children of other slots were opened later.

The `spans` afterwards are those that were entered and are not left: those of the children that
stay open. If the span of the child was not the innermost one, an observer may go on to show it as
the parent of the spans that were entered inside of it; it is not among the `spans` here. -/
def Session.closeOn (s : Session) (slot : Nat) : Outcome :=
  match s.children.find? fun c => c.slot == slot with
  | none => s.withTable slot fun _ => s.answer .noChild
  | some c =>
    let closed := s.closeChild c (s.children.eraseP fun c => c.slot == slot)
    { closed with
      session := { closed.session with spans := spanScopes closed.session.children } }

/-! ## Moves and turns -/

/-- A step of a session, or the closing of a child that need not have been opened last. -/
inductive Move where
  /-- A step. -/
  | step (step : Step)
  /-- The innermost child of the slot is closed. -/
  | closeOn (slot : Nat)
deriving DecidableEq

/-- Whether a move exchanges the table of the slot for another one. -/
def Move.Exchanges (slot : Nat) : Move → Prop
  | .step a => a.Exchanges slot
  | .closeOn _ => False

/-- Makes a move. -/
def Session.move (s : Session) : Move → Outcome
  | .step step => s.step step
  | .closeOn slot => s.closeOn slot

/-- A move in a session. -/
structure Turn where
  /-- The session in which the move is made. -/
  before : Session
  /-- The move. -/
  move : Move
deriving DecidableEq

/-- What the move leaves behind. -/
def Turn.outcome (x : Turn) : Outcome :=
  x.before.move x.move

namespace Session

/-- The turns of a run. -/
def turns : Session → List Move → List Turn
  | _, [] => []
  | s, m :: ms => { before := s, move := m } :: turns (s.move m).session ms

/-- The session at the end of a run. -/
def ending (s : Session) (ms : List Move) : Session :=
  ms.foldl (fun s m => (s.move m).session) s

/-- What an observer sees of a run. -/
def chronicle (s : Session) (ms : List Move) : List LogRecord :=
  (s.turns ms).flatMap fun x => x.outcome.log

/-- A run without moves has no turns. -/
@[simp] lemma turns_nil (s : Session) : s.turns [] = [] := rfl

/-- The first turn of a run is its first move in the session that the run begins in. -/
@[simp] lemma turns_cons (s : Session) (m : Move) (ms : List Move) :
    s.turns (m :: ms) = { before := s, move := m } :: (s.move m).session.turns ms := rfl

/-- A run without moves ends where it begins. -/
@[simp] lemma ending_nil (s : Session) : s.ending [] = s := rfl

/-- A run ends where the run ends that goes on after its first move. -/
@[simp] lemma ending_cons (s : Session) (m : Move) (ms : List Move) :
    s.ending (m :: ms) = (s.move m).session.ending ms := rfl

/-- What every turn keeps that a rule allows, a run of allowed turns keeps. -/
theorem ending_induction {rule : Turn → Prop} {inv : Session → Prop}
    (hturn : ∀ x : Turn, inv x.before → rule x → inv x.outcome.session) {s : Session}
    {ms : List Move} (hs : inv s) (hrule : ∀ x ∈ s.turns ms, rule x) : inv (s.ending ms) := by
  induction ms generalizing s with
  | nil => exact hs
  | cons m ms ih =>
    obtain ⟨hfirst, hrest⟩ := List.forall_mem_cons.1 hrule
    exact ih (hturn _ hs hfirst) hrest

/-! ## Sessions that are reached -/

/-- A session that is reached from fresh tables by steps and by closing children in any order that
their slots allow. -/
inductive ReachableInAnyOrder : Session → Prop where
  /-- Fresh tables. -/
  | ofContexts (contexts : List Context) : ReachableInAnyOrder (ofContexts contexts)
  /-- A step. -/
  | step {s : Session} (hs : ReachableInAnyOrder s) (step : Step) :
    ReachableInAnyOrder (s.step step).session
  /-- The innermost child of a slot is closed. -/
  | closeOn {s : Session} (hs : ReachableInAnyOrder s) (slot : Nat) :
    ReachableInAnyOrder (s.closeOn slot).session

/-- What fresh sessions have and all moves keep holds of every session that is reached. -/
theorem ReachableInAnyOrder.induction {inv : Session → Prop}
    (hfresh : ∀ contexts, inv (Session.ofContexts contexts))
    (hmove : ∀ s m, inv s → inv (s.move m).session) {s : Session} (hs : s.ReachableInAnyOrder) :
    inv s := by
  induction hs with
  | ofContexts contexts => exact hfresh contexts
  | step _ step ih => exact hmove _ (.step step) ih
  | closeOn _ slot ih => exact hmove _ (.closeOn slot) ih

variable {s : Session}

/-- A move leads from a session that is reached to another one. -/
lemma ReachableInAnyOrder.move (hs : s.ReachableInAnyOrder) (m : Move) :
    (s.move m).session.ReachableInAnyOrder := by
  cases m with
  | step step => exact hs.step step
  | closeOn slot => exact hs.closeOn slot

/-- A run leads from a session that is reached to another one. -/
theorem ReachableInAnyOrder.ending (hs : s.ReachableInAnyOrder) (ms : List Move) :
    (s.ending ms).ReachableInAnyOrder :=
  ending_induction (fun x h (_ : True) => h.move x.move) hs fun _ _ => trivial

/-- Every turn of a run is taken in a session that is reached. -/
theorem ReachableInAnyOrder.before (hs : s.ReachableInAnyOrder) {ms : List Move} {x : Turn}
    (hx : x ∈ s.turns ms) : x.before.ReachableInAnyOrder := by
  induction ms generalizing s with
  | nil => simp at hx
  | cons m ms ih =>
    rcases List.mem_cons.1 hx with rfl | hx
    · exact hs
    · exact ih (hs.move m) hx

/-- Every reachable session is reached if children may be closed in any order. -/
theorem Reachable.inAnyOrder (hs : s.Reachable) : s.ReachableInAnyOrder :=
  hs.induction .ofContexts fun _ step h => h.step step

end Session

end LexicalScope
