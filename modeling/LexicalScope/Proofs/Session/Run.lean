import Mathlib.Data.List.Basic
import LexicalScope.Session.Basic

set_option autoImplicit false

/-!
# Runs of a session

The session at the end of a run, and two ways to prove something of it: an invariant that every
step keeps, and an invariant that is kept by the steps that a rule allows.

## Main definitions

* `LexicalScope.Session.final` — the session at the end of a run.
* `LexicalScope.Session.Reachable` — a session that some run over fresh tables ends in.
* `LexicalScope.Session.Obeys` — each step of a run is allowed by a rule.
* `LexicalScope.Step.Exchanges` — a step exchanges the table of a slot.

## Main results

* `LexicalScope.Session.final_append` — a run goes on from where its first part ended.
* `LexicalScope.Session.Obeys.induction` — what allowed steps keep, a run of them keeps.
* `LexicalScope.Session.Reachable.induction` — what all steps keep holds of every reachable
  session.
-/

namespace LexicalScope

/-- Whether a step exchanges the table of the slot for another one. -/
def Step.Exchanges (slot : Nat) : Step → Prop
  | .swap first second => first = slot ∨ second = slot
  | _ => False

namespace Session

/-! ## The end of a run -/

/-- The session at the end of a run. -/
def final (s : Session) (steps : List Step) : Session :=
  s.after (s.run steps)

/-- A run without steps ends where it begins. -/
@[simp] lemma final_nil (s : Session) : s.final [] = s := rfl

/-- A run ends where the run ends that goes on after its first step. -/
@[simp] lemma final_cons (s : Session) (step : Step) (steps : List Step) :
    s.final (step :: steps) = (s.step step).session.final steps := by
  rw [final, run_cons, after_cons, final]

/-- A run goes on from where its first part ended. -/
lemma final_append (s : Session) (steps rest : List Step) :
    s.final (steps ++ rest) = (s.final steps).final rest := by
  induction steps generalizing s with
  | nil => rfl
  | cons step steps ih => rw [List.cons_append, final_cons, ih, final_cons]

/-- What every step keeps, every run keeps. -/
theorem final_induction {inv : Session → Prop}
    (hstep : ∀ s step, inv s → inv (s.step step).session) {s : Session} (hs : inv s)
    (steps : List Step) : inv (s.final steps) := by
  induction steps generalizing s with
  | nil => exact hs
  | cons step steps ih =>
    rw [final_cons]
    exact ih (hstep s step hs)

/-! ## Rules -/

/-- Each step of a run is allowed by the rule in the session in which it is taken. -/
def Obeys (rule : Session → Step → Prop) : Session → List Step → Prop
  | _, [] => True
  | s, step :: steps => rule s step ∧ Obeys rule (s.step step).session steps

/-- Every run obeys a rule that allows all steps. -/
lemma Obeys.of_forall {rule : Session → Step → Prop} (h : ∀ s step, rule s step) (s : Session)
    (steps : List Step) : Obeys rule s steps := by
  induction steps generalizing s with
  | nil => trivial
  | cons step steps ih => exact ⟨h s step, ih _⟩

/-- What the steps allowed by a rule keep, a run that obeys the rule keeps. -/
theorem Obeys.induction {rule : Session → Step → Prop} {inv : Session → Prop}
    (hstep : ∀ s step, inv s → rule s step → inv (s.step step).session)
    {s : Session} {steps : List Step} (hs : inv s) (h : Obeys rule s steps) :
    inv (s.final steps) := by
  induction steps generalizing s with
  | nil => exact hs
  | cons step steps ih =>
    obtain ⟨hrule, hrest⟩ := h
    rw [final_cons]
    exact ih (hstep s step hs hrule) hrest

/-! ## Reachable sessions -/

/-- A session that some run over fresh tables ends in. -/
def Reachable (s : Session) : Prop :=
  ∃ contexts steps, s = (ofContexts contexts).final steps

/-- What fresh sessions have and all steps keep holds of every reachable session. -/
theorem Reachable.induction {inv : Session → Prop} (hfresh : ∀ contexts, inv (ofContexts contexts))
    (hstep : ∀ s step, inv s → inv (s.step step).session) {s : Session} (hs : s.Reachable) :
    inv s := by
  obtain ⟨contexts, steps, rfl⟩ := hs
  exact final_induction hstep (hfresh contexts) steps

end Session

end LexicalScope
