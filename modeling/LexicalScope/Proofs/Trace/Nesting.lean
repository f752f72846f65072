import Mathlib.Data.List.Basic
import LexicalScope.Session.Step

set_option autoImplicit false

/-!
# Nested logs

The log of an observer is nested if the spans in it are: each one that is entered is left again,
under the same scope, after all that were entered since then, and every event is reported with
exactly the spans that stand around it.

## Main definitions

* `LexicalScope.IsNested` — a log that is nested.
* `LexicalScope.IsPending` — a log that is nested except for spans that are still open.

## Main results

* `LexicalScope.IsPending.close` — leaving the open spans, innermost first, makes a nested log of
  one that is pending.

## Design

Both notions carry the scopes of the spans that are open before the log begins and stay open in
all of it. So a part of a log is nested on its own, and it is said there what its events have to
be reported with.
-/

namespace LexicalScope

/-- The log is nested, inside of spans of the scopes `outer`, innermost first. -/
inductive IsNested : List Nat → List LogRecord → Prop where
  /-- Nothing is logged. -/
  | nil (outer : List Nat) : IsNested outer []
  /-- An event is reported with the spans around it, outermost first. -/
  | event {outer : List Nat} {rest : List LogRecord} (slot : Nat) (e : Emission)
    (hrest : IsNested outer rest) : IsNested outer (.event slot e outer.reverse :: rest)
  /-- A span is entered, and left under the same scope. -/
  | span {outer : List Nat} {inner rest : List LogRecord} (scope : Nat)
    (hinner : IsNested (scope :: outer) inner) (hrest : IsNested outer rest) :
    IsNested outer (.enterSpan scope :: (inner ++ .exitSpan scope :: rest))

/-- The log is nested inside of spans of the scopes `outer`, except that spans of the scopes
`entered` are still open, innermost first: before each of these was entered, and after the
innermost one was, the log is nested. -/
def IsPending (outer : List Nat) : List Nat → List LogRecord → Prop
  | [], log => IsNested outer log
  | scope :: entered, log =>
    ∃ before inside, log = before ++ .enterSpan scope :: inside ∧ IsPending outer entered before ∧
      IsNested (scope :: (entered ++ outer)) inside

variable {outer entered : List Nat} {log : List LogRecord}

/-- Nested logs can be put one after the other. -/
theorem IsNested.append {rest : List LogRecord} (h : IsNested outer log)
    (hrest : IsNested outer rest) : IsNested outer (log ++ rest) := by
  induction h with
  | nil outer => exact hrest
  | event slot e _ ih => exact .event slot e (ih hrest)
  | span scope hinner _ _ ih =>
    rw [List.cons_append, List.append_assoc, List.cons_append]
    exact .span scope hinner (ih hrest)

/-- A nested log leaves the same spans open. -/
lemma IsPending.append {rest : List LogRecord} (h : IsPending outer entered log)
    (hrest : IsNested (entered ++ outer) rest) : IsPending outer entered (log ++ rest) := by
  cases entered with
  | nil => exact IsNested.append h hrest
  | cons scope entered =>
    obtain ⟨before, inside, rfl, hbefore, hinside⟩ := h
    refine ⟨before, inside ++ rest, ?_, hbefore, hinside.append hrest⟩
    rw [List.append_assoc, List.cons_append]

/-- Entering a span leaves it open. -/
lemma IsPending.enter (h : IsPending outer entered log) (scope : Nat) :
    IsPending outer (scope :: entered) (log ++ [.enterSpan scope]) :=
  ⟨log, [], rfl, h, .nil _⟩

/-- Leaving the innermost span under its scope leaves the others open. -/
lemma IsPending.exit {scope : Nat} (h : IsPending outer (scope :: entered) log) :
    IsPending outer entered (log ++ [.exitSpan scope]) := by
  obtain ⟨before, inside, rfl, hbefore, hinside⟩ := h
  rw [List.append_assoc, List.cons_append]
  exact hbefore.append (.span scope hinside (.nil _))

/-- **Leaving the spans that are still open**, innermost first, completes a log to a nested
one. -/
theorem IsPending.close (h : IsPending outer entered log) :
    IsNested outer (log ++ entered.map .exitSpan) := by
  induction entered generalizing log with
  | nil =>
    rw [List.map_nil, List.append_nil]
    exact h
  | cons scope entered ih =>
    rw [List.map_cons, List.append_cons]
    exact ih h.exit

end LexicalScope
