import LexicalScope.Event

set_option autoImplicit false

/-!
# Contexts

A table carries a *context*: whether its events are reported, and how much room a new frame
reserves. The reserved room is a hint to an implementation with growing arrays; it is kept
because a context can be asked for it, and no operation depends on it.

What is reported here is what a build with debug assertions reports. All events are compiled
under this condition, and a build without debug assertions emits none of them, whatever the context
of the table. The span of a child is not under the condition: a table that logs opens it in every
build.

## Main definitions

* `LexicalScope.Tracer` — a tracer that reports nothing, or one that logs.
* `LexicalScope.Context` — a tracer and a frame capacity.
* `LexicalScope.Context.emit` — the emissions that an event at a level gives rise to.
-/

namespace LexicalScope

/-- What becomes of the events of a table. -/
inductive Tracer where
  /-- Nothing is reported. -/
  | silent
  /-- Every event is reported to the log. -/
  | log
deriving DecidableEq, Inhabited

namespace Tracer

/-- The emissions that an event at a level gives rise to in a build with debug assertions: one, or
none. -/
def emit (t : Tracer) (event : Event) (level : Nat) : List Emission :=
  match t with
  | silent => []
  | log => [{ event := event, level := level }]

/-- A silent tracer emits nothing. -/
@[simp] theorem emit_silent (e : Event) (n : Nat) : silent.emit e n = [] := rfl

/-- A logging tracer emits the event at its level. -/
@[simp] theorem emit_log (e : Event) (n : Nat) : log.emit e n = [⟨e, n⟩] := rfl

end Tracer

/-- How a table reports its events and how much room its frames reserve. -/
structure Context where
  /-- What becomes of the events. -/
  tracer : Tracer
  /-- The number of bindings that a new frame reserves room for. -/
  frameCapacity : Nat
deriving DecidableEq, Inhabited

namespace Context

/-- The frame capacity of a context for which none is chosen. -/
def defaultFrameCapacity : Nat := 10

/-- The context of a table that reports nothing. -/
def quiet : Context :=
  { tracer := .silent, frameCapacity := defaultFrameCapacity }

/-- The context of a table that logs its events. -/
def traced : Context :=
  { quiet with tracer := .log }

/-- The emissions that an event at a level gives rise to in a build with debug assertions: those of
the tracer. -/
def emit (c : Context) (event : Event) (level : Nat) : List Emission :=
  c.tracer.emit event level

end Context

end LexicalScope
