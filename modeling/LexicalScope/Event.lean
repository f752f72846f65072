set_option autoImplicit false

/-!
# Trace events

A table reports what happens to it as *events*. Each event is emitted at the level of the
scope that it concerns, and has a severity, by which an observer may filter it, and a
message.

## Main definitions

* `LexicalScope.Severity` — how important an event is.
* `LexicalScope.Severity.ofRank?`, `LexicalScope.Severity.ofLabel?` — the two ways in which a
  severity is named.
* `LexicalScope.Event` — what happened.
* `LexicalScope.Event.severity`, `LexicalScope.Event.message` — how an event is presented.
* `LexicalScope.Emission` — an event at a level.
-/

namespace LexicalScope

/-- How important an event is, from the gravest to the most detailed. -/
inductive Severity where
  /-- A failure. -/
  | error
  /-- A danger of failure. -/
  | warn
  /-- The course of things. -/
  | info
  /-- What helps to find a mistake. -/
  | debug
  /-- Every detail. -/
  | trace
deriving DecidableEq, Inhabited

namespace Severity

/-- The place in the order from grave to detailed, counted from `1`. -/
def rank : Severity → Nat
  | error => 1
  | warn => 2
  | info => 3
  | debug => 4
  | trace => 5

/-- The name of a severity as it is written in a log. -/
def label : Severity → String
  | error => "ERROR"
  | warn => "WARN"
  | info => "INFO"
  | debug => "DEBUG"
  | trace => "TRACE"

/-- All severities, from the gravest to the most detailed. -/
def all : List Severity :=
  [error, warn, info, debug, trace]

/-- The severity of a rank. -/
def ofRank? (n : Nat) : Option Severity :=
  all.find? fun s => s.rank == n

/-- The severity of a label, which may be written in letters of either case. -/
def ofLabel? (word : List Char) : Option Severity :=
  all.find? fun s => s.label.toList == word.map Char.toUpper

end Severity

/-- What happened to a table. -/
inductive Event where
  /-- A binding of this name was declared. -/
  | declared (name : String)
  /-- The value of the binding of this name was overwritten. -/
  | updated (name : String)
  /-- The binding of this name was removed. -/
  | removed (name : String)
  /-- No binding of this name was found. -/
  | missed (name : String)
  /-- A value was written back to the binding of this name. -/
  | wroteBack (name : String)
  /-- A scope was entered. -/
  | entered
  /-- A scope was left, and with it this many bindings went away. -/
  | exited (reaped : Nat)
deriving DecidableEq, Inhabited

namespace Event

/-- Touching a binding that exists is a detail; a miss, a write-back and a change of scope
matter more. -/
def severity : Event → Severity
  | declared _ | updated _ | removed _ => .trace
  | missed _ | wroteBack _ | entered | exited _ => .debug

/-- The message of an event, without its data. -/
def message : Event → String
  | declared _ => "insert"
  | updated _ => "update"
  | removed _ => "remove"
  | missed _ => "no binding found"
  | wroteBack _ => "wrote loop value back to outer scope"
  | entered => "entered scope"
  | exited _ => "exited scope"

/-- The name of the binding that an event concerns. -/
def name? : Event → Option String
  | declared name | updated name | removed name | missed name | wroteBack name => some name
  | entered | exited _ => none

/-- How many bindings went away with the scope that was left. -/
def reaped? : Event → Option Nat
  | exited reaped => some reaped
  | _ => none

end Event

/-- An event, reported at the level of the scope that it concerns. -/
structure Emission where
  /-- What happened. -/
  event : Event
  /-- The level at which it happened. -/
  level : Nat
deriving DecidableEq, Inhabited

end LexicalScope
