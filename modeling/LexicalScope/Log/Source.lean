import LexicalScope.Event

set_option autoImplicit false

/-!
# Where log records come from

Every record of the log names its origin, so that a filter can tell records apart: a *target*,
which is a path, and the names of the fields that it carries. A span has a name besides.

## Main definitions

* `LexicalScope.Log.eventTarget`, `LexicalScope.Log.spanTarget` — the targets of events and
  spans.
* `LexicalScope.Log.eventFields`, `LexicalScope.Log.spanField` — the fields of events and
  spans.
* `LexicalScope.Log.spanName`, `LexicalScope.Log.spanSeverity` — what all spans have in common.
-/

namespace LexicalScope.Log

/-- The target of all events. -/
def eventTarget : String := "alefscope::trace"

/-- The target of all spans. -/
def spanTarget : String := "alefscope::scope"

/-- The name of all spans. -/
def spanName : String := "child_scope"

/-- The severity of all spans. -/
def spanSeverity : Severity := .debug

/-- The only field of a span. It holds the level of the child's scope. -/
def spanField : String := "scope"

/-- The fields of an event: its message and its level, and the name or the count that it
carries. -/
def eventFields (e : Event) : List String :=
  ["message", "scope"] ++ e.name?.toList.map (fun _ => "binding")
    ++ e.reaped?.toList.map (fun _ => "reaped")

end LexicalScope.Log
