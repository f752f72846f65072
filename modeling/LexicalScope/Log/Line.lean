import LexicalScope.Log.Filter
import LexicalScope.Session.Step
import LexicalScope.Text.Quoted

set_option autoImplicit false

/-!
# Lines of a log

A log record is shown as one line: the severity, the spans that are open, the target, the
message, and the data of the event. A record, or a span, that the filter does not show is left
out.

## Main definitions

* `LexicalScope.Log.spanText` — the spans in front of a line.
* `LexicalScope.Log.dataText` — the data of an event.
* `LexicalScope.Log.lineOf?` — the line of a log record, if it is shown.
-/

namespace LexicalScope.Log

/-- The shown spans in front of a line, outermost first, each followed by a colon and the last
by a blank; nothing if none is shown. -/
def spanText (views : List SpanView) : String :=
  match views.filter SpanView.isShown with
  | [] => ""
  | shown =>
    String.join
      (shown.map fun v => spanName ++ "\x7b" ++ spanField ++ "=" ++ v.scope.repr ++ "\x7d:") ++ " "

/-- The data of an emission: its level, then the name or the count of its event. -/
def dataText (e : Emission) : String :=
  let name :=
    match e.event.name? with
    | none => ""
    | some name => " binding=" ++ String.ofList (Text.quote name)
  let reaped :=
    match e.event.reaped? with
    | none => ""
    | some reaped => " reaped=" ++ reaped.repr
  "scope=" ++ e.level.repr ++ name ++ reaped

/-- The line of a log record. The two ends of a span have no line of their own. -/
def lineOf? (f : Filter) : LogRecord → Option String
  | .enterSpan _ | .exitSpan _ => none
  | .event _ e spans =>
    let views := f.views spans
    if f.showsEvent views e.event then
      some (e.event.severity.label ++ " " ++ spanText views ++ eventTarget ++ ": "
        ++ e.event.message ++ " " ++ dataText e)
    else
      none

end LexicalScope.Log
