import LexicalScope.Log.Directive

set_option autoImplicit false

/-!
# Filters of log records

A filter is a list of directives. An event is shown if one of the spans around it grants its
severity, or else if the most specific general directive that concerns it does. A span is
shown if a local directive is about it, or else under the same conditions as an event.

Like the directives, the filter restates the documented behaviour of the logging library that the
command line uses. No result about tables or sessions rests on it.

## Main definitions

* `LexicalScope.Log.Filter` — the directives in force.
* `LexicalScope.Log.Filter.parse` — reads a filter from its comma-separated form.
* `LexicalScope.Log.Filter.mostSpecific?` — the directive that decides.
* `LexicalScope.Log.Filter.grant` — the threshold inside of a span.
* `LexicalScope.Log.Filter.views` — how the open spans are seen.
* `LexicalScope.Log.Filter.showsEvent` — whether an event is shown.

## Design

Of the general directives that concern a record, the one with the longest target decides; with
equal targets, one that asks for a field goes before one that does not, and a field whose name
is later in the order of texts goes first. Of two directives with the same subject the later
one is in force. For local directives there is no such order: the widest threshold counts.
-/

namespace LexicalScope.Log

/-- The directives in force, in the order in which they were given. -/
structure Filter where
  /-- The directives, a later one taking precedence over an earlier one of the same subject. -/
  directives : List Directive
deriving DecidableEq, Inhabited

/-- How an open span is seen through a filter. -/
structure SpanView where
  /-- The scope of the span's child. -/
  scope : Nat
  /-- Whether the span is shown in front of lines. -/
  isShown : Bool
  /-- The threshold of the records inside of the span. -/
  grant : Threshold
deriving DecidableEq, Inhabited

namespace Filter

/-- The filter in force where none is given: errors only. -/
def errorsOnly : Filter :=
  { directives := [.everything (.upTo .error)] }

/-- Reads a filter from directives separated by commas. Pieces that are no directives are
passed over; if there is none at all, only errors are shown. -/
def parse (text : String) : Filter :=
  match (text.toList.splitOn ',').filterMap Directive.parse? with
  | [] => errorsOnly
  | ds => { directives := ds }

/-! ## General directives -/

/-- Whether `d` is at most as specific as `e`, for directives that concern the same record. -/
def atMostAsSpecific (d e : Directive) : Bool :=
  if d.target.length = e.target.length then
    match d.field, e.field with
    | none, _ => true
    | some _, none => false
    | some t, some u => !(u.name < t.name)
  else
    d.target.length < e.target.length

/-- Of a choice made before and a directive, the more specific one, or the directive if
neither is. -/
def moreSpecific (best : Option Directive) (d : Directive) : Option Directive :=
  match best with
  | none => some d
  | some b => if atMostAsSpecific b d then some d else some b

/-- The most specific of some directives that concern the same record. -/
def mostSpecific? (ds : List Directive) : Option Directive :=
  ds.foldl moreSpecific none

/-- Whether a record of a severity is shown by the most specific of the general directives
that concern it. -/
def allows (concerning : List Directive) (severity : Severity) : Bool :=
  (mostSpecific? concerning).any fun d => d.threshold.passes severity

/-! ## Local directives -/

/-- The directives that no later directive of the same subject replaces. -/
def lastOfEachSubject : List Directive → List Directive
  | [] => []
  | d :: ds =>
    if ds.any fun e => d.sameSubject e then lastOfEachSubject ds
    else d :: lastOfEachSubject ds

/-- The threshold of the records inside of the span of the given scope: the widest that a
local directive sets. -/
def grant (f : Filter) (scope : Nat) : Threshold :=
  ((lastOfEachSubject f.directives).filter fun d => d.holdsIn scope).foldl
    (fun t d => t.max d.threshold) .off

/-! ## What is shown -/

/-- Whether one of the spans around a record grants its severity. -/
def isGranted (around : List SpanView) (severity : Severity) : Bool :=
  around.any fun v => v.grant.passes severity

/-- How the span of the given scope is seen inside of other spans. -/
def view (f : Filter) (around : List SpanView) (scope : Nat) : SpanView :=
  { scope := scope
    isShown := f.directives.any Directive.watches || isGranted around spanSeverity ||
      allows (f.directives.filter Directive.concernsSpans) spanSeverity
    grant := f.grant scope }

/-- How spans are seen that are open one inside of the other, outermost first. -/
def views (f : Filter) (scopes : List Nat) : List SpanView :=
  scopes.foldl (fun around scope => around ++ [f.view around scope]) []

/-- Whether an event is shown inside of the given spans. -/
def showsEvent (f : Filter) (around : List SpanView) (e : Event) : Bool :=
  isGranted around e.severity ||
    allows (f.directives.filter fun d => d.concernsEvent e) e.severity

end Filter

end LexicalScope.Log
