import LexicalScope.Log.Source
import LexicalScope.Log.Threshold
import LexicalScope.Text.Blank
import LexicalScope.Text.Bytes

set_option autoImplicit false

/-!
# Filter directives

A directive sets a threshold for some of the records of a log. It is written

```text
target[span{field=value}]=threshold
```

and all parts may be left out. The target is the text with which the targets concerned begin.
The part in square brackets asks for a span of that name, or for a field, or for a span with a
field of that value.

The directives are not part of the tables. They restate what the logging library that the command
line uses documents about its filters, as far as records of tables can be concerned, so that
the demonstration prints the lines that are shown. No result about tables or sessions rests on
them.

## Main definitions

* `LexicalScope.Log.FieldTest` — asks for a field, or for a field of a value.
* `LexicalScope.Log.Directive` — the parts of a directive.
* `LexicalScope.Log.Directive.parse?` — reads a directive.
* `LexicalScope.Log.Directive.isGeneral`, `LexicalScope.Log.Directive.isLocal` — the two roles
  of a directive.
* `LexicalScope.Log.Directive.concernsEvent`, `LexicalScope.Log.Directive.concernsSpans`,
  `LexicalScope.Log.Directive.watches` — what a directive is about.

## Design

The *shape* of a directive, that is its marks and the extent of its parts, is found without the
blanks around it. The parts themselves are then taken from the whole piece, at the places that
they have in the shape; so a part stands for itself only if there are no blanks in front.

A *general* directive sets the threshold of records by their target and their fields. A
*local* one sets the threshold of all records inside of the spans that it describes. A
directive with a field and without a value is both; one with neither a span nor a field is
only general, and one with a span or a value is only local.
-/

namespace LexicalScope.Log

/-- What the value of a field is compared with. -/
inductive FieldValue where
  /-- A number. -/
  | number (n : Nat)
  /-- Anything else. No field of a span has such a value. -/
  | text (value : List Char)
deriving DecidableEq, Inhabited

/-- A test for a field, and, if there is a value, for the value of that field. -/
structure FieldTest where
  /-- The name of the field. -/
  name : List Char
  /-- The value that is asked for. -/
  value : Option FieldValue
deriving DecidableEq, Inhabited

namespace FieldTest

/-- Reads a field test: a name, or a name and a value with an equals sign between them. What
follows a second equals sign is passed over. -/
def parse (text : List Char) : FieldTest :=
  let name := text.takeWhile (· != '=')
  match text.dropWhile (· != '=') with
  | [] => { name := name, value := none }
  | _ :: rest =>
    let value := rest.takeWhile (· != '=')
    match parseNumeral? value with
    | some n => { name := name, value := some (.number n) }
    | none => { name := name, value := some (.text value) }

/-- Whether a span of the given scope passes the test. A test without a value asks only that
spans have the field. -/
def holdsIn (t : FieldTest) (scope : Nat) : Bool :=
  t.name == spanField.toList &&
    match t.value with
    | none => true
    | some (.number n) => n == scope
    | some (.text _) => false

end FieldTest

/-- A threshold for some of the records of a log. -/
structure Directive where
  /-- The text with which the targets concerned begin. -/
  target : List Char
  /-- The name of the spans concerned. -/
  span : Option (List Char)
  /-- The field that is asked for. -/
  field : Option FieldTest
  /-- Up to which severity records are shown. -/
  threshold : Threshold
deriving DecidableEq, Inhabited

namespace Directive

/-- The directive that sets the threshold of everything. -/
def everything (t : Threshold) : Directive :=
  { target := [], span := none, field := none, threshold := t }

/-! ## Reading -/

/-- Whether a directive that has a target may begin with a character. Only ASCII letters count:
no record has a target that begins with another letter. -/
def isInitial (c : Char) : Bool :=
  c.isAlphanum || c == '_' || c == ':' || c == '-'

/-- Reads the threshold behind an equals sign; if there is none, everything is shown. -/
def parseThreshold? (word : List Char) : Option Threshold :=
  if word.isEmpty then some (.upTo .trace) else Threshold.parse? word

/-- Reads the threshold of a directive whose shape goes on as given from the place `start`:
not at all, or with an equals sign. -/
def parseTail? (piece : List Char) (start : Nat) : List Char → Option Threshold
  | [] => some (.upTo .trace)
  | '=' :: _ => parseThreshold? (Text.dropBytes (start + 1) piece)
  | _ => none

/-- Reads a directive with the given target whose shape goes on as given from the place
`start`, behind the opening square bracket. -/
def parseSpan? (piece target : List Char) (start : Nat) (shape : List Char) :
    Option Directive :=
  let name := shape.takeWhile fun c => c != ']' && c != '\x7b'
  let stop := start + Text.width name
  let span := Text.cut piece start stop
  match shape.dropWhile fun c => c != ']' && c != '\x7b' with
  | ']' :: tail =>
    (parseTail? piece (stop + 1) tail).map fun t =>
      { target := target, span := some span, field := none, threshold := t }
  | '\x7b' :: inner =>
    let fieldStop := stop + 1 + Text.width (inner.takeWhile (· != '\x7d'))
    let field := Text.cut piece (stop + 1) fieldStop
    match inner.dropWhile (· != '\x7d') with
    | '\x7d' :: ']' :: tail =>
      if field.isEmpty then none
      else
        (parseTail? piece (fieldStop + 2) tail).map fun t =>
          { target := target
            span := if span.isEmpty then none else some span
            field := some (FieldTest.parse field)
            threshold := t }
    | _ => none
  | _ => none

/-- Reads a directive. Without square brackets and without an equals sign it is a threshold
for everything, or else a target of which everything is shown. -/
def parse? (piece : List Char) : Option Directive :=
  let shape := Text.trim piece
  let head := shape.takeWhile fun c => c != '=' && c != '['
  let stop := Text.width head
  let target := Text.cut piece 0 stop
  match head.head?, shape.dropWhile fun c => c != '=' && c != '[' with
  | none, '[' :: rest => parseSpan? piece [] 1 rest
  | none, _ => none
  | some c, rest =>
    if isInitial c then
      match rest with
      | [] =>
        match Threshold.parse? piece with
        | some t => some (everything t)
        | none => some { everything (.upTo .trace) with target := piece }
      | '[' :: shape => parseSpan? piece target (stop + 1) shape
      | _ :: _ =>
        (parseThreshold? (Text.dropBytes (stop + 1) piece)).map fun t =>
          { everything t with target := target }
    else
      none

/-! ## Meaning -/

/-- Whether a directive sets thresholds by target and fields. -/
def isGeneral (d : Directive) : Bool :=
  d.span.isNone && d.field.all fun t => t.value.isNone

/-- Whether a directive sets the threshold inside of spans. -/
def isLocal (d : Directive) : Bool :=
  d.span.isSome || d.field.isSome

/-- Whether a general directive concerns an event: its target begins in the right way, and it
has the field that is asked for. -/
def concernsEvent (d : Directive) (e : Event) : Bool :=
  d.isGeneral && d.target.isPrefixOf eventTarget.toList &&
    d.field.all fun t => (eventFields e).any fun name => name.toList == t.name

/-- Whether a general directive concerns spans. The field that it asks for does not matter. -/
def concernsSpans (d : Directive) : Bool :=
  d.isGeneral && d.target.isPrefixOf spanTarget.toList

/-- Whether a local directive concerns spans at all, whatever the values of their fields. -/
def watches (d : Directive) : Bool :=
  d.isLocal && d.target.isPrefixOf spanTarget.toList &&
    d.span.all (fun name => name == spanName.toList) &&
    d.field.all fun t => t.name == spanField.toList

/-- Whether a local directive sets the threshold inside of the span of the given scope. -/
def holdsIn (d : Directive) (scope : Nat) : Bool :=
  d.watches && d.field.all fun t => t.holdsIn scope

/-- Whether two directives differ in nothing but their thresholds. -/
def sameSubject (d e : Directive) : Bool :=
  d.target == e.target && d.span == e.span && d.field == e.field

end Directive

end LexicalScope.Log
