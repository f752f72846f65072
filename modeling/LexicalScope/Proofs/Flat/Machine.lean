import Mathlib.Data.List.Dedup
import LexicalScope.Proofs.Session.Turns
import LexicalScope.Proofs.Stack.First

set_option autoImplicit false

/-!
# Flat tables

A specification of sessions that knows nothing of frames. A *flat table* is one list of bindings,
each stamped with the level of its scope, together with the current level and the floor. A name
refers to the earliest of its bindings with the greatest stamp; leaving a scope deletes the
bindings with the stamp of the current level.

## Main definitions

* `LexicalScope.Flat.isTop`, `LexicalScope.Flat.resolve`, `LexicalScope.Flat.assign` — the binding
  that a name refers to.
* `LexicalScope.FlatTable` — the level, the floor and the bindings.
* `LexicalScope.FlatTable.replyTo`, `LexicalScope.FlatTable.edited` — edits.
* `LexicalScope.FlatTable.receive`, `LexicalScope.Flat.inwardOut` — copies.
* `LexicalScope.FlatTable.overwrite`, `LexicalScope.FlatTable.writeBack`,
  `LexicalScope.Flat.referents` — write-backs.
* `LexicalScope.FlatTable.opened`, `LexicalScope.FlatTable.closed` — children.
* `LexicalScope.FlatSession.step`, `LexicalScope.FlatSession.closeOn`,
  `LexicalScope.FlatSession.run` — the steps of a session over flat tables, the closing of the
  innermost child of a slot, and runs of both.

## Design

The stamps carry everything: no operation looks at the place of a binding in the list, except to
take the earliest of several. What the specification does not determine it does not answer: the
context of a table, and what shows a table or a handle as a whole.
-/

namespace LexicalScope

/-! ## Lists of stamped bindings -/

namespace Flat

/-- The binding has the name, and no binding of the name has a greater stamp. -/
def isTop (bs : List Binding) (name : String) (b : Binding) : Bool :=
  b.name == name && bs.all fun c => c.name != name || c.scopeLevel ≤ b.scopeLevel

/-- What a name refers to: the earliest of its bindings with the greatest stamp. -/
def resolve (bs : List Binding) (name : String) : Option Binding :=
  bs.find? (isTop bs name)

/-- The bindings with the value of what a name refers to overwritten. -/
def assign (bs : List Binding) (name value : String) : List Binding :=
  setFirst (isTop bs name) value bs

/-- The bindings after assigning the value of each of `values` to its name. -/
def assignAll (bs values : List Binding) : List Binding :=
  values.foldl (fun bs b => assign bs b.name b.value) bs

/-- The bindings with stamps below `limit`, from the greatest stamp to the least; those with one
stamp keep their order. -/
def inwardOut (limit : Nat) (bs : List Binding) : List Binding :=
  (List.range limit).reverse.flatMap fun level => bs.filter fun b => b.scopeLevel == level

/-- For each name, the binding that it refers to. -/
def referents (bs : List Binding) : List Binding :=
  (bs.map Binding.name).dedup.filterMap (resolve bs)

/-- How many names have bindings in both lists. -/
def shared (bs cs : List Binding) : Nat :=
  (referents bs).countP fun b => (resolve cs b.name).isSome

/-- The bindings with stamps below `base`. -/
def outside (base : Nat) (bs : List Binding) : List Binding :=
  bs.filter fun b => b.scopeLevel < base

/-- The bindings with stamps of `base` and above. -/
def inside (base : Nat) (bs : List Binding) : List Binding :=
  bs.filter fun b => base ≤ b.scopeLevel

end Flat

/-! ## Tables -/

/-- A table without frames. -/
structure FlatTable where
  /-- The level of the current scope. -/
  level : Nat
  /-- The least level at which a scope is left. -/
  floor : Nat
  /-- All bindings, each stamped with the level of its scope. -/
  bindings : List Binding
deriving DecidableEq

namespace FlatTable

/-- A table without bindings, at the root. -/
def fresh : FlatTable :=
  { level := 0, floor := 0, bindings := [] }

/-- Whether a binding has the name and the stamp of the current level. -/
def isHere (t : FlatTable) (name : String) (b : Binding) : Bool :=
  b.name == name && b.scopeLevel == t.level

/-- The bindings with the stamp of the current level. -/
def here (t : FlatTable) : List Binding :=
  t.bindings.filter fun b => b.scopeLevel == t.level

/-- The answer to a question; `none` if it is not determined. -/
def answer? (t : FlatTable) : Query → Option Reply
  | .resolve name => some (.found (Flat.resolve t.bindings name))
  | .resolveHere name => some (.found (t.bindings.find? (t.isHere name)))
  | .level => some (.number t.level)
  | .size => some (.number t.bindings.length)
  | .isEmpty => some (.flag t.bindings.isEmpty)
  | .bindings => some (.bindings t.bindings)
  | .bindingsHere => some (.bindings t.here)
  | .assignments => some (.lines (t.here.map Binding.assignment))
  | .declarations => some (.lines (t.bindings.map Binding.declaration))
  | .echo event => some (.event event)
  | .context | .table | .handle => none

/-- The reply to an edit. -/
def replyTo (t : FlatTable) : Edit → Reply
  | .insert _ _ _ | .enter => .done
  | .assign name _ => (Flat.resolve t.bindings name).elim (.refused (.unbound name)) fun _ => .done
  | .erase name => (t.bindings.find? (t.isHere name)).elim (.refused (.unbound name)) .removed
  | .exit => if t.level ≤ t.floor then .refused .atFloor else .done

/-- The table after an edit. -/
def edited (t : FlatTable) : Edit → FlatTable
  | .insert name typeTag value =>
    { t with bindings := t.bindings ++ [⟨name, typeTag, value, t.level⟩] }
  | .assign name value => { t with bindings := Flat.assign t.bindings name value }
  | .erase name => { t with bindings := t.bindings.eraseP (t.isHere name) }
  | .enter => { t with level := t.level + 1 }
  | .exit =>
    if t.level ≤ t.floor then t
    else
      { t with
        level := t.level - 1
        bindings := t.bindings.filter fun b => b.scopeLevel != t.level }

/-- The table with copies of `bs` declared at the current level. -/
def receive (t : FlatTable) (bs : List Binding) : FlatTable :=
  { t with bindings := t.bindings ++ bs.map fun b => b.atLevel t.level }

/-- The table with the values of all names of `values` written to its bindings. -/
def overwrite (t : FlatTable) (values : List Binding) : FlatTable :=
  { t with bindings := Flat.assignAll t.bindings (Flat.referents values) }

/-- The table with the values of all names of the bindings inside of `base` written to those
outside. -/
def writeBack (t : FlatTable) (base : Nat) : FlatTable :=
  { t with
    bindings :=
      Flat.assignAll (Flat.outside base t.bindings)
          (Flat.referents (Flat.inside base t.bindings)) ++
        Flat.inside base t.bindings }

/-- The table with a child opened on it, at the next level. -/
def opened (t : FlatTable) : FlatTable :=
  { t with level := t.level + 1, floor := t.level + 1 }

/-- The table with a child closed that was opened at `base` over `savedFloor`. -/
def closed (t : FlatTable) (base savedFloor : Nat) : FlatTable :=
  { level := base - 1, floor := savedFloor, bindings := Flat.outside base t.bindings }

end FlatTable

/-! ## Sessions -/

/-- A child that is open on a slot. -/
structure FlatChild where
  /-- The slot that the child was opened on. -/
  slot : Nat
  /-- The level that it was opened at. -/
  base : Nat
  /-- The floor that was in force when it was opened. -/
  savedFloor : Nat
deriving DecidableEq

/-- Several flat tables with the children that are open on them. -/
structure FlatSession where
  /-- The tables, by slot. -/
  tables : List FlatTable
  /-- The open children of all slots, most recently opened first. -/
  children : List FlatChild
deriving DecidableEq

/-- The report that a child was closed. -/
structure FlatClosing where
  /-- The slot that the child was opened on. -/
  slot : Nat
  /-- The level that it was opened at. -/
  base : Nat
  /-- How many bindings went away. -/
  reaped : Nat
deriving DecidableEq

/-- What a step of a session over flat tables leaves behind. -/
structure FlatOutcome where
  /-- The answer, if it is determined. -/
  reply? : Option Reply
  /-- The session afterwards. -/
  session : FlatSession
  /-- The child that was closed in the step. -/
  closing? : Option FlatClosing
deriving DecidableEq

namespace FlatSession

/-- A session over fresh tables. -/
def fresh (n : Nat) : FlatSession :=
  { tables := List.replicate n .fresh, children := [] }

/-- The innermost child that is open on a slot. -/
def child? (s : FlatSession) (slot : Nat) : Option FlatChild :=
  s.children.find? fun c => c.slot == slot

/-- The outcome of a step that answers and changes nothing. -/
def answer (s : FlatSession) (reply? : Option Reply) : FlatOutcome :=
  { reply? := reply?, session := s, closing? := none }

/-- The session with another table in a slot. -/
def setTable (s : FlatSession) (slot : Nat) (t : FlatTable) : FlatSession :=
  { s with tables := s.tables.set slot t }

/-- The outcome of a step that answers and puts another table in a slot. -/
def put (s : FlatSession) (slot : Nat) (reply : Reply) (t : FlatTable) : FlatOutcome :=
  (s.setTable slot t).answer (some reply)

/-- Continues with the table of a slot, if the slot has one. -/
def withTable (s : FlatSession) (slot : Nat) (k : FlatTable → FlatOutcome) : FlatOutcome :=
  match s.tables[slot]? with
  | none => s.answer (some .noSlot)
  | some t => k t

/-- Continues with the tables of two different slots. -/
def withTables (s : FlatSession) (slot partner : Nat) (k : FlatTable → FlatTable → FlatOutcome) :
    FlatOutcome :=
  s.withTable slot fun t =>
    if partner = slot then
      s.answer (some .badPartner)
    else
      match s.tables[partner]? with
      | none => s.answer (some .badPartner)
      | some u => k t u

/-- Continues with the innermost child of a slot and the table behind it. -/
def withChild (s : FlatSession) (slot : Nat) (k : FlatChild → FlatTable → FlatOutcome) :
    FlatOutcome :=
  s.withTable slot fun t =>
    match s.child? slot with
    | none => s.answer (some .notChild)
    | some c => k c t

/-- Closes the child `c`, with `rest` being the children that stay open. -/
def closeChild (s : FlatSession) (c : FlatChild) (rest : List FlatChild) : FlatOutcome :=
  s.withTable c.slot fun t =>
    if t.level + 1 < c.base then
      { s with children := rest }.answer (some .outOfRange)
    else
      { reply? := some .done
        session := { s.setTable c.slot (t.closed c.base c.savedFloor) with children := rest }
        closing? := some ⟨c.slot, c.base, (Flat.inside c.base t.bindings).length⟩ }

/-- Carries out one step. -/
def step (s : FlatSession) : Step → FlatOutcome
  | .query slot q => s.withTable slot fun t => s.answer (t.answer? q)
  | .edit slot e => s.withTable slot fun t => s.put slot (t.replyTo e) (t.edited e)
  | .copy source receiver =>
    s.withTables source receiver fun t u =>
      s.put receiver .done (u.receive (Flat.inwardOut (t.level + 1) t.bindings))
  | .carry source receiver =>
    s.withTables source receiver fun t u =>
      s.put receiver (.number (Flat.shared t.bindings u.bindings)) (u.overwrite t.bindings)
  | .swap first second =>
    s.withTables first second fun t u =>
      ((s.setTable first u).setTable second t).answer (some .done)
  | .openChild slot =>
    s.withTable slot fun t =>
      { s.setTable slot t.opened with
        children := ⟨slot, t.level + 1, t.floor⟩ :: s.children }.answer
        (some (.number (t.level + 1)))
  | .closeChild slot =>
    match s.children with
    | [] => s.withTable slot fun _ => s.answer (some .noChild)
    | c :: rest => s.closeChild c rest
  | .childLevel slot => s.withChild slot fun c _ => s.answer (some (.number c.base))
  | .seed slot =>
    s.withChild slot fun c t =>
      if t.level + 1 < c.base then s.answer (some .outOfRange)
      else s.put slot .done (t.receive (Flat.inwardOut c.base t.bindings))
  | .writeBack slot =>
    s.withChild slot fun c t =>
      if t.level + 1 < c.base then s.answer (some .outOfRange)
      else
        s.put slot
          (.number (Flat.shared (Flat.inside c.base t.bindings) (Flat.outside c.base t.bindings)))
          (t.writeBack c.base)
  | .trace slot _ _ _ => s.withTable slot fun _ => s.answer (some .done)

/-- Closes the innermost child of a slot, also if children of other slots were opened later. -/
def closeOn (s : FlatSession) (slot : Nat) : FlatOutcome :=
  match s.child? slot with
  | none => s.withTable slot fun _ => s.answer (some .noChild)
  | some c => s.closeChild c (s.children.eraseP fun c => c.slot == slot)

/-- Makes a move. -/
def move (s : FlatSession) : Move → FlatOutcome
  | .step step => s.step step
  | .closeOn slot => s.closeOn slot

/-- Makes moves one after the other, and gives the outcome of each. -/
def run (s : FlatSession) : List Move → List FlatOutcome
  | [] => []
  | m :: ms =>
    let outcome := s.move m
    outcome :: run outcome.session ms

end FlatSession

end LexicalScope
