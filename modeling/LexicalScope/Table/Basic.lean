import LexicalScope.Context
import LexicalScope.Refusal
import LexicalScope.Stack

set_option autoImplicit false

/-!
# Tables of scoped bindings

A *table* is a stack of frames with a floor and a context. Declarations go to the innermost
frame; names are resolved from the innermost frame outward; a scope is left only if it lies
above the floor, so that neither the root nor a scope held open by a child is lost.

## Main definitions

* `LexicalScope.Table` — a stack, a floor and a context.
* `LexicalScope.Effect` — what an operation leaves behind: an answer, a table, a trace.
* `LexicalScope.Table.resolve`, `LexicalScope.Table.current?` and the other views.
* `LexicalScope.Table.insert`, `LexicalScope.Table.assign`, `LexicalScope.Table.erase`,
  `LexicalScope.Table.enter`, `LexicalScope.Table.exit` — the operations.

## Main results

* `LexicalScope.Table.isEmpty_iff` — a table is empty exactly if it holds no binding.
* `LexicalScope.Table.exit_enter` — a scope that was just entered can be left, which gives the
  table back.

## Design

The type holds every combination of stack, floor and context, also the stack without frames,
which no sequence of operations on a fresh table reaches. An operation that needs a current
frame answers `none` on it: this is the one way in which such an operation can fail to be
carried out, and that it does not happen in a run is a theorem about runs and not a part of
the type. A refusal, by contrast, is an answer of type `Except Refusal`.
-/

namespace LexicalScope

/-- A stack of scopes, the floor below which no scope is left, and a context. -/
structure Table where
  /-- The open scopes, innermost first. -/
  stack : Stack
  /-- The least level that `Table.exit` leaves the table at. -/
  floor : Nat
  /-- How the table reports its events. -/
  context : Context
deriving DecidableEq, Inhabited

/-- What an operation on a table leaves behind. -/
structure Effect (α : Type) where
  /-- The answer to the caller. -/
  answer : α
  /-- The table afterwards. -/
  table : Table
  /-- The events that the table emitted, in order. -/
  trace : List Emission

namespace Table

/-- A table with one empty scope, the root. -/
def ofContext (c : Context) : Table :=
  { stack := [Frame.empty 0], floor := 0, context := c }

/-! ## Views -/

/-- The level of the current scope. -/
def level (t : Table) : Nat :=
  t.stack.length - 1

/-- The number of bindings in all scopes. -/
def size (t : Table) : Nat :=
  t.stack.size

/-- Whether no scope holds a binding. -/
def isEmpty (t : Table) : Bool :=
  t.stack.all fun f => f.bindings.isEmpty

/-- All bindings, outermost scope first, and oldest first within a scope. -/
def bindings (t : Table) : List Binding :=
  t.stack.bindings

/-- The frame of the current scope. -/
def current? (t : Table) : Option Frame :=
  t.stack.head?

/-- The binding that `name` refers to. -/
def resolve (t : Table) (name : String) : Option Binding :=
  t.stack.resolve name

/-- The effect of an operation that answers and does nothing else. -/
def unchanged {α : Type} (t : Table) (answer : α) : Effect α :=
  { answer := answer, table := t, trace := [] }

/-! ## Operations -/

/-- Declares a binding in the current scope. -/
def insert (t : Table) (name typeTag value : String) : Option (Effect Unit) :=
  match t.stack with
  | [] => none
  | f :: outer =>
    let level := outer.length
    some
      { answer := ()
        table := { t with stack := f.push ⟨name, typeTag, value, level⟩ :: outer }
        trace := t.context.emit (.declared name) level }

/-- Reports that a name was not found and refuses the operation that looked for it. -/
def miss {α : Type} (t : Table) (name : String) : Option (Effect (Except Refusal α)) :=
  match t.stack with
  | [] => none
  | _ :: outer =>
    some
      { answer := .error (.unbound name)
        table := t
        trace := t.context.emit (.missed name) outer.length }

/-- Overwrites the value of the binding that `name` refers to, in whichever scope it is. -/
def assign (t : Table) (name value : String) : Option (Effect (Except Refusal Unit)) :=
  match t.stack.locate name with
  | none => t.miss name
  | some p =>
    some
      { answer := .ok ()
        table := { t with stack := t.stack.setValueAt p value }
        trace := t.context.emit (.updated name) p.depth }

/-- Removes the first binding of `name` from the current scope; outer scopes are not
touched. -/
def erase (t : Table) (name : String) : Option (Effect (Except Refusal Binding)) :=
  match t.stack with
  | [] => none
  | f :: outer =>
    match f.find? name with
    | none => t.miss name
    | some b =>
      some
        { answer := .ok b
          table := { t with stack := f.erase name :: outer }
          trace := t.context.emit (.removed name) outer.length }

/-- Enters a scope inside of the current one. -/
def enter (t : Table) : Effect Unit :=
  let level := t.stack.length
  { answer := ()
    table := { t with stack := Frame.empty level :: t.stack }
    trace := t.context.emit .entered level }

/-- Leaves the current scope and forgets its bindings; refuses at the floor. -/
def exit (t : Table) : Option (Effect (Except Refusal Unit)) :=
  match t.stack with
  | [] => none
  | f :: outer =>
    if outer.length ≤ t.floor then
      some (t.unchanged (.error .atFloor))
    else
      some
        { answer := .ok ()
          table := { t with stack := outer }
          trace := t.context.emit (.exited f.bindings.length) f.level }

/-! ## Laws -/

/-- A table is empty exactly if it holds no binding. -/
theorem isEmpty_iff (t : Table) : t.isEmpty = true ↔ t.size = 0 := by
  unfold isEmpty size
  induction t.stack with
  | nil => simp
  | cons f s ih =>
    rw [List.all_cons, Bool.and_eq_true, ih, Stack.size_cons, List.isEmpty_iff,
      ← List.length_eq_zero_iff]
    omega

/-- A scope that was just entered can be left, which gives the table back. -/
theorem exit_enter (t : Table) (h : t.floor < t.stack.length) :
    t.enter.table.exit =
      some
        { answer := .ok ()
          table := t
          trace := t.context.emit (.exited 0) t.stack.length } := by
  have hle : ¬ t.stack.length ≤ t.floor := by omega
  simp [enter, exit, hle]

/-- A table without a binding of `name` refuses to overwrite it. -/
theorem assign_of_resolve_eq_none {t : Table} {name : String} (value : String)
    (h : t.resolve name = none) : t.assign name value = t.miss name := by
  have hp : t.stack.locate name = none := by
    rw [← Option.isNone_iff_eq_none, ← Option.not_isSome, Stack.isSome_locate]
    simp only [resolve] at h
    simp [h]
  rw [assign, hp]

end Table

end LexicalScope
