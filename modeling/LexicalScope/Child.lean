import LexicalScope.Table.Transfer

set_option autoImplicit false

/-!
# Child scopes

A *child* is a handle on a scope that was opened on a table. It remembers the level of the
scope and the floor that was in force before; while it is open the floor is the child's level,
so the scope cannot be left by accident. Closing the child discards its scope and everything
inside, and gives the floor back.

## Main definitions

* `LexicalScope.Child` — the handle.
* `LexicalScope.Table.openChild`, `LexicalScope.Child.close` — the two ends of a child's life.
* `LexicalScope.Child.seed`, `LexicalScope.Child.writeBack` — values in from, and back to, the
  scopes outside of the child.

## Main results

* `LexicalScope.Child.isSome_close_iff` — a child is closed exactly on a table that has all
  frames outside of the child.
* `LexicalScope.Child.close_openChild` — closing a child that was just opened gives the table
  back.

## Design

The handle does not hold the table: what it is used on is the table that stands in its place
at that time, which need not be the one it was opened on. Its operations therefore take a
table, and answer `none` if that table has fewer frames than lie outside of the child.
-/

namespace LexicalScope

/-- A handle on a scope that was opened on a table. -/
structure Child where
  /-- The level of the child's scope: how many frames lie outside of it. -/
  base : Nat
  /-- The floor that was in force when the child was opened. -/
  savedFloor : Nat
  /-- Whether the child's life is reported as a span. -/
  hasSpan : Bool
deriving DecidableEq, Inhabited

/-- Enters a scope, raises the floor to it and answers the handle. The child has a span if the
table logs its events at this time. -/
def Table.openChild (t : Table) : Effect Child :=
  let base := t.stack.length
  let entered := t.enter
  { answer := { base := base, savedFloor := t.floor, hasSpan := t.context.tracer == .log }
    table := { entered.table with floor := base }
    trace := entered.trace }

namespace Child

/-- Declares a copy of every binding outside of the child in the current scope. -/
def seed (c : Child) (t : Table) : Option (Effect Unit) :=
  t.seed c.base

/-- Writes the values visible inside of the child back to the bindings of the same names
outside, and counts them. -/
def writeBack (c : Child) (t : Table) : Option (Effect Nat) :=
  t.writeBack c.base

/-- Discards the child's scope and all scopes in it, gives back the floor, and answers how
many bindings went away. -/
def close (c : Child) (t : Table) : Option (Effect Nat) :=
  if c.base ≤ t.stack.length then
    let reaped := (t.stack.inside c.base).size
    some
      { answer := reaped
        table := { t with stack := t.stack.outside c.base, floor := c.savedFloor }
        trace := t.context.emit (.exited reaped) c.base }
  else
    none

/-! ## Laws -/

/-- A child is closed exactly on a table that has all frames outside of the child. -/
theorem isSome_close_iff (c : Child) (t : Table) :
    (c.close t).isSome = true ↔ c.base ≤ t.stack.length := by
  unfold close
  split <;> simp_all

/-- Closing a child that was just opened gives the table back, and nothing went away. -/
theorem close_openChild (t : Table) :
    t.openChild.answer.close t.openChild.table =
      some
        { answer := 0
          table := t
          trace := t.context.emit (.exited 0) t.stack.length } := by
  simp [close, Table.openChild, Table.enter, Stack.inside, Stack.outside]

end Child

end LexicalScope
