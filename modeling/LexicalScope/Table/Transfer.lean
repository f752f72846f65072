import LexicalScope.Table.Basic

set_option autoImplicit false

/-!
# Moving values between scopes

Values cross a scope's border in two ways. A *copy* declares, in the current scope of the
receiver, a binding for each binding of the source. A *write-back* overwrites, in the
receiver, the value of each name that the source sees and the receiver declares. Both exist
between two tables and inside one table, where a level separates the scopes outside from the
scopes inside.

## Main definitions

* `LexicalScope.Table.insertAll` — declares a list of bindings, one after the other.
* `LexicalScope.Table.assignAll` — overwrites the values of a list of names, as far as the
  scopes outside of a level declare them.
* `LexicalScope.Table.copyInto`, `LexicalScope.Table.carryInto` — copy and write-back between
  two tables.
* `LexicalScope.Table.seed`, `LexicalScope.Table.writeBack` — copy and write-back across a
  level of one table.

## Main results

* `LexicalScope.Table.insertAll_of_stack_eq_cons` — what a copy does to the current frame.
* `LexicalScope.Table.length_stack_assignAll`, `LexicalScope.Table.floor_assignAll`,
  `LexicalScope.Table.context_assignAll` — what a write-back leaves alone.

## Design

A copy goes through the source in the order of its scan, so that of two bindings of one name
the copy of the inner one is declared first and found first. A write-back takes only what is
visible in the source: a shadowed binding must not overwrite the value of the one that shadows
it. Inside one table the source is read before the first change, and only the scopes outside
of the level are written to, so the two parts do not disturb each other.
-/

namespace LexicalScope

namespace Table

/-- Declares copies of `bs` in the current scope, in order. -/
def insertAll (t : Table) : List Binding → Option (Effect Unit)
  | [] => some (t.unchanged ())
  | b :: bs =>
    match t.insert b.name b.typeTag b.value with
    | none => none
    | some first =>
      match insertAll first.table bs with
      | none => none
      | some rest =>
        some { answer := (), table := rest.table, trace := first.trace ++ rest.trace }

/-- For each of `bs`, in order, overwrites the value of the binding that its name refers to in
the scopes outside of `level`, and counts the bindings written. A name that these scopes do
not declare is passed over. -/
def assignAll (t : Table) (level : Nat) : List Binding → Effect Nat
  | [] => t.unchanged 0
  | b :: bs =>
    match (t.stack.outside level).locate b.name with
    | none => assignAll t level bs
    | some p =>
      let written := { t with stack := t.stack.setValueAt p b.value }
      let rest := assignAll written level bs
      { answer := rest.answer + 1
        table := rest.table
        trace := t.context.emit (.wroteBack b.name) p.depth ++ rest.trace }

/-- Declares a copy of every binding of `source` in the current scope of `receiver`. -/
def copyInto (source receiver : Table) : Option (Effect Unit) :=
  receiver.insertAll source.stack.scan

/-- Writes the values visible in `source` back to the bindings of the same names that
`receiver` sees, and counts them. -/
def carryInto (source receiver : Table) : Effect Nat :=
  receiver.assignAll receiver.stack.length source.stack.visible

/-- Declares a copy of every binding outside of `level` in the current scope. There must be
as many frames outside as the level says. -/
def seed (t : Table) (level : Nat) : Option (Effect Unit) :=
  if level ≤ t.stack.length then
    t.insertAll (t.stack.outside level).scan
  else
    none

/-- Writes the values visible inside of `level` back to the bindings of the same names
outside, and counts them. There must be as many frames outside as the level says. -/
def writeBack (t : Table) (level : Nat) : Option (Effect Nat) :=
  if level ≤ t.stack.length then
    some (t.assignAll level (t.stack.inside level).visible)
  else
    none

/-! ## Laws -/

/-- **What a copy does.** The copies follow the bindings of the current frame, in order, all
stamped with the current level, and one event is reported for each.

**Proof sketch.** Induction on the bindings: the first is declared in the frame, and the rest
meet the same outer frames and the same context. -/
theorem insertAll_of_stack_eq_cons {t : Table} {f : Frame} {outer : Stack}
    (h : t.stack = f :: outer) (bs : List Binding) :
    t.insertAll bs =
      some
        { answer := ()
          table :=
            { t with
              stack :=
                { f with bindings := f.bindings ++ bs.map fun b => b.atLevel outer.length }
                  :: outer }
          trace := bs.flatMap fun b => t.context.emit (.declared b.name) outer.length } := by
  induction bs generalizing t f with
  | nil =>
    cases t
    cases h
    simp [insertAll, unchanged]
  | cons b bs ih =>
    have hfirst : t.insert b.name b.typeTag b.value =
        some
          { answer := ()
            table := { t with stack := f.push (b.atLevel outer.length) :: outer }
            trace := t.context.emit (.declared b.name) outer.length } := by
      simp only [insert, h]
      rfl
    simp only [insertAll, hfirst]
    rw [ih rfl]
    simp [Frame.push]

/-- A write-back neither enters nor leaves a scope. -/
@[simp] theorem length_stack_assignAll (t : Table) (level : Nat) (bs : List Binding) :
    (t.assignAll level bs).table.stack.length = t.stack.length := by
  induction bs generalizing t with
  | nil => rfl
  | cons b bs ih =>
    rw [assignAll]
    split
    · exact ih t
    · simp [ih]

/-- A write-back leaves the floor alone. -/
@[simp] theorem floor_assignAll (t : Table) (level : Nat) (bs : List Binding) :
    (t.assignAll level bs).table.floor = t.floor := by
  induction bs generalizing t with
  | nil => rfl
  | cons b bs ih =>
    rw [assignAll]
    split
    · exact ih t
    · exact ih _

/-- A write-back leaves the context alone. -/
@[simp] theorem context_assignAll (t : Table) (level : Nat) (bs : List Binding) :
    (t.assignAll level bs).table.context = t.context := by
  induction bs generalizing t with
  | nil => rfl
  | cons b bs ih =>
    rw [assignAll]
    split
    · exact ih t
    · exact ih _

end Table

end LexicalScope
