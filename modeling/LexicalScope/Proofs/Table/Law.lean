import Mathlib.Data.List.Basic
import LexicalScope.Proofs.Table.Edit

set_option autoImplicit false

/-!
# Laws of tables

A *law* relates a table, the events that it emits in an operation, and the table afterwards. Every
operation that a session carries out on a table is one of a few, so a law that these obey need not
be taken through the kinds of steps.

## Main definitions

* `LexicalScope.Table.emitted` — the events that an operation emits.
* `LexicalScope.Table.IsLaw` — every operation on a table obeys the law.
-/

namespace LexicalScope

namespace Table

/-- The events that an operation emits; none if it is not carried out. -/
def emitted {α : Type} : Option (Effect α) → List Emission
  | none => []
  | some e => e.trace

/-- A context that logs emits the event at its level. -/
lemma emit_of_log {c : Context} (h : c.tracer = .log) (event : Event) (level : Nat) :
    c.emit event level = [⟨event, level⟩] := by
  rw [Context.emit, h, Tracer.emit_log]

/-- A silent context emits nothing. -/
lemma emit_of_silent {c : Context} (h : c.tracer = .silent) (event : Event) (level : Nat) :
    c.emit event level = [] := by
  rw [Context.emit, h, Tracer.emit_silent]

/-- An operation on `t` obeys the law `R`. -/
def Follows (R : Table → List Emission → Table → Prop) (t : Table) {α : Type}
    (e? : Option (Effect α)) : Prop :=
  R t (emitted e?) (t.afterwards e?)

/-- Every operation on a table obeys the law `R`. -/
structure IsLaw (R : Table → List Emission → Table → Prop) : Prop where
  /-- Nothing happens. -/
  rest : ∀ t, R t [] t
  /-- Bindings are declared. -/
  insertAll : ∀ t bs, Follows R t (t.insertAll bs)
  /-- A value is overwritten. -/
  assign : ∀ t name value, Follows R t (t.assign name value)
  /-- A binding is removed. -/
  erase : ∀ t name, Follows R t (t.erase name)
  /-- A scope is entered. -/
  enter : ∀ t, Follows R t (some t.enter)
  /-- A scope is left. -/
  exit : ∀ t, Follows R t t.exit
  /-- Values are written back. -/
  assignAll : ∀ t level bs, Follows R t (some (t.assignAll level bs))
  /-- A child is opened. -/
  openChild : ∀ t, Follows R t (some t.openChild)
  /-- A child is closed. -/
  close : ∀ t (c : Child), Follows R t (c.close t)

variable {R : Table → List Emission → Table → Prop}

/-- A declaration is a copy of a single binding. -/
lemma insertAll_singleton (t : Table) (b : Binding) :
    t.insertAll [b] = t.insert b.name b.typeTag b.value := by
  rw [insertAll]
  cases t.insert b.name b.typeTag b.value with
  | none => rfl
  | some e => simp [insertAll, unchanged]

/-- A declaration obeys every law: it is a list of one. -/
lemma IsLaw.insert (hR : IsLaw R) (t : Table) (name typeTag value : String) :
    Follows R t (t.insert name typeTag value) :=
  insertAll_singleton t ⟨name, typeTag, value, 0⟩ ▸ hR.insertAll t _

/-- Seeding obeys every law: it declares, or nothing happens. -/
lemma IsLaw.seed (hR : IsLaw R) (t : Table) (level : Nat) : Follows R t (t.seed level) := by
  rw [Table.seed]
  split
  · exact hR.insertAll t _
  · exact hR.rest t

/-- A write-back across a level obeys every law: it assigns, or nothing happens. -/
lemma IsLaw.writeBack (hR : IsLaw R) (t : Table) (level : Nat) :
    Follows R t (t.writeBack level) := by
  rw [Table.writeBack]
  split
  · exact hR.assignAll t level _
  · exact hR.rest t

end Table

end LexicalScope
