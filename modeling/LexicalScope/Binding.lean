set_option autoImplicit false

/-!
# Bindings

A *binding* ties a name to a type tag and a value, both opaque to the library, and carries
the level of the scope that it was declared in.

## Main definitions

* `LexicalScope.Binding` — a name, its type tag, its value and its scope level.
* `LexicalScope.Binding.declaration` — the text `name: type = value`.
* `LexicalScope.Binding.assignment` — the text `name = value`.
* `LexicalScope.Binding.setValue`, `LexicalScope.Binding.atLevel` — the two ways in which a
  binding changes: its value is overwritten in place, and a copy of it is stamped with
  another level.
-/

namespace LexicalScope

/-- A name bound to a type tag and a value, stamped with the level of its scope. -/
structure Binding where
  /-- The declared name. -/
  name : String
  /-- The declared type; no operation inspects or changes it. -/
  typeTag : String
  /-- The current value; no operation inspects it. -/
  value : String
  /-- The level of the scope in which the binding was declared, `0` being the root. -/
  scopeLevel : Nat
deriving DecidableEq, Inhabited

namespace Binding

/-- The binding with its value overwritten. -/
def setValue (b : Binding) (value : String) : Binding :=
  { b with value := value }

/-- A copy of the binding, declared at `level`. -/
def atLevel (b : Binding) (level : Nat) : Binding :=
  { b with scopeLevel := level }

/-- The text `name: type = value`. -/
def declaration (b : Binding) : String :=
  b.name ++ ": " ++ b.typeTag ++ " = " ++ b.value

/-- The text `name = value`. -/
def assignment (b : Binding) : String :=
  b.name ++ " = " ++ b.value

/-- Overwriting the value keeps the name. -/
@[simp] theorem name_setValue (b : Binding) (v : String) : (b.setValue v).name = b.name := rfl

/-- Overwriting the value keeps the type. -/
@[simp] theorem typeTag_setValue (b : Binding) (v : String) :
    (b.setValue v).typeTag = b.typeTag := rfl

/-- The value that was written is the one that is read. -/
@[simp] theorem value_setValue (b : Binding) (v : String) : (b.setValue v).value = v := rfl

/-- Overwriting the value keeps the level. -/
@[simp] theorem scopeLevel_setValue (b : Binding) (v : String) :
    (b.setValue v).scopeLevel = b.scopeLevel := rfl

/-- Of two values written one after the other, the second stays. -/
@[simp] theorem setValue_setValue (b : Binding) (v w : String) :
    (b.setValue v).setValue w = b.setValue w := rfl

/-- A copy for a level keeps the name. -/
@[simp] theorem name_atLevel (b : Binding) (n : Nat) : (b.atLevel n).name = b.name := rfl

/-- A copy for a level keeps the type. -/
@[simp] theorem typeTag_atLevel (b : Binding) (n : Nat) :
    (b.atLevel n).typeTag = b.typeTag := rfl

/-- A copy for a level keeps the value. -/
@[simp] theorem value_atLevel (b : Binding) (n : Nat) : (b.atLevel n).value = b.value := rfl

/-- A copy for a level carries this level. -/
@[simp] theorem scopeLevel_atLevel (b : Binding) (n : Nat) :
    (b.atLevel n).scopeLevel = n := rfl

end Binding

end LexicalScope
