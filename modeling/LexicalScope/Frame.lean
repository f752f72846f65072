import LexicalScope.Binding

set_option autoImplicit false

/-!
# Frames

A *frame* holds the bindings of one scope in the order of their declaration. A name may be
declared several times in one frame; every operation acts on the first of them.

## Main definitions

* `LexicalScope.Frame` — a level and a list of bindings, oldest first.
* `LexicalScope.Frame.find?`, `LexicalScope.Frame.index?` — the first binding of a name, and
  its index.
* `LexicalScope.Frame.push`, `LexicalScope.Frame.erase`, `LexicalScope.Frame.setValueAt` —
  the three changes of a frame.

## Main results

* `LexicalScope.Frame.getElem?_index?` — the binding at the index of a name is the first
  binding of that name.
-/

namespace LexicalScope

/-- The bindings of one scope, oldest first. -/
structure Frame where
  /-- The level of the scope, counted from `0` for the root. -/
  level : Nat
  /-- The bindings in the order of their declaration. -/
  bindings : List Binding
deriving DecidableEq, Inhabited

namespace Frame

/-- The frame of a scope in which nothing has been declared. -/
def empty (level : Nat) : Frame :=
  { level := level, bindings := [] }

/-- The first binding of `name`. -/
def find? (f : Frame) (name : String) : Option Binding :=
  f.bindings.find? fun b => b.name == name

/-- The index of the first binding of `name`. -/
def index? (f : Frame) (name : String) : Option Nat :=
  f.bindings.findIdx? fun b => b.name == name

/-- The frame with `b` declared after all others. -/
def push (f : Frame) (b : Binding) : Frame :=
  { f with bindings := f.bindings ++ [b] }

/-- The frame without the first binding of `name`; the rest keeps its order. -/
def erase (f : Frame) (name : String) : Frame :=
  { f with bindings := f.bindings.eraseP fun b => b.name == name }

/-- The frame with the value of the binding at `index` overwritten. -/
def setValueAt (f : Frame) (index : Nat) (value : String) : Frame :=
  { f with bindings := f.bindings.modify index fun b => b.setValue value }

/-- The frame of an empty scope carries the level of the scope. -/
@[simp] theorem level_empty (n : Nat) : (empty n).level = n := rfl

/-- The frame of an empty scope has no bindings. -/
@[simp] theorem bindings_empty (n : Nat) : (empty n).bindings = [] := rfl

/-- A declaration keeps the level of the frame. -/
@[simp] theorem level_push (f : Frame) (b : Binding) : (f.push b).level = f.level := rfl

/-- A removal keeps the level of the frame. -/
@[simp] theorem level_erase (f : Frame) (name : String) : (f.erase name).level = f.level := rfl

/-- A removal takes the first binding of the name away. -/
@[simp] theorem bindings_erase (f : Frame) (name : String) :
    (f.erase name).bindings = f.bindings.eraseP fun b => b.name == name := rfl

/-- Overwriting a value keeps the level of the frame. -/
@[simp] theorem level_setValueAt (f : Frame) (i : Nat) (v : String) :
    (f.setValueAt i v).level = f.level := rfl

/-- Overwriting a value changes the binding at the index. -/
@[simp] theorem bindings_setValueAt (f : Frame) (i : Nat) (v : String) :
    (f.setValueAt i v).bindings = f.bindings.modify i fun b => b.setValue v := rfl

/-- The binding at the index of a name is the first binding of that name. -/
theorem getElem?_index? (f : Frame) (name : String) {i : Nat} (h : f.index? name = some i) :
    f.bindings[i]? = f.find? name := by
  obtain ⟨hi, hb, -⟩ := List.findIdx?_eq_some_iff_getElem.1 h
  rw [find?, List.find?_eq_bind_findIdx?_getElem?]
  simp only [index?] at h
  simp [h]

/-- A name has an index in a frame exactly if the frame declares it. -/
theorem isSome_index? (f : Frame) (name : String) :
    (f.index? name).isSome = (f.find? name).isSome := by
  simp [index?, find?, List.isSome_find?]

/-- What is found under a name has that name. -/
theorem name_of_find? {f : Frame} {name : String} {b : Binding} (h : f.find? name = some b) :
    b.name = name := by
  simpa using List.find?_some h

end Frame

end LexicalScope
