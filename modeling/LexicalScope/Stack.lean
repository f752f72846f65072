import LexicalScope.Frame

set_option autoImplicit false

/-!
# Stacks of frames

The scopes that are open at one time form a stack of frames. The list holds the innermost
frame first, and this order carries meaning: a name is resolved by the first frame that
declares it, so an inner declaration shadows an outer one. A frame is addressed from the
other end, by its *depth*: the root has depth `0`, so that entering and leaving inner scopes
does not renumber the outer ones.

## Main definitions

* `LexicalScope.Stack` — frames, innermost first.
* `LexicalScope.Stack.resolve` — the binding that a name refers to.
* `LexicalScope.Stack.scan` — all bindings, in the order in which resolution meets them.
* `LexicalScope.Stack.visible` — of the scan, the first binding of each name.
* `LexicalScope.Stack.outside`, `LexicalScope.Stack.inside` — the frames outside of the scope
  at a given level, and those of that scope and the scopes in it.
* `LexicalScope.Stack.locate` — the position of the binding that a name refers to.
* `LexicalScope.Stack.setValueAt` — overwrites the value at a position.

## Main results

* `LexicalScope.Stack.inside_append_outside` — a level cuts a stack in two.
* `LexicalScope.Stack.resolve_append` — what the inner part does not declare is resolved by
  the outer part.
* `LexicalScope.Stack.length_setValueAt`, `LexicalScope.Stack.length_outside`.
-/

namespace LexicalScope

/-- Frames, the innermost first. -/
abbrev Stack := List Frame

/-- Where a binding stands: the depth of its frame, counted from the root, and its index in
that frame. -/
structure Position where
  /-- How many frames lie outside of the binding's frame. -/
  depth : Nat
  /-- How many bindings of the frame are older. -/
  index : Nat
deriving DecidableEq, Inhabited

namespace Stack

/-! ## Views -/

/-- The binding that `name` refers to: the first one of the innermost frame that declares
the name. -/
def resolve (s : Stack) (name : String) : Option Binding :=
  s.findSome? fun f => f.find? name

/-- All bindings in the order in which resolution meets them: innermost frame first, and
oldest first within a frame. -/
def scan (s : Stack) : List Binding :=
  s.flatMap Frame.bindings

/-- All bindings, outermost frame first, and oldest first within a frame. -/
def bindings (s : Stack) : List Binding :=
  s.reverse.flatMap Frame.bindings

/-- The number of bindings. -/
def size : Stack → Nat
  | [] => 0
  | f :: outer => f.bindings.length + size outer

/-- Of the bindings of each name, the first. The survivors keep their order. -/
def firstOfEachName : List Binding → List Binding
  | [] => []
  | b :: bs => b :: (firstOfEachName bs).filter fun c => c.name != b.name

/-- The bindings that some name refers to, in the order of the scan. -/
def visible (s : Stack) : List Binding :=
  firstOfEachName s.scan

/-! ## Cutting at a level -/

/-- The `level` outermost frames: those outside of the scope at that level. -/
def outside (s : Stack) (level : Nat) : Stack :=
  s.drop (s.length - level)

/-- All frames but the `level` outermost: the scope at that level and the scopes in it. -/
def inside (s : Stack) (level : Nat) : Stack :=
  s.take (s.length - level)

/-! ## Positions -/

/-- The position of the binding that `name` refers to. -/
def locate : Stack → String → Option Position
  | [], _ => none
  | f :: outer, name =>
    match f.index? name with
    | some index => some { depth := outer.length, index := index }
    | none => locate outer name

/-- The stack with the value of the binding at a position overwritten; nothing changes if no
binding stands there. -/
def setValueAt : Stack → Position → String → Stack
  | [], _, _ => []
  | f :: outer, p, value =>
    if p.depth = outer.length then f.setValueAt p.index value :: outer
    else f :: setValueAt outer p value

/-! ## Laws -/

/-- Where there are no frames, no name refers to anything. -/
@[simp] theorem resolve_nil (name : String) : resolve [] name = none := rfl

/-- The innermost frame resolves what it declares and leaves the rest to the outer ones. -/
theorem resolve_cons (f : Frame) (s : Stack) (name : String) :
    resolve (f :: s) name = (f.find? name).or (resolve s name) := by
  unfold resolve
  rw [List.findSome?_cons]
  cases f.find? name <;> rfl

/-- What the inner part of a stack does not declare is resolved by the outer part. -/
theorem resolve_append (s u : Stack) (name : String) :
    resolve (s ++ u) name = (resolve s name).or (resolve u name) := by
  simp [resolve, List.findSome?_append]

/-- Where there are no frames, there is nothing to go through. -/
@[simp] theorem scan_nil : scan [] = [] := rfl

/-- The bindings of the innermost frame come first. -/
@[simp] theorem scan_cons (f : Frame) (s : Stack) : scan (f :: s) = f.bindings ++ scan s := rfl

/-- The bindings of the inner part come first. -/
@[simp] theorem scan_append (s u : Stack) : scan (s ++ u) = scan s ++ scan u := by
  simp [scan]

/-- Where there are no frames, there are no bindings. -/
@[simp] theorem size_nil : size [] = 0 := rfl

/-- The innermost frame and the others add up. -/
@[simp] theorem size_cons (f : Frame) (s : Stack) :
    size (f :: s) = f.bindings.length + size s := rfl

/-- The size counts the bindings of the scan. -/
theorem length_scan (s : Stack) : s.scan.length = s.size := by
  induction s with
  | nil => rfl
  | cons f s ih => rw [scan_cons, List.length_append, ih, size_cons]

/-- A level cuts a stack in two. -/
@[simp] theorem inside_append_outside (s : Stack) (level : Nat) :
    s.inside level ++ s.outside level = s :=
  List.take_append_drop _ s

/-- Outside of a level of the stack there are as many frames as the level says. -/
theorem length_outside (s : Stack) {level : Nat} (h : level ≤ s.length) :
    (s.outside level).length = level := by
  rw [outside, List.length_drop]
  omega

/-- The whole stack lies outside of the scope that would be entered next. -/
@[simp] theorem outside_length (s : Stack) : s.outside s.length = s := by
  simp [outside]

/-- Overwriting a value neither adds nor removes frames. -/
@[simp] theorem length_setValueAt (s : Stack) (p : Position) (v : String) :
    (s.setValueAt p v).length = s.length := by
  induction s with
  | nil => rfl
  | cons f s ih =>
    unfold setValueAt
    split <;> simp [ih]

/-- A name has a position exactly if it is resolved. -/
theorem isSome_locate (s : Stack) (name : String) :
    (s.locate name).isSome = (s.resolve name).isSome := by
  induction s with
  | nil => rfl
  | cons f s ih =>
    have hf := f.isSome_index? name
    rw [resolve_cons, Option.isSome_or, ← hf, ← ih, locate]
    cases f.index? name <;> simp

end Stack

end LexicalScope
