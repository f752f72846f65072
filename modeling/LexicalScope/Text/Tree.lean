import LexicalScope.Text.Quoted

set_option autoImplicit false

/-!
# Described values

Before a value is written it is described as a *tree*: numbers and texts at the leaves, and
inner nodes for records with named fields, for constructors with arguments and for lists. A
*layout* says how the items of a node are set: all in one line, or each on a line of its own.

## Main definitions

* `LexicalScope.Text.Tree` — the description of a value.
* `LexicalScope.Text.Layout` — one line, or indented lines.
* `LexicalScope.Text.Layout.block` — sets the items of a node between its ends.
* `LexicalScope.Text.Tree.write` — the text of a tree.
* `LexicalScope.Text.Tree.render` — that text as a string.

## Design

Text is produced as a list of characters, on which laws are proved by induction; only `render`
packs it. The depth of a node is passed down, so that no text has to be indented after it was
written.
-/

namespace LexicalScope.Text

/-- The description of a value. -/
inductive Tree where
  /-- A number, written in decimal digits. -/
  | number (n : Nat)
  /-- A text, written between quotes. -/
  | quoted (text : String)
  /-- The value that carries no information. -/
  | unit
  /-- A constructor with arguments; without arguments only its name is written. -/
  | node (name : String) (arguments : List Tree)
  /-- A record with named fields. -/
  | record (name : String) (fields : List (String × Tree))
  /-- A list. -/
  | list (items : List Tree)

/-- A constructor without arguments. -/
def Tree.leaf (name : String) : Tree :=
  .node name []

/-- How the items of a node are set. -/
inductive Layout where
  /-- All items in one line, separated by a comma and a blank. -/
  | compact
  /-- Each item on a line of its own, one step further in than its node, and ended by a
  comma. -/
  | indented
deriving DecidableEq, Inhabited

namespace Layout

/-- The blanks in front of a line at the given depth. -/
def margin (depth : Nat) : List Char :=
  List.replicate (4 * depth) ' '

/-- Sets the items of a node of the given depth between its two ends. In one line, the items
are kept apart from the ends by `padding`. -/
def block (l : Layout) (depth : Nat) (padding opening closing : List Char)
    (items : List (List Char)) : List Char :=
  match l with
  | compact =>
    opening ++ padding ++ [',', ' '].intercalate items ++ padding ++ closing
  | indented =>
    opening ++ ['\n'] ++ (items.map fun i => margin (depth + 1) ++ i ++ [',', '\n']).flatten
      ++ margin depth ++ closing

/-- Sets the items of a list between its two ends, or writes the two ends alone if there are no
items. -/
def blockOrEmpty (l : Layout) (depth : Nat) (opening closing : List Char) :
    List (List Char) → List Char
  | [] => opening ++ closing
  | items => l.block depth [] opening closing items

end Layout

namespace Tree

mutual

/-- The text of a tree whose first line stands at the given depth. -/
def write (l : Layout) (depth : Nat) : Tree → List Char
  | number n => Nat.toDigits 10 n
  | quoted text => quote text
  | unit => ['(', ')']
  | node name [] => name.toList
  | node name (a :: as) =>
    l.block depth [] (name.toList ++ ['(']) [')']
      (write l (depth + 1) a :: writeItems l (depth + 1) as)
  | record name fields =>
    l.block depth [' '] (name.toList ++ [' ', '\x7b']) ['\x7d']
      (writeFields l (depth + 1) fields)
  | list items => l.blockOrEmpty depth ['['] [']'] (writeItems l (depth + 1) items)

/-- The texts of the items of a node. -/
def writeItems (l : Layout) (depth : Nat) : List Tree → List (List Char)
  | [] => []
  | t :: ts => write l depth t :: writeItems l depth ts

/-- The texts of the fields of a record, each after its name and a colon. -/
def writeFields (l : Layout) (depth : Nat) : List (String × Tree) → List (List Char)
  | [] => []
  | (name, t) :: fields =>
    (name.toList ++ [':', ' '] ++ write l depth t) :: writeFields l depth fields

end

/-- The text of a tree. -/
def render (l : Layout) (t : Tree) : String :=
  String.ofList (t.write l 0)

/-- The characters of the rendered text are those that are written. -/
@[simp] theorem toList_render (l : Layout) (t : Tree) : (t.render l).toList = t.write l 0 :=
  String.toList_ofList

end Tree

end LexicalScope.Text
