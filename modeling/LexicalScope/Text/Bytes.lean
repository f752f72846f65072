set_option autoImplicit false

/-!
# Byte positions in a text

Places in a text are counted in the bytes of its UTF-8 form. A text is cut between two such
places; a place inside of a character counts as the place behind that character.

## Main definitions

* `LexicalScope.Text.width` — the number of bytes of a text.
* `LexicalScope.Text.dropBytes`, `LexicalScope.Text.takeBytes` — the text behind a place, and
  the text before it.
* `LexicalScope.Text.cut` — the text between two places.
-/

namespace LexicalScope.Text

/-- The number of bytes of a text. -/
def width : List Char → Nat
  | [] => 0
  | c :: text => c.utf8Size + width text

/-- The text behind its first `n` bytes. -/
def dropBytes : Nat → List Char → List Char
  | 0, text => text
  | _ + 1, [] => []
  | n + 1, c :: text => dropBytes (n + 1 - c.utf8Size) text

/-- The first `n` bytes of a text. -/
def takeBytes : Nat → List Char → List Char
  | 0, _ => []
  | _ + 1, [] => []
  | n + 1, c :: text => c :: takeBytes (n + 1 - c.utf8Size) text

/-- The text from the place `start` up to the place `stop`. -/
def cut (text : List Char) (start stop : Nat) : List Char :=
  takeBytes (stop - start) (dropBytes start text)

end LexicalScope.Text
