set_option autoImplicit false

/-!
# Quoted text

A text is written between double quotes. Inside, the quote and the backslash are escaped by a
backslash; the common control characters have an escape of one letter, and every other control
character is written by its code point. All other characters stand for themselves.

This is a simplified form of the usual escaping. The usual one also writes, by their code points,
the combining marks and the characters that cannot be printed; here both stand for themselves.

## Main definitions

* `LexicalScope.Text.isControl` — the control characters.
* `LexicalScope.Text.escape` — how one character is written.
* `LexicalScope.Text.quote` — how a text is written.
-/

namespace LexicalScope.Text

/-- The control characters: those below the space, and those from the delete character up to
the last of the second control block. -/
def isControl (c : Char) : Bool :=
  c.toNat < 0x20 || (0x7F ≤ c.toNat && c.toNat ≤ 0x9F)

/-- The code point of a character in lower-case hexadecimal digits, without padding. -/
def hexDigits (c : Char) : List Char :=
  Nat.toDigits 16 c.toNat

/-- A character as it is written between quotes. The escaping is a simplified one: combining marks
and characters that cannot be printed, if they are no control characters, stand for themselves,
where the usual escaping writes their code points. -/
def escape (c : Char) : List Char :=
  if c = '"' then ['\\', '"']
  else if c = '\\' then ['\\', '\\']
  else if c = '\x00' then ['\\', '0']
  else if c = '\t' then ['\\', 't']
  else if c = '\n' then ['\\', 'n']
  else if c = '\r' then ['\\', 'r']
  else if isControl c then ['\\', 'u', '\x7b'] ++ hexDigits c ++ ['\x7d']
  else [c]

/-- A text between quotes. -/
def quote (s : String) : List Char :=
  ['"'] ++ s.toList.flatMap escape ++ ['"']

end LexicalScope.Text
