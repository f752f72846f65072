import LexicalScope.Event

set_option autoImplicit false

/-!
# Thresholds

A threshold says up to which severity records are shown.

## Main definitions

* `LexicalScope.Log.Threshold` — nothing, or everything up to a severity.
* `LexicalScope.Log.Threshold.passes` — whether a severity is shown.
* `LexicalScope.Log.Threshold.max` — the wider of two thresholds.
* `LexicalScope.Log.Threshold.parse?` — reads a threshold.
-/

namespace LexicalScope.Log

/-- Reads a decimal numeral. It may begin with a plus sign and with any number of zeros. -/
def parseNumeral? (word : List Char) : Option Nat :=
  let digits :=
    match word with
    | '+' :: rest => rest
    | rest => rest
  if digits.isEmpty || !digits.all Char.isDigit then none
  else some (Nat.ofDigitChars 10 digits 0)

/-- Up to which severity records are shown. -/
inductive Threshold where
  /-- Nothing is shown. -/
  | off
  /-- Everything at least as grave as this severity is shown. -/
  | upTo (severity : Severity)
deriving DecidableEq, Inhabited

namespace Threshold

/-- How many of the severities are shown. -/
def rank : Threshold → Nat
  | off => 0
  | upTo s => s.rank

/-- Whether records of a severity are shown. -/
def passes (t : Threshold) (s : Severity) : Bool :=
  s.rank ≤ t.rank

/-- The wider of two thresholds. -/
def max (t u : Threshold) : Threshold :=
  if t.rank ≤ u.rank then u else t

/-- Reads a threshold: the label of a severity or its rank, or, for the threshold that shows
nothing, the word `off` or the number `0`. Words may be written in letters of either case. -/
def parse? (word : List Char) : Option Threshold :=
  match parseNumeral? word with
  | some 0 => some off
  | some n => (Severity.ofRank? n).map upTo
  | none =>
    if word.map Char.toUpper = ['O', 'F', 'F'] then some off
    else (Severity.ofLabel? word).map upTo

end Threshold

end LexicalScope.Log
