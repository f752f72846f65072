import Mathlib.Data.List.Basic
import LexicalScope.Text.Quoted

set_option autoImplicit false

/-!
# Self-delimiting texts

A way of writing values is self-delimiting if the value can be told from the front of a text, and
so can the rest of the text behind it. A number, or the code point of a character, is told from the
rest if the rest does not go on with a digit. A quoted text is told from any rest: what is escaped
has no bare quote in it, and each character is told from those that follow it.

## Main definitions

* `LexicalScope.Text.Ends` — a run of characters of a kind ends where a rest begins.
* `LexicalScope.Text.meaning` — what a letter stands for behind a backslash.

## Main results

* `LexicalScope.Text.run_append_inj` — runs of characters of a kind are self-delimiting.
* `LexicalScope.Text.toDigits_inj` — a number is told from its digits.
* `LexicalScope.Text.escape_append_inj` — escaped characters are self-delimiting.
* `LexicalScope.Text.quote_append_inj` — quoted texts are self-delimiting.
-/

namespace LexicalScope.Text

/-! ## Runs -/

/-- A run of characters of the kind ends where the rest begins. -/
def Ends (kind : Char → Bool) (rest : List Char) : Prop :=
  ∀ c ∈ rest.head?, kind c = false

/-- A run of characters ends in front of one that is of another kind. -/
lemma ends_cons {kind : Char → Bool} {c : Char} (hc : kind c = false) (rest : List Char) :
    Ends kind (c :: rest) := by
  simpa [Ends] using hc

/-- A run at the front of a text is the longest one if it ends where the rest begins. -/
lemma cut_run {kind : Char → Bool} {run rest : List Char} (hrun : ∀ c ∈ run, kind c = true)
    (hrest : Ends kind rest) :
    (run ++ rest).takeWhile kind = run ∧ (run ++ rest).dropWhile kind = rest := by
  rw [List.takeWhile_append_of_pos hrun, List.dropWhile_append_of_pos hrun]
  cases rest with
  | nil => exact ⟨List.append_nil run, rfl⟩
  | cons c rest =>
    have hc : kind c = false := hrest c rfl
    rw [List.takeWhile_cons, List.dropWhile_cons, hc]
    exact ⟨List.append_nil run, rfl⟩

/-- **Runs are self-delimiting.** -/
theorem run_append_inj {kind : Char → Bool} {run run' rest rest' : List Char}
    (hrun : ∀ c ∈ run, kind c = true) (hrun' : ∀ c ∈ run', kind c = true)
    (hrest : Ends kind rest) (hrest' : Ends kind rest') (h : run ++ rest = run' ++ rest') :
    run = run' ∧ rest = rest' := by
  obtain ⟨htake, hdrop⟩ := cut_run hrun hrest
  obtain ⟨htake', hdrop'⟩ := cut_run hrun' hrest'
  rw [h] at htake hdrop
  exact ⟨htake.symm.trans htake', hdrop.symm.trans hdrop'⟩

/-! ## Digits -/

/-- Different numbers under sixteen have different digits. -/
lemma digitChar_inj {m n : Nat} (hm : m < 16) (hn : n < 16)
    (h : Nat.digitChar m = Nat.digitChar n) : m = n := by
  have hall : ∀ a b : Fin 16, Nat.digitChar a = Nat.digitChar b → a = b := by decide
  exact congrArg Fin.val (hall ⟨m, hm⟩ ⟨n, hn⟩ h)

/-- The characters of a number are digits. -/
lemma exists_of_mem_toDigits {b n : Nat} (hb : 1 < b) {c : Char} (h : c ∈ Nat.toDigits b n) :
    ∃ d, c = Nat.digitChar d := by
  induction n using Nat.strongRecOn with
  | ind n ih =>
    rw [Nat.toDigits_eq_if hb] at h
    split at h
    · exact ⟨n, List.mem_singleton.1 h⟩
    · rename_i hle
      have hlt : n / b < n := Nat.div_lt_self (by omega) hb
      rcases List.mem_append.1 h with h | h
      · exact ih _ hlt h
      · exact ⟨n % b, List.mem_singleton.1 h⟩

/-- **A number is told from its digits.**

**Proof sketch.** A number of one digit is that digit. For other numbers the last digit is the
remainder by the base, and the digits in front of it are those of the quotient, which is smaller. -/
theorem toDigits_inj {b m n : Nat} (hb : 1 < b) (hb' : b ≤ 16)
    (h : Nat.toDigits b m = Nat.toDigits b n) : m = n := by
  induction m using Nat.strongRecOn generalizing n with
  | ind m ih =>
    -- a number of more than one digit has digits in front of its last one
    have hlong : ∀ {k : Nat} {c d : Char}, [c] ≠ Nat.toDigits b k ++ [d] := by
      intro k c d hc
      have happend : [] ++ [c] = Nat.toDigits b k ++ [d] := hc
      exact Nat.toDigits_ne_nil (List.append_inj' happend rfl).1.symm
    rw [Nat.toDigits_eq_if hb, @Nat.toDigits_eq_if b n hb] at h
    split at h <;> split at h
    · exact digitChar_inj (by omega) (by omega) (List.singleton_inj.1 h)
    · exact absurd h hlong
    · exact absurd h.symm hlong
    · have hlt : m / b < m := Nat.div_lt_self (by omega) hb
      have hpos : 0 < b := by omega
      have hm := Nat.mod_lt m hpos
      have hn := Nat.mod_lt n hpos
      obtain ⟨hfront, hlast⟩ := List.append_inj' h rfl
      have hquot : m / b = n / b := ih _ hlt hfront
      have hrem : m % b = n % b :=
        digitChar_inj (by omega) (by omega) (List.singleton_inj.1 hlast)
      rw [← Nat.div_add_mod m b, hquot, hrem, Nat.div_add_mod]

/-- Numbers are self-delimiting in front of what is not a digit. -/
lemma decimal_append_inj {m n : Nat} {rest rest' : List Char} (hrest : Ends Char.isDigit rest)
    (hrest' : Ends Char.isDigit rest')
    (h : Nat.toDigits 10 m ++ rest = Nat.toDigits 10 n ++ rest') : m = n ∧ rest = rest' := by
  have hdigits : ∀ k, ∀ c ∈ Nat.toDigits 10 k, c.isDigit = true :=
    fun k c hc => Nat.isDigit_of_mem_toDigits (by decide) (by decide) hc
  obtain ⟨hsame, hrests⟩ := run_append_inj (hdigits m) (hdigits n) hrest hrest' h
  exact ⟨toDigits_inj (by decide) (by decide) hsame, hrests⟩

/-- The code points of characters are self-delimiting in front of a closing brace. -/
lemma hexDigits_append_inj {c d : Char} {rest rest' : List Char}
    (h : hexDigits c ++ '\x7d' :: rest = hexDigits d ++ '\x7d' :: rest') :
    c = d ∧ rest = rest' := by
  have hdigits : ∀ a : Char, ∀ x ∈ hexDigits a, (x != '\x7d') = true := by
    intro a x hx
    obtain ⟨k, rfl⟩ := exists_of_mem_toDigits (by decide) hx
    simp
  obtain ⟨hsame, hrests⟩ := run_append_inj (hdigits c) (hdigits d) (ends_cons (by decide) rest)
    (ends_cons (by decide) rest') h
  have hcode : c.toNat = d.toNat := toDigits_inj (by decide) (by decide) hsame
  exact ⟨Char.toNat_inj.1 hcode, (List.cons.inj hrests).2⟩

/-! ## Escapes -/

/-- What a letter stands for behind a backslash. -/
def meaning : Char → Option Char
  | '"' => some '"'
  | '\\' => some '\\'
  | '0' => some '\x00'
  | 't' => some '\t'
  | 'n' => some '\n'
  | 'r' => some '\r'
  | _ => none

/-- A character is written as a backslash and a letter that stands for it, by its code point, or as
it is, if it is neither a backslash nor a quote. -/
lemma escape_cases (c : Char) :
    (∃ x, escape c = ['\\', x] ∧ meaning x = some c) ∨
      escape c = ['\\', 'u', '\x7b'] ++ hexDigits c ++ ['\x7d'] ∨
      escape c = [c] ∧ c ≠ '\\' ∧ c ≠ '"' := by
  by_cases hquote : c = '"'
  · subst hquote
    exact .inl ⟨'"', rfl, rfl⟩
  by_cases hslash : c = '\\'
  · subst hslash
    exact .inl ⟨'\\', rfl, rfl⟩
  by_cases hzero : c = '\x00'
  · subst hzero
    exact .inl ⟨'0', rfl, rfl⟩
  by_cases htab : c = '\t'
  · subst htab
    exact .inl ⟨'t', rfl, rfl⟩
  by_cases hnewline : c = '\n'
  · subst hnewline
    exact .inl ⟨'n', rfl, rfl⟩
  by_cases hreturn : c = '\r'
  · subst hreturn
    exact .inl ⟨'r', rfl, rfl⟩
  right
  simp only [escape, hquote, hslash, hzero, htab, hnewline, hreturn, if_false]
  split
  · exact .inl rfl
  · exact .inr ⟨rfl, hslash, hquote⟩

/-- No escaped character begins with a quote. -/
lemma escape_append_ne (c : Char) (rest rest' : List Char) : escape c ++ rest ≠ '"' :: rest' := by
  intro h
  rcases escape_cases c with ⟨x, hc, -⟩ | hc | ⟨hc, -, hquote⟩
  · rw [hc] at h
    exact absurd (List.cons.inj h).1 (by decide)
  · rw [hc] at h
    exact absurd (List.cons.inj h).1 (by decide)
  · rw [hc] at h
    exact hquote (List.cons.inj h).1

/-- **Escaped characters are self-delimiting.**

**Proof sketch.** Each of the three ways of writing a character is told from the others by its
first two characters: a backslash and a letter with a meaning, a backslash and an `u`, which has
none, or no backslash. -/
theorem escape_append_inj {c d : Char} {rest rest' : List Char}
    (h : escape c ++ rest = escape d ++ rest') : c = d ∧ rest = rest' := by
  have hnone : meaning 'u' = none := rfl
  rcases escape_cases c with ⟨x, hc, hx⟩ | hc | ⟨hc, hslash, -⟩ <;>
    rcases escape_cases d with ⟨y, hd, hy⟩ | hd | ⟨hd, hslash', -⟩ <;>
    simp only [hc, hd, List.cons_append, List.nil_append, List.append_assoc, List.cons.injEq,
      true_and] at h
  · obtain ⟨rfl, hrest⟩ := h
    exact ⟨Option.some.inj (hx.symm.trans hy), hrest⟩
  · simp [h.1, hnone] at hx
  · exact absurd h.1.symm hslash'
  · simp [← h.1, hnone] at hy
  · exact hexDigits_append_inj h
  · exact absurd h.1.symm hslash'
  · exact absurd h.1 hslash
  · exact absurd h.1 hslash
  · exact h

/-! ## Quoted texts -/

/-- Escaped texts are self-delimiting in front of a quote. -/
lemma escapes_append_inj {cs ds rest rest' : List Char}
    (h : cs.flatMap escape ++ '"' :: rest = ds.flatMap escape ++ '"' :: rest') :
    cs = ds ∧ rest = rest' := by
  induction cs generalizing ds with
  | nil =>
    cases ds with
    | nil => exact ⟨rfl, (List.cons.inj h).2⟩
    | cons d ds =>
      -- one text ends with a quote where the other one goes on with a character
      rw [List.flatMap_cons, List.append_assoc] at h
      exact absurd h.symm (escape_append_ne _ _ _)
  | cons c cs ih =>
    rw [List.flatMap_cons, List.append_assoc] at h
    cases ds with
    | nil => exact absurd h (escape_append_ne _ _ _)
    | cons d ds =>
      rw [List.flatMap_cons, List.append_assoc] at h
      obtain ⟨rfl, hrest⟩ := escape_append_inj h
      obtain ⟨rfl, hrests⟩ := ih hrest
      exact ⟨rfl, hrests⟩

/-- **Quoted texts are self-delimiting.** -/
theorem quote_append_inj {s s' : String} {rest rest' : List Char}
    (h : quote s ++ rest = quote s' ++ rest') : s = s' ∧ rest = rest' := by
  simp only [quote, List.append_assoc, List.cons_append, List.nil_append, List.cons.injEq,
    true_and] at h
  obtain ⟨hsame, hrests⟩ := escapes_append_inj h
  exact ⟨String.toList_inj.1 hsame, hrests⟩

end LexicalScope.Text
