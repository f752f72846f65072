import Mathlib.Data.List.Basic
import LexicalScope.Proofs.Text.Quoted
import LexicalScope.Text.Tree

set_option autoImplicit false

/-!
# Blocks of items

In both layouts a block reads in the same way: its items stand between a lead and an ending, with
the same gap in front of each item but the first. The gap and the ending cannot be mistaken for one
another, in one line because of their first characters, and in indented lines because an item
stands further in than what closes its block. So if the items are self-delimiting, blocks of them
are.

## Main definitions

* `LexicalScope.Text.Delimited` — the rests that may follow a written value.
* `LexicalScope.Text.SelfDelimiting` — a written value is told from delimited rests.
* `LexicalScope.Text.Layout.Closes` — the paddings and closings that blocks are written with.
* `LexicalScope.Text.Layout.lead`, `LexicalScope.Text.Layout.gap`, `LexicalScope.Text.Layout.ending`
  — what stands before, between and behind the items of a block.
* `LexicalScope.Text.Layout.sequel` — what stands behind the first item.

## Main results

* `LexicalScope.Text.Layout.block_cons` — a block reads the same in both layouts.
* `LexicalScope.Text.Layout.block_append_inj`, `LexicalScope.Text.Layout.blockOrEmpty_append_inj` —
  blocks of self-delimiting items are self-delimiting.
-/

namespace LexicalScope.Text

/-! ## Values before a delimiter -/

/-- The rests that may follow a written value: none, or one that begins with a comma, or with the
end of what the value is written in. -/
inductive Delimited : List Char → Prop where
  /-- The value stands last. -/
  | nil : Delimited []
  /-- Another item follows, or the line ends. -/
  | comma (rest : List Char) : Delimited (',' :: rest)
  /-- The arguments of a constructor end. -/
  | paren (rest : List Char) : Delimited (')' :: rest)
  /-- A list ends. -/
  | bracket (rest : List Char) : Delimited (']' :: rest)
  /-- The fields of a record end. -/
  | brace (rest : List Char) : Delimited (' ' :: '\x7d' :: rest)

/-- A run of characters that are no delimiters ends before a delimited rest. -/
lemma Delimited.ends {rest : List Char} (h : Delimited rest) {kind : Char → Bool}
    (hkind : [',', ')', ']', ' '].any kind = false) : Ends kind rest := by
  have hnot : ∀ c ∈ [',', ')', ']', ' '], kind c = false := by
    intro c hc
    simpa using List.any_eq_false.1 hkind c hc
  cases h with
  | nil => simp [Ends]
  | comma rest => exact ends_cons (hnot _ (by simp)) rest
  | paren rest => exact ends_cons (hnot _ (by simp)) rest
  | bracket rest => exact ends_cons (hnot _ (by simp)) rest
  | brace rest => exact ends_cons (hnot _ (by simp)) _

/-- In front of delimited rests, the value `x` is told from all values that are `good`, and the rest
is told from the text of the value. -/
def SelfDelimiting {α : Type} (write : α → List Char) (good : α → Prop) (x : α) : Prop :=
  ∀ ⦃y⦄, good y → ∀ ⦃rest rest'⦄, Delimited rest → Delimited rest' →
    write x ++ rest = write y ++ rest' → x = y ∧ rest = rest'

namespace Layout

/-! ## The parts of a block -/

/-- The paddings and closings that blocks are written with. -/
inductive Closes : List Char → List Char → Prop where
  /-- The closing of arguments. -/
  | paren : Closes [] [')']
  /-- The closing of a list. -/
  | bracket : Closes [] [']']
  /-- The closing of fields, which are padded. -/
  | brace : Closes [' '] ['\x7d']

/-- What stands between the opening of a block and its first item. -/
def lead (l : Layout) (depth : Nat) (padding : List Char) : List Char :=
  match l with
  | compact => padding
  | indented => '\n' :: margin (depth + 1)

/-- What stands between two items of a block. -/
def gap (l : Layout) (depth : Nat) : List Char :=
  match l with
  | compact => [',', ' ']
  | indented => ',' :: '\n' :: margin (depth + 1)

/-- What stands behind the last item of a block. -/
def ending (l : Layout) (depth : Nat) (padding closing : List Char) : List Char :=
  match l with
  | compact => padding ++ closing
  | indented => ',' :: '\n' :: (margin depth ++ closing)

/-- What stands behind the first item of a block: the other items, and the ending. -/
def sequel (l : Layout) (depth : Nat) (padding closing : List Char) (items : List (List Char)) :
    List Char :=
  (items.flatMap fun i => l.gap depth ++ i) ++ l.ending depth padding closing

/-- Behind the only item stands the ending. -/
lemma sequel_nil (l : Layout) (depth : Nat) (padding closing : List Char) :
    l.sequel depth padding closing [] = l.ending depth padding closing := rfl

/-- Behind an item that is not the last stand a gap and the next item. -/
lemma sequel_cons (l : Layout) (depth : Nat) (padding closing item : List Char)
    (items : List (List Char)) :
    l.sequel depth padding closing (item :: items) =
      l.gap depth ++ (item ++ l.sequel depth padding closing items) := by
  rw [sequel, List.flatMap_cons, List.append_assoc, List.append_assoc, sequel]

/-- Behind the first item, each item has the separator in front. -/
lemma intercalate_cons (separator item : List Char) (items : List (List Char)) :
    separator.intercalate (item :: items) = item ++ items.flatMap fun i => separator ++ i := by
  induction items generalizing item with
  | nil => rw [List.intercalate_singleton, List.flatMap_nil, List.append_nil]
  | cons i items ih =>
    rw [List.intercalate_cons_cons, ih, List.flatMap_cons, List.append_assoc, List.append_assoc]

/-- Lines that are each set between the same texts are set apart by these texts. -/
lemma flatten_lines (front back item rest : List Char) (items : List (List Char)) :
    ((item :: items).map fun i => front ++ i ++ back).flatten ++ rest =
      front ++ (item ++ ((items.flatMap fun i => back ++ front ++ i) ++ (back ++ rest))) := by
  induction items generalizing item with
  | nil => simp
  | cons i items ih =>
    rw [List.map_cons, List.flatten_cons, List.append_assoc, ih, List.flatMap_cons]
    simp only [List.append_assoc]

/-- A block that has a first item, in either layout. -/
theorem block_cons (l : Layout) (depth : Nat) (padding opening closing item : List Char)
    (items : List (List Char)) :
    l.block depth padding opening closing (item :: items) =
      opening ++ (l.lead depth padding ++ (item ++ l.sequel depth padding closing items)) := by
  cases l with
  | compact =>
    simp only [block, lead, sequel, gap, ending, intercalate_cons, List.append_assoc]
  | indented =>
    rw [block, List.append_assoc, List.append_assoc, flatten_lines, List.append_assoc]
    rfl

/-- The opening of a block stands in front of all else. -/
lemma block_opening (l : Layout) (depth : Nat) (padding opening closing : List Char)
    (items : List (List Char)) :
    l.block depth padding opening closing items =
      opening ++ l.block depth padding [] closing items := by
  cases l <;> simp only [block, List.append_assoc, List.nil_append]

/-! ## Items are told from what follows -/

/-- Behind the first item of a block stands a delimiter. -/
lemma Closes.delimited {padding closing : List Char} (h : Closes padding closing) (l : Layout)
    (depth : Nat) (items : List (List Char)) (rest : List Char) :
    Delimited (l.sequel depth padding closing items ++ rest) := by
  cases l with
  | indented =>
    cases items with
    | nil => exact .comma _
    | cons i items => exact .comma _
  | compact =>
    cases items with
    | cons i items => exact .comma _
    | nil =>
      cases h with
      | paren => exact .paren _
      | bracket => exact .bracket _
      | brace => exact .brace _

/-- A gap is no ending.

**Proof sketch.** In one line, an ending does not begin with a comma. In indented lines, what closes
a block stands less far in than an item, and is not blank. -/
lemma Closes.gap_append_ne {padding closing : List Char} (h : Closes padding closing) (l : Layout)
    (depth : Nat) (rest rest' : List Char) :
    l.gap depth ++ rest ≠ l.ending depth padding closing ++ rest' := by
  intro heq
  cases l with
  | compact =>
    have hcomma := congrArg List.head? heq
    cases h <;> simp [gap, ending] at hcomma
  | indented =>
    -- behind the margin of the block, the line of an item goes on with blanks
    have hmargin : margin (depth + 1) = margin depth ++ List.replicate 4 ' ' := by
      rw [margin, margin, List.replicate_append_replicate]
      rfl
    simp only [gap, ending, hmargin, List.cons_append, List.append_assoc, List.cons.injEq,
      true_and] at heq
    have hblank := congrArg List.head? (List.append_cancel_left heq)
    cases h <;> simp [List.replicate_succ] at hblank

variable {α : Type} {write : α → List Char} {good : α → Prop} {padding closing : List Char}
  {xs ys : List α} {rest rest' : List Char}

/-- **What follows the first item of a block is self-delimiting** if the items are.

**Proof sketch.** Induction on the items of the one block. Where the one block ends, so does the
other, since no gap is an ending; otherwise both go on with an item, which is told from what follows
since that is delimited. -/
theorem sequel_append_inj (l : Layout) (depth : Nat) (hcloses : Closes padding closing)
    (hxs : ∀ x ∈ xs, SelfDelimiting write good x) (hys : ∀ y ∈ ys, good y)
    (h : l.sequel depth padding closing (xs.map write) ++ rest =
      l.sequel depth padding closing (ys.map write) ++ rest') : xs = ys ∧ rest = rest' := by
  induction xs generalizing ys with
  | nil =>
    cases ys with
    | nil => exact ⟨rfl, List.append_cancel_left h⟩
    | cons y ys =>
      rw [List.map_nil, List.map_cons, sequel_nil, sequel_cons, List.append_assoc] at h
      exact absurd h.symm (hcloses.gap_append_ne l depth _ _)
  | cons x xs ih =>
    rw [List.map_cons, sequel_cons, List.append_assoc, List.append_assoc] at h
    cases ys with
    | nil =>
      rw [List.map_nil, sequel_nil] at h
      exact absurd h (hcloses.gap_append_ne l depth _ _)
    | cons y ys =>
      rw [List.map_cons, sequel_cons, List.append_assoc, List.append_assoc] at h
      obtain ⟨hx, hrestx⟩ := List.forall_mem_cons.1 hxs
      obtain ⟨hy, hresty⟩ := List.forall_mem_cons.1 hys
      obtain ⟨hsame, hsequel⟩ := hx hy (hcloses.delimited l depth _ _)
        (hcloses.delimited l depth _ _) (List.append_cancel_left h)
      obtain ⟨hsames, hrest⟩ := ih hrestx hresty hsequel
      exact ⟨List.cons_eq_cons.2 ⟨hsame, hsames⟩, hrest⟩

/-- **Blocks are self-delimiting** if their items are, and if there are items. -/
theorem block_append_inj (l : Layout) (depth : Nat) (hcloses : Closes padding closing)
    (opening : List Char) (hxs : ∀ x ∈ xs, SelfDelimiting write good x) (hys : ∀ y ∈ ys, good y)
    (hxne : xs ≠ []) (hyne : ys ≠ [])
    (h : l.block depth padding opening closing (xs.map write) ++ rest =
      l.block depth padding opening closing (ys.map write) ++ rest') : xs = ys ∧ rest = rest' := by
  obtain ⟨x, xs, rfl⟩ := List.exists_cons_of_ne_nil hxne
  obtain ⟨y, ys, rfl⟩ := List.exists_cons_of_ne_nil hyne
  simp only [List.map_cons, block_cons, List.append_assoc] at h
  have hitems := List.append_cancel_left (List.append_cancel_left h)
  -- with a gap in front, what the blocks have in them is what would follow another item
  apply sequel_append_inj l depth hcloses hxs hys
  simp only [List.map_cons, sequel_cons, List.append_assoc, hitems]

/-- A list that has an item, and whose items do not begin with a closing bracket, is not the empty
list. -/
lemma block_append_ne (l : Layout) (depth : Nat) (opening : List Char) (hxne : xs ≠ [])
    (hxhead : ∀ x ∈ xs, ∀ u v, Delimited u → write x ++ u ≠ ']' :: v) :
    l.block depth [] opening [']'] (xs.map write) ++ rest ≠ opening ++ [']'] ++ rest' := by
  intro h
  obtain ⟨x, xs, rfl⟩ := List.exists_cons_of_ne_nil hxne
  simp only [List.map_cons, block_cons, List.append_assoc] at h
  have hitems := List.append_cancel_left h
  cases l with
  | compact => exact hxhead x List.mem_cons_self _ _ (Closes.bracket.delimited _ _ _ _) hitems
  | indented => exact absurd (List.cons.inj hitems).1 (by decide)

/-- **Lists are self-delimiting** if their items are, and if no item begins with a closing
bracket. -/
theorem blockOrEmpty_append_inj (l : Layout) (depth : Nat) (opening : List Char)
    (hxs : ∀ x ∈ xs, SelfDelimiting write good x) (hys : ∀ y ∈ ys, good y)
    (hxhead : ∀ x ∈ xs, ∀ u v, Delimited u → write x ++ u ≠ ']' :: v)
    (hyhead : ∀ y ∈ ys, ∀ u v, Delimited u → write y ++ u ≠ ']' :: v)
    (h : l.blockOrEmpty depth opening [']'] (xs.map write) ++ rest =
      l.blockOrEmpty depth opening [']'] (ys.map write) ++ rest') : xs = ys ∧ rest = rest' := by
  cases xs with
  | nil =>
    cases ys with
    | nil => exact ⟨rfl, List.append_cancel_left h⟩
    | cons y ys =>
      exact absurd h.symm (block_append_ne l depth opening (List.cons_ne_nil y ys) hyhead)
  | cons x xs =>
    have hxne := List.cons_ne_nil x xs
    cases ys with
    | nil => exact absurd h (block_append_ne l depth opening hxne hxhead)
    | cons y ys =>
      exact block_append_inj l depth .bracket opening hxs hys hxne (List.cons_ne_nil y ys) h

end Layout

end LexicalScope.Text
