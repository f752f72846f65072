import Mathlib.Data.List.Basic
import LexicalScope.Proofs.Text.Layout

set_option autoImplicit false

/-!
# Written trees

A tree can be told from its text, in either layout and at any depth, if the names in it are
identifiers: its first character tells whether it is a number, a text, a list or has a name, what
stands behind the name tells what it has in it, and these items are told apart by induction.

## Main definitions

* `LexicalScope.Text.isIdentifier` — the names that a tree may have in it.
* `LexicalScope.Text.Tree.IsPlain` — the trees whose names are identifiers.
* `LexicalScope.Text.Tree.mark`, `LexicalScope.Text.markOf` — the kind of a tree, and the kind that
  a text tells.

## Main results

* `LexicalScope.Text.Tree.IsPlain.markOf_write` — the text of a plain tree tells its kind.
* `LexicalScope.Text.Tree.IsPlain.selfDelimiting` — plain trees are self-delimiting.
* `LexicalScope.Text.Tree.IsPlain.render_inj` — a plain tree is told from its text.
-/

namespace LexicalScope.Text

/-! ## Names -/

/-- The characters that a name consists of. -/
def isNameChar (c : Char) : Bool :=
  c.isAlphanum || c == '_'

/-- Whether a text is an identifier: it consists of letters, digits and underscores, and does not
begin with a digit. -/
def isIdentifier (s : String) : Bool :=
  s.toList.all isNameChar && s.toList.head?.any fun c => !c.isDigit

/-- Identifiers are self-delimiting in front of what is no character of a name. -/
lemma identifier_append_inj {s s' : String} (hs : isIdentifier s = true)
    (hs' : isIdentifier s' = true) {rest rest' : List Char} (hrest : Ends isNameChar rest)
    (hrest' : Ends isNameChar rest') (h : s.toList ++ rest = s'.toList ++ rest') :
    s = s' ∧ rest = rest' := by
  obtain ⟨hchars, -⟩ := Bool.and_eq_true_iff.1 hs
  obtain ⟨hchars', -⟩ := Bool.and_eq_true_iff.1 hs'
  obtain ⟨hsame, hrests⟩ := run_append_inj (List.all_eq_true.1 hchars)
    (List.all_eq_true.1 hchars') hrest hrest' h
  exact ⟨String.toList_inj.1 hsame, hrests⟩

/-- Identifiers are self-delimiting in front of a separator. -/
lemma identifier_cons_inj {s s' : String} (hs : isIdentifier s = true)
    (hs' : isIdentifier s' = true) {c : Char} (hc : isNameChar c = false) {rest rest' : List Char}
    (h : s.toList ++ c :: rest = s'.toList ++ c :: rest') : s = s' ∧ rest = rest' := by
  obtain ⟨hsame, hrests⟩ :=
    identifier_append_inj hs hs' (ends_cons hc rest) (ends_cons hc rest') h
  exact ⟨hsame, (List.cons.inj hrests).2⟩

/-! ## Marks -/

/-- The kinds of trees. -/
inductive Mark where
  /-- A number. -/
  | number
  /-- A text. -/
  | quoted
  /-- The value that carries no information. -/
  | unit
  /-- A constructor without arguments. -/
  | leaf
  /-- A constructor with arguments. -/
  | node
  /-- A record. -/
  | record
  /-- A list. -/
  | list
deriving DecidableEq

/-- The kind of a tree of which the text behind its name is given. -/
def markOfBody : List Char → Mark
  | '(' :: _ => .node
  | ' ' :: '\x7b' :: _ => .record
  | _ => .leaf

/-- The kind of tree that a text begins with. -/
def markOf : List Char → Option Mark
  | [] => none
  | c :: text =>
    if c.isDigit then some .number
    else if isNameChar c then some (markOfBody ((c :: text).dropWhile isNameChar))
    else if c = '"' then some .quoted
    else if c = '(' then some .unit
    else if c = '[' then some .list
    else none

namespace Tree

/-- The kind of a tree. -/
def mark : Tree → Mark
  | number _ => .number
  | quoted _ => .quoted
  | unit => .unit
  | node _ [] => .leaf
  | node _ (_ :: _) => .node
  | record _ _ => .record
  | list _ => .list

/-- The trees whose names are identifiers. A record has at least one field. -/
inductive IsPlain : Tree → Prop where
  /-- A number. -/
  | number (n : Nat) : IsPlain (number n)
  /-- A text. -/
  | quoted (text : String) : IsPlain (quoted text)
  /-- The value that carries no information. -/
  | unit : IsPlain unit
  /-- A constructor without arguments. -/
  | leaf {name : String} (hname : isIdentifier name = true) : IsPlain (leaf name)
  /-- A constructor with arguments. -/
  | node {name : String} {a : Tree} {as : List Tree} (hname : isIdentifier name = true)
      (hitems : ∀ t ∈ a :: as, IsPlain t) : IsPlain (node name (a :: as))
  /-- A record. -/
  | record {name : String} {f : String × Tree} {fs : List (String × Tree)}
      (hname : isIdentifier name = true) (hnames : ∀ g ∈ f :: fs, isIdentifier g.1 = true)
      (hitems : ∀ g ∈ f :: fs, IsPlain g.2) : IsPlain (record name (f :: fs))
  /-- A list. -/
  | list {items : List Tree} (hitems : ∀ t ∈ items, IsPlain t) : IsPlain (list items)

/-- A record is plain if its name and the names of its fields are identifiers, and its values are
plain. -/
lemma isPlain_record {name : String} {f : String × Tree} {fs : List (String × Tree)}
    (names : List String) (hfields : (f :: fs).map Prod.fst = names)
    (hnames : (name :: names).all isIdentifier = true) (hitems : ∀ g ∈ f :: fs, IsPlain g.2) :
    IsPlain (record name (f :: fs)) := by
  subst hfields
  obtain ⟨hname, hnames⟩ := List.forall_mem_cons.1 (List.all_eq_true.1 hnames)
  exact .record hname (fun g hg => hnames g.1 (List.mem_map_of_mem hg)) hitems

/-! ## Texts -/

/-- The text of a field. -/
def writeField (l : Layout) (depth : Nat) (f : String × Tree) : List Char :=
  f.1.toList ++ (':' :: ' ' :: f.2.write l depth)

/-- The texts of the items are those of each by itself. -/
lemma writeItems_eq_map (l : Layout) (depth : Nat) (ts : List Tree) :
    writeItems l depth ts = ts.map (write l depth) := by
  induction ts with
  | nil => rfl
  | cons t ts ih => rw [writeItems, ih, List.map_cons]

/-- The texts of the fields are those of each by itself. -/
lemma writeFields_eq_map (l : Layout) (depth : Nat) (fields : List (String × Tree)) :
    writeFields l depth fields = fields.map (writeField l depth) := by
  induction fields with
  | nil => rfl
  | cons f fields ih =>
    rw [writeFields, ih, List.map_cons, writeField, List.append_assoc]
    rfl

/-- The text of a constructor with arguments: its name, and a block between round brackets. -/
lemma write_node (l : Layout) (depth : Nat) (name : String) (a : Tree) (as : List Tree) :
    (node name (a :: as)).write l depth =
      name.toList ++
        ('(' :: l.block depth [] [] [')'] ((a :: as).map (write l (depth + 1)))) := by
  rw [write, writeItems_eq_map, ← List.map_cons, Layout.block_opening, List.append_assoc]
  rfl

/-- The text of a record: its name, and a block between braces. -/
lemma write_record (l : Layout) (depth : Nat) (name : String) (fields : List (String × Tree)) :
    (record name fields).write l depth =
      name.toList ++
        (' ' :: '\x7b' ::
          l.block depth [' '] [] ['\x7d'] (fields.map (writeField l (depth + 1)))) := by
  rw [write, writeFields_eq_map, Layout.block_opening, List.append_assoc]
  rfl

/-- The text of a list: a block between square brackets. -/
lemma write_list (l : Layout) (depth : Nat) (items : List Tree) :
    (list items).write l depth =
      l.blockOrEmpty depth ['['] [']'] (items.map (write l (depth + 1))) := by
  rw [write, writeItems_eq_map]

variable {t u : Tree} {l : Layout} {depth : Nat} {rest rest' : List Char}

/-- The kind of a tree that has a name is told from what stands behind the name. -/
lemma markOf_identifier {name : String} (hname : isIdentifier name = true)
    (hrest : Ends isNameChar rest) :
    markOf (name.toList ++ rest) = some (markOfBody rest) := by
  obtain ⟨hchars, hhead⟩ := Bool.and_eq_true_iff.1 hname
  have hdrop := (cut_run (List.all_eq_true.1 hchars) hrest).2
  cases hcons : name.toList with
  | nil => simp [hcons] at hhead
  | cons c cs =>
    have hdigit : c.isDigit = false := by simpa [hcons] using hhead
    have hchar : isNameChar c = true := List.all_eq_true.1 hchars c (hcons ▸ List.mem_cons_self)
    rw [hcons, List.cons_append] at hdrop
    rw [List.cons_append, markOf, hdigit, hchar, hdrop]
    rfl

/-- **The text of a plain tree tells its kind.** -/
lemma IsPlain.markOf_write (ht : t.IsPlain) (l : Layout) (depth : Nat) (hrest : Delimited rest) :
    markOf (t.write l depth ++ rest) = some t.mark := by
  cases ht with
  | number n =>
    cases hcons : Nat.toDigits 10 n with
    | nil => exact absurd hcons Nat.toDigits_ne_nil
    | cons c cs =>
      have hdigit : c.isDigit = true :=
        Nat.isDigit_of_mem_toDigits (by decide) (by decide) (hcons ▸ List.mem_cons_self)
      rw [write, hcons, List.cons_append, markOf, hdigit]
      rfl
  | quoted text => rfl
  | unit => rfl
  | leaf hname =>
    -- neither arguments nor fields begin like a delimited rest
    have hbody : markOfBody rest = .leaf := by cases hrest <;> rfl
    have hmark := markOf_identifier hname (hrest.ends (by decide))
    rw [hbody] at hmark
    exact hmark
  | node hname =>
    rw [write_node, List.append_assoc, List.cons_append,
      markOf_identifier hname (ends_cons (by decide) _)]
    rfl
  | record hname =>
    rw [write_record, List.append_assoc, List.cons_append,
      markOf_identifier hname (ends_cons (by decide) _)]
    rfl
  | @list items =>
    rw [write_list]
    cases items with
    | nil => rfl
    | cons t ts =>
      rw [List.map_cons, Layout.blockOrEmpty, Layout.block_opening, List.append_assoc]
      · rfl
      · simp

/-- Plain trees with the same text are of the same kind. -/
lemma IsPlain.mark_eq (ht : t.IsPlain) (hu : u.IsPlain) (hrest : Delimited rest)
    (hrest' : Delimited rest') (h : t.write l depth ++ rest = u.write l depth ++ rest') :
    t.mark = u.mark := by
  have hmark := ht.markOf_write l depth hrest
  rw [h, hu.markOf_write l depth hrest'] at hmark
  exact (Option.some.inj hmark).symm

/-- No plain tree begins with a closing bracket. -/
lemma IsPlain.write_append_ne (ht : t.IsPlain) (l : Layout) (depth : Nat) (u v : List Char)
    (hu : Delimited u) : t.write l depth ++ u ≠ ']' :: v := by
  intro h
  have hmark := ht.markOf_write l depth hu
  rw [h] at hmark
  cases hmark

/-! ## Trees are told from what follows -/

/-- A field is self-delimiting if its value is. -/
lemma selfDelimiting_writeField {f : String × Tree} (hname : isIdentifier f.1 = true)
    (hvalue : SelfDelimiting (write l depth) IsPlain f.2) :
    SelfDelimiting (writeField l depth) (fun g => isIdentifier g.1 = true ∧ g.2.IsPlain) f := by
  intro g hg rest rest' hrest hrest' h
  simp only [writeField, List.append_assoc, List.cons_append] at h
  obtain ⟨hnames, hvalues⟩ := identifier_cons_inj hname hg.1 (by decide) h
  obtain ⟨hsame, hrests⟩ := hvalue hg.2 hrest hrest' (List.cons.inj hvalues).2
  exact ⟨Prod.ext hnames hsame, hrests⟩

/-- A constructor is self-delimiting if its arguments are. -/
lemma selfDelimiting_node {name : String} {a : Tree} {as : List Tree}
    (hname : isIdentifier name = true) (hplain : ∀ t ∈ a :: as, t.IsPlain)
    (hitems : ∀ t ∈ a :: as, SelfDelimiting (write l (depth + 1)) IsPlain t) :
    SelfDelimiting (write l depth) IsPlain (node name (a :: as)) := by
  intro u hu rest rest' hrest hrest' h
  have hmark := (IsPlain.node hname hplain).mark_eq hu hrest hrest' h
  cases hu with
  | @node name' b bs hname' hplain' =>
    simp only [write_node, List.append_assoc, List.cons_append] at h
    obtain ⟨rfl, hblocks⟩ := identifier_cons_inj hname hname' (by decide) h
    obtain ⟨hsame, hrests⟩ := Layout.block_append_inj l depth .paren [] hitems hplain'
      (List.cons_ne_nil a as) (List.cons_ne_nil b bs) hblocks
    rw [hsame]
    exact ⟨rfl, hrests⟩
  | _ => cases hmark

/-- A record is self-delimiting if its values are. -/
lemma selfDelimiting_record {name : String} {f : String × Tree} {fs : List (String × Tree)}
    (hname : isIdentifier name = true) (hnames : ∀ g ∈ f :: fs, isIdentifier g.1 = true)
    (hplain : ∀ g ∈ f :: fs, g.2.IsPlain)
    (hitems : ∀ g ∈ f :: fs, SelfDelimiting (write l (depth + 1)) IsPlain g.2) :
    SelfDelimiting (write l depth) IsPlain (record name (f :: fs)) := by
  intro u hu rest rest' hrest hrest' h
  have hmark := (IsPlain.record hname hnames hplain).mark_eq hu hrest hrest' h
  cases hu with
  | @record name' g gs hname' hnames' hplain' =>
    have hfields : ∀ x ∈ f :: fs, SelfDelimiting (writeField l (depth + 1))
        (fun y => isIdentifier y.1 = true ∧ y.2.IsPlain) x :=
      fun x hx => selfDelimiting_writeField (hnames x hx) (hitems x hx)
    simp only [write_record, List.append_assoc, List.cons_append] at h
    obtain ⟨rfl, hbraces⟩ := identifier_cons_inj hname hname' (by decide) h
    obtain ⟨hsame, hrests⟩ := Layout.block_append_inj l depth .brace [] hfields
      (fun y hy => ⟨hnames' y hy, hplain' y hy⟩) (List.cons_ne_nil f fs) (List.cons_ne_nil g gs)
      (List.cons.inj hbraces).2
    rw [hsame]
    exact ⟨rfl, hrests⟩
  | _ => cases hmark

/-- A list is self-delimiting if its items are. -/
lemma selfDelimiting_list {items : List Tree} (hplain : ∀ t ∈ items, t.IsPlain)
    (hitems : ∀ t ∈ items, SelfDelimiting (write l (depth + 1)) IsPlain t) :
    SelfDelimiting (write l depth) IsPlain (list items) := by
  intro u hu rest rest' hrest hrest' h
  have hmark := (IsPlain.list hplain).mark_eq hu hrest hrest' h
  cases hu with
  | list hplain' =>
    simp only [write_list] at h
    obtain ⟨rfl, hrests⟩ := Layout.blockOrEmpty_append_inj l depth ['['] hitems hplain'
      (fun t ht => (hplain t ht).write_append_ne l (depth + 1))
      (fun t ht => (hplain' t ht).write_append_ne l (depth + 1)) h
    exact ⟨rfl, hrests⟩
  | _ => cases hmark

/-- **Plain trees are self-delimiting**, in either layout and at any depth.

**Proof sketch.** Induction on the tree. A tree with the same text is of the same kind. Numbers,
texts and names are self-delimiting. Behind a name, and in a list, stands a block of items, which
are self-delimiting by induction. -/
theorem IsPlain.selfDelimiting (ht : t.IsPlain) (l : Layout) (depth : Nat) :
    SelfDelimiting (write l depth) IsPlain t := by
  induction ht generalizing depth with
  | number n =>
    intro u hu rest rest' hrest hrest' h
    have hmark := (IsPlain.number n).mark_eq hu hrest hrest' h
    cases hu with
    | number m =>
      obtain ⟨rfl, hrests⟩ :=
        decimal_append_inj (hrest.ends (by decide)) (hrest'.ends (by decide)) h
      exact ⟨rfl, hrests⟩
    | _ => cases hmark
  | quoted text =>
    intro u hu rest rest' hrest hrest' h
    have hmark := (IsPlain.quoted text).mark_eq hu hrest hrest' h
    cases hu with
    | quoted text' =>
      obtain ⟨rfl, hrests⟩ := quote_append_inj h
      exact ⟨rfl, hrests⟩
    | _ => cases hmark
  | unit =>
    intro u hu rest rest' hrest hrest' h
    have hmark := IsPlain.unit.mark_eq hu hrest hrest' h
    cases hu with
    | unit => exact ⟨rfl, List.append_cancel_left h⟩
    | _ => cases hmark
  | leaf hname =>
    intro u hu rest rest' hrest hrest' h
    have hmark := (IsPlain.leaf hname).mark_eq hu hrest hrest' h
    cases hu with
    | leaf hname' =>
      obtain ⟨rfl, hrests⟩ := identifier_append_inj hname hname' (hrest.ends (by decide))
        (hrest'.ends (by decide)) h
      exact ⟨rfl, hrests⟩
    | _ => cases hmark
  | node hname hplain ih =>
    exact selfDelimiting_node hname hplain fun t ht => ih t ht (depth + 1)
  | record hname hnames hplain ih =>
    exact selfDelimiting_record hname hnames hplain fun g hg => ih g hg (depth + 1)
  | list hplain ih => exact selfDelimiting_list hplain fun t ht => ih t ht (depth + 1)

/-- **A plain tree is told from its text.** -/
theorem IsPlain.render_inj (ht : t.IsPlain) (hu : u.IsPlain) (l : Layout)
    (h : t.render l = u.render l) : t = u := by
  have htext : t.write l 0 ++ [] = u.write l 0 ++ [] := by
    rw [← toList_render, h, toList_render]
  exact (ht.selfDelimiting l 0 hu .nil .nil htext).1

end Tree

end LexicalScope.Text
