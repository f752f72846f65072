import Mathlib.Data.List.Basic
import LexicalScope.Session.Basic
import LexicalScope.Proofs.Stack.Restrict
import LexicalScope.Proofs.Table.Edit

set_option autoImplicit false

/-!
# One name of a table

The restriction of a table to a name has the frames, the floor and the context of the table, and
of its bindings those of the name. Every operation either concerns another name, and is not seen
in the restriction, or can be carried out on it. Copies and write-backs between tables move the
bindings of each name on their own.

## Main definitions

* `LexicalScope.Table.restrict` — the table with the bindings of one name only.
* `LexicalScope.Edit.isForeign`, `LexicalScope.Query.isForeign` — edits of, and questions about,
  other names.
* `LexicalScope.Query.isCensus` — questions about all bindings.

## Main results

* `LexicalScope.Table.restrict_edited`, `LexicalScope.Table.replyTo_restrict`,
  `LexicalScope.Table.restrict_edited_of_isForeign` — edits.
* `LexicalScope.Table.restrict_insertAll`, `LexicalScope.Table.restrict_assignAll` — copies and
  write-backs.
* `LexicalScope.Child.restrict_close` — closing a child.
-/

namespace LexicalScope

/-- Whether an edit concerns a binding of another name. -/
def Edit.isForeign (name : String) : Edit → Bool
  | .insert other _ _ | .assign other _ | .erase other => other != name
  | .enter | .exit => false

/-- Whether a question is about another name. -/
def Query.isForeign (name : String) : Query → Bool
  | .resolve other | .resolveHere other => other != name
  | _ => false

/-- Whether a question is about bindings of all names. -/
def Query.isCensus : Query → Bool
  | .size | .isEmpty | .bindings | .bindingsHere | .assignments | .declarations | .table
  | .handle => true
  | .resolve _ | .resolveHere _ | .level | .context | .echo _ => false

variable {name : String} {t : Table} {f : Frame} {outer : Stack}

/-- Of bindings that are declared after all others, those of the name are declared in the
restriction. -/
lemma Frame.restrict_extend (f : Frame) (bs : List Binding) :
    (f.extend bs).restrict name =
      (f.restrict name).extend (bs.filter fun b => b.name == name) := by
  simp only [restrict, extend, List.filter_append]

namespace Table

/-- The table with the bindings of `name` only. -/
def restrict (name : String) (t : Table) : Table :=
  { t with stack := t.stack.restrict name }

/-- The frames of the restricted table are the restricted frames. -/
@[simp] lemma stack_restrict (t : Table) : (t.restrict name).stack = t.stack.restrict name := rfl

/-- The restricted table keeps its floor. -/
@[simp] lemma floor_restrict (t : Table) : (t.restrict name).floor = t.floor := rfl

/-- The current frame of the restricted table is the restricted current frame. -/
lemma restrict_of_cons (h : t.stack = f :: outer) :
    (t.restrict name).stack = f.restrict name :: outer.restrict name := by
  rw [stack_restrict, h, Stack.restrict_cons]

/-- The name refers to the same in the restricted table. -/
@[simp] lemma resolve_restrict (t : Table) : (t.restrict name).resolve name = t.resolve name :=
  t.stack.resolve_restrict

/-! ## Copies and write-backs -/

/-- Of the bindings that are copied, those of the name are copied in the restriction. -/
theorem restrict_insertAll (h : t.stack = f :: outer) (bs : List Binding) :
    (t.afterwards (t.insertAll bs)).restrict name =
      (t.restrict name).afterwards
        ((t.restrict name).insertAll (bs.filter fun b => b.name == name)) := by
  have hcopies : (bs.map fun b => b.atLevel outer.length).filter (fun b => b.name == name) =
      (bs.filter fun b => b.name == name).map fun b => b.atLevel outer.length :=
    List.filter_map
  rw [afterwards_insertAll h, afterwards_insertAll (restrict_of_cons h)]
  simp only [restrict, Stack.restrict_cons, Frame.restrict_extend, hcopies, Stack.length_restrict]

/-- Of the values that are written back, that of the name is written back in the restriction. -/
theorem restrict_assignAll (t : Table) (level : Nat) (bs : List Binding) :
    (t.assignAll level bs).table.restrict name =
      ((t.restrict name).assignAll level (bs.filter fun b => b.name == name)).table := by
  rw [table_assignAll, table_assignAll]
  simp only [restrict, Stack.restrict_append, Stack.restrict_assignAll, Stack.inside_restrict,
    Stack.outside_restrict]

/-! ## Edits -/

/-- An edit that does not concern another name is made in the restriction. -/
theorem restrict_edited (h : t.stack = f :: outer) {e : Edit} (he : e.isForeign name = false) :
    (t.edited e).restrict name = (t.restrict name).edited e := by
  have h' : (t.restrict name).stack = _ := restrict_of_cons h
  cases e with
  | insert other typeTag value =>
    have hother : other = name := by simpa [Edit.isForeign] using he
    have hfilter : [(⟨other, typeTag, value, outer.length⟩ : Binding)].filter
        (fun b => b.name == name) = [⟨other, typeTag, value, outer.length⟩] := by
      simp [hother]
    rw [edited_insert h, edited_insert h']
    simp only [restrict, Stack.restrict_cons, Frame.restrict_extend, hfilter,
      Stack.length_restrict]
  | assign other value =>
    have hother : other = name := by simpa [Edit.isForeign] using he
    subst hother
    rw [edited_assign, edited_assign]
    simp only [restrict, Stack.restrict_assign]
  | erase other =>
    have hother : other = name := by simpa [Edit.isForeign] using he
    subst hother
    rw [edited_erase h, edited_erase h']
    simp only [restrict, Stack.restrict_cons, Frame.restrict_erase]
  | enter =>
    rw [edited_enter, edited_enter]
    simp only [restrict, Stack.restrict_cons, Frame.restrict_empty, Stack.length_restrict]
  | exit =>
    rw [edited_exit h, edited_exit h', Stack.length_restrict, floor_restrict]
    split <;> rfl

/-- An edit that does not concern another name has the reply that it has in the restriction. -/
theorem replyTo_restrict (h : t.stack = f :: outer) {e : Edit} (he : e.isForeign name = false) :
    (t.restrict name).replyTo e = t.replyTo e := by
  have h' : (t.restrict name).stack = _ := restrict_of_cons h
  cases e with
  | insert other typeTag value => rw [replyTo_insert h, replyTo_insert h']
  | assign other value =>
    have hother : other = name := by simpa [Edit.isForeign] using he
    subst hother
    rw [replyTo_assign h, replyTo_assign h', resolve_restrict]
  | erase other =>
    have hother : other = name := by simpa [Edit.isForeign] using he
    subst hother
    rw [replyTo_erase h, replyTo_erase h', Frame.find?_restrict]
  | enter => rfl
  | exit => rw [replyTo_exit h, replyTo_exit h', Stack.length_restrict, floor_restrict]

/-- An edit that concerns another name is not seen. -/
theorem restrict_edited_of_isForeign (h : t.stack = f :: outer) {e : Edit}
    (he : e.isForeign name = true) : (t.edited e).restrict name = t.restrict name := by
  cases e with
  | insert other typeTag value =>
    have hother : other ≠ name := by simpa [Edit.isForeign] using he
    have hfilter : [(⟨other, typeTag, value, outer.length⟩ : Binding)].filter
        (fun b => b.name == name) = [] := by
      simp [hother]
    have hframe : ((f.extend [⟨other, typeTag, value, outer.length⟩]).restrict name) =
        f.restrict name := by
      rw [Frame.restrict_extend, hfilter, Frame.extend, List.append_nil]
    rw [edited_insert h]
    simp only [restrict, Stack.restrict_cons, hframe, h]
  | assign other value =>
    have hother : other ≠ name := by simpa [Edit.isForeign] using he
    rw [edited_assign]
    simp only [restrict, Stack.restrict_assign_of_ne _ hother]
  | erase other =>
    have hother : other ≠ name := by simpa [Edit.isForeign] using he
    rw [edited_erase h]
    simp only [restrict, Stack.restrict_cons, Frame.restrict_erase_of_ne _ hother, h]
  | enter | exit => simp [Edit.isForeign] at he

/-! ## Questions -/

/-- A question that is not about other names has the answer that it has in the restriction. -/
theorem answer?_restrict (t : Table) (c? : Option Child) {q : Query}
    (hq : q.isForeign name = false) (hcensus : q.isCensus = false) :
    q.answer? c? (t.restrict name) = q.answer? c? t := by
  cases q with
  | resolve other =>
    have hother : other = name := by simpa [Query.isForeign] using hq
    rw [Query.answer?, Query.answer?, hother, resolve_restrict]
  | resolveHere other =>
    have hother : other = name := by simpa [Query.isForeign] using hq
    cases h : t.stack <;> simp [Query.answer?, current?, h, hother]
  | level => cases h : t.stack <;> simp [Query.answer?, current?, level, h]
  | context => rfl
  | echo event => rfl
  | _ => simp [Query.isCensus] at hcensus

/-! ## Children -/

/-- A child is opened on the restriction as it is on the table. -/
lemma openChild_restrict (t : Table) :
    (t.restrict name).openChild.answer = t.openChild.answer ∧
      (t.restrict name).openChild.table = t.openChild.table.restrict name := by
  refine ⟨?_, ?_⟩
  · simp only [openChild, stack_restrict, Stack.length_restrict]
    rfl
  · simp only [openChild, enter, restrict, Stack.length_restrict]
    rfl

end Table

/-- A child is closed on the restriction as it is on the table. -/
theorem Child.restrict_close (c : Child) (t : Table) :
    (t.afterwards (c.close t)).restrict name =
        (t.restrict name).afterwards (c.close (t.restrict name)) ∧
      Table.replyOf (fun _ => .done) (c.close (t.restrict name)) =
        Table.replyOf (fun _ => .done) (c.close t) := by
  by_cases hbase : c.base ≤ t.stack.length
  · have hbase' : c.base ≤ (t.restrict name).stack.length := by
      rwa [Table.stack_restrict, Stack.length_restrict]
    obtain ⟨e, he, -, htable⟩ := close_of_le hbase
    obtain ⟨e', he', -, htable'⟩ := close_of_le hbase'
    rw [he, he', Table.afterwards_some, Table.afterwards_some, htable, htable']
    simp only [Table.restrict, Stack.outside_restrict, Table.replyOf, and_self]
  · have hbase' : ¬ c.base ≤ (t.restrict name).stack.length := by
      rwa [Table.stack_restrict, Stack.length_restrict]
    rw [close, if_neg hbase, close, if_neg hbase']
    exact ⟨rfl, rfl⟩

end LexicalScope
