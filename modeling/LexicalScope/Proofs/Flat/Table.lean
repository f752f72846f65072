import Mathlib.Data.List.Basic
import LexicalScope.Proofs.Flat.Stamps
import LexicalScope.Proofs.Session.Valid
import LexicalScope.Proofs.Table.Transfer

set_option autoImplicit false

/-!
# Tables as flat tables

The flat table of a table has its level, its floor and its bindings, and forgets the frames. What
an operation makes of a valid table, and what it answers, can be told from the flat table.

## Main definitions

* `LexicalScope.Table.flat` — the flat table of a table.

## Main results

* `LexicalScope.Table.Valid.flat_edited`, `LexicalScope.Table.Valid.replyTo_flat` — edits.
* `LexicalScope.Table.Valid.answer?_flat` — questions.
* `LexicalScope.Table.Valid.flat_insertAll`, `LexicalScope.Table.Valid.flat_carryInto`,
  `LexicalScope.Table.Valid.flat_writeBack` — copies and write-backs.
* `LexicalScope.Table.Valid.flat_close` — closing a child.
-/

namespace LexicalScope

namespace Table

/-- The table without its frames. -/
def flat (t : Table) : FlatTable :=
  { level := t.level, floor := t.floor, bindings := t.bindings }

/-- The flat table is at the level of the table. -/
@[simp] lemma level_flat (t : Table) : t.flat.level = t.level := rfl

/-- The flat table has the floor of the table. -/
@[simp] lemma floor_flat (t : Table) : t.flat.floor = t.floor := rfl

/-- The flat table has the bindings of all frames. -/
@[simp] lemma bindings_flat (t : Table) : t.flat.bindings = t.stack.bindings := rfl

variable {t : Table} {f : Frame} {outer : Stack}

/-- The flat table of a table with a current frame. -/
lemma flat_of_cons (h : t.stack = f :: outer) :
    t.flat = { level := outer.length, floor := t.floor,
               bindings := outer.bindings ++ f.bindings } := by
  rw [flat, level_of_cons h, bindings, h, Stack.bindings_cons]

/-! ## The current scope -/

/-- The frames of a valid table are leveled, given as the current one and the others. -/
lemma Valid.isLeveled_cons (hvt : t.Valid) (h : t.stack = f :: outer) :
    Stack.IsLeveled (f :: outer) :=
  h ▸ hvt.leveled

/-- The bindings with the stamp of the level are those of the current frame. -/
lemma Valid.here_flat (hvt : t.Valid) (h : t.stack = f :: outer) : t.flat.here = f.bindings := by
  rw [FlatTable.here, level_flat, level_of_cons h, bindings_flat, h]
  exact (hvt.isLeveled_cons h).filter_bindings.1

/-- The earliest binding of a name with the stamp of the level is the first of the current
frame. -/
lemma Valid.find?_isHere_flat (hvt : t.Valid) (h : t.stack = f :: outer) (name : String) :
    t.flat.bindings.find? (t.flat.isHere name) = f.find? name := by
  have hfilter : t.flat.bindings.filter (t.flat.isHere name) =
      f.bindings.filter fun b => b.name == name := by
    rw [← hvt.here_flat h, FlatTable.here, List.filter_filter]
    rfl
  rw [← List.head?_filter, hfilter, List.head?_filter, Frame.find?]

/-- Removing the earliest binding of a name with the stamp of the level removes the first of the
current frame. -/
lemma Valid.eraseP_isHere_flat (hvt : t.Valid) (h : t.stack = f :: outer) (name : String) :
    t.flat.bindings.eraseP (t.flat.isHere name) = outer.bindings ++ (f.erase name).bindings := by
  have hat := hvt.isAt h
  have houter : ∀ b ∈ outer.bindings, ¬ t.flat.isHere name b = true := by
    intro b hb
    have hlt := (hvt.isLeveled_cons h).2.scopeLevel_lt hb
    simp only [FlatTable.isHere, level_flat, level_of_cons h, Bool.and_eq_true, beq_iff_eq]
    omega
  have hframe : ∀ bs : List Binding, (∀ b ∈ bs, b.scopeLevel = outer.length) →
      bs.eraseP (t.flat.isHere name) = bs.eraseP fun b => b.name == name := by
    intro bs hbs
    induction bs with
    | nil => rfl
    | cons b bs ih =>
      obtain ⟨hb, hbs⟩ := List.forall_mem_cons.1 hbs
      have htest : t.flat.isHere name b = (b.name == name) := by
        simp [FlatTable.isHere, level_of_cons h, hb]
      rw [List.eraseP_cons, List.eraseP_cons, htest, ih hbs]
  rw [bindings_flat, h, Stack.bindings_cons, List.eraseP_append_right _ houter,
    hframe _ hat.2, Frame.bindings_erase]

/-! ## Edits -/

/-- **What an edit makes of a table can be told from the flat table.** -/
theorem Valid.flat_edited (hvt : t.Valid) (e : Edit) : (t.edited e).flat = t.flat.edited e := by
  obtain ⟨f, outer, h⟩ := hvt.exists_cons
  cases e with
  | insert name typeTag value =>
    rw [edited_insert h, flat_of_cons rfl, flat_of_cons h, FlatTable.edited, Frame.extend,
      List.append_assoc]
  | assign name value =>
    rw [edited_assign, FlatTable.edited]
    simp only [flat, level, bindings, Stack.length_assign, hvt.leveled.isStamped.bindings_assign]
  | erase name =>
    rw [edited_erase h, flat_of_cons rfl, FlatTable.edited, hvt.eraseP_isHere_flat h,
      flat_of_cons h]
  | enter =>
    have hlevel := hvt.level_add_one
    rw [edited_enter, flat_of_cons rfl, FlatTable.edited, level_flat, hlevel]
    simp [flat, bindings]
  | exit =>
    rw [edited_exit h, FlatTable.edited, level_flat, floor_flat, level_of_cons h]
    split
    · rfl
    · rename_i hfloor
      have hrest := (hvt.isLeveled_cons h).filter_bindings.2
      rw [bindings_flat, h, hrest]
      simp [flat, level, bindings]

/-- **The reply to an edit can be told from the flat table.** -/
theorem Valid.replyTo_flat (hvt : t.Valid) (e : Edit) : t.flat.replyTo e = t.replyTo e := by
  obtain ⟨f, outer, h⟩ := hvt.exists_cons
  cases e with
  | insert name typeTag value =>
    rw [replyTo_insert h]
    rfl
  | assign name value =>
    rw [replyTo_assign h, FlatTable.replyTo, bindings_flat,
      hvt.leveled.isStamped.resolve_bindings, resolve]
    cases t.stack.resolve name <;> rfl
  | erase name => rw [replyTo_erase h, FlatTable.replyTo, hvt.find?_isHere_flat h]
  | enter => rfl
  | exit => rw [replyTo_exit h, FlatTable.replyTo, level_flat, floor_flat, level_of_cons h]

/-! ## Questions -/

/-- **An answer that can be told from the flat table is right.** -/
theorem Valid.answer?_flat (hvt : t.Valid) (c? : Option Child) {q : Query} {r : Reply}
    (hr : t.flat.answer? q = some r) : q.answer? c? t = some r := by
  obtain ⟨f, outer, h⟩ := hvt.exists_cons
  have hcurrent : t.current? = some f := by
    rw [current?, h, List.head?_cons]
  have hsize : t.flat.bindings.length = t.size := Stack.length_bindings _
  have hempty : t.flat.bindings.isEmpty = t.isEmpty := by
    rw [Bool.eq_iff_iff, t.isEmpty_iff, ← hsize, List.isEmpty_iff, List.length_eq_zero_iff]
  cases q with
  | resolve name =>
    rw [← hr, FlatTable.answer?, bindings_flat, hvt.leveled.isStamped.resolve_bindings]
    rfl
  | resolveHere name =>
    rw [← hr, FlatTable.answer?, hvt.find?_isHere_flat h, Query.answer?, hcurrent]
    rfl
  | level =>
    rw [← hr, Query.answer?, hcurrent]
    rfl
  | size => rw [← hr, FlatTable.answer?, hsize, Query.answer?]
  | isEmpty => rw [← hr, FlatTable.answer?, hempty, Query.answer?]
  | bindings => rw [← hr]; rfl
  | bindingsHere =>
    rw [← hr, FlatTable.answer?, hvt.here_flat h, Query.answer?, hcurrent]
    rfl
  | assignments =>
    rw [← hr, FlatTable.answer?, hvt.here_flat h, Query.answer?, hcurrent]
    rfl
  | declarations => rw [← hr]; rfl
  | echo event => rw [← hr]; rfl
  | context | table | handle => simp [FlatTable.answer?] at hr

/-! ## Copies and write-backs -/

/-- Declaring copies can be told from the flat table. -/
lemma Valid.flat_insertAll (hvt : t.Valid) (bs : List Binding) :
    (t.afterwards (t.insertAll bs)).flat = t.flat.receive bs := by
  obtain ⟨f, outer, h⟩ := hvt.exists_cons
  rw [afterwards_insertAll h, flat_of_cons rfl, flat_of_cons h, FlatTable.receive, Frame.extend,
    List.append_assoc]

/-- Declaring copies of a list of bindings is always carried out. -/
lemma Valid.replyOf_insertAll (hvt : t.Valid) (bs : List Binding) :
    replyOf (fun _ => .done) (t.insertAll bs) = .done := by
  obtain ⟨f, outer, h⟩ := hvt.exists_cons
  rw [insertAll_of_stack_eq_cons h]
  rfl

/-- All bindings of a table are copied from the greatest stamp to the least. -/
lemma Valid.scan_eq (hvt : t.Valid) :
    t.stack.scan = Flat.inwardOut (t.flat.level + 1) t.flat.bindings := by
  rw [level_flat, hvt.level_add_one, bindings_flat, hvt.leveled.scan_eq]

/-- **Writing back to another table can be told from the flat tables.** -/
theorem Valid.flat_carryInto {u : Table} (hvt : t.Valid) (hvu : u.Valid) :
    (t.carryInto u).table.flat = u.flat.overwrite t.flat.bindings ∧
      (t.carryInto u).answer = Flat.shared t.flat.bindings u.flat.bindings := by
  have hst := hvt.leveled.isStamped
  have hsu := hvu.leveled.isStamped
  have hin : u.stack.inside u.stack.length = [] := Stack.inside_of_length_le le_rfl
  refine ⟨?_, ?_⟩
  · rw [carryInto, table_assignAll, hin, Stack.outside_length, List.nil_append]
    simp only [flat, level, bindings, Stack.length_assignAll, FlatTable.overwrite,
      hst.bindings_assignAll_visible hsu]
  · rw [carryInto, answer_assignAll, Stack.outside_length, bindings_flat, bindings_flat,
      hst.countP_visible hsu]

/-- **Writing back across a level can be told from the flat table.** -/
theorem Valid.flat_writeBack (hvt : t.Valid) {base : Nat} (hbase : base ≤ t.stack.length) :
    ∃ e, t.writeBack base = some e ∧ e.table.flat = t.flat.writeBack base ∧
      e.answer =
        Flat.shared (Flat.inside base t.flat.bindings) (Flat.outside base t.flat.bindings) := by
  have hin := hvt.leveled.isStamped.inside base
  have hout := (hvt.leveled.outside base).isStamped
  have hbindings : (t.assignAll base (t.stack.inside base).visible).table.bindings =
      (t.flat.writeBack base).bindings := by
    rw [table_assignAll, bindings, Stack.bindings_append, hin.bindings_assignAll_visible hout,
      hvt.leveled.bindings_inside, hvt.leveled.bindings_outside]
    rfl
  refine ⟨_, if_pos hbase, ?_, ?_⟩
  · rw [flat, hbindings, level, length_stack_assignAll, floor_assignAll]
    rfl
  · rw [answer_assignAll, hin.countP_visible hout, hvt.leveled.bindings_inside,
      hvt.leveled.bindings_outside, bindings_flat]

/-! ## Children -/

/-- Opening a child can be told from the flat table. -/
lemma Valid.flat_openChild (hvt : t.Valid) :
    t.openChild.table.flat = t.flat.opened ∧ t.openChild.answer.base = t.flat.level + 1 ∧
      t.openChild.answer.savedFloor = t.flat.floor := by
  have hlevel := hvt.level_add_one
  refine ⟨?_, hlevel.symm, rfl⟩
  have hcons : t.openChild.table.stack = Frame.empty t.stack.length :: t.stack := rfl
  rw [flat_of_cons hcons, FlatTable.opened, level_flat, hlevel, Frame.bindings_empty,
    List.append_nil]
  rfl

/-- **Closing a child can be told from the flat table**: it deletes what lies inside, and reports
how much that was. -/
theorem Valid.flat_close (hvt : t.Valid) {c : Child} (hbase : c.base ≤ t.stack.length) :
    ∃ e, c.close t = some e ∧ e.table.flat = t.flat.closed c.base c.savedFloor ∧
      e.table.context = t.context ∧
      e.trace = t.context.emit (.exited (Flat.inside c.base t.flat.bindings).length) c.base := by
  have hlen := Stack.length_outside _ hbase
  refine ⟨_, if_pos hbase, ?_, rfl, ?_⟩
  · simp only [flat, level, bindings, hlen, hvt.leveled.bindings_outside, FlatTable.closed]
  · rw [bindings_flat, ← hvt.leveled.bindings_inside, Stack.length_bindings]

end Table

end LexicalScope
