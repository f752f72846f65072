import Mathlib.Data.List.Basic
import LexicalScope.Child
import LexicalScope.Proofs.Stack.Level
import LexicalScope.Proofs.Stack.Names
import LexicalScope.Proofs.Stack.Outer

set_option autoImplicit false

/-!
# What write-backs do

A write-back across a level assigns, in the scopes outside of the level, the values that are
visible inside. Here it is described through assignments on the outside part of the stack. A
write-back between two tables writes, once each, to the bindings that the shared names refer to.

## Main definitions

* `LexicalScope.Table.written` — the bindings that a write-back between two tables overwrites.
* `LexicalScope.Table.WritesBack` — what has become of a table after a write-back to it.

## Main results

* `LexicalScope.Table.table_assignAll`, `LexicalScope.Table.answer_assignAll`,
  `LexicalScope.Table.trace_assignAll` — a write-back leaves the inside alone, assigns to the
  outside, counts the names that the outside declares, and reports each at the frame it is
  declared in.
* `LexicalScope.Table.assign_eq` — overwriting a value assigns on the whole stack.
* `LexicalScope.Table.writeBack_of_le` — what a write-back across a level of the table answers
  and leaves behind.
* `LexicalScope.Table.writesBack_carryInto`, `LexicalScope.Table.answer_carryInto`,
  `LexicalScope.Table.trace_carryInto` — what a write-back between two tables leaves behind, counts
  and reports.
* `LexicalScope.Table.carryInto_carryInto` — a second write-back changes nothing.
-/

namespace LexicalScope

/-- Writing where a name is located outside of a level is an assignment outside of the level. -/
lemma Stack.setValueAt_of_locate_outside {s : Stack} {level : Nat} {name : String} {p : Position}
    (h : (s.outside level).locate name = some p) (v : String) :
    s.setValueAt p v = s.inside level ++ (s.outside level).assign name v := by
  rw [assign_of_locate h, ← setValueAt_append _ (depth_lt_of_locate h), inside_append_outside]

/-- What is outside of a level has taken the assignment afterwards. -/
lemma Stack.outside_setValueAt_of_locate {s : Stack} {level : Nat} {name : String} {p : Position}
    (h : (s.outside level).locate name = some p) (v : String) :
    (s.setValueAt p v).outside level = (s.outside level).assign name v := by
  rw [setValueAt_of_locate_outside h, outside_append_of_length (length_assign _ _ _)]

namespace Table

/-! ## Assignments -/

/-- Overwriting a value assigns on the whole stack, if the name refers to something. -/
theorem assign_eq {t : Table} {name : String} {p : Position}
    (h : t.stack.locate name = some p) (value : String) :
    t.assign name value =
      some
        { answer := .ok ()
          table := { t with stack := t.stack.assign name value }
          trace := t.context.emit (.updated name) p.depth } := by
  rw [assign, h, Stack.assign_of_locate h]

/-- **What a write-back leaves behind.** The scopes inside of the level are left alone, and to
those outside the values are assigned in order.

**Proof sketch.** Induction on the bindings. A name that the outside does not declare is passed
over by the write-back and by the assignment alike. Otherwise the position found lies outside,
so the write changes the outside only, and the level still cuts the stack in the same place. -/
theorem table_assignAll (t : Table) (level : Nat) (bs : List Binding) :
    (t.assignAll level bs).table =
      { t with stack := t.stack.inside level ++ (t.stack.outside level).assignAll bs } := by
  induction bs generalizing t with
  | nil => simp [assignAll, unchanged]
  | cons b bs ih =>
    rw [assignAll, Stack.assignAll_cons]
    cases hloc : (t.stack.outside level).locate b.name with
    | none =>
      have hnone := (Stack.locate_eq_none_iff _ _).1 hloc
      rw [Stack.assign_of_resolve_eq_none hnone]
      exact ih t
    | some p =>
      have hwrite := Stack.setValueAt_of_locate_outside hloc b.value
      have hlen : ((t.stack.outside level).assign b.name b.value).length =
          (t.stack.outside level).length := Stack.length_assign _ _ _
      simp only [ih, hwrite]
      rw [Stack.inside_append_of_length hlen, Stack.outside_append_of_length hlen]

/-- A write-back counts the bindings whose names are declared outside of the level. -/
theorem answer_assignAll (t : Table) (level : Nat) (bs : List Binding) :
    (t.assignAll level bs).answer =
      bs.countP fun b => ((t.stack.outside level).resolve b.name).isSome := by
  induction bs generalizing t with
  | nil => rfl
  | cons b bs ih =>
    rw [assignAll, List.countP_cons]
    have hsome := (t.stack.outside level).isSome_locate b.name
    cases hloc : (t.stack.outside level).locate b.name with
    | none =>
      rw [hloc, Option.isSome_none] at hsome
      rw [if_neg (by simp [← hsome])]
      exact ih t
    | some p =>
      rw [hloc, Option.isSome_some] at hsome
      rw [if_pos hsome.symm]
      have houter := Stack.outside_setValueAt_of_locate hloc b.value
      have hnames : ∀ name, (((t.stack.outside level).assign b.name b.value).resolve name).isSome =
          ((t.stack.outside level).resolve name).isSome := by
        intro name
        rw [← Stack.isSome_locate, ← Stack.isSome_locate,
          Stack.locate_congr (Stack.shape_assign _ _ _)]
      simp only [ih, houter, hnames]

/-- A write-back reports, in order, each name that the outside declares, at the depth of the frame
that it is located in.

**Proof sketch.** Induction on the bindings. A write moves nothing, so the names of the rest are
located where they were before it. -/
theorem trace_assignAll (t : Table) (level : Nat) (bs : List Binding) :
    (t.assignAll level bs).trace =
      bs.flatMap fun b =>
        ((t.stack.outside level).locate b.name).elim [] fun p =>
          t.context.emit (.wroteBack b.name) p.depth := by
  induction bs generalizing t with
  | nil => rfl
  | cons b bs ih =>
    rw [assignAll, List.flatMap_cons]
    cases hloc : (t.stack.outside level).locate b.name with
    | none => exact ih t
    | some p =>
      have hlocate : ∀ name, ((t.stack.setValueAt p b.value).outside level).locate name =
          (t.stack.outside level).locate name := by
        intro name
        rw [Stack.outside_setValueAt_of_locate hloc]
        exact Stack.locate_congr (Stack.shape_assign _ _ _) name
      simp only [ih, hlocate]
      rfl

/-- What a write-back across a level of the table answers and leaves behind: the names that both
parts declare are counted, and those outside get the values that are visible inside. -/
theorem writeBack_of_le {t : Table} {level : Nat} (h : level ≤ t.stack.length) :
    ∃ e, t.writeBack level = some e ∧
      e.answer = ((t.stack.inside level).names ∩ (t.stack.outside level).names).card ∧
      e.table =
        { t with
          stack := t.stack.inside level ++
            (t.stack.outside level).assignAll (t.stack.inside level).visible } := by
  refine ⟨_, if_pos h, ?_, table_assignAll _ _ _⟩
  rw [answer_assignAll, Stack.countP_visible]

/-! ## Between two tables -/

/-- The bindings of `outer` that a write-back from `inner` overwrites, in order. -/
def written (inner outer : Table) : List Binding :=
  inner.stack.visible.filterMap fun c => outer.resolve c.name

/-- A binding is overwritten exactly if its name refers to it, and refers to something in the other
table as well. -/
theorem mem_written (inner outer : Table) (b : Binding) :
    b ∈ inner.written outer ↔
      outer.resolve b.name = some b ∧ (inner.resolve b.name).isSome = true := by
  rw [written, List.mem_filterMap]
  constructor
  · rintro ⟨c, hc, hb⟩
    have hname : b.name = c.name := Stack.name_of_resolve hb
    rw [hname]
    refine ⟨hb, ?_⟩
    rw [resolve, (Stack.mem_visible _ c).1 hc, Option.isSome_some]
  · rintro ⟨hb, hinner⟩
    obtain ⟨c, hc⟩ := Option.isSome_iff_exists.1 hinner
    have hname : c.name = b.name := Stack.name_of_resolve hc
    have hvisible : inner.stack.resolve c.name = some c := by rwa [hname]
    exact ⟨c, (Stack.mem_visible _ c).2 hvisible, by rwa [hname]⟩

/-- No name is overwritten twice. -/
lemma nodup_written (inner outer : Table) : ((inner.written outer).map Binding.name).Nodup := by
  rw [List.Nodup, List.pairwise_map, written]
  refine (Stack.pairwise_visible inner.stack).filterMap _ ?_
  intro c d hne b hb b' hb'
  have hname : b.name = c.name := Stack.name_of_resolve hb
  have hname' : b'.name = d.name := Stack.name_of_resolve hb'
  rwa [hname, hname']

/-- There are as many bindings to overwrite as names that both tables declare. -/
lemma length_written (inner outer : Table) :
    (inner.written outer).length = (inner.stack.names ∩ outer.stack.names).card := by
  rw [written, List.length_filterMap_eq_countP]
  exact Stack.countP_visible inner.stack outer.stack

/-- The table `outer'` is what becomes of `outer` if the values visible in `inner` are written back
to it. -/
structure WritesBack (inner outer outer' : Table) : Prop where
  /-- The context stays. -/
  context : outer'.context = outer.context
  /-- The floor stays. -/
  floor : outer'.floor = outer.floor
  /-- The frames stay, with the levels, names and types of all bindings in their order. -/
  shape : outer'.stack.shape = outer.stack.shape
  /-- A binding gets the value that its name has in `inner`, if its name refers to it and is
  declared in `inner`; every other binding stays. -/
  binding : ∀ p, outer'.stack.bindingAt? p =
    (outer.stack.bindingAt? p).map fun b =>
      if outer.stack.locate b.name = some p then
        (inner.resolve b.name).elim b fun c => b.setValue c.value
      else b
  /-- A name that both tables declare refers to its binding with the value from `inner`, every other
  name to what it did. -/
  resolve : ∀ name, outer'.resolve name =
    (outer.resolve name).map fun b => (inner.resolve name).elim b fun c => b.setValue c.value

/-- A write-back between two tables assigns what is visible in the one to the other. -/
lemma table_carryInto (inner outer : Table) :
    (inner.carryInto outer).table =
      { outer with stack := outer.stack.assignAll inner.stack.visible } := by
  rw [carryInto, table_assignAll, Stack.outside_length, Stack.inside_of_length_le (le_refl _),
    List.nil_append]

/-- **What a write-back between two tables leaves behind.** -/
theorem writesBack_carryInto (inner outer : Table) :
    inner.WritesBack outer (inner.carryInto outer).table := by
  rw [table_carryInto]
  exact
    { context := rfl
      floor := rfl
      shape := Stack.shape_assignAll _ _
      binding := Stack.bindingAt?_assignAll_visible inner.stack outer.stack
      resolve := Stack.resolve_assignAll_visible inner.stack outer.stack }

/-- A write-back between two tables counts the bindings that it overwrites. -/
lemma answer_carryInto (inner outer : Table) :
    (inner.carryInto outer).answer = (inner.written outer).length := by
  rw [carryInto, answer_assignAll, Stack.outside_length, length_written, Stack.countP_visible]

/-- A write-back between two tables reports, in order, the bindings that it overwrites, each at its
level.

**Proof sketch.** A name is reported at the depth where it is located. There stands what it refers
to, and in a leveled stack this carries the depth as its level. -/
theorem trace_carryInto (inner : Table) {outer : Table} (h : outer.stack.IsLeveled) :
    (inner.carryInto outer).trace =
      (inner.written outer).flatMap fun b =>
        outer.context.emit (.wroteBack b.name) b.scopeLevel := by
  rw [carryInto, trace_assignAll, Stack.outside_length, written,
    List.filterMap_eq_flatMap_toList, List.flatMap_assoc]
  congr 1
  funext c
  cases hloc : outer.stack.locate c.name with
  | none =>
    have hnone : outer.resolve c.name = none := (Stack.locate_eq_none_iff _ _).1 hloc
    rw [hnone]
    rfl
  | some p =>
    obtain ⟨b, hb⟩ := Stack.exists_resolve_of_locate hloc
    have hname : b.name = c.name := Stack.name_of_resolve hb
    have hlevel : b.scopeLevel = p.depth :=
      h.scopeLevel_of_bindingAt? ((Stack.bindingAt?_of_locate hloc).trans hb)
    rw [resolve, hb, Option.elim_some, Option.toList_some, List.flatMap_singleton, hname, hlevel]

/-- A second write-back between two tables counts the same and changes nothing. -/
theorem carryInto_carryInto (inner outer : Table) :
    (inner.carryInto (inner.carryInto outer).table).answer = (inner.carryInto outer).answer ∧
      (inner.carryInto (inner.carryInto outer).table).table = (inner.carryInto outer).table := by
  rw [answer_carryInto, answer_carryInto, length_written, length_written, table_carryInto,
    table_carryInto]
  simp only [Stack.names_assignAll, Stack.assignAll_visible_assignAll, and_self]

end Table

/-- What closing a child leaves behind, if the table has all frames outside of the child. -/
theorem Child.close_of_le {c : Child} {t : Table} (h : c.base ≤ t.stack.length) :
    ∃ e, c.close t = some e ∧ e.answer = (t.stack.inside c.base).size ∧
      e.table = { t with stack := t.stack.outside c.base, floor := c.savedFloor } :=
  ⟨_, if_pos h, rfl, rfl⟩

end LexicalScope
