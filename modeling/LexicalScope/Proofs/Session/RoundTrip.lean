import Mathlib.Data.List.Basic
import LexicalScope.Proofs.Session.Carry
import LexicalScope.Proofs.Session.Copy
import LexicalScope.Proofs.Session.LoopBody

set_option autoImplicit false

/-!
# Round trips

A table is copied into another one, the copies are worked on there, and the values are written back.
The other table holds all bindings in one frame, and may have bindings of its own, outside of this
frame and in it. As long as these do not hide the copies, the table is in the end as if the work had
been done on itself.

## Main definitions

* `LexicalScope.Table.RunsAcross` — the states that the two runs are in at the same time.

## Main results

* `LexicalScope.Table.RunsAcross.edited`, `LexicalScope.Table.RunsAcross.foldl` — the two runs stay
  across from each other, edit after edit.
* `LexicalScope.Table.RunsAcross.carryInto` — writing the copies back gives the table of the other
  run.
* `LexicalScope.Session.round_trip_assigns_in_place` — the two runs leave the same table behind.
-/

namespace LexicalScope

namespace Stack

variable {base s inner : Stack}

/-- Frames that are not asked because others mirror the values do not matter. -/
lemma Mirrors.append (h : base.Mirrors s inner) (outer : Stack) :
    base.Mirrors s (inner ++ outer) := by
  intro name b hb
  obtain ⟨c, hc, hs⟩ := h name b hb
  exact ⟨c, by rw [resolve_append, hc, Option.some_or], hs⟩

/-- An assignment on both sides keeps values mirrored in the innermost frame, whether this frame
takes the assignment or leaves it to the frames under it. -/
lemma Mirrors.assign_cons {f : Frame} (h : base.Mirrors s [f]) (outer : Stack) (name v : String) :
    ∃ g outer', Stack.assign (f :: outer) name v = g :: outer' ∧
      base.Mirrors (s.assign name v) [g] := by
  have hmirrors := h.assign name v
  rw [← List.singleton_append, Stack.assign_append]
  split
  · obtain ⟨g, hg⟩ := exists_assign_singleton f name v
    rw [hg] at hmirrors ⊢
    exact ⟨g, outer, rfl, hmirrors⟩
  · rename_i hnot
    rw [Option.not_isSome_iff_eq_none] at hnot
    rw [assign_of_resolve_eq_none hnot] at hmirrors
    exact ⟨f, _, rfl, hmirrors⟩

end Stack

/-! ## Two runs of a body -/

namespace Table

/-- The states of two runs of a body on `t`: in `away` it runs on another table, whose current
frame has copies of the bindings; in `direct` only its assignments are made, on the bindings
themselves. -/
structure RunsAcross (t away direct : Table) : Prop where
  /-- The current frame of the other table mirrors the values of the other run. -/
  away : ∃ f outer, away.stack = f :: outer ∧ t.stack.Mirrors direct.stack [f]
  /-- Bindings have been assigned to, and nothing else has changed. -/
  direct : ∃ bs, direct = { t with stack := t.stack.assignAll bs }

variable {t c d : Table}

/-- **One edit of a body** leaves the runs across from each other.

**Proof sketch.** A declaration comes after all copies, so it is not found under a name that the
table declares. An assignment to such a name hits its first copy in the one run and the binding
itself in the other; one to another name may reach any frame of the other table, but no copy, and
is refused by the table itself. -/
lemma RunsAcross.edited (h : t.RunsAcross c d) {e : Edit} (he : e.isLocal = true) :
    t.RunsAcross (c.edited e) (if e.isAssign then d.edited e else d) := by
  obtain ⟨⟨f, outer, hf, hmirrors⟩, bs, rfl⟩ := h
  cases e with
  | insert name typeTag value =>
    rw [edited_insert hf]
    exact ⟨⟨_, outer, rfl, hmirrors.extend _⟩, bs, rfl⟩
  | assign name value =>
    obtain ⟨g, outer', hg, hmirrors'⟩ := hmirrors.assign_cons outer name value
    rw [edited_assign, edited_assign, hf, hg]
    -- of the last binding, only the name and the value are assigned
    refine ⟨⟨g, outer', rfl, hmirrors'⟩, bs ++ [⟨name, "", value, 0⟩], ?_⟩
    rw [Stack.assignAll_append]
    rfl
  | erase | enter | exit => cases he

/-- A whole body leaves the runs across from each other. -/
theorem RunsAcross.foldl (h : t.RunsAcross c d) {es : List Edit}
    (hes : ∀ e ∈ es, e.isLocal = true) :
    t.RunsAcross (es.foldl Table.edited c) ((es.filter Edit.isAssign).foldl Table.edited d) :=
  foldl_edited_beside (fun _ _ _ h he => h.edited he) h hes

/-- Writing the copies back gives the table of the other run, and counts all names of the table. -/
lemma RunsAcross.carryInto (h : t.RunsAcross c d) :
    (c.carryInto t).table = d ∧ (c.carryInto t).answer = t.stack.names.card := by
  obtain ⟨⟨f, outer, hf, hmirrors⟩, bs, rfl⟩ := h
  have hall : t.stack.Mirrors (t.stack.assignAll bs) c.stack := by
    rw [hf]
    exact hmirrors.append outer
  refine ⟨?_, ?_⟩
  · rw [table_carryInto, hall.assignAll_visible]
  · rw [answer_carryInto, length_written, Finset.inter_eq_right.2 hall.names_subset]

end Table

namespace Session

variable {s : Session} {slot other : Nat} {a b : Table}

/-- A body on copies puts the other table after all its edits in the place of that table. -/
lemma final_away (hne : other ≠ slot) (ha : s.tables[slot]? = some a)
    (hb : s.tables[other]? = some b) {f : Frame} {outer : Stack} (hf : b.stack = f :: outer)
    (es : List Edit) :
    s.final (.copy slot other :: es.map (.edit other)) =
      s.setTable other
        (es.foldl Table.edited
          { b with stack := f.extend (a.stack.copies b.level) :: outer }) := by
  rw [final_cons, (step_copy hne ha hb hf).2, final_edits (getElem?_setTable hb _),
    setTable_setTable]

/-- What a round trip makes of a session. -/
lemma final_round_trip (hne : other ≠ slot) (ha : s.tables[slot]? = some a)
    (hb : s.tables[other]? = some b) {f : Frame} {outer : Stack} (hf : b.stack = f :: outer)
    (hfree : ∀ c ∈ f.bindings, a.resolve c.name = none) {body : List Edit}
    (hbody : ∀ e ∈ body, e.isLocal = true) :
    ((s.final (.copy slot other :: body.map (.edit other))).step (.carry other slot)).reply =
        .number a.stack.names.card ∧
      ∃ b', s.final (.copy slot other :: (body.map (.edit other) ++ [.carry other slot])) =
        (s.setTable slot ((body.filter Edit.isAssign).foldl Table.edited a)).setTable other b' := by
  have hstart : a.RunsAcross { b with stack := f.extend (a.stack.copies b.level) :: outer } a :=
    ⟨⟨_, outer, rfl, Stack.mirrors_extend_copies hfree _⟩, [], rfl⟩
  obtain ⟨htable, hanswer⟩ := (hstart.foldl hbody).carryInto
  set b' := body.foldl Table.edited { b with stack := f.extend (a.stack.copies b.level) :: outer }
  have haway := final_away hne ha hb hf body
  have hcarry := step_carry hne.symm (getElem?_setTable hb b')
    ((List.getElem?_set_ne hne).trans ha)
  refine ⟨?_, b', ?_⟩
  · rw [haway, hcarry, hanswer]
  · rw [← List.cons_append, final_append, haway, final_cons, final_nil, hcarry, htable]
    simp only [setTable, List.set_comm _ _ hne]

/-- **A round trip assigns in place.** In every session that is reached, from fresh tables, with
exchanges at any time and children closed in any order, take two tables `a` and `b` of which `b`
declares no name of `a` in its current frame. Copy `a` into `b`, carry out a body of declarations
and assignments on `b`, and write `b` back to `a`.

* Apart from the slot of `b`, the session is then as if only the assignments of the body had been
  made, in order, on `a` itself, where some of them may be refused. So `a` is the same table after
  both.
* The write-back counts the names that `a` declares.
* If the body is empty, `a` is as it was. -/
theorem round_trip_assigns_in_place (hs : s.ReachableInAnyOrder) (hne : other ≠ slot)
    (ha : s.tables[slot]? = some a) (hb : s.tables[other]? = some b)
    (hfree : ∀ f ∈ b.current?, ∀ c ∈ f.bindings, a.resolve c.name = none)
    {body : List Edit} (hbody : ∀ e ∈ body, e.isLocal = true) :
    (s.step (.copy slot other)).reply = .done ∧
    ((s.final (.copy slot other :: body.map (.edit other))).step (.carry other slot)).reply =
      .number a.stack.names.card ∧
    (∃ b', s.final (.copy slot other :: (body.map (.edit other) ++ [.carry other slot])) =
      (s.final ((body.filter Edit.isAssign).map (.edit slot))).setTable other b') ∧
    (s.final (.copy slot other :: (body.map (.edit other) ++ [.carry other slot]))).tables[slot]? =
      (s.final ((body.filter Edit.isAssign).map (.edit slot))).tables[slot]? ∧
    (s.final [.copy slot other, .carry other slot]).tables[slot]? = some a := by
  obtain ⟨f, outer, hf⟩ := (hs.valid.tables b (List.mem_of_getElem? hb)).exists_cons
  have hfree' : ∀ c ∈ f.bindings, a.resolve c.name = none :=
    hfree f (by rw [Table.current?, hf, List.head?_cons]; rfl)
  have hslot : ∀ (u : Session) b', (u.setTable other b').tables[slot]? = u.tables[slot]? :=
    fun u b' => List.getElem?_set_ne hne
  obtain ⟨hreply, b', hfinal⟩ := final_round_trip hne ha hb hf hfree' hbody
  have hnone : ∀ e ∈ ([] : List Edit), e.isLocal = true := by simp
  obtain ⟨-, b₀, hempty⟩ := final_round_trip hne ha hb hf hfree' hnone
  refine ⟨(step_copy hne ha hb hf).1, hreply, ⟨b', ?_⟩, ?_, ?_⟩
  · rw [hfinal, final_edits ha]
  · rw [hfinal, final_edits ha, hslot]
  · rw [List.map_nil, List.nil_append] at hempty
    rw [hempty, hslot, List.filter_nil, List.foldl_nil]
    exact getElem?_setTable ha a

/-- Slot `0` declares `x` in two scopes and `y` under a child, and slot `1` has `y` and `w` in
outer scopes of its own. The body overwrites `x` twice, hides it, overwrites `w`, which only the
other table has, and declares and overwrites a name of its own. -/
theorem round_trip_assigns_in_place_hidden :
    ∃ s a, s = (ofContexts [.traced, .quiet, .quiet]).final
        [.edit 0 (.insert "x" "int" "1"), .openChild 0, .edit 0 (.insert "y" "int" "2"),
          .edit 0 (.insert "x" "str" "3"), .edit 0 (.insert "x" "int" "4"),
          .edit 2 (.insert "y" "int" "5"), .edit 2 (.insert "w" "int" "6"), .edit 2 .enter,
          .edit 2 (.insert "z" "int" "7"), .swap 1 2] ∧
      s.tables[0]? = some a ∧
      (s.final [.copy 0 1, .edit 1 (.assign "x" "8"), .edit 1 (.insert "x" "int" "9"),
          .edit 1 (.assign "w" "10"), .edit 1 (.insert "v" "int" "11"),
          .edit 1 (.assign "v" "12"), .edit 1 (.assign "x" "13"), .carry 1 0]).tables[0]? =
        (s.final [.edit 0 (.assign "x" "8"), .edit 0 (.assign "w" "10"),
          .edit 0 (.assign "v" "12"), .edit 0 (.assign "x" "13")]).tables[0]? ∧
      ((s.final [.copy 0 1, .edit 1 (.assign "x" "8"), .edit 1 (.insert "x" "int" "9"),
          .edit 1 (.assign "w" "10"), .edit 1 (.insert "v" "int" "11"),
          .edit 1 (.assign "v" "12"), .edit 1 (.assign "x" "13")]).step (.carry 1 0)).reply =
        .number 2 ∧
      (s.final [.copy 0 1, .carry 1 0]).tables[0]? = some a ∧
      (s.final [.edit 0 (.assign "x" "8"), .edit 0 (.assign "w" "10"),
          .edit 0 (.assign "v" "12"), .edit 0 (.assign "x" "13")]).tables[0]?.map Table.stack =
        some [⟨1, [⟨"y", "int", "2", 1⟩, ⟨"x", "str", "13", 1⟩, ⟨"x", "int", "4", 1⟩]⟩,
          ⟨0, [⟨"x", "int", "1", 0⟩]⟩] := by
  have hreach : ((ofContexts [.traced, .quiet, .quiet]).final
      [.edit 0 (.insert "x" "int" "1"), .openChild 0, .edit 0 (.insert "y" "int" "2"),
        .edit 0 (.insert "x" "str" "3"), .edit 0 (.insert "x" "int" "4"),
        .edit 2 (.insert "y" "int" "5"), .edit 2 (.insert "w" "int" "6"), .edit 2 .enter,
        .edit 2 (.insert "z" "int" "7"), .swap 1 2]).ReachableInAnyOrder :=
    Reachable.inAnyOrder ⟨_, _, rfl⟩
  have hlocal : ∀ e ∈ [Edit.assign "x" "8", .insert "x" "int" "9", .assign "w" "10",
      .insert "v" "int" "11", .assign "v" "12", .assign "x" "13"], e.isLocal = true := by decide
  have hne : 1 ≠ 0 := by decide
  obtain ⟨-, hreply, -, hsame, hback⟩ :=
    round_trip_assigns_in_place hreach hne rfl rfl (by decide) hlocal
  exact ⟨_, _, rfl, rfl, hsame, hreply, hback, by decide⟩

end Session

end LexicalScope
