import Mathlib.Data.List.Basic
import LexicalScope.Proofs.Session.Slot
import LexicalScope.Proofs.Table.Copies

set_option autoImplicit false

/-!
# Loop bodies

A loop body runs in a child that is seeded with copies of the table's bindings. It declares and
overwrites in the scope of the child, at its end it writes back, and the child is closed. The
table is then as if only the overwriting had been done, on the table itself.

## Main definitions

* `LexicalScope.Edit.isLocal`, `LexicalScope.Edit.isAssign` — the edits of a loop body, and those
  of them that are left without the child.
* `LexicalScope.Stack.Mirrors` — inner frames have the values that names have in another stack.
* `LexicalScope.Table.RunsBeside` — the states that the two runs are in at the same time.

## Main results

* `LexicalScope.Stack.Mirrors.assignAll_visible` — writing mirrored values back gives the other
  stack.
* `LexicalScope.Table.RunsBeside.edited`, `LexicalScope.Table.RunsBeside.foldl` — the two runs
  stay beside each other, edit after edit.
* `LexicalScope.Table.RunsBeside.exists_settled` — settling the child of the one run leaves the
  table of the other.
* `LexicalScope.Session.loop_body_assigns_in_place` — the two runs end in the same session.
-/

namespace LexicalScope

namespace Edit

/-- Whether an edit overwrites a value. -/
def isAssign : Edit → Bool
  | assign _ _ => true
  | insert _ _ _ | erase _ | enter | exit => false

/-- Whether an edit declares a binding or overwrites a value. -/
def isLocal : Edit → Bool
  | insert _ _ _ | assign _ _ => true
  | erase _ | enter | exit => false

end Edit

/-! ## Mirrored values -/

namespace Stack

/-- Each name that `base` declares refers in `s` to the binding from `base`, with the value that
the name has in `inner`. -/
def Mirrors (base s inner : Stack) : Prop :=
  ∀ name b, base.resolve name = some b →
    ∃ c, inner.resolve name = some c ∧ s.resolve name = some (b.setValue c.value)

variable {base s inner : Stack}

/-- A frame that declares no name of the bindings mirrors their values when it is extended by copies
of them. -/
lemma mirrors_extend_copies {f : Frame} (hf : ∀ c ∈ f.bindings, base.resolve c.name = none)
    (level : Nat) : base.Mirrors base [f.extend (base.copies level)] := by
  intro name b hb
  have hnone : f.find? name = none := by
    rw [Frame.find?_eq_none_iff]
    rintro c hc rfl
    rw [hf c hc] at hb
    simp at hb
  refine ⟨b.atLevel level, ?_, hb⟩
  rw [resolve_singleton, Frame.find?_extend, find?_copies, hb, hnone, Option.none_or,
    Option.map_some]

/-- Declarations after all others change no value. -/
lemma Mirrors.extend {f : Frame} (h : base.Mirrors s [f]) (bs : List Binding) :
    base.Mirrors s [f.extend bs] := by
  intro name b hb
  obtain ⟨c, hc, hs⟩ := h name b hb
  rw [resolve_singleton] at hc
  refine ⟨c, ?_, hs⟩
  rw [resolve_singleton, Frame.find?_extend, hc, Option.some_or]

/-- An assignment on both sides keeps values mirrored. -/
lemma Mirrors.assign (h : base.Mirrors s inner) (name v : String) :
    base.Mirrors (s.assign name v) (inner.assign name v) := by
  intro other b hb
  obtain ⟨c, hc, hs⟩ := h other b hb
  rw [resolve_assign, resolve_assign]
  by_cases heq : other = name
  · subst heq
    rw [if_pos rfl, if_pos rfl, hc, hs]
    exact ⟨c.setValue v, rfl, rfl⟩
  · rw [if_neg heq, if_neg heq]
    exact ⟨c, hc, hs⟩

/-- Frames that mirror values declare the names. -/
lemma Mirrors.names_subset (h : base.Mirrors s inner) : base.names ⊆ inner.names := by
  intro name hname
  rw [mem_names] at hname ⊢
  obtain ⟨b, hb⟩ := Option.isSome_iff_exists.1 hname
  obtain ⟨c, hc, -⟩ := h name b hb
  rw [hc, Option.isSome_some]

/-- An assignment does not get through frames that mirror values of the frames under them. -/
lemma Mirrors.assign_append (h : base.Mirrors s inner) (name v : String) :
    Stack.assign (inner ++ base) name v = inner.assign name v ++ base :=
  assign_append_of_names_subset h.names_subset name v

/-- **Writing mirrored values back** to a stack gives the stack whose values were mirrored, if
that differs by assignments only.

**Proof sketch.** Both are assignments to one stack, so it is enough that all names refer to the
same bindings. A name that the stack declares gets the mirrored value; any other is in neither
result. -/
theorem Mirrors.assignAll_visible {bs : List Binding}
    (h : base.Mirrors (base.assignAll bs) inner) :
    base.assignAll inner.visible = base.assignAll bs := by
  apply assignAll_ext
  intro name
  rw [resolve_assignAll_visible]
  cases hb : base.resolve name with
  | none =>
    have hnone : (base.assignAll bs).locate name = none := by
      rw [locate_assignAll, locate_eq_none_iff, hb]
    rw [Option.map_none, (locate_eq_none_iff _ _).1 hnone]
  | some b =>
    obtain ⟨c, hc, hs⟩ := h name b hb
    rw [hc, hs]
    rfl

end Stack

/-! ## Two runs of a body -/

namespace Table

/-- The states of two runs of a body on `t`: in `child` it runs in a child, on copies of the
bindings; in `direct` only its assignments are made, on the bindings themselves. -/
structure RunsBeside (t child direct : Table) : Prop where
  /-- On top of the frames of the table is one that mirrors the values of the other run. -/
  child : ∃ f, child = { t with stack := f :: t.stack, floor := t.stack.length } ∧
    t.stack.Mirrors direct.stack [f]
  /-- Bindings have been assigned to, and nothing else has changed. -/
  direct : ∃ bs, direct = { t with stack := t.stack.assignAll bs }

/-- The two runs begin beside each other, when the child is opened and seeded. -/
lemma runsBeside_seed (t : Table) :
    t.RunsBeside (t.openChild.table.afterwards (t.openChild.answer.seed t.openChild.table)) t where
  child := by
    have hbase : t.openChild.answer.base ≤ t.openChild.table.stack.length := Nat.le_succ _
    have houtside : t.openChild.table.stack.outside t.openChild.answer.base = t.stack :=
      Stack.outside_append [Frame.empty t.stack.length] t.stack
    have hseed : t.openChild.answer.seed t.openChild.table =
        t.openChild.table.insertAll t.stack.scan := by
      rw [Child.seed, seed, if_pos hbase, houtside]
    have hempty : ∀ c ∈ (Frame.empty t.stack.length).bindings, t.stack.resolve c.name = none := by
      simp
    refine ⟨_, ?_, Stack.mirrors_extend_copies hempty t.stack.length⟩
    rw [hseed, afterwards_insertAll rfl]
    rfl
  direct := ⟨[], rfl⟩

variable {t c d : Table}

/-- **One edit of a body** leaves the runs beside each other.

**Proof sketch.** A declaration comes after all copies, so it is not found under a name that the
table declares. An assignment to such a name hits its copy in the one run and the binding itself
in the other; one to another name changes no value that is mirrored, and in the child does not
get through to the table. -/
lemma RunsBeside.edited (h : t.RunsBeside c d) {e : Edit} (he : e.isLocal = true) :
    t.RunsBeside (c.edited e) (if e.isAssign then d.edited e else d) := by
  obtain ⟨⟨f, rfl, hmirrors⟩, bs, rfl⟩ := h
  cases e with
  | insert name typeTag value =>
    refine ⟨⟨f.extend [⟨name, typeTag, value, t.stack.length⟩], ?_, hmirrors.extend _⟩, bs, rfl⟩
    rw [edited_insert rfl]
  | assign name value =>
    obtain ⟨g, hg⟩ := Stack.exists_assign_singleton f name value
    have hchild : Stack.assign (f :: t.stack) name value = g :: t.stack := by
      have happend := hmirrors.assign_append name value
      rwa [hg] at happend
    have hmirrors' := hmirrors.assign name value
    rw [hg] at hmirrors'
    rw [edited_assign, edited_assign, hchild]
    refine ⟨⟨g, rfl, hmirrors'⟩, bs ++ [⟨name, "", value, 0⟩], ?_⟩
    rw [Stack.assignAll_append]
    rfl
  | erase | enter | exit => cases he

/-- What one edit keeps of two runs, of which the second makes the assignments only, a whole body
keeps of them. -/
lemma foldl_edited_beside {R : Table → Table → Prop}
    (hedit : ∀ c d e, R c d → e.isLocal = true →
      R (c.edited e) (if e.isAssign then d.edited e else d))
    (h : R c d) {es : List Edit} (hes : ∀ e ∈ es, e.isLocal = true) :
    R (es.foldl Table.edited c) ((es.filter Edit.isAssign).foldl Table.edited d) := by
  induction es generalizing c d with
  | nil => exact h
  | cons e es ih =>
    have hnext := hedit c d e h (hes e List.mem_cons_self)
    have hrest := ih hnext fun e' he' => hes e' (List.mem_cons_of_mem e he')
    rw [List.foldl_cons, List.filter_cons]
    split
    · rename_i hassign
      rw [if_pos hassign] at hrest
      exact hrest
    · rename_i hassign
      rw [if_neg hassign] at hrest
      exact hrest

/-- A whole body leaves the runs beside each other. -/
theorem RunsBeside.foldl (h : t.RunsBeside c d) {es : List Edit}
    (hes : ∀ e ∈ es, e.isLocal = true) :
    t.RunsBeside (es.foldl Table.edited c) ((es.filter Edit.isAssign).foldl Table.edited d) :=
  foldl_edited_beside (fun _ _ _ h he => h.edited he) h hes

/-- In both runs, a name that the table declares can be assigned to. -/
lemma RunsBeside.exists_assign (h : t.RunsBeside c d) {name : String}
    (hname : name ∈ t.stack.names) (value : String) :
    (∃ e, c.assign name value = some e ∧ e.answer = .ok ()) ∧
      ∃ e, d.assign name value = some e ∧ e.answer = .ok () := by
  obtain ⟨⟨f, rfl, hmirrors⟩, bs, rfl⟩ := h
  refine ⟨?_, ?_⟩
  · have hmem := hmirrors.names_subset hname
    rw [Stack.mem_names, Stack.resolve_singleton] at hmem
    have hsome : (Stack.locate (f :: t.stack) name).isSome = true := by
      rw [Stack.isSome_locate, Stack.resolve_cons, Option.isSome_or, hmem, Bool.true_or]
    obtain ⟨p, hp⟩ := Option.isSome_iff_exists.1 hsome
    exact ⟨_, assign_eq hp value, rfl⟩
  · have hsome : ((t.stack.assignAll bs).locate name).isSome = true := by
      rw [Stack.locate_assignAll, ← Stack.mem_names_iff_locate]
      exact hname
    obtain ⟨p, hp⟩ := Option.isSome_iff_exists.1 hsome
    exact ⟨_, assign_eq hp value, rfl⟩

/-- **The end of a body.** The child writes back all names of the table, and once it is closed
the table is that of the other run. -/
theorem RunsBeside.exists_settled (h : t.RunsBeside c d) :
    ∃ w e, t.openChild.answer.writeBack c = some w ∧ w.answer = t.stack.names.card ∧
      t.openChild.answer.close w.table = some e ∧ e.table = d := by
  obtain ⟨⟨f, rfl, hmirrors⟩, bs, rfl⟩ := h
  have hinside : Stack.inside (f :: t.stack) t.stack.length = [f] :=
    Stack.inside_append [f] t.stack
  have houtside : Stack.outside (f :: t.stack) t.stack.length = t.stack :=
    Stack.outside_append [f] t.stack
  have hle : t.stack.length ≤
      ({ t with stack := f :: t.stack, floor := t.stack.length } : Table).stack.length :=
    Nat.le_succ _
  obtain ⟨w, hw, hanswer, htable⟩ := writeBack_of_le hle
  simp only [hinside, houtside, hmirrors.assignAll_visible] at hanswer htable
  have hlen : (t.stack.assignAll bs).length = t.stack.length := Stack.length_assignAll _ _
  have hbase : t.openChild.answer.base ≤ w.table.stack.length := by
    rw [htable]
    show t.stack.length ≤ ([f] ++ t.stack.assignAll bs).length
    rw [List.length_append, hlen]
    omega
  obtain ⟨e, he, -, hclosed⟩ := Child.close_of_le hbase
  refine ⟨w, e, hw, ?_, he, ?_⟩
  · rw [hanswer, Finset.inter_eq_right.2 hmirrors.names_subset]
  · have hcut : Stack.outside ([f] ++ t.stack.assignAll bs) t.stack.length =
        t.stack.assignAll bs := by
      rw [← hlen]
      exact Stack.outside_append _ _
    rw [hclosed, htable]
    simp only [openChild, hcut]

end Table

namespace Session

variable {s : Session} {slot : Nat} {t : Table}

/-! ## Runs of edits -/

/-- An assignment that is carried out is answered so. -/
lemma reply_step_assign (ht : s.tables[slot]? = some t) {name value : String}
    (h : ∃ e, t.assign name value = some e ∧ e.answer = .ok ()) :
    (s.step (.edit slot (.assign name value))).reply = .done := by
  obtain ⟨e, he, hok⟩ := h
  simp only [reply_step_edit ht, Table.replyTo, he, Table.replyOf, hok, Reply.ofExcept]

/-! ## The two runs in a session -/

/-- The session with a child opened on the slot, seen from the slot. -/
lemma openChild_slot (ht : s.tables[slot]? = some t) :
    (s.openChild slot t).session.tables[slot]? = some t.openChild.table ∧
      (s.openChild slot t).session.child? slot = some t.openChild.answer := by
  have hlt : slot < s.tables.length := (List.getElem?_eq_some_iff.1 ht).1
  refine ⟨List.getElem?_set_self hlt, ?_⟩
  simp [openChild, child?]

/-- A body that runs in a seeded child puts the table after all its edits in the place of the
table that the child was opened with. -/
lemma final_body (ht : s.tables[slot]? = some t) (es : List Edit) :
    s.final (.openChild slot :: .seed slot :: es.map (.edit slot)) =
      (s.openChild slot t).session.setTable slot
        (es.foldl Table.edited
          (t.openChild.table.afterwards (t.openChild.answer.seed t.openChild.table))) := by
  obtain ⟨htable, hchild⟩ := openChild_slot ht
  have hopen : (s.step (.openChild slot)).session = (s.openChild slot t).session := by
    rw [Session.step, withTable, ht]
  have hseed : ((s.openChild slot t).session.step (.seed slot)).session =
      (s.openChild slot t).session.setTable slot
        (t.openChild.table.afterwards (t.openChild.answer.seed t.openChild.table)) := by
    rw [Session.step, withChild, withTable, htable]
    simp only [hchild]
    exact session_commit htable _ _
  rw [final_cons, final_cons, hopen, hseed, final_edits (getElem?_setTable htable _),
    setTable_setTable]

/-- Closing a child, whatever its table has become, gives back the session that the child was
opened in, with the table that the child leaves behind. -/
lemma session_step_closeChild (ht : s.tables[slot]? = some t) {u : Table} {e : Effect Nat}
    (he : t.openChild.answer.close u = some e) :
    (((s.openChild slot t).session.setTable slot u).step (.closeChild slot)).session =
      s.setTable slot e.table := by
  have hu := getElem?_setTable (openChild_slot ht).1 u
  set inside := (s.openChild slot t).session.setTable slot u with hinside
  have hchildren : inside.children =
      { slot := slot, child := t.openChild.answer } :: s.children := rfl
  have hspans : (if t.openChild.answer.hasSpan then inside.spans.tail else inside.spans) =
      s.spans := by
    rw [hinside, setTable, openChild]
    cases t.openChild.answer.hasSpan <;> rfl
  have htables : inside.tables.set slot e.table = s.tables.set slot e.table := by
    rw [hinside, setTable, openChild]
    simp only [List.set_set]
  rw [Session.step]
  simp only [hchildren, closeChild, withTable, hu, he, commit]
  rw [hspans]
  simp only [setTable, htables]

/-- In a session whose innermost child was opened on the slot, with the table `c` there: the
write-back is answered by its count, and when the child is closed too, the child is gone and the
slot has the table that both leave behind. -/
lemma final_settle (ht : s.tables[slot]? = some t) {c : Table} {w e : Effect Nat}
    (hw : t.openChild.answer.writeBack c = some w)
    (he : t.openChild.answer.close w.table = some e) :
    (((s.openChild slot t).session.setTable slot c).step (.writeBack slot)).reply =
        .number w.answer ∧
      ((s.openChild slot t).session.setTable slot c).final [.writeBack slot, .closeChild slot] =
        s.setTable slot e.table := by
  obtain ⟨htable, hchild⟩ := openChild_slot ht
  have hc := getElem?_setTable htable c
  have hchild' : ((s.openChild slot t).session.setTable slot c).child? slot =
      some t.openChild.answer := hchild
  have hstep : ((s.openChild slot t).session.setTable slot c).step (.writeBack slot) =
      ((s.openChild slot t).session.setTable slot c).commit slot .number (some w) := by
    rw [Session.step, withChild, withTable, hc]
    simp only [hchild', hw]
  refine ⟨by rw [hstep]; rfl, ?_⟩
  rw [final_cons, final_cons, final_nil, hstep, session_commit hc, Table.afterwards_some,
    setTable_setTable, session_step_closeChild ht he]

/-- **A loop body assigns in place.** In a session with a table `t` in a slot, a body of
declarations and assignments is run in a child that is opened on the slot, seeded, written back
and closed. Then:

* the session is as if only the assignments of the body had been made, in order, on the slot
  itself, where some of them may be refused;
* the write-back counts the names that `t` declares;
* each assignment of the body to one of these names is carried out, in the child and on the slot
  itself.

**Proof sketch.** Both runs are runs of edits on the table of the slot, and these stay beside each
other. -/
theorem loop_body_assigns_in_place (ht : s.tables[slot]? = some t) {body : List Edit}
    (hbody : ∀ e ∈ body, e.isLocal = true) :
    s.final (.openChild slot :: .seed slot ::
        (body.map (.edit slot) ++ [.writeBack slot, .closeChild slot])) =
      s.final ((body.filter Edit.isAssign).map (.edit slot)) ∧
    ((s.final (.openChild slot :: .seed slot :: body.map (.edit slot))).step
        (.writeBack slot)).reply = .number t.stack.names.card ∧
    ∀ before name value after, body = before ++ .assign name value :: after →
      name ∈ t.stack.names →
      ((s.final (.openChild slot :: .seed slot :: before.map (.edit slot))).step
          (.edit slot (.assign name value))).reply = .done ∧
        ((s.final ((before.filter Edit.isAssign).map (.edit slot))).step
          (.edit slot (.assign name value))).reply = .done := by
  have hbeside := t.runsBeside_seed.foldl hbody
  obtain ⟨w, e, hw, hanswer, he, htable⟩ := hbeside.exists_settled
  obtain ⟨hreply, hsettle⟩ := final_settle ht hw he
  refine ⟨?_, ?_, ?_⟩
  · rw [← List.cons_append, ← List.cons_append, final_append, final_body ht, hsettle, htable,
      final_edits ht]
  · rw [final_body ht, hreply, hanswer]
  · intro before name value after hsplit hname
    have hbefore : ∀ e' ∈ before, e'.isLocal = true := by
      intro e' he'
      apply hbody
      rw [hsplit]
      exact List.mem_append_left _ he'
    obtain ⟨hchild, hdirect⟩ :=
      (t.runsBeside_seed.foldl hbefore).exists_assign hname value
    refine ⟨?_, ?_⟩
    · rw [final_body ht]
      exact reply_step_assign (getElem?_setTable (openChild_slot ht).1 _) hchild
    · rw [final_edits ht]
      exact reply_step_assign (getElem?_setTable ht _) hdirect

/-- A body over a table that declares `x` twice: it overwrites `x`, hides it, overwrites it again,
and declares and overwrites a name of its own, which the slot itself refuses to overwrite. -/
theorem loop_body_assigns_in_place_hidden :
    ∃ s : Session, s.Reachable ∧
      s.final [.openChild 0, .seed 0, .edit 0 (.assign "x" "3"),
          .edit 0 (.insert "x" "int" "4"), .edit 0 (.assign "x" "5"),
          .edit 0 (.insert "y" "int" "6"), .edit 0 (.assign "y" "7"), .writeBack 0,
          .closeChild 0] =
        s.final [.edit 0 (.assign "x" "3"), .edit 0 (.assign "x" "5"),
          .edit 0 (.assign "y" "7")] ∧
      ((s.final [.openChild 0, .seed 0, .edit 0 (.assign "x" "3"),
          .edit 0 (.insert "x" "int" "4")]).step (.edit 0 (.assign "x" "5"))).reply = .done ∧
      (s.final [.edit 0 (.assign "x" "3"), .edit 0 (.assign "x" "5"),
        .edit 0 (.assign "y" "7")]).tables =
        [⟨[⟨0, [⟨"x", "int", "5", 0⟩, ⟨"x", "str", "2", 0⟩]⟩], 0, .traced⟩] := by
  have ht : ((ofContexts [.traced]).final
      [.edit 0 (.insert "x" "int" "1"), .edit 0 (.insert "x" "str" "2")]).tables[0]? =
      some ⟨[⟨0, [⟨"x", "int", "1", 0⟩, ⟨"x", "str", "2", 0⟩]⟩], 0, .traced⟩ := rfl
  have hlocal : ∀ e ∈ [Edit.assign "x" "3", .insert "x" "int" "4", .assign "x" "5",
      .insert "y" "int" "6", .assign "y" "7"], e.isLocal = true := by decide
  obtain ⟨hsame, -, hcarried⟩ := loop_body_assigns_in_place ht hlocal
  have hx := hcarried [.assign "x" "3", .insert "x" "int" "4"] "x" "5" _ rfl (by decide)
  exact ⟨_, ⟨_, _, rfl⟩, hsame, hx.1, by decide⟩

end Session

end LexicalScope
