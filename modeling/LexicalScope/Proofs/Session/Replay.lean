import Mathlib.Data.List.Basic
import LexicalScope.Proofs.Session.Law
import LexicalScope.Proofs.Session.Valid
import LexicalScope.Proofs.Trace.Outline

set_option autoImplicit false

/-!
# Replaying the events of a table

A table that logs its events reports everything that happens to its frames and names. Whoever
replays these events, beginning with a single empty frame, has the outline of the table at all
times: every event fits the outline reached so far, and the outline after the last one is that of
the table. This holds in every run, also if the table is exchanged for others and children are
closed on it that were opened elsewhere, in whatever order.

## Main definitions

* `LexicalScope.Table.Retraces` — the events of an operation lead from the outline of a table to
  that of the table afterwards.
* `LexicalScope.Session.whereabouts`, `LexicalScope.Session.history` — the slot of a table at the
  end of a run, and the events that it emitted.

## Main results

* `LexicalScope.Table.isLaw_retraces` — the events of every operation retrace what it does.
* `LexicalScope.Session.exists_replayed` — so do the events of every run.
* `LexicalScope.Session.history_replays_to_outline` — the events of a fresh table replay to its
  outline.
-/

namespace LexicalScope

namespace Table

/-- The events of an operation on a valid table, if they are logged, lead from the outline of the
table to that of the table afterwards. The context is not changed. -/
def Retraces (t : Table) (trace : List Emission) (t' : Table) : Prop :=
  t.Valid → t'.context = t.context ∧
    (t.context.tracer = .log → t.stack.outline.replayAll? trace = some t'.stack.outline)

/-- An operation that is not carried out, or changes nothing and reports nothing, retraces. -/
lemma retraces_refl (t : Table) : Retraces t [] t :=
  fun _ => ⟨rfl, fun _ => rfl⟩

/-- The outline of a table is that of the outer frames and the names of the current one. -/
lemma outline_of_cons {t : Table} {f : Frame} {outer : Stack} (hf : t.stack = f :: outer) :
    t.stack.outline = outer.outline ++ [f.nameList] := by
  rw [hf, Stack.outline_cons]

/-- Declarations retrace: the names are declared in the innermost frame, one after the other. -/
lemma retraces_insertAll (t : Table) (bs : List Binding) : Follows Retraces t (t.insertAll bs) := by
  intro hvalid
  obtain ⟨f, outer, hf⟩ := hvalid.exists_cons
  rw [insertAll_of_stack_eq_cons hf]
  refine ⟨rfl, fun hlog => ?_⟩
  have hnames : Frame.nameList
      { f with bindings := f.bindings ++ bs.map fun b => b.atLevel outer.length } =
        f.nameList ++ bs.map Binding.name := by
    rw [Frame.nameList, List.map_append, List.map_map]
    rfl
  simp only [emitted, afterwards_some, emit_of_log hlog]
  rw [outline_of_cons hf, ← List.map_eq_flatMap,
    Outline.replayAll?_declared (Stack.length_outline outer), Stack.outline_cons, hnames]

/-- A miss is reported at the innermost frame, where the name does not stand. -/
lemma retraces_miss {t : Table} {f : Frame} {outer : Stack} (hf : t.stack = f :: outer)
    {name : String} (h : f.find? name = none) {α : Type} :
    Follows Retraces t (t.miss name : Option (Effect (Except Refusal α))) := by
  intro _
  have hnot : name ∉ f.nameList := by
    rw [Frame.mem_nameList, h]
    simp
  rw [afterwards_miss]
  refine ⟨rfl, fun hlog => ?_⟩
  simp only [miss, hf, emitted, emit_of_log hlog, Outline.replayAll?_singleton]
  rw [Stack.outline_cons, Outline.replay?_missed (Stack.length_outline outer) hnot]

/-- Overwriting a value retraces: the name stands in the frame of the level that is reported, or it
is missed. -/
lemma retraces_assign (t : Table) (name value : String) :
    Follows Retraces t (t.assign name value) := by
  intro hvalid
  cases hloc : t.stack.locate name with
  | none =>
    obtain ⟨f, outer, hf⟩ := hvalid.exists_cons
    have hnone := (t.stack.locate_eq_none_iff name).1 hloc
    have hfind : f.find? name = none := by
      rw [hf, Stack.resolve_cons, Option.or_eq_none_iff] at hnone
      exact hnone.1
    rw [assign_of_resolve_eq_none value hnone]
    exact retraces_miss hf hfind hvalid
  | some p =>
    rw [assign_eq hloc]
    refine ⟨rfl, fun hlog => ?_⟩
    simp only [emitted, afterwards_some, emit_of_log hlog, Outline.replayAll?_singleton]
    rw [Outline.replay?_updated (Stack.mem_outline_of_locate hloc),
      Stack.outline_of_shape (Stack.shape_assign _ _ _)]

/-- A removal retraces: the name stands in the innermost frame and goes away, or it is missed. -/
lemma retraces_erase (t : Table) (name : String) : Follows Retraces t (t.erase name) := by
  intro hvalid
  obtain ⟨f, outer, hf⟩ := hvalid.exists_cons
  cases hfind : f.find? name with
  | none =>
    have hmiss : t.erase name = t.miss name := by
      simp only [erase, hf, hfind]
    rw [hmiss]
    exact retraces_miss hf hfind hvalid
  | some b =>
    have hname : name ∈ f.nameList := by
      rw [Frame.mem_nameList, hfind, Option.isSome_some]
    have heq : t.erase name =
        some
          { answer := .ok b
            table := { t with stack := f.erase name :: outer }
            trace := t.context.emit (.removed name) outer.length } := by
      simp only [erase, hf, hfind]
    rw [heq]
    refine ⟨rfl, fun hlog => ?_⟩
    simp only [emitted, afterwards_some, emit_of_log hlog, Outline.replayAll?_singleton]
    rw [outline_of_cons hf, Outline.replay?_removed (Stack.length_outline outer) hname,
      Stack.outline_cons, Frame.nameList_erase]

/-- Entering a scope retraces. -/
lemma retraces_enter (t : Table) : Follows Retraces t (some t.enter) := by
  intro _
  refine ⟨rfl, fun hlog => ?_⟩
  simp only [emitted, enter, afterwards_some, emit_of_log hlog, Outline.replayAll?_singleton]
  rw [Outline.replay?_entered (Stack.length_outline t.stack), Stack.outline_cons]
  rfl

/-- Leaving a scope retraces, refused or not. -/
lemma retraces_exit (t : Table) : Follows Retraces t t.exit := by
  intro hvalid
  obtain ⟨f, outer, hf⟩ := hvalid.exists_cons
  by_cases hfloor : outer.length ≤ t.floor
  · have heq : t.exit = some (t.unchanged (.error .atFloor)) := by
      simp only [exit, hf, if_pos hfloor]
    rw [heq]
    exact retraces_refl t hvalid
  · have heq : t.exit =
        some
          { answer := .ok ()
            table := { t with stack := outer }
            trace := t.context.emit (.exited f.bindings.length) outer.length } := by
      simp only [exit, hf, if_neg hfloor, (hvalid.isAt hf).1]
    have hreaped : List.length (List.flatten [f.nameList]) = f.bindings.length := by
      rw [List.flatten_singleton, Frame.nameList, List.length_map]
    rw [heq]
    refine ⟨rfl, fun hlog => ?_⟩
    simp only [emitted, afterwards_some, emit_of_log hlog, Outline.replayAll?_singleton]
    rw [outline_of_cons hf, Outline.replay?_exited (Stack.length_outline outer) hreaped]

/-- Write-backs retrace: each one reaches a name that stands in the frame it is reported at.

**Proof sketch.** Induction on the bindings. The frame that a name is located in, outside of the
level, lies at the same depth in the whole stack, and writing changes no outline. -/
lemma retraces_assignAll (t : Table) (level : Nat) (bs : List Binding) :
    Follows Retraces t (some (t.assignAll level bs)) := by
  rintro -
  refine ⟨context_assignAll t level bs, fun hlog => ?_⟩
  simp only [emitted, afterwards_some]
  induction bs generalizing t with
  | nil => rfl
  | cons b bs ih =>
    rw [assignAll]
    split
    · exact ih t hlog
    · rename_i p hloc
      have hname : b.name ∈ t.stack.outline.namesAt p.depth := by
        have hlt := Stack.depth_lt_of_locate hloc
        rw [← Stack.length_outline] at hlt
        rw [← Stack.inside_append_outside t.stack level, Stack.outline_append,
          Outline.namesAt_append_of_lt hlt]
        exact Stack.mem_outline_of_locate hloc
      have hwritten : (t.stack.setValueAt p b.value).outline = t.stack.outline :=
        Stack.outline_of_shape (Stack.shape_setValueAt _ _ _)
      have hrest := ih { t with stack := t.stack.setValueAt p b.value } hlog
      simp only [hwritten] at hrest
      simp only [emit_of_log hlog, List.singleton_append]
      rw [Outline.replayAll?_cons, Outline.replay?_wroteBack hname, Option.bind_some, hrest]

/-- Closing a child retraces: as many names are reported as go away with the inner frames. -/
lemma retraces_close (t : Table) (c : Child) : Follows Retraces t (c.close t) := by
  intro hvalid
  by_cases hbase : c.base ≤ t.stack.length
  · have heq : c.close t =
        some
          { answer := (t.stack.inside c.base).size
            table := { t with stack := t.stack.outside c.base, floor := c.savedFloor }
            trace := t.context.emit (.exited (t.stack.inside c.base).size) c.base } :=
      if_pos hbase
    have hlen : (t.stack.outside c.base).outline.length = c.base := by
      rw [Stack.length_outline, Stack.length_outside _ hbase]
    have hsplit : t.stack.outline =
        (t.stack.outside c.base).outline ++ (t.stack.inside c.base).outline := by
      rw [← Stack.outline_append, Stack.inside_append_outside]
    rw [heq]
    refine ⟨rfl, fun hlog => ?_⟩
    simp only [emitted, afterwards_some, emit_of_log hlog, Outline.replayAll?_singleton]
    rw [hsplit, Outline.replay?_exited hlen (Stack.length_flatten_outline _)]
  · rw [Child.close, if_neg hbase]
    exact retraces_refl t hvalid

/-- **The events of every operation retrace what it does.** -/
theorem isLaw_retraces : IsLaw Retraces where
  rest := retraces_refl
  insertAll := retraces_insertAll
  assign := retraces_assign
  erase := retraces_erase
  enter := retraces_enter
  exit := retraces_exit
  assignAll := retraces_assignAll
  -- opening a child enters a scope, and the floor is not part of the outline
  openChild := retraces_enter
  close := retraces_close

end Table

namespace Session

/-! ## Following a table through a run -/

/-- The slot in which the table that stands in `slot` stands at the end of a run. -/
def whereabouts : Session → Nat → List Move → Nat
  | _, slot, [] => slot
  | s, slot, m :: ms => whereabouts (s.move m).session (s.movedBy slot m) ms

/-- The events that the table which stands in `slot` emits in a run, in whichever slots it
stands. -/
def history : Session → Nat → List Move → List Emission
  | _, _, [] => []
  | s, slot, m :: ms =>
    (s.move m).emissionsAt slot ++ history (s.move m).session (s.movedBy slot m) ms

/-- The events that a table logs in a run lead from its outline to that at the end of the run.

**Proof sketch.** Induction on the run, following the table to the slot in which it stands after
the first move. The events of this move retrace what it does to the table, as every move obeys what
operations obey. -/
theorem exists_replayed {s : Session} (hs : s.Valid) {ms : List Move}
    (hms : ∀ m ∈ ms, m.isTrace = false) {slot : Nat} {t : Table}
    (ht : s.tables[slot]? = some t) (hlog : t.context.tracer = .log) :
    ∃ t', (s.ending ms).tables[s.whereabouts slot ms]? = some t' ∧
      t'.context = t.context ∧
      t.stack.outline.replayAll? (s.history slot ms) = some t'.stack.outline := by
  induction ms generalizing s slot t with
  | nil => exact ⟨t, ht, rfl, rfl⟩
  | cons m ms ih =>
    obtain ⟨hm, hrest⟩ := List.forall_mem_cons.1 hms
    obtain ⟨u, hu, hretraces⟩ := move_obeys Table.isLaw_retraces s hm ht
    obtain ⟨hcontext, hreplay⟩ := hretraces (hs.tables t (List.mem_of_getElem? ht))
    obtain ⟨t', ht', hcontext', hreplay'⟩ := ih (hs.move m) hrest hu (hcontext ▸ hlog)
    refine ⟨t', ht', hcontext'.trans hcontext, ?_⟩
    rw [history, Outline.replayAll?_append (hreplay hlog)]
    exact hreplay'

/-- **The events of a table replay to its outline.** In every run over fresh tables in which the
user makes up no events, in whatever order children are closed, follow a table whose events are
logged through the slots that it stands in. Beginning with a single empty frame, its events fit one
after the other, and after the last of them the outline is that of the table: the number of its
frames tells the level, the number of its names the size, and a name refers to something exactly if
it stands in a frame. -/
theorem history_replays_to_outline (contexts : List Context) {ms : List Move}
    (hms : ∀ m ∈ ms, m.isTrace = false) {slot : Nat} {c : Context}
    (hc : contexts[slot]? = some c) (hlog : c.tracer = .log) :
    ∃ t, ((ofContexts contexts).ending ms).tables[
        (ofContexts contexts).whereabouts slot ms]? = some t ∧
      Outline.replayAll? [[]] ((ofContexts contexts).history slot ms) =
        some t.stack.outline ∧
      t.stack.outline.length = t.level + 1 ∧ t.stack.outline.flatten.length = t.size ∧
      ∀ name, (t.resolve name).isSome = true ↔ ∃ names ∈ t.stack.outline, name ∈ names := by
  have ht : (ofContexts contexts).tables[slot]? = some (Table.ofContext c) := by
    rw [ofContexts, List.getElem?_map, hc, Option.map_some]
  obtain ⟨t, ht', -, hreplay⟩ := exists_replayed (valid_ofContexts contexts) hms ht hlog
  have hvalid : t.Valid := by
    have hreach := (ReachableInAnyOrder.ofContexts contexts).ending ms
    exact hreach.valid.tables t (List.mem_of_getElem? ht')
  refine ⟨t, ht', hreplay, ?_, Stack.length_flatten_outline _,
    Stack.isSome_resolve_iff_outline t.stack⟩
  rw [Stack.length_outline, hvalid.level_add_one]

/-- A table that is exchanged while a child is open on it: a child that was opened on another table
writes back and is closed on it, before the table's own child, which was opened later and is closed
without effect on the table that took its place. -/
theorem history_replays_to_outline_exchanged :
    ∃ t, ((ofContexts [.traced, .quiet]).ending
        [.step (.edit 0 (.insert "x" "int" "1")), .step (.openChild 1), .step (.edit 0 .enter),
          .step (.edit 0 .enter), .step (.edit 0 (.insert "y" "int" "2")), .step (.openChild 0),
          .step (.seed 0), .step (.edit 0 (.erase "y")), .step (.edit 0 (.erase "z")),
          .step (.swap 0 1), .step (.writeBack 1), .step (.edit 1 (.assign "x" "3")), .closeOn 1,
          .step (.edit 1 (.insert "w" "int" "4")), .closeOn 0]).tables[1]? = some t ∧
      Outline.replayAll? [[]]
        [⟨.declared "x", 0⟩, ⟨.entered, 1⟩, ⟨.entered, 2⟩, ⟨.declared "y", 2⟩, ⟨.entered, 3⟩,
          ⟨.declared "y", 3⟩, ⟨.declared "x", 3⟩, ⟨.removed "y", 3⟩, ⟨.missed "z", 3⟩,
          ⟨.wroteBack "x", 0⟩, ⟨.updated "x", 3⟩, ⟨.exited 2, 1⟩, ⟨.declared "w", 0⟩] =
        some t.stack.outline ∧
      t.stack.outline = [["x", "w"]] := by
  have hms : ∀ m ∈
      [Move.step (.edit 0 (.insert "x" "int" "1")), .step (.openChild 1), .step (.edit 0 .enter),
        .step (.edit 0 .enter), .step (.edit 0 (.insert "y" "int" "2")), .step (.openChild 0),
        .step (.seed 0), .step (.edit 0 (.erase "y")), .step (.edit 0 (.erase "z")),
        .step (.swap 0 1), .step (.writeBack 1), .step (.edit 1 (.assign "x" "3")), .closeOn 1,
        .step (.edit 1 (.insert "w" "int" "4")), .closeOn 0], m.isTrace = false := by decide
  have hc : [Context.traced, .quiet][0]? = some .traced := rfl
  obtain ⟨t, ht, hreplay, -⟩ := history_replays_to_outline _ hms hc rfl
  have hhistory : history (ofContexts [.traced, .quiet]) 0
      [.step (.edit 0 (.insert "x" "int" "1")), .step (.openChild 1), .step (.edit 0 .enter),
        .step (.edit 0 .enter), .step (.edit 0 (.insert "y" "int" "2")), .step (.openChild 0),
        .step (.seed 0), .step (.edit 0 (.erase "y")), .step (.edit 0 (.erase "z")),
        .step (.swap 0 1), .step (.writeBack 1), .step (.edit 1 (.assign "x" "3")), .closeOn 1,
        .step (.edit 1 (.insert "w" "int" "4")), .closeOn 0] =
      [⟨.declared "x", 0⟩, ⟨.entered, 1⟩, ⟨.entered, 2⟩, ⟨.declared "y", 2⟩, ⟨.entered, 3⟩,
        ⟨.declared "y", 3⟩, ⟨.declared "x", 3⟩, ⟨.removed "y", 3⟩, ⟨.missed "z", 3⟩,
        ⟨.wroteBack "x", 0⟩, ⟨.updated "x", 3⟩, ⟨.exited 2, 1⟩, ⟨.declared "w", 0⟩] := by decide
  rw [hhistory] at hreplay
  refine ⟨t, ht, hreplay, ?_⟩
  cases ht
  decide

end Session

end LexicalScope
