import Mathlib.Data.List.Basic
import LexicalScope.Proofs.Session.Range
import LexicalScope.Proofs.Table.Transfer

set_option autoImplicit false

/-!
# Write-backs between tables

A write-back from one table to another goes through the names that both declare. Each of them is
written once, from the innermost declaration of the source to the innermost declaration of the
receiver, however often and in how many frames the two declare it.

## Main results

* `LexicalScope.Session.step_carry` — what a write-back makes of a session.
* `LexicalScope.Session.carry_writes_shared_names` — what is written, counted and reported, in every
  session that is reached.
-/

namespace LexicalScope

namespace Session

variable {s : Session} {source receiver : Nat} {inner outer : Table}

/-- What a write-back makes of a session. -/
lemma step_carry (hne : receiver ≠ source) (hinner : s.tables[source]? = some inner)
    (houter : s.tables[receiver]? = some outer) :
    s.step (.carry source receiver) =
      { reply := .number (inner.carryInto outer).answer
        session := s.setTable receiver (inner.carryInto outer).table
        log := s.observe receiver (inner.carryInto outer).trace } := by
  rw [Session.step, withTables, withTable_of_some hinner]
  simp only [if_neg hne, houter, commit]

/-- What an observer sees of a write-back: an event for each binding that is overwritten, if the
receiver logs. -/
lemma log_step_carry (hne : receiver ≠ source) (hinner : s.tables[source]? = some inner)
    (houter : s.tables[receiver]? = some outer) (hleveled : outer.stack.IsLeveled) :
    (s.step (.carry source receiver)).log =
      if outer.context.tracer = .log then
        (inner.written outer).map fun b =>
          .event receiver ⟨.wroteBack b.name, b.scopeLevel⟩ s.spans.reverse
      else [] := by
  rw [step_carry hne hinner houter, observe, inner.trace_carryInto hleveled]
  cases htracer : outer.context.tracer with
  | silent =>
    rw [if_neg (by decide), List.map_eq_nil_iff, List.flatMap_eq_nil_iff]
    exact fun b _ => Table.emit_of_silent htracer _ _
  | log =>
    have hsingle : ∀ b : Binding, outer.context.emit (.wroteBack b.name) b.scopeLevel =
        [⟨.wroteBack b.name, b.scopeLevel⟩] := fun b => Table.emit_of_log htracer _ _
    simp only [hsingle]
    rw [if_pos trivial, ← List.map_eq_flatMap, List.map_map]
    rfl

/-- **A write-back writes exactly the shared names.** In every session that is reached, from fresh
tables, with exchanges at any time and children closed in any order, write one table back to
another one.

* The source is as it was. In the receiver the binding of each name that both declare gets the value
  that the name has in the source. Every other binding stays, and none is created, removed or moved.
* The reply is the number of names that both declare. Each of them is written once: the bindings
  that are overwritten have different names, and are those that a shared name refers to. If the
  receiver logs, an event is reported for each, with the level of the binding, and no other.
* Writing back a second time has the same reply and changes nothing. -/
theorem carry_writes_shared_names (hs : s.ReachableInAnyOrder) (hne : receiver ≠ source)
    (hinner : s.tables[source]? = some inner) (houter : s.tables[receiver]? = some outer) :
    ∃ outer', (s.step (.carry source receiver)).session = s.setTable receiver outer' ∧
      inner.WritesBack outer outer' ∧
      (s.step (.carry source receiver)).session.tables[source]? = some inner ∧
      (s.step (.carry source receiver)).reply =
        .number (inner.stack.names ∩ outer.stack.names).card ∧
      ((inner.written outer).map Binding.name).Nodup ∧
      (inner.written outer).length = (inner.stack.names ∩ outer.stack.names).card ∧
      (∀ b, b ∈ inner.written outer ↔
        outer.resolve b.name = some b ∧ (inner.resolve b.name).isSome = true) ∧
      ((s.step (.carry source receiver)).log =
        if outer.context.tracer = .log then
          (inner.written outer).map fun b =>
            .event receiver ⟨.wroteBack b.name, b.scopeLevel⟩ s.spans.reverse
        else []) ∧
      ((s.step (.carry source receiver)).session.step (.carry source receiver)).reply =
        (s.step (.carry source receiver)).reply ∧
      ((s.step (.carry source receiver)).session.step (.carry source receiver)).session =
        (s.step (.carry source receiver)).session := by
  have hleveled := (hs.valid.tables outer (List.mem_of_getElem? houter)).leveled
  have hlog := log_step_carry hne hinner houter hleveled
  have hsource : (s.setTable receiver (inner.carryInto outer).table).tables[source]? =
      some inner := (List.getElem?_set_ne hne).trans hinner
  obtain ⟨hanswer, htable⟩ := inner.carryInto_carryInto outer
  have hagain := step_carry hne hsource (getElem?_setTable houter _)
  rw [step_carry hne hinner houter] at hlog ⊢
  refine ⟨_, rfl, inner.writesBack_carryInto outer, hsource, ?_, inner.nodup_written outer,
    inner.length_written outer, inner.mem_written outer, hlog, ?_, ?_⟩
  · rw [inner.answer_carryInto, inner.length_written]
  · rw [hagain, hanswer]
  · rw [hagain, htable, setTable_setTable]

/-- Both tables declare `x` and `y` several times, the source under a child. The innermost values
are written to the innermost bindings, each once; the outer `x` and the second `y` of the receiver
stay, and so does `z`, which the source does not declare. -/
theorem carry_writes_shared_names_shadowed :
    ∃ s outer outer', s = (ofContexts [.quiet, .traced]).final
        [.edit 0 (.insert "y" "int" "1"), .edit 0 (.insert "x" "int" "2"), .openChild 0,
          .edit 0 (.insert "x" "int" "3"), .edit 0 (.insert "x" "int" "4"),
          .edit 0 (.insert "w" "int" "5"), .edit 1 (.insert "x" "int" "a"),
          .edit 1 (.insert "y" "int" "b"), .edit 1 (.insert "y" "int" "c"), .edit 1 .enter,
          .edit 1 (.insert "z" "int" "d"), .edit 1 (.insert "x" "str" "e")] ∧
      s.tables[1]? = some outer ∧
      (s.step (.carry 0 1)).session = s.setTable 1 outer' ∧
      outer'.resolve "x" = some ⟨"x", "str", "3", 1⟩ ∧
      outer'.resolve "y" = some ⟨"y", "int", "1", 0⟩ ∧
      outer'.stack.bindingAt? ⟨0, 0⟩ = some ⟨"x", "int", "a", 0⟩ ∧
      outer'.stack.bindingAt? ⟨0, 2⟩ = some ⟨"y", "int", "c", 0⟩ ∧
      (s.step (.carry 0 1)).reply = .number 2 ∧
      (s.step (.carry 0 1)).log =
        [.event 1 ⟨.wroteBack "x", 1⟩ [], .event 1 ⟨.wroteBack "y", 0⟩ []] ∧
      ((s.step (.carry 0 1)).session.step (.carry 0 1)).session =
        (s.step (.carry 0 1)).session := by
  have hreach : ((ofContexts [.quiet, .traced]).final
      [.edit 0 (.insert "y" "int" "1"), .edit 0 (.insert "x" "int" "2"), .openChild 0,
        .edit 0 (.insert "x" "int" "3"), .edit 0 (.insert "x" "int" "4"),
        .edit 0 (.insert "w" "int" "5"), .edit 1 (.insert "x" "int" "a"),
        .edit 1 (.insert "y" "int" "b"), .edit 1 (.insert "y" "int" "c"), .edit 1 .enter,
        .edit 1 (.insert "z" "int" "d"),
        .edit 1 (.insert "x" "str" "e")]).ReachableInAnyOrder := Reachable.inAnyOrder ⟨_, _, rfl⟩
  have hne : 1 ≠ 0 := by decide
  obtain ⟨outer', hsession, hwrites, -, hreply, -, hlength, -, hlog, -, hagain⟩ :=
    carry_writes_shared_names hreach hne rfl rfl
  refine ⟨_, _, outer', rfl, rfl, hsession, (hwrites.resolve "x").trans ?_,
    (hwrites.resolve "y").trans ?_, (hwrites.binding _).trans ?_, (hwrites.binding _).trans ?_,
    hreply.trans ?_, hlog.trans ?_, hagain⟩
  · decide
  · decide
  · decide
  · decide
  · rw [← hlength]
    decide
  · decide

end Session

end LexicalScope
