import Mathlib.Data.List.Basic
import LexicalScope.Proofs.Table.Copies

set_option autoImplicit false

/-!
# Cutting a table in two

A copy and a write-back exist between two tables, and inside one table across the level of a
child. The two are one: if the table is cut at the level, a write-back of the child is a write-back
from the inner table to the outer one, and both seeding and a copy of the outer table to a table
at the same level declare the copies of its bindings.

## Main results

* `LexicalScope.Table.assignAll_eq_of_outside` — a write-back across a level does to the outside
  what it would do to a table of its own.
* `LexicalScope.Table.transfers_agree_across_cut` — copies and write-backs across the level of a
  child are those between the two tables.
-/

namespace LexicalScope

namespace Table

/-- A write-back across a level answers, reports and does to the frames outside what the same
write-back to a table of these frames does. -/
theorem assignAll_eq_of_outside {t outer : Table} {level : Nat}
    (houter : outer.stack = t.stack.outside level) (hcontext : outer.context = t.context)
    (bs : List Binding) :
    (t.assignAll level bs).answer = (outer.assignAll outer.stack.length bs).answer ∧
      (t.assignAll level bs).table =
        { t with
          stack := t.stack.inside level ++
            (outer.assignAll outer.stack.length bs).table.stack } ∧
      (t.assignAll level bs).trace = (outer.assignAll outer.stack.length bs).trace := by
  refine ⟨?_, ?_, ?_⟩
  · rw [answer_assignAll, answer_assignAll, Stack.outside_length, houter]
  · rw [table_assignAll, table_assignAll outer, Stack.outside_length,
      Stack.inside_of_length_le (le_refl _), List.nil_append, houter]
  · rw [trace_assignAll, trace_assignAll, Stack.outside_length, houter, hcontext]

/-- **Copies and write-backs agree across a cut.** Cut a table at the base of a child, with at
least one frame outside: `outer` has the frames outside and reports like the table, `inner` has
the other frames, of which there may be none.

* Writing back from the child is writing back from `inner` to `outer`: the counts are the same, the
  frames of the table are then those of `inner` on top of what `outer` has become, and the same
  events are reported at the same levels in the same order.
* Seeding the child extends the current frame of the table by the copies of the bindings of `outer`,
  in the order in which resolution meets them, reports one declaration for each in this order, and
  changes no other frame. A copy of `outer` to any table at the same level extends the current
  frame of that table by the very same bindings and changes no other frame, and it reports the same
  events if that table reports like this one. -/
theorem transfers_agree_across_cut (c : Child) (t outer inner : Table) (hpos : 0 < c.base)
    (hbase : c.base ≤ t.stack.length) (houter : outer.stack = t.stack.outside c.base)
    (hinner : inner.stack = t.stack.inside c.base) (hcontext : outer.context = t.context) :
    (∃ e, c.writeBack t = some e ∧
      e.answer = (inner.carryInto outer).answer ∧
      e.table = { t with stack := inner.stack ++ (inner.carryInto outer).table.stack } ∧
      e.trace = (inner.carryInto outer).trace) ∧
    ∃ f rest e, t.stack = f :: rest ∧ c.seed t = some e ∧
      e.table = { t with stack := f.extend (outer.stack.copies t.level) :: rest } ∧
      (e.trace =
        outer.stack.scan.flatMap fun b => t.context.emit (.declared b.name) t.level) ∧
      ∀ dest g lower, dest.stack = g :: lower → dest.level = t.level →
        ∃ e', outer.copyInto dest = some e' ∧
          e'.table = { dest with stack := g.extend (outer.stack.copies t.level) :: lower } ∧
          (dest.context = t.context → e'.trace = e.trace) := by
  refine ⟨?_, ?_⟩
  · obtain ⟨hanswer, htable, htrace⟩ :=
      assignAll_eq_of_outside houter hcontext (t.stack.inside c.base).visible
    refine ⟨t.assignAll c.base (t.stack.inside c.base).visible, if_pos hbase, ?_, ?_, ?_⟩
    · rw [hanswer, carryInto, hinner]
    · rw [htable, carryInto, hinner]
    · rw [htrace, carryInto, hinner]
  · obtain ⟨f, rest, hf⟩ : ∃ f rest, t.stack = f :: rest :=
      List.exists_cons_of_length_pos (hpos.trans_le hbase)
    rw [houter]
    refine ⟨f, rest, _, hf, seed_of_stack_eq_cons hbase hf, rfl, rfl, ?_⟩
    intro dest g lower hdest hlevel
    refine ⟨_, copyInto_of_stack_eq_cons outer hdest, ?_, ?_⟩
    · rw [houter, hlevel]
    · intro heq
      rw [houter, hlevel, heq]

/-- A table whose child declares `x` twice, over an outside with three bindings of two names. The
first `x` is written back to the outer `x`, and `y` to the first outer `y`; a seeded frame gets a
copy of all three. -/
theorem transfers_agree_across_cut_shadowed :
    ∃ t e e', t = ⟨[⟨1, [⟨"x", "int", "3", 1⟩, ⟨"x", "int", "4", 1⟩, ⟨"y", "int", "5", 1⟩]⟩,
        ⟨0, [⟨"y", "int", "1", 0⟩, ⟨"x", "int", "2", 0⟩, ⟨"y", "str", "6", 0⟩]⟩], 1, .traced⟩ ∧
      Child.writeBack ⟨1, 0, true⟩ t = some e ∧ e.answer = 2 ∧
      e.table.stack.outside 1 =
        [⟨0, [⟨"y", "int", "5", 0⟩, ⟨"x", "int", "3", 0⟩, ⟨"y", "str", "6", 0⟩]⟩] ∧
      e.trace = [⟨.wroteBack "x", 0⟩, ⟨.wroteBack "y", 0⟩] ∧
      Child.seed ⟨1, 0, true⟩ t = some e' ∧
      e'.table.stack.inside 1 =
        [⟨1, [⟨"x", "int", "3", 1⟩, ⟨"x", "int", "4", 1⟩, ⟨"y", "int", "5", 1⟩,
          ⟨"y", "int", "1", 1⟩, ⟨"x", "int", "2", 1⟩, ⟨"y", "str", "6", 1⟩]⟩] ∧
      e'.trace = [⟨.declared "y", 1⟩, ⟨.declared "x", 1⟩, ⟨.declared "y", 1⟩] := by
  obtain ⟨⟨e, he, hanswer, htable, htrace⟩, f, rest, e', hf, he', hseeded, -, hcopy⟩ :=
    transfers_agree_across_cut ⟨1, 0, true⟩
      ⟨[⟨1, [⟨"x", "int", "3", 1⟩, ⟨"x", "int", "4", 1⟩, ⟨"y", "int", "5", 1⟩]⟩,
        ⟨0, [⟨"y", "int", "1", 0⟩, ⟨"x", "int", "2", 0⟩, ⟨"y", "str", "6", 0⟩]⟩], 1, .traced⟩
      ⟨[⟨0, [⟨"y", "int", "1", 0⟩, ⟨"x", "int", "2", 0⟩, ⟨"y", "str", "6", 0⟩]⟩], 0, .traced⟩
      ⟨[⟨1, [⟨"x", "int", "3", 1⟩, ⟨"x", "int", "4", 1⟩, ⟨"y", "int", "5", 1⟩]⟩], 0, .traced⟩
      (by decide) (by decide) rfl rfl rfl
  obtain ⟨copied, hcopied, -, htraces⟩ := hcopy ⟨[⟨1, []⟩, ⟨0, []⟩], 0, .traced⟩ _ _ rfl rfl
  refine ⟨_, e, e', rfl, he, hanswer, ?_, htrace, he', ?_, ?_⟩
  · rw [htable]
    decide
  · cases hf
    rw [hseeded]
    decide
  · rw [← htraces rfl]
    cases hcopied
    decide

end Table

end LexicalScope
