import Mathlib.Data.List.Basic
import LexicalScope.Proofs.Session.Range
import LexicalScope.Proofs.Table.Copies

set_option autoImplicit false

/-!
# Copies between tables

A copy of one table into another puts the bindings of all its frames into a single frame, and what
was visible in the source is visible there. Nothing that was shadowed is lost: if a name is removed
from the frame again and again, all its bindings come up in the order in which the source would
have met them.

## Main definitions

* `LexicalScope.repliesToErase` — the replies to removals of one name in a row.

## Main results

* `LexicalScope.Session.step_copy` — what a copy makes of a session.
* `LexicalScope.Session.replies_erases` — what removals of one name in a row bring up.
* `LexicalScope.Session.copy_preserves_visible` — what is visible and what comes up after a copy,
  in every session that is reached.
-/

namespace LexicalScope

/-- The replies to `n` removals of a name in a row from a frame in which `bs` are its bindings. -/
def repliesToErase (name : String) (bs : List Binding) (n : Nat) : List Reply :=
  (bs.take n).map .removed ++ List.replicate (n - bs.length) (.refused (.unbound name))

/-- The first removal brings up the first binding, and the others the rest of them. -/
lemma repliesToErase_succ (name : String) (bs : List Binding) (n : Nat) :
    repliesToErase name bs (n + 1) =
      bs.head?.elim (.refused (.unbound name)) .removed :: repliesToErase name bs.tail n := by
  cases bs with
  | nil => simp [repliesToErase, List.replicate_succ]
  | cons b bs => simp [repliesToErase]

namespace Session

variable {s : Session} {slot : Nat} {t : Table}

/-- What a copy makes of a session. -/
lemma step_copy {source receiver : Nat} (hne : receiver ≠ source) {a b : Table}
    (ha : s.tables[source]? = some a) (hb : s.tables[receiver]? = some b) {f : Frame}
    {outer : Stack} (hf : b.stack = f :: outer) :
    (s.step (.copy source receiver)).reply = .done ∧
      (s.step (.copy source receiver)).session =
        s.setTable receiver { b with stack := f.extend (a.stack.copies b.level) :: outer } := by
  rw [Session.step, withTables, withTable_of_some ha]
  simp only [if_neg hne, hb, a.copyInto_of_stack_eq_cons hf, commit, and_self]

/-- **Removals of one name in a row** bring up its bindings in the current frame, in order, and are
refused from then on.

**Proof sketch.** Induction on the number of removals: each takes the first binding of the name out
of the frame, if there is one. -/
theorem replies_erases (ht : s.tables[slot]? = some t) {f : Frame} {outer : Stack}
    (hf : t.stack = f :: outer) (name : String) (n : Nat) :
    ((s.run (List.replicate n (.edit slot (.erase name)))).map Outcome.reply) =
      repliesToErase name (f.bindingsOf name) n := by
  induction n generalizing s t f with
  | zero => simp [repliesToErase]
  | succ n ih =>
    have ht' : (s.step (.edit slot (.erase name))).session.tables[slot]? =
        some (t.edited (.erase name)) := by
      rw [session_step_edit ht]
      exact getElem?_setTable ht _
    have hf' : (t.edited (.erase name)).stack = f.erase name :: outer := by
      rw [Table.edited_erase hf]
    rw [List.replicate_succ, run_cons, List.map_cons, ih ht' hf', reply_step_edit ht,
      Table.replyTo_erase hf, repliesToErase_succ, f.head?_bindingsOf, f.bindingsOf_erase]

/-- **A copy preserves what is visible.** In every session that is reached, from fresh tables, with
exchanges at any time and children closed in any order, copy one table into another one.

* The source is as it was. In the receiver only the current frame changes: its bindings are followed
  by one for each binding of the source, all with the receiver's level.
* A name that the current frame declared refers to what it did. Any other name refers to what it
  refers to in the source, with the receiver's level, or else to what it did.
* Removing a name again and again brings up the bindings of the name that the current frame had, in
  their order, and then those of the source, innermost frame first and oldest first in a frame, with
  their types and values; after that it is refused. -/
theorem copy_preserves_visible (hs : s.ReachableInAnyOrder) {source receiver : Nat}
    (hne : receiver ≠ source) {a b : Table} (ha : s.tables[source]? = some a)
    (hb : s.tables[receiver]? = some b) :
    ∃ f outer b', b.stack = f :: outer ∧
      b' = { b with stack := f.extend (a.stack.copies b.level) :: outer } ∧
      (s.step (.copy source receiver)).reply = .done ∧
      (s.step (.copy source receiver)).session = s.setTable receiver b' ∧
      (s.step (.copy source receiver)).session.tables[source]? = some a ∧
      (a.stack.copies b.level).length = a.size ∧
      (∀ c ∈ a.stack.copies b.level, c.scopeLevel = b.level) ∧
      (∀ name, b'.resolve name =
        if (f.find? name).isSome then b.resolve name
        else ((a.resolve name).map fun c => c.atLevel b.level).or (b.resolve name)) ∧
      ∀ name n,
        ((s.step (.copy source receiver)).session.run
            (List.replicate n (.edit receiver (.erase name)))).map Outcome.reply =
          repliesToErase name
            (f.bindingsOf name ++
              (a.stack.scan.filter fun c => c.name == name).map fun c => c.atLevel b.level) n := by
  obtain ⟨f, outer, hf⟩ := (hs.valid.tables b (List.mem_of_getElem? hb)).exists_cons
  obtain ⟨hreply, hsession⟩ := step_copy hne ha hb hf
  refine ⟨f, outer, _, hf, rfl, hreply, hsession, ?_, Stack.length_copies _ _,
    fun c hc => Stack.scopeLevel_of_mem_copies hc, ?_, ?_⟩
  · rw [hsession]
    exact (List.getElem?_set_ne hne).trans ha
  · intro name
    rw [Table.resolve, Stack.resolve_extend_copies, Table.resolve, Table.resolve, hf]
  · intro name n
    rw [hsession, ← Stack.bindingsOf_extend_copies]
    exact replies_erases (getElem?_setTable hb _) rfl name n

/-- A source that declares `x` three times in two frames, and a receiver that declares `y` in its
current frame and `x` and `y` under it. After the copy `x` is the innermost of the source and `y`
that of the receiver. Removals of `x` bring up the three of the source in the order in which it
meets them, and the one under the current frame is not reached. -/
theorem copy_preserves_visible_shadowed :
    ∃ s a b b', s = (ofContexts [.traced, .quiet]).final
        [.edit 1 (.insert "x" "int" "1"), .openChild 1, .edit 1 (.insert "x" "str" "2"),
          .edit 1 (.insert "x" "int" "3"), .edit 1 (.insert "y" "int" "4"),
          .edit 0 (.insert "x" "int" "5"), .edit 0 (.insert "y" "int" "6"), .edit 0 .enter,
          .edit 0 (.insert "y" "str" "7"), .swap 0 1] ∧
      s.tables[0]? = some a ∧ s.tables[1]? = some b ∧
      (s.step (.copy 0 1)).session = s.setTable 1 b' ∧
      b'.resolve "x" = some ⟨"x", "str", "2", 1⟩ ∧ b'.resolve "y" = some ⟨"y", "str", "7", 1⟩ ∧
      b'.stack.map (fun f => f.bindings.length) = [5, 2] ∧
      ((s.step (.copy 0 1)).session.run (List.replicate 4 (.edit 1 (.erase "x")))).map
          Outcome.reply =
        [.removed ⟨"x", "str", "2", 1⟩, .removed ⟨"x", "int", "3", 1⟩,
          .removed ⟨"x", "int", "1", 1⟩, .refused (.unbound "x")] := by
  have hreach : ((ofContexts [.traced, .quiet]).final
      [.edit 1 (.insert "x" "int" "1"), .openChild 1, .edit 1 (.insert "x" "str" "2"),
        .edit 1 (.insert "x" "int" "3"), .edit 1 (.insert "y" "int" "4"),
        .edit 0 (.insert "x" "int" "5"), .edit 0 (.insert "y" "int" "6"), .edit 0 .enter,
        .edit 0 (.insert "y" "str" "7"), .swap 0 1]).ReachableInAnyOrder :=
    Reachable.inAnyOrder ⟨_, _, rfl⟩
  have hne : 1 ≠ 0 := by decide
  obtain ⟨f, outer, b', hf, hb', -, hsession, -, -, -, hresolve, hreplies⟩ :=
    copy_preserves_visible hreach hne rfl rfl
  cases hf
  refine ⟨_, _, _, b', rfl, rfl, rfl, hsession, (hresolve "x").trans ?_,
    (hresolve "y").trans ?_, ?_, (hreplies "x" 4).trans ?_⟩
  · decide
  · decide
  · rw [hb']
    decide
  · decide

end Session

end LexicalScope
