import Mathlib.Data.List.Basic
import LexicalScope.Proofs.Session.Turns
import LexicalScope.Proofs.Table.Edit

set_option autoImplicit false

/-!
# Slots

What a step does to the tables of a session, slot by slot. An operation on the table of a slot
puts the table afterwards in its place. An exchange moves two tables and changes none, so a table
can be followed through a run by the slot in which it stands.

## Main definitions

* `LexicalScope.Session.moved`, `LexicalScope.Session.movedBy` — the slot in which the table of a
  slot stands after a step and after a move.

## Main results

* `LexicalScope.Session.session_commit`, `LexicalScope.Session.final_edits` — an operation, and a
  run of edits, on the table of a slot.
* `LexicalScope.Session.step_swap` — an exchange is answered without effect, or it puts each of two
  tables in the place of the other.
* `LexicalScope.Session.getElem?_moved` — an exchange moves tables and changes none.
-/

namespace LexicalScope

namespace Session

variable {s : Session} {slot : Nat} {t : Table}

/-! ## Operations on one slot -/

/-- Where a slot has a table, it goes on with the table. -/
lemma withTable_of_some (ht : s.tables[slot]? = some t) (k : Table → Outcome) :
    s.withTable slot k = k t := by
  rw [withTable, ht]

/-- Where a slot has no table, nothing goes on. -/
lemma withTable_of_none (h : s.tables[slot]? = none) (k : Table → Outcome) :
    s.withTable slot k = s.answer .noSlot := by
  rw [withTable, h]

/-- A step that only answers leaves the session as it is. -/
lemma session_withTable_answer (s : Session) (slot : Nat) (reply : Reply) :
    (s.withTable slot fun _ => s.answer reply).session = s := by
  rw [withTable]
  split <;> rfl

/-- The table that is put in a slot stands there. -/
lemma getElem?_setTable (ht : s.tables[slot]? = some t) (u : Table) :
    (s.setTable slot u).tables[slot]? = some u := by
  have hlt : slot < s.tables.length := (List.getElem?_eq_some_iff.1 ht).1
  exact List.getElem?_set_self hlt

/-- Of two tables that are put in a slot one after the other, the second stays. -/
lemma setTable_setTable (s : Session) (slot : Nat) (t u : Table) :
    (s.setTable slot t).setTable slot u = s.setTable slot u := by
  simp only [setTable, List.set_set]

/-- Putting a table where it stands changes nothing. -/
lemma setTable_self (ht : s.tables[slot]? = some t) : s.setTable slot t = s := by
  obtain ⟨hlt, rfl⟩ := List.getElem?_eq_some_iff.1 ht
  simp only [setTable, List.set_getElem_self]

/-- An operation puts the table afterwards in the place of the table. -/
lemma session_commit {α : Type} (ht : s.tables[slot]? = some t) (reply : α → Reply)
    (e? : Option (Effect α)) :
    (s.commit slot reply e?).session = s.setTable slot (t.afterwards e?) := by
  cases e? with
  | none => exact (setTable_self ht).symm
  | some e => rfl

/-- An operation is answered as its effect says, or found out of range. -/
lemma reply_commit {α : Type} (s : Session) (slot : Nat) (reply : α → Reply)
    (e? : Option (Effect α)) : (s.commit slot reply e?).reply = Table.replyOf reply e? := by
  cases e? <;> rfl

/-- An edit puts the edited table in the place of the table. -/
lemma session_edit (ht : s.tables[slot]? = some t) (e : Edit) :
    (s.edit slot t e).session = s.setTable slot (t.edited e) := by
  cases e <;> exact session_commit ht _ _

/-- An edit is answered by its table. -/
lemma reply_edit (s : Session) (slot : Nat) (t : Table) (e : Edit) :
    (s.edit slot t e).reply = t.replyTo e := by
  cases e <;> exact reply_commit ..

/-- The step that edits a table puts the edited table in its place. -/
lemma session_step_edit (ht : s.tables[slot]? = some t) (e : Edit) :
    (s.step (.edit slot e)).session = s.setTable slot (t.edited e) := by
  rw [Session.step, withTable_of_some ht, session_edit ht]

/-- The step that edits a table is answered by the table. -/
lemma reply_step_edit (ht : s.tables[slot]? = some t) (e : Edit) :
    (s.step (.edit slot e)).reply = t.replyTo e := by
  rw [Session.step, withTable_of_some ht, reply_edit]

/-- A run of edits puts the table after all of them in the place of the table. -/
lemma final_edits (ht : s.tables[slot]? = some t) (es : List Edit) :
    s.final (es.map (.edit slot)) = s.setTable slot (es.foldl Table.edited t) := by
  induction es generalizing s t with
  | nil => exact (setTable_self ht).symm
  | cons e es ih =>
    rw [List.map_cons, final_cons, session_step_edit ht, ih (getElem?_setTable ht _),
      setTable_setTable, List.foldl_cons]

/-! ## Exchanges -/

/-- An exchange is answered without effect, or it puts each of two tables in the place of the
other. -/
theorem step_swap (s : Session) (first second : Nat) :
    (∃ reply, reply ≠ .done ∧ s.step (.swap first second) = s.answer reply) ∨
    ∃ t u, s.tables[first]? = some t ∧ s.tables[second]? = some u ∧ second ≠ first ∧
      s.step (.swap first second) = ((s.setTable first u).setTable second t).answer .done := by
  rw [Session.step, withTables, withTable]
  cases hfirst : s.tables[first]? with
  | none => exact Or.inl ⟨.noSlot, by decide, rfl⟩
  | some t =>
    by_cases hne : second = first
    · exact Or.inl ⟨.badPartner, by decide, by simp only [if_pos hne]⟩
    · cases hsecond : s.tables[second]? with
      | none => exact Or.inl ⟨.badPartner, by decide, by simp only [if_neg hne]⟩
      | some u => exact Or.inr ⟨t, u, rfl, rfl, hne, by simp only [if_neg hne]⟩

/-- The slot in which the table of `slot` stands after the step. Only an exchange that is carried
out moves tables. -/
def moved (s : Session) (slot : Nat) : Step → Nat
  | .swap first second =>
    if (s.step (.swap first second)).reply = .done then
      if slot = first then second else if slot = second then first else slot
    else slot
  | _ => slot

/-- The slot in which the table of `slot` stands after the move. -/
def movedBy (s : Session) (slot : Nat) : Move → Nat
  | .step step => s.moved slot step
  | .closeOn _ => slot

/-- An exchange moves tables and changes none. -/
theorem getElem?_moved (s : Session) (slot first second : Nat) :
    (s.step (.swap first second)).session.tables[s.moved slot (.swap first second)]? =
      s.tables[slot]? := by
  rcases step_swap s first second with ⟨reply, hreply, hstep⟩ | ⟨t, u, ht, hu, hne, hstep⟩
  · have hmoved : s.moved slot (.swap first second) = slot := by
      rw [moved, hstep]
      exact if_neg hreply
    rw [hmoved, hstep]
    rfl
  · have hfirst : first < s.tables.length := (List.getElem?_eq_some_iff.1 ht).1
    have hsecond : second < s.tables.length := (List.getElem?_eq_some_iff.1 hu).1
    have hmoved : s.moved slot (.swap first second) =
        if slot = first then second else if slot = second then first else slot := by
      rw [moved, hstep]
      exact if_pos rfl
    rw [hmoved, hstep]
    show ((s.tables.set first u).set second t)[_]? = _
    split
    · rename_i heq
      rw [List.getElem?_set_self (by rwa [List.length_set]), heq, ht]
    · split
      · rename_i heq
        rw [List.getElem?_set_ne hne, List.getElem?_set_self hfirst, heq, hu]
      · rename_i hneFirst hneSecond
        rw [List.getElem?_set_ne (Ne.symm hneSecond), List.getElem?_set_ne (Ne.symm hneFirst)]

/-- An exchange that is made twice moves the table of a slot back. -/
lemma moved_moved (s : Session) (slot first second : Nat) :
    s.moved (s.moved slot (.swap first second)) (.swap first second) = slot := by
  by_cases hdone : (s.step (.swap first second)).reply = .done
  · simp only [moved, if_pos hdone]
    split_ifs <;> simp_all
  · simp only [moved, if_neg hdone]

/-- After an exchange, the table of a slot comes from the slot itself or from one whose table is
exchanged. -/
lemma exists_of_swap {first second : Nat}
    (h : (s.step (.swap first second)).session.tables[slot]? = some t) :
    ∃ k, s.tables[k]? = some t ∧ (k = slot ∨ (Step.swap first second).Exchanges k) := by
  refine ⟨s.moved slot (.swap first second), ?_, ?_⟩
  · rw [← getElem?_moved s _ first second, moved_moved, h]
  · rw [moved]
    split
    · split
      · exact Or.inr (Or.inr rfl)
      · split
        · exact Or.inr (Or.inl rfl)
        · exact Or.inl rfl
    · exact Or.inl rfl

end Session

end LexicalScope
