import Mathlib.Data.List.Basic
import LexicalScope.Proofs.Session.Slot
import LexicalScope.Proofs.Table.Law

set_option autoImplicit false

/-!
# How a step ends

There are many kinds of steps, and few ways in which a step ends. A step is answered without
effect, or reports an event that the user made up, or carries out one operation on the table of
one slot, or exchanges two tables, or opens a child, or closes one. What is to be shown of all
steps is shown of these.

## Main definitions

* `LexicalScope.Session.Ends` — the ways in which a step ends.

## Main results

* `LexicalScope.Session.ends_step` — every step ends in one of these ways.
* `LexicalScope.Session.length_tables_step` — there are as many slots after a step as before.
* `LexicalScope.Session.mem_children_step` — a child is open after a step only if it was open
  before or the step opened it.
-/

namespace LexicalScope

namespace Session

/-- The ways in which a step of the session ends. -/
inductive Ends (s : Session) : Step → Outcome → Prop where
  /-- It is answered and does nothing else. -/
  | answer (step : Step) (reply : Reply) : s.Ends step (s.answer reply)
  /-- It reports an event that the user made up. -/
  | report (slot : Nat) (outlet : Outlet) (event : Event) (level : Nat) (trace : List Emission) :
    s.Ends (.trace slot outlet event level)
      { reply := .done, session := s, log := s.observe slot trace }
  /-- It carries out an operation on the table of a slot. -/
  | commit (step : Step) {slot : Nat} {t : Table} (ht : s.tables[slot]? = some t) {α : Type}
    (reply : α → Reply) {e? : Option (Effect α)}
    (h : ∀ {R}, Table.IsLaw R → Table.Follows R t e?) : s.Ends step (s.commit slot reply e?)
  /-- It exchanges the tables of two slots. -/
  | exchange {first second : Nat} {t u : Table} (ht : s.tables[first]? = some t)
    (hu : s.tables[second]? = some u) :
    s.Ends (.swap first second) (((s.setTable first u).setTable second t).answer .done)
  /-- It opens a child. -/
  | openChild {slot : Nat} {t : Table} (ht : s.tables[slot]? = some t) :
    s.Ends (.openChild slot) (s.openChild slot t)
  /-- It closes a child. -/
  | closeChild (slot : Nat) {c : OpenChild} {rest : List OpenChild} {t : Table}
    (hc : s.children = c :: rest) (ht : s.tables[c.slot]? = some t) :
    s.Ends (.closeChild slot) (s.closeChild c rest)

variable {s : Session} {step : Step} {slot : Nat} {t : Table}

/-- A step on one table ends in one of the ways, if it does for the table that is there. -/
lemma ends_withTable {k : Table → Outcome} (h : ∀ t, s.tables[slot]? = some t → s.Ends step (k t)) :
    s.Ends step (s.withTable slot k) := by
  cases ht : s.tables[slot]? with
  | none =>
    rw [withTable_of_none ht]
    exact .answer step _
  | some t =>
    rw [withTable_of_some ht]
    exact h t ht

/-- A step on two tables ends in one of the ways, if it does for the tables that are there. -/
lemma ends_withTables {partner : Nat} {k : Table → Table → Outcome}
    (h : ∀ t u, s.tables[slot]? = some t → s.tables[partner]? = some u → s.Ends step (k t u)) :
    s.Ends step (s.withTables slot partner k) := by
  refine ends_withTable fun t ht => ?_
  split
  · exact .answer step _
  · split
    · exact .answer step _
    · rename_i u hu
      exact h t u ht hu

/-- A step on a child ends in one of the ways, if it does for the child and the table that are
there. -/
lemma ends_withChild {k : Child → Table → Outcome}
    (h : ∀ c t, s.tables[slot]? = some t → s.Ends step (k c t)) :
    s.Ends step (s.withChild slot k) := by
  refine ends_withTable fun t ht => ?_
  split
  · exact .answer step _
  · exact h _ t ht

/-- The child that is closed is the one that was opened last. -/
lemma step_closeChild {c : OpenChild} {rest : List OpenChild} (hcons : s.children = c :: rest)
    (k : Nat) : s.step (.closeChild k) = s.closeChild c rest := by
  rw [Session.step]
  simp only [hcons]

/-- **Every step ends in one of these ways.** -/
theorem ends_step (s : Session) (step : Step) : s.Ends step (s.step step) := by
  cases step with
  | query k q => exact ends_withTable fun _ _ => .answer _ _
  | edit k e =>
    refine ends_withTable fun t ht => ?_
    cases e with
    | insert name typeTag value =>
      exact .commit _ ht (fun _ => .done) fun hR => hR.insert t name typeTag value
    | assign name value => exact .commit _ ht _ fun hR => hR.assign t name value
    | erase name => exact .commit _ ht _ fun hR => hR.erase t name
    | enter => exact .commit _ ht (fun _ => .done) fun hR => hR.enter t
    | exit => exact .commit _ ht _ fun hR => hR.exit t
  | copy source receiver =>
    exact ends_withTables fun t u _ hu => .commit _ hu _ fun hR => hR.insertAll u _
  | carry source receiver =>
    exact ends_withTables fun t u _ hu => .commit _ hu _ fun hR => hR.assignAll u _ _
  | swap first second => exact ends_withTables fun _ _ ht hu => .exchange ht hu
  | openChild k => exact ends_withTable fun _ ht => .openChild ht
  | closeChild k =>
    rw [Session.step]
    split
    · exact ends_withTable fun _ _ => .answer _ _
    · rename_i c rest hc
      cases ht : s.tables[c.slot]? with
      | none =>
        rw [Session.closeChild, withTable_of_none ht]
        exact .answer _ _
      | some t => exact .closeChild k hc ht
  | childLevel k => exact ends_withChild fun _ _ _ => .answer _ _
  | seed k => exact ends_withChild fun c t ht => .commit _ ht _ fun hR => hR.seed t c.base
  | writeBack k =>
    exact ends_withChild fun c t ht => .commit _ ht _ fun hR => hR.writeBack t c.base
  | trace k outlet event level => exact ends_withTable fun _ _ => .report k outlet event level _

/-! ## Slots and children -/

/-- Carrying out an operation keeps the number of tables. -/
lemma length_tables_commit {α : Type} (s : Session) (slot : Nat) (reply : α → Reply)
    (e? : Option (Effect α)) :
    (s.commit slot reply e?).session.tables.length = s.tables.length := by
  cases e? with
  | none => rfl
  | some e => exact List.length_set

/-- Carrying out an operation keeps the open children. -/
lemma children_commit {α : Type} (s : Session) (slot : Nat) (reply : α → Reply)
    (e? : Option (Effect α)) : (s.commit slot reply e?).session.children = s.children := by
  cases e? <;> rfl

/-- There are as many slots after a step as before. -/
theorem length_tables_step (s : Session) (step : Step) :
    (s.step step).session.tables.length = s.tables.length := by
  have h := s.ends_step step
  generalize s.step step = o at h ⊢
  cases h with
  | answer | report => rfl
  | commit ht reply _ => exact length_tables_commit ..
  | exchange => exact List.length_set.trans List.length_set
  | openChild => exact List.length_set
  | closeChild k hc ht =>
    rw [closeChild, withTable_of_some ht]
    exact length_tables_commit ..

/-- A child is open after a step only if it was open before, or the step opened it on the table of
its slot. -/
theorem mem_children_step {c : OpenChild} (hmem : c ∈ (s.step step).session.children) :
    c ∈ s.children ∨ ∃ t, s.tables[c.slot]? = some t ∧ c.child = t.openChild.answer := by
  have h := s.ends_step step
  generalize s.step step = o at h hmem
  cases h with
  | answer | report | exchange => exact Or.inl hmem
  | commit =>
    rw [children_commit] at hmem
    exact Or.inl hmem
  | openChild ht =>
    rcases List.mem_cons.1 hmem with rfl | hmem
    · exact Or.inr ⟨_, ht, rfl⟩
    · exact Or.inl hmem
  | closeChild k hc ht =>
    rw [closeChild, withTable_of_some ht] at hmem
    rw [hc]
    exact Or.inl (List.mem_cons_of_mem _ hmem)

/-- An exchange of tables leaves the children with their slots. -/
lemma children_swap (s : Session) (first second : Nat) :
    (s.step (.swap first second)).session.children = s.children := by
  rcases step_swap s first second with ⟨reply, -, hstep⟩ | ⟨t, u, -, -, -, hstep⟩ <;>
    rw [hstep] <;> rfl

end Session

end LexicalScope
