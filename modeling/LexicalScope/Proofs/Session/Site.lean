import Mathlib.Data.List.Basic
import LexicalScope.Proofs.Session.Slot
import LexicalScope.Proofs.Stack.Restrict
import LexicalScope.Proofs.Table.Copies

set_option autoImplicit false

/-!
# Sites

A *site* is what one slot of a session shows: its table and the children that are open on it. A
move in a session acts on each site on its own, except that an exchange of two tables moves the
tables between their sites. So a property of one slot can be proved by going through the
actions on a site, without the other slots.

## Main definitions

* `LexicalScope.Site` — a table with the children that are open on it.
* `LexicalScope.Site.Action` — what a step does to one site.
* `LexicalScope.Site.act` — the site after an action.
* `LexicalScope.Session.childrenAt`, `LexicalScope.Session.site?` — the children and the site of
  a slot.
* `LexicalScope.Session.actionAt`, `LexicalScope.Session.actionOf` — what a step and what a move
  does to the site of a slot.

## Main results

* `LexicalScope.Site.act_seed`, `LexicalScope.Site.act_writeBack` — what the two actions come to
  that need a child.
* `LexicalScope.Session.site?_step`, `LexicalScope.Session.site?_move` — a step, and a move, that
  does not exchange the table of a slot acts on the site of the slot.
-/

namespace LexicalScope

/-- A table with the children that are open on it. -/
structure Site where
  /-- The table. -/
  table : Table
  /-- The open children, innermost first. -/
  children : List Child
deriving DecidableEq, Inhabited

/-- What a step of a session does to one site. -/
inductive Site.Action where
  /-- Nothing. -/
  | rest
  /-- The table is edited. -/
  | edit (edit : Edit)
  /-- Copies of bindings of another table are declared. -/
  | declare (bindings : List Binding)
  /-- Values of bindings of another table are written back. -/
  | overwrite (bindings : List Binding)
  /-- A child is opened. -/
  | openChild
  /-- The innermost child is seeded. -/
  | seed
  /-- The innermost child writes back. -/
  | writeBack
  /-- The innermost child is closed. -/
  | closeChild
deriving DecidableEq

/-- The site after an action. What needs a child does nothing if none is open. -/
def Site.act (x : Site) : Action → Site
  | .rest => x
  | .edit e => { x with table := x.table.edited e }
  | .declare bs => { x with table := x.table.afterwards (x.table.insertAll bs) }
  | .overwrite bs => { x with table := (x.table.assignAll x.table.stack.length bs).table }
  | .openChild =>
    { table := x.table.openChild.table, children := x.table.openChild.answer :: x.children }
  | .seed =>
    match x.children with
    | [] => x
    | c :: _ => { x with table := x.table.afterwards (c.seed x.table) }
  | .writeBack =>
    match x.children with
    | [] => x
    | c :: _ => { x with table := x.table.afterwards (c.writeBack x.table) }
  | .closeChild =>
    match x.children with
    | [] => x
    | c :: rest => { table := x.table.afterwards (c.close x.table), children := rest }

namespace Site

/-- Seeding declares copies, if it does anything. -/
lemma act_seed (x : Site) : x.act .seed = x ∨ ∃ bs, x.act .seed = x.act (.declare bs) := by
  rw [act]
  split
  · exact Or.inl rfl
  · simp only [Child.seed, Table.seed]
    split
    · exact Or.inr ⟨_, rfl⟩
    · exact Or.inl rfl

/-- A write-back assigns across the level of the innermost child, if it does anything. -/
lemma act_writeBack (x : Site) :
    x.act .writeBack = x ∨ ∃ c ∈ x.children.head?, ∃ bs,
      x.act .writeBack = { x with table := (x.table.assignAll c.base bs).table } := by
  rw [act]
  split
  · exact Or.inl rfl
  · rename_i c rest hcons
    simp only [Child.writeBack, Table.writeBack]
    split
    · refine Or.inr ⟨c, ?_, _, rfl⟩
      rw [hcons]
      exact rfl
    · exact Or.inl rfl

end Site

namespace Session

/-! ## The site of a slot -/

/-- The children that are open on a slot, innermost first. -/
def childrenAt (s : Session) (slot : Nat) : List Child :=
  (s.children.filter fun c => c.slot == slot).map OpenChild.child

/-- The site of a slot, if the slot has a table. -/
def site? (s : Session) (slot : Nat) : Option Site :=
  s.tables[slot]?.map fun t => { table := t, children := s.childrenAt slot }

/-- What a step does to the site of a slot. An exchange of tables is not seen here. -/
def actionAt (s : Session) (slot : Nat) : Step → Site.Action
  | .edit k e => if k = slot then .edit e else .rest
  | .copy source receiver =>
    if receiver = slot ∧ receiver ≠ source then
      match s.tables[source]? with
      | none => .rest
      | some t => .declare t.stack.scan
    else .rest
  | .carry source receiver =>
    if receiver = slot ∧ receiver ≠ source then
      match s.tables[source]? with
      | none => .rest
      | some t => .overwrite t.stack.visible
    else .rest
  | .openChild k => if k = slot then .openChild else .rest
  | .closeChild _ =>
    match s.children with
    | [] => .rest
    | c :: _ => if c.slot = slot then .closeChild else .rest
  | .seed k => if k = slot then .seed else .rest
  | .writeBack k => if k = slot then .writeBack else .rest
  | .query _ _ | .swap _ _ | .childLevel _ | .trace _ _ _ _ => .rest

/-- What a move does to the site of a slot. An exchange of tables is not seen here. -/
def actionOf (s : Session) (slot : Nat) : Move → Site.Action
  | .step step => s.actionAt slot step
  | .closeOn k => if k = slot then .closeChild else .rest

/-- The step that asks the slot for the action, where there is only one such step. -/
def requestOf (slot : Nat) : Site.Action → Option Step
  | .edit e => some (.edit slot e)
  | .openChild => some (.openChild slot)
  | .seed => some (.seed slot)
  | .writeBack => some (.writeBack slot)
  | .rest | .declare _ | .overwrite _ | .closeChild => none

/-- A site sees such an action only in the step that asks its slot for it. -/
lemma eq_of_requestOf_actionAt {s : Session} {slot : Nat} {step request : Step}
    (h : requestOf slot (s.actionAt slot step) = some request) : step = request := by
  cases step with
  | query | swap | childLevel | trace => simp [actionAt, requestOf] at h
  | edit | openChild | seed | writeBack =>
    rw [actionAt] at h
    split at h
    · rename_i hk
      rw [hk]
      exact Option.some.inj h
    · simp [requestOf] at h
  | copy | carry =>
    rw [actionAt] at h
    split at h
    · split at h <;> simp [requestOf] at h
    · simp [requestOf] at h
  | closeChild =>
    rw [actionAt] at h
    split at h
    · simp [requestOf] at h
    · split at h <;> simp [requestOf] at h

/-- A site sees such an action only in the move that is the step which asks its slot for it. -/
lemma eq_of_requestOf_actionOf {s : Session} {slot : Nat} {m : Move} {request : Step}
    (h : requestOf slot (s.actionOf slot m) = some request) : m = .step request := by
  cases m with
  | step step => rw [eq_of_requestOf_actionAt h]
  | closeOn k =>
    rw [actionOf] at h
    split at h <;> simp [requestOf] at h

/-- A slot with a table has a site. -/
lemma site?_of_some {s : Session} {slot : Nat} {t : Table} (h : s.tables[slot]? = some t) :
    s.site? slot = some { table := t, children := s.childrenAt slot } := by
  rw [site?, h, Option.map_some]

/-- A slot without a table has no site. -/
lemma site?_of_none {s : Session} {slot : Nat} (h : s.tables[slot]? = none) :
    s.site? slot = none := by
  rw [site?, h, Option.map_none]

/-- The children of a site are those that are open on the slot. -/
lemma children_of_site? {s : Session} {slot : Nat} {x : Site} (h : s.site? slot = some x) :
    x.children = s.childrenAt slot := by
  obtain ⟨t, -, rfl⟩ := Option.map_eq_some_iff.1 h
  rfl

/-- The table of a site is that of the slot. -/
lemma table_of_site? {s : Session} {slot : Nat} {x : Site} (h : s.site? slot = some x) :
    s.tables[slot]? = some x.table := by
  obtain ⟨t, ht, rfl⟩ := Option.map_eq_some_iff.1 h
  exact ht

/-- The innermost child of a slot is the first of its children. -/
lemma child?_eq_head? (s : Session) (slot : Nat) : s.child? slot = (s.childrenAt slot).head? := by
  rw [child?, childrenAt, List.head?_map, List.head?_filter]

/-- A child that was just opened on the slot comes first, and others are not seen. -/
lemma childrenAt_cons (s : Session) (c : OpenChild) (slot : Nat) :
    childrenAt { s with children := c :: s.children } slot =
      if c.slot = slot then c.child :: s.childrenAt slot else s.childrenAt slot := by
  unfold childrenAt
  rw [List.filter_cons]
  by_cases h : c.slot = slot
  · simp [h]
  · simp [h]

/-! ## What ends of steps do to a site -/

/-- Another table in a slot is seen at the site of that slot. -/
lemma site?_setTable (s : Session) (k slot : Nat) (t : Table) :
    (s.setTable k t).site? slot =
      if k = slot then (s.site? slot).map fun x => { x with table := t } else s.site? slot := by
  have hchildren : (s.setTable k t).childrenAt slot = s.childrenAt slot := rfl
  by_cases hk : k = slot
  · subst hk
    rw [if_pos rfl, site?, site?, hchildren, setTable, List.getElem?_set]
    by_cases hlt : k < s.tables.length
    · rw [if_pos rfl, if_pos hlt, List.getElem?_eq_getElem hlt]
      rfl
    · rw [if_pos rfl, if_neg hlt, List.getElem?_eq_none (by omega)]
      rfl
  · rw [if_neg hk, site?, site?, hchildren, setTable, List.getElem?_set_ne hk]

/-- An operation on the table of a slot is seen at the site of that slot. -/
lemma site?_commit {α : Type} (s : Session) {k : Nat} {t : Table} (h : s.tables[k]? = some t)
    (slot : Nat) (reply : α → Reply) (e? : Option (Effect α)) :
    (s.commit k reply e?).session.site? slot =
      if k = slot then (s.site? slot).map fun x => { x with table := t.afterwards e? }
      else s.site? slot := by
  cases e? with
  | none =>
    simp only [commit, answer, Table.afterwards_none]
    by_cases hk : k = slot
    · subst hk
      rw [if_pos rfl, site?_of_some h, Option.map_some]
    · rw [if_neg hk]
  | some e =>
    simp only [commit, Table.afterwards_some]
    exact site?_setTable s k slot e.table

/-- An operation that is asked of the table of a slot, if there is one, is seen at the site of
that slot. -/
lemma site?_withTable_commit {α : Type} (s : Session) (k slot : Nat) (reply : α → Reply)
    (op : Table → Option (Effect α)) :
    (s.withTable k fun t => s.commit k reply (op t)).session.site? slot =
      if k = slot then
        (s.site? slot).map fun x => { x with table := x.table.afterwards (op x.table) }
      else s.site? slot := by
  unfold withTable
  cases hk : s.tables[k]? with
  | none =>
    simp only [answer]
    by_cases hslot : k = slot
    · subst hslot
      rw [if_pos rfl, site?_of_none hk, Option.map_none]
    · rw [if_neg hslot]
  | some t =>
    simp only [site?_commit s hk]
    by_cases hslot : k = slot
    · subst hslot
      rw [if_pos rfl, if_pos rfl, site?_of_some hk, Option.map_some, Option.map_some]
    · rw [if_neg hslot, if_neg hslot]

/-- An operation that takes a second table is seen at the site of its receiver. -/
lemma site?_withTables_commit {α : Type} (s : Session) (source receiver slot : Nat)
    (reply : α → Reply) (op : Table → Table → Option (Effect α)) :
    (s.withTables source receiver fun t u => s.commit receiver reply (op t u)).session.site? slot =
      if receiver = slot ∧ receiver ≠ source then
        match s.tables[source]? with
        | none => s.site? slot
        | some t =>
          (s.site? slot).map fun x => { x with table := x.table.afterwards (op t x.table) }
      else s.site? slot := by
  unfold withTables withTable
  cases hs : s.tables[source]? with
  | none => simp [answer]
  | some t =>
    by_cases hne : receiver = source
    · simp [answer, hne]
    · simp only [if_neg hne]
      cases hr : s.tables[receiver]? with
      | none =>
        by_cases hslot : receiver = slot
        · subst hslot
          simp [answer, site?_of_none hr]
        · simp [answer, hslot]
      | some u =>
        simp only [site?_commit s hr]
        by_cases hslot : receiver = slot
        · subst hslot
          rw [if_pos rfl, if_pos ⟨rfl, hne⟩, site?_of_some hr, Option.map_some, Option.map_some]
        · rw [if_neg hslot, if_neg (by tauto)]

/-- An operation of the innermost child of a slot is seen at the site of that slot. -/
lemma site?_withChild_commit {α : Type} (s : Session) (k slot : Nat) (reply : α → Reply)
    (op : Child → Table → Option (Effect α)) :
    (s.withChild k fun c t => s.commit k reply (op c t)).session.site? slot =
      if k = slot then
        (s.site? slot).map fun x =>
          match x.children with
          | [] => x
          | c :: _ => { x with table := x.table.afterwards (op c x.table) }
      else s.site? slot := by
  unfold withChild withTable
  cases hk : s.tables[k]? with
  | none =>
    by_cases hslot : k = slot
    · subst hslot
      simp [answer, site?_of_none hk]
    · simp [answer, hslot]
  | some t =>
    rw [child?_eq_head?]
    cases hc : s.childrenAt k with
    | nil =>
      by_cases hslot : k = slot
      · subst hslot
        simp [answer, site?_of_some hk, hc]
      · simp [answer, hslot]
    | cons c rest =>
      simp only [List.head?_cons, site?_commit s hk]
      by_cases hslot : k = slot
      · subst hslot
        rw [if_pos rfl, if_pos rfl, site?_of_some hk, Option.map_some, Option.map_some, hc]
      · rw [if_neg hslot, if_neg hslot]

/-! ## Steps -/

/-- A child that is opened is seen at its site. -/
lemma site?_openChild (s : Session) {k : Nat} {t : Table} (h : s.tables[k]? = some t)
    (slot : Nat) :
    (s.openChild k t).session.site? slot =
      if k = slot then (s.site? slot).map fun x => x.act .openChild else s.site? slot := by
  have hsite : (s.openChild k t).session.site? slot =
      ((s.tables.set k t.openChild.table)[slot]?).map fun u =>
        { table := u
          children :=
            if k = slot then t.openChild.answer :: s.childrenAt slot else s.childrenAt slot } := by
    rw [← childrenAt_cons s { slot := k, child := t.openChild.answer } slot]
    rfl
  rw [hsite]
  by_cases hk : k = slot
  · subst hk
    have hlt : k < s.tables.length := (List.getElem?_eq_some_iff.1 h).1
    rw [if_pos rfl, if_pos rfl, List.getElem?_set_self hlt, site?_of_some h]
    rfl
  · rw [if_neg hk, if_neg hk, List.getElem?_set_ne hk, site?]

/-- A child that is closed is seen at its site, if it is the innermost one there. -/
lemma site?_closeChild_of_childrenAt {s : Session} {c : OpenChild} {rest : List OpenChild}
    {slot : Nat} (hchildren : s.childrenAt slot =
      if c.slot = slot then c.child :: childrenAt { s with children := rest } slot
      else childrenAt { s with children := rest } slot) :
    (s.closeChild c rest).session.site? slot =
      if c.slot = slot then (s.site? slot).map fun x => x.act .closeChild else s.site? slot := by
  unfold closeChild withTable
  cases hk : s.tables[c.slot]? with
  | none =>
    show s.site? slot = _
    by_cases hslot : c.slot = slot
    · subst hslot
      rw [site?_of_none hk, Option.map_none, ite_self]
    · rw [if_neg hslot]
  | some t =>
    -- the tables are those of the committed session, the children those that stay open
    have htables := congrArg (Option.map Site.table)
      (site?_commit s hk slot (fun _ => Reply.done) (c.child.close t))
    by_cases hslot : c.slot = slot
    · subst hslot
      rw [if_pos rfl] at hchildren htables ⊢
      rw [site?_of_some hk] at htables ⊢
      simp only [site?, Option.map_map, Option.map_some, Function.comp_def] at htables ⊢
      rw [Option.map_id'] at htables
      rw [htables, Site.act, hchildren, Option.map_some]
      rfl
    · rw [if_neg hslot] at hchildren htables ⊢
      simp only [site?, Option.map_map, Function.comp_def] at htables ⊢
      rw [Option.map_id', Option.map_id'] at htables
      rw [htables, hchildren]
      rfl

/-- The child that was opened last is the innermost one at its site. -/
lemma site?_closeChild {s : Session} {c : OpenChild} {rest : List OpenChild}
    (h : s.children = c :: rest) (slot : Nat) :
    (s.closeChild c rest).session.site? slot =
      if c.slot = slot then (s.site? slot).map fun x => x.act .closeChild else s.site? slot := by
  apply site?_closeChild_of_childrenAt
  rw [← childrenAt_cons { s with children := rest } c slot, ← h]

/-- **A step acts on each site on its own**, unless it exchanges the table of the slot.

**Proof sketch.** Each kind of step ends in one operation on one slot, and is seen at the site of
that slot alone. An exchange of two other tables is not seen at all. -/
theorem site?_step (s : Session) {slot : Nat} {step : Step} (h : ¬ step.Exchanges slot) :
    (s.step step).session.site? slot =
      (s.site? slot).map fun x => x.act (s.actionAt slot step) := by
  have hrest : ((s.site? slot).map fun x => x.act .rest) = s.site? slot := Option.map_id'
  cases step with
  | query k q =>
    rw [actionAt, hrest, Session.step, withTable]
    split <;> rfl
  | edit k e =>
    have hedit : (s.step (.edit k e)).session.site? slot =
        if k = slot then (s.site? slot).map fun x => x.act (.edit e) else s.site? slot := by
      cases e with
      | insert name typeTag value =>
        exact site?_withTable_commit s k slot (fun _ => .done) fun t =>
          t.insert name typeTag value
      | assign name value => exact site?_withTable_commit s k slot _ fun t => t.assign name value
      | erase name => exact site?_withTable_commit s k slot _ fun t => t.erase name
      | enter => exact site?_withTable_commit s k slot (fun _ => .done) fun t => some t.enter
      | exit => exact site?_withTable_commit s k slot _ fun t => t.exit
    rw [hedit, actionAt]
    split
    · rfl
    · exact hrest.symm
  | copy source receiver =>
    rw [actionAt, Session.step, site?_withTables_commit]
    split
    · split
      · exact hrest.symm
      · rfl
    · exact hrest.symm
  | carry source receiver =>
    rw [actionAt, Session.step, site?_withTables_commit]
    split
    · split
      · exact hrest.symm
      · rfl
    · exact hrest.symm
  | swap first second =>
    have hfirst : first ≠ slot := fun heq => h (Or.inl heq)
    have hsecond : second ≠ slot := fun heq => h (Or.inr heq)
    rw [actionAt, hrest, Session.step]
    unfold withTables withTable
    split
    · rfl
    · split
      · rfl
      · split
        · rfl
        · simp only [answer, site?_setTable, if_neg hfirst, if_neg hsecond]
  | openChild k =>
    rw [actionAt, Session.step, withTable]
    cases hk : s.tables[k]? with
    | none =>
      by_cases hslot : k = slot
      · subst hslot
        simp [answer, site?_of_none hk]
      · simp [answer, hslot, Site.act]
    | some t =>
      simp only [site?_openChild s hk]
      split
      · rfl
      · exact hrest.symm
  | closeChild k =>
    rw [actionAt, Session.step]
    cases hc : s.children with
    | nil =>
      simp only [withTable]
      rw [hrest]
      split <;> rfl
    | cons c rest =>
      simp only [site?_closeChild hc]
      split
      · rfl
      · exact hrest.symm
  | childLevel k =>
    rw [actionAt, hrest, Session.step, withChild, withTable]
    split
    · rfl
    · split <;> rfl
  | seed k =>
    rw [actionAt, Session.step, site?_withChild_commit]
    split
    · rfl
    · exact hrest.symm
  | writeBack k =>
    rw [actionAt, Session.step, site?_withChild_commit]
    split
    · rfl
    · exact hrest.symm
  | trace k outlet event level =>
    rw [actionAt, hrest, Session.step, withTable]
    split <;> rfl

/-! ## Moves -/

/-- Closing the innermost child of a slot is seen at the site of the slot, and at no other. -/
theorem site?_closeOn (s : Session) (k slot : Nat) :
    (s.closeOn k).session.site? slot =
      if k = slot then (s.site? slot).map fun x => x.act .closeChild else s.site? slot := by
  cases hfind : s.children.find? fun c => c.slot == k with
  | none =>
    have hnil : s.childrenAt k = [] := by
      rw [childrenAt, List.map_eq_nil_iff, List.filter_eq_nil_iff]
      exact List.find?_eq_none.1 hfind
    rw [closeOn, hfind, session_withTable_answer]
    split
    · rename_i hk
      subst hk
      rw [site?, hnil, Option.map_map]
      rfl
    · rfl
  | some c =>
    obtain rfl : c.slot = k := by simpa using List.find?_some hfind
    have hsite : (s.closeOn c.slot).session.site? slot =
        (s.closeChild c (s.children.eraseP fun d => d.slot == c.slot)).session.site? slot := by
      rw [closeOn, hfind]
      rfl
    rw [hsite]
    apply site?_closeChild_of_childrenAt
    split
    · rename_i hslot
      subst hslot
      have hhead : (s.children.filter fun d => d.slot == c.slot).head? = some c := by
        rw [List.head?_filter, hfind]
      rw [childrenAt, childrenAt, filter_eraseP, ← List.map_cons, ← List.eq_cons_of_mem_head? hhead]
    · rename_i hslot
      rw [childrenAt, childrenAt, filter_eraseP_of_disjoint]
      intro d hd
      rw [beq_iff_eq] at hd
      simpa [hd] using hslot

/-- **A move acts on each site on its own**, unless it exchanges the table of the slot. -/
theorem site?_move (s : Session) {slot : Nat} {m : Move} (h : ¬ m.Exchanges slot) :
    (s.move m).session.site? slot = (s.site? slot).map fun x => x.act (s.actionOf slot m) := by
  cases m with
  | step step => exact s.site?_step h
  | closeOn k =>
    have hrest : ((s.site? slot).map fun x => x.act .rest) = s.site? slot := Option.map_id'
    rw [move, site?_closeOn, actionOf]
    split
    · rfl
    · exact hrest.symm

end Session

end LexicalScope
