import Mathlib.Data.List.Basic
import LexicalScope.Proofs.Session.Slot

set_option autoImplicit false

/-!
# Projections of sessions

A *projection* forgets a part of every table, and of what goes along with it in a session. If what
it keeps of a table after an operation depends only on what it kept before, then the steps of a
session can be taken on the projection instead. Here this is said of the ways in which a step
ends; which operations a projection goes along with, and in which respect the replies agree, is
left open.

## Main definitions

* `LexicalScope.Projection` — what is kept of tables, children and spans.
* `LexicalScope.Session.project` — the projection of a session.
* `LexicalScope.Outcome.Projects` — one outcome is the projection of another, up to its reply.

## Main results

* `LexicalScope.Session.projects_commit`, `LexicalScope.Session.projects_openChild`,
  `LexicalScope.Session.projects_closeChild` — steps that change a table.
* `LexicalScope.Session.projects_step_closeChild`, `LexicalScope.Session.projects_closeOn` — the
  child that is closed is the one that was opened last, or the innermost one of a slot.
* `LexicalScope.Session.projects_withTable`, `LexicalScope.Session.projects_withTables`,
  `LexicalScope.Session.projects_withChild` — what a step needs.
* `LexicalScope.Session.forall₂_of_common` — two runs that have one projection.
-/

namespace LexicalScope

/-- What is kept of the parts of a session. -/
structure Projection where
  /-- What is kept of a table. -/
  table : Table → Table
  /-- What is kept of a child. -/
  child : Child → Child
  /-- What is kept of the open spans. -/
  spans : List Nat → List Nat

/-- The child with the part that is kept, on the same slot. -/
def OpenChild.project (p : Projection) (c : OpenChild) : OpenChild :=
  { c with child := p.child c.child }

/-- The session with the parts that are kept. -/
def Session.project (p : Projection) (s : Session) : Session :=
  { tables := s.tables.map p.table
    children := s.children.map (OpenChild.project p)
    spans := p.spans s.spans }

/-- The second outcome is the projection of the first, and the replies agree as `Q` says. -/
structure Outcome.Projects (p : Projection) (Q : Reply → Reply → Prop) (o o' : Outcome) : Prop where
  /-- The session of the second is the projection of that of the first. -/
  session : o.session.project p = o'.session
  /-- The replies agree. -/
  reply : Q o.reply o'.reply

namespace Session

variable {p : Projection} {Q : Reply → Reply → Prop} {s : Session} {slot : Nat} {t : Table}

/-! ## Views -/

/-- What is kept of the table of a slot stands in the slot. -/
lemma getElem?_project (p : Projection) (s : Session) (slot : Nat) :
    (s.project p).tables[slot]? = s.tables[slot]?.map p.table :=
  List.getElem?_map

/-- Putting a table in a slot puts what is kept of it there. -/
lemma project_setTable (p : Projection) (s : Session) (slot : Nat) (t : Table) :
    (s.setTable slot t).project p = (s.project p).setTable slot (p.table t) := by
  simp only [project, setTable, List.map_set]

/-- What is kept of the innermost child of a slot is the innermost one there. -/
lemma child?_project (p : Projection) (s : Session) (slot : Nat) :
    (s.project p).child? slot = (s.child? slot).map p.child := by
  rw [child?, child?, project, List.find?_map, Option.map_map, Option.map_map]
  rfl

/-! ## What a step needs -/

/-- Answers that agree are projected to each other. -/
lemma projects_answer {r r' : Reply} (h : Q r r') :
    (s.answer r).Projects p Q ((s.project p).answer r') :=
  ⟨rfl, h⟩

/-- What goes on with the table of a slot is projected if it is so for the table. -/
lemma projects_withTable (hQ : ∀ r, Q r r) {k k' : Table → Outcome}
    (h : ∀ t, s.tables[slot]? = some t → (k t).Projects p Q (k' (p.table t))) :
    (s.withTable slot k).Projects p Q ((s.project p).withTable slot k') := by
  have hproject := s.getElem?_project p slot
  cases ht : s.tables[slot]? with
  | none =>
    rw [ht, Option.map_none] at hproject
    rw [withTable_of_none ht, withTable_of_none hproject]
    exact projects_answer (hQ _)
  | some t =>
    rw [ht, Option.map_some] at hproject
    rw [withTable_of_some ht, withTable_of_some hproject]
    exact h t ht

/-- What goes on with two tables is projected if it is so for the two. -/
lemma projects_withTables (hQ : ∀ r, Q r r) {partner : Nat} {k k' : Table → Table → Outcome}
    (h : ∀ t u, s.tables[slot]? = some t → s.tables[partner]? = some u →
      (k t u).Projects p Q (k' (p.table t) (p.table u))) :
    (s.withTables slot partner k).Projects p Q ((s.project p).withTables slot partner k') := by
  refine projects_withTable hQ fun t ht => ?_
  split
  · exact projects_answer (hQ _)
  · rw [getElem?_project]
    cases hu : s.tables[partner]? with
    | none => exact projects_answer (hQ _)
    | some u => exact h t u ht hu

/-- What goes on with a child and its table is projected if it is so for the two. -/
lemma projects_withChild (hQ : ∀ r, Q r r) {k k' : Child → Table → Outcome}
    (h : ∀ c t, s.tables[slot]? = some t → (k c t).Projects p Q (k' (p.child c) (p.table t))) :
    (s.withChild slot k).Projects p Q ((s.project p).withChild slot k') := by
  refine projects_withTable hQ fun t ht => ?_
  rw [child?_project]
  cases s.child? slot with
  | none => exact projects_answer (hQ _)
  | some c => exact h c t ht

/-! ## Changes -/

/-- An operation is projected to one that leaves behind what is kept of the table. -/
lemma projects_commit (ht : s.tables[slot]? = some t) {α β : Type} {reply : α → Reply}
    {reply' : β → Reply} {e? : Option (Effect α)} {e?' : Option (Effect β)}
    (htable : p.table (t.afterwards e?) = (p.table t).afterwards e?')
    (hreply : Q (Table.replyOf reply e?) (Table.replyOf reply' e?')) :
    (s.commit slot reply e?).Projects p Q ((s.project p).commit slot reply' e?') where
  session := by
    have ht' : (s.project p).tables[slot]? = some (p.table t) := by
      rw [getElem?_project, ht, Option.map_some]
    rw [session_commit ht, session_commit ht', project_setTable, htable]
  reply := by rwa [reply_commit, reply_commit]

/-- An exchange is projected to an exchange. -/
lemma projects_swap (hQ : ∀ r, Q r r) (s : Session) (first second : Nat) :
    (s.step (.swap first second)).Projects p Q ((s.project p).step (.swap first second)) := by
  refine projects_withTables hQ fun t u _ _ => ⟨?_, hQ _⟩
  show ((s.setTable first u).setTable second t).project p = _
  rw [project_setTable, project_setTable]
  rfl

/-- Opening a child is projected to opening a child. -/
lemma projects_openChild (hQ : ∀ r, Q r r) (t : Table)
    (htable : p.table t.openChild.table = (p.table t).openChild.table)
    (hanswer : p.child t.openChild.answer = (p.table t).openChild.answer)
    (hbase : (p.child t.openChild.answer).base = t.openChild.answer.base)
    (hspans : p.spans
        (if t.openChild.answer.hasSpan then t.openChild.answer.base :: s.spans else s.spans) =
      if (p.child t.openChild.answer).hasSpan then t.openChild.answer.base :: p.spans s.spans
      else p.spans s.spans) :
    (s.openChild slot t).Projects p Q ((s.project p).openChild slot (p.table t)) where
  session := by
    simp only [openChild, ← hanswer, hbase, ← htable]
    simp only [project, List.map_set, List.map_cons, hspans]
    rfl
  reply := by
    simp only [openChild, ← hanswer, hbase]
    exact hQ _

/-- Closing a child is projected to closing what is kept of it. -/
lemma projects_closeChild (hQ : ∀ r, Q r r) {c : OpenChild} (rest : List OpenChild)
    (hclose : ∀ t, s.tables[c.slot]? = some t →
      p.table (t.afterwards (c.child.close t)) =
          (p.table t).afterwards ((p.child c.child).close (p.table t)) ∧
        Q (Table.replyOf (fun _ => .done) (c.child.close t))
          (Table.replyOf (fun _ => .done) ((p.child c.child).close (p.table t))))
    (hspans : p.spans (if c.child.hasSpan then s.spans.tail else s.spans) =
      if (p.child c.child).hasSpan then (p.spans s.spans).tail else p.spans s.spans) :
    (s.closeChild c rest).Projects p Q
      ((s.project p).closeChild (c.project p) (rest.map (OpenChild.project p))) := by
  refine projects_withTable hQ fun t ht => ?_
  obtain ⟨htable, hreply⟩ := hclose t ht
  have hcommit : (s.commit c.slot (fun _ => .done) (c.child.close t)).Projects p Q
      ((s.project p).commit c.slot (fun _ => .done) ((p.child c.child).close (p.table t))) :=
    projects_commit ht htable hreply
  refine ⟨?_, hcommit.reply⟩
  -- the session differs from the committed one in its children and spans only
  have htables := congrArg Session.tables hcommit.session
  simp only [project] at htables ⊢
  rw [htables, hspans]
  rfl

/-- The child that was opened last is closed on the projection as on the session, if closing any
child is projected. -/
theorem projects_step_closeChild (hQ : ∀ r, Q r r) (s : Session)
    (hclose : ∀ c rest, (s.closeChild c rest).Projects p Q
      ((s.project p).closeChild (c.project p) (rest.map (OpenChild.project p)))) (k : Nat) :
    (s.step (.closeChild k)).Projects p Q ((s.project p).step (.closeChild k)) := by
  rw [Session.step, Session.step]
  cases hchildren : s.children with
  | nil =>
    have hnil : (s.project p).children = [] := by
      rw [project, hchildren, List.map_nil]
    rw [hnil]
    exact projects_withTable hQ fun _ _ => projects_answer (hQ _)
  | cons c rest =>
    have hcons : (s.project p).children = c.project p :: rest.map (OpenChild.project p) := by
      rw [project, hchildren, List.map_cons]
    rw [hcons]
    exact hclose c rest

/-- **The innermost child of a slot is closed on the projection as on the session**, if closing any
child is projected, and if what is kept of the spans of children are the spans of what is kept of
the children. -/
theorem projects_closeOn (hQ : ∀ r, Q r r) (s : Session)
    (hclose : ∀ c rest, (s.closeChild c rest).Projects p Q
      ((s.project p).closeChild (c.project p) (rest.map (OpenChild.project p))))
    (hspans : ∀ cs, p.spans (spanScopes cs) = spanScopes (cs.map (OpenChild.project p)))
    (slot : Nat) : (s.closeOn slot).Projects p Q ((s.project p).closeOn slot) := by
  have hfind : ((s.project p).children.find? fun c => c.slot == slot) =
      (s.children.find? fun c => c.slot == slot).map (OpenChild.project p) :=
    List.find?_map
  have herase : ((s.project p).children.eraseP fun c => c.slot == slot) =
      (s.children.eraseP fun c => c.slot == slot).map (OpenChild.project p) :=
    List.eraseP_map
  rw [closeOn, closeOn, hfind, herase]
  cases s.children.find? fun c => c.slot == slot with
  | none => exact projects_withTable hQ fun _ _ => projects_answer (hQ _)
  | some c =>
    have hclosed := hclose c (s.children.eraseP fun c => c.slot == slot)
    refine ⟨?_, hclosed.reply⟩
    -- the sessions differ from the closed ones in their spans only
    simp only [Option.map_some, ← hclosed.session]
    simp only [project, hspans]

/-! ## Two runs with one projection -/

/-- Two lists that are related to a third one, entry by entry, are related to each other. -/
lemma forall₂_of_common {α β γ : Type} {R : α → γ → Prop} {S : β → γ → Prop} {T : α → β → Prop}
    (h : ∀ a b c, R a c → S b c → T a b) {as : List α} {bs : List β} {cs : List γ}
    (has : List.Forall₂ R as cs) (hbs : List.Forall₂ S bs cs) : List.Forall₂ T as bs := by
  induction has generalizing bs with
  | nil =>
    cases hbs
    exact List.Forall₂.nil
  | cons hac _ ih =>
    cases hbs with
    | cons hbc hbs => exact List.Forall₂.cons (h _ _ _ hac hbc) (ih hbs)

end Session

end LexicalScope
