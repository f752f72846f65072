import Mathlib.Data.List.Basic
import LexicalScope.Proofs.Session.Projection
import LexicalScope.Proofs.Session.Range
import LexicalScope.Proofs.Table.Restrict

set_option autoImplicit false

/-!
# Names do not interfere

What becomes of the bindings of one name in a run does not depend on declarations, assignments,
removals and lookups of other names. Such *foreign* moves can be added to a run, taken out of it
and changed: every other move is carried out, refused or found out of range as before, answers the
same as far as the name is concerned, and leaves the same bindings of the name in the same frames.

The proof compares a run with the run of its moves that are not foreign on the restriction of the
session to the name. Two runs that differ in foreign moves have that one in common.

## Main definitions

* `LexicalScope.Session.restrict` — the session with the bindings of one name only.
* `LexicalScope.Move.isForeign`, `LexicalScope.Move.isCensus` — moves under other names, and moves
  whose answers are about the bindings of all names.
* `LexicalScope.Session.turnsOn` — the turns of a run whose moves are not foreign.
* `LexicalScope.Outcome.AgreesOn` — two outcomes of a move are the same for a name.

## Main results

* `LexicalScope.Session.projects_step`, `LexicalScope.Session.projects_move_of_not_isForeign` — a
  step, and a move, that is not foreign can be made on the restriction.
* `LexicalScope.Session.restrict_move_of_isForeign` — a foreign move is not seen there.
* `LexicalScope.Session.restrict_turns` — the restriction of a run.
* `LexicalScope.Session.names_do_not_interfere` — runs that differ in foreign moves.
-/

namespace LexicalScope

/-- What is kept of the parts of a session for one name: the bindings of the name, and everything
but bindings. -/
def Projection.restrict (name : String) : Projection :=
  { table := Table.restrict name, child := id, spans := id }

/-- The session with the bindings of `name` only. -/
def Session.restrict (name : String) (s : Session) : Session :=
  s.project (.restrict name)

/-- Whether a step declares, overwrites, removes or looks up another name. -/
def Step.isForeign (name : String) : Step → Bool
  | .query _ q => q.isForeign name
  | .edit _ e => e.isForeign name
  | _ => false

/-- Whether the answer to a step is about the bindings of all names. -/
def Step.isCensus : Step → Bool
  | .query _ q => q.isCensus
  | .carry _ _ | .writeBack _ => true
  | _ => false

/-- Whether a move declares, overwrites, removes or looks up another name. -/
def Move.isForeign (name : String) : Move → Bool
  | .step a => a.isForeign name
  | .closeOn _ => false

/-- Whether the answer to a move is about the bindings of all names. -/
def Move.isCensus : Move → Bool
  | .step a => a.isCensus
  | .closeOn _ => false

/-- Two replies to a move are the same, unless they are about the bindings of all names; and in
any case both say that the move was out of range, or neither does. -/
structure Reply.AgreesFor (m : Move) (r r' : Reply) : Prop where
  /-- The replies are the same. -/
  eq : m.isCensus = false → r = r'
  /-- Both are out of range, or neither is. -/
  outOfRange : r = .outOfRange ↔ r' = .outOfRange

/-- Two outcomes of a move are the same for a name: the replies agree, and the sessions have the
same bindings of the name in the same frames, the same floors and the same children. -/
structure Outcome.AgreesOn (name : String) (m : Move) (o o' : Outcome) : Prop where
  /-- The replies agree. -/
  reply : o.reply.AgreesFor m o'.reply
  /-- The sessions agree on the name. -/
  session : o.session.restrict name = o'.session.restrict name

/-- A reply agrees with itself. -/
lemma Reply.AgreesFor.refl (m : Move) (r : Reply) : r.AgreesFor m r :=
  ⟨fun _ => rfl, Iff.rfl⟩

/-- Equal replies agree. -/
lemma Reply.AgreesFor.of_eq (m : Move) {r r' : Reply} (h : r' = r) : r.AgreesFor m r' :=
  h ▸ Reply.AgreesFor.refl m r'

/-- Two outcomes with one projection are the same for the name. -/
lemma Outcome.Projects.agreesOn {name : String} {m : Move} {o o' p : Outcome}
    (h : o.Projects (.restrict name) (Reply.AgreesFor m) p)
    (h' : o'.Projects (.restrict name) (Reply.AgreesFor m) p) : o.AgreesOn name m o' where
  reply :=
    ⟨fun hm => (h.reply.eq hm).trans (h'.reply.eq hm).symm,
      h.reply.outOfRange.trans h'.reply.outOfRange.symm⟩
  session := h.session.trans h'.session.symm

namespace Session

variable {name : String} {s : Session} {slot : Nat} {t : Table}

/-! ## One step -/

/-- The restriction of the table of a slot stands in the slot. -/
lemma getElem?_restrict (ht : s.tables[slot]? = some t) :
    (s.restrict name).tables[slot]? = some (t.restrict name) := by
  rw [restrict, getElem?_project, ht, Option.map_some]
  rfl

/-- Putting a table in a slot puts its restriction there. -/
lemma restrict_setTable (s : Session) (slot : Nat) (t : Table) :
    (s.setTable slot t).restrict name = (s.restrict name).setTable slot (t.restrict name) :=
  project_setTable _ s slot t

/-- An edit that does not concern another name is projected to itself. -/
lemma projects_edit (ht : s.tables[slot]? = some t) (hvt : t.Valid) (m : Move) {e : Edit}
    (he : e.isForeign name = false) :
    (s.edit slot t e).Projects (.restrict name) (Reply.AgreesFor m)
      ((s.restrict name).edit slot (t.restrict name) e) := by
  obtain ⟨f, outer, hf⟩ := hvt.exists_cons
  refine ⟨?_, ?_⟩
  · rw [session_edit ht, session_edit (getElem?_restrict ht), ← Table.restrict_edited hf he]
    exact restrict_setTable s slot _
  · rw [reply_edit, reply_edit, Table.replyTo_restrict hf he]
    exact Reply.AgreesFor.refl m _

/-- A copy is projected to a copy of the bindings of the name. -/
lemma projects_insertAll (ht : s.tables[slot]? = some t) (hvt : t.Valid) (m : Move)
    {bs bs' : List Binding} (hbs : bs' = bs.filter fun b => b.name == name) :
    (s.commit slot (fun _ => .done) (t.insertAll bs)).Projects (.restrict name)
      (Reply.AgreesFor m)
      ((s.restrict name).commit slot (fun _ => .done) ((t.restrict name).insertAll bs')) := by
  obtain ⟨f, outer, hf⟩ := hvt.exists_cons
  subst hbs
  refine projects_commit ht (Table.restrict_insertAll hf bs) (Reply.AgreesFor.of_eq m ?_)
  rw [Table.insertAll_of_stack_eq_cons hf,
    Table.insertAll_of_stack_eq_cons (Table.restrict_of_cons hf)]
  rfl

/-- A write-back is projected to a write-back of the value of the name. -/
lemma projects_assignAll (ht : s.tables[slot]? = some t) {m : Move}
    (hm : m.isCensus = true) {level level' : Nat} (hlevel : level' = level)
    {bs bs' : List Binding} (hbs : bs' = bs.filter fun b => b.name == name) :
    (s.commit slot .number (some (t.assignAll level bs))).Projects (.restrict name)
      (Reply.AgreesFor m)
      ((s.restrict name).commit slot .number (some ((t.restrict name).assignAll level' bs'))) := by
  rw [hbs, hlevel]
  refine projects_commit ht (Table.restrict_assignAll t level bs) ⟨?_, ?_⟩
  · intro hcensus
    rw [hm] at hcensus
    exact absurd hcensus (by decide)
  · simp [Table.replyOf]

/-- An operation that is not carried out is projected to another such. -/
lemma projects_none {α : Type} (reply : α → Reply) (m : Move) :
    (s.commit slot reply none).Projects (.restrict name) (Reply.AgreesFor m)
      ((s.restrict name).commit slot reply none) :=
  projects_answer (Reply.AgreesFor.refl m _)

/-- Closing a child is projected to closing it. -/
lemma projects_closeChild_restrict (m : Move) (s : Session) (c : OpenChild)
    (rest : List OpenChild) :
    (s.closeChild c rest).Projects (.restrict name) (Reply.AgreesFor m)
      ((s.restrict name).closeChild (c.project (.restrict name))
        (rest.map (OpenChild.project (.restrict name)))) := by
  refine projects_closeChild (Reply.AgreesFor.refl m) rest (fun t _ => ?_) rfl
  obtain ⟨htable, hreply⟩ := c.child.restrict_close t
  exact ⟨htable, Reply.AgreesFor.of_eq m hreply⟩

/-- The restriction keeps the spans of children. -/
lemma spanScopes_restrict (name : String) (cs : List OpenChild) :
    spanScopes (cs.map (OpenChild.project (.restrict name))) = spanScopes cs := by
  have hself : OpenChild.project (.restrict name) = id := rfl
  rw [hself, List.map_id]

/-- **A step that is not foreign can be taken on the restriction.**

**Proof sketch.** One case for each kind of step. Where a table changes, what the restriction keeps
of it afterwards is what the step makes of the restriction; copies and write-backs move the
bindings of the name without regard to the others. -/
theorem projects_step (hs : s.Valid) {step : Step} (hstep : step.isForeign name = false) :
    (s.step step).Projects (.restrict name) (Reply.AgreesFor (.step step))
      ((s.restrict name).step step) := by
  have hrefl := Reply.AgreesFor.refl (.step step)
  have hvalid : ∀ {k : Nat} {u : Table}, s.tables[k]? = some u → u.Valid :=
    fun hu => hs.tables _ (List.mem_of_getElem? hu)
  cases step with
  | query k q =>
    refine projects_withTable hrefl fun u hu => projects_answer ?_
    have hchild : (s.restrict name).child? k = s.child? k := by
      rw [restrict, child?_project]
      exact Option.map_id'
    obtain ⟨f, outer, hf⟩ := (hvalid hu).exists_cons
    rw [hchild]
    refine ⟨fun hcensus => ?_, ?_⟩
    · exact congrArg (fun a? : Option Reply => a?.getD .outOfRange)
        (Table.answer?_restrict u _ hstep hcensus).symm
    · obtain ⟨r, hr, hne⟩ := Table.isSome_answer? hf (s.child? k) q
      obtain ⟨r', hr', hne'⟩ :=
        Table.isSome_answer? (Table.restrict_of_cons hf) (s.child? k) q
      have hr'' : q.answer? (s.child? k) ((Projection.restrict name).table u) = some r' := hr'
      rw [hr, hr'', Option.getD_some, Option.getD_some]
      exact iff_of_false hne hne'
  | edit k e => exact projects_withTable hrefl fun u hu => projects_edit hu (hvalid hu) _ hstep
  | copy source receiver =>
    exact projects_withTables hrefl fun u v _ hv =>
      projects_insertAll hv (hvalid hv) _ (Stack.scan_restrict u.stack)
  | carry source receiver =>
    exact projects_withTables hrefl fun u v _ hv =>
      projects_assignAll hv rfl (Stack.length_restrict _) (Stack.visible_restrict u.stack)
  | swap first second => exact projects_swap hrefl s first second
  | openChild k =>
    refine projects_withTable hrefl fun u _ => ?_
    obtain ⟨hanswer, htable⟩ : (u.restrict name).openChild.answer = _ ∧ _ := u.openChild_restrict
    exact projects_openChild hrefl u htable.symm hanswer.symm rfl rfl
  | closeChild k =>
    refine projects_step_closeChild hrefl s ?_ k
    exact projects_closeChild_restrict (.step (.closeChild k)) s
  | childLevel k =>
    exact projects_withChild hrefl fun _ _ _ => projects_answer (hrefl _)
  | seed k =>
    refine projects_withChild hrefl fun c u hu => ?_
    show (s.commit k _ (u.seed c.base)).Projects _ _
      ((s.restrict name).commit k _ ((u.restrict name).seed c.base))
    rw [Table.seed, Table.seed, Table.stack_restrict, Stack.length_restrict,
      Stack.outside_restrict]
    split
    · exact projects_insertAll hu (hvalid hu) _ (Stack.scan_restrict _)
    · exact projects_none _ _
  | writeBack k =>
    refine projects_withChild hrefl fun c u hu => ?_
    show (s.commit k _ (u.writeBack c.base)).Projects _ _
      ((s.restrict name).commit k _ ((u.restrict name).writeBack c.base))
    rw [Table.writeBack, Table.writeBack, Table.stack_restrict, Stack.length_restrict,
      Stack.inside_restrict]
    split
    · exact projects_assignAll hu rfl rfl (Stack.visible_restrict _)
    · exact projects_none _ _
  | trace k outlet event level => exact projects_withTable hrefl fun _ _ => ⟨rfl, hrefl _⟩

/-- **A move that is not foreign can be made on the restriction.** -/
theorem projects_move_of_not_isForeign (hs : s.Valid) {m : Move}
    (hm : m.isForeign name = false) :
    (s.move m).Projects (.restrict name) (Reply.AgreesFor m) ((s.restrict name).move m) := by
  cases m with
  | step step => exact projects_step hs hm
  | closeOn k =>
    exact projects_closeOn (Reply.AgreesFor.refl _) s (projects_closeChild_restrict (.closeOn k) s)
      (fun cs => (spanScopes_restrict name cs).symm) k

/-- A foreign step is not seen in the restriction, and it is not found out of range. -/
theorem restrict_step_of_isForeign (hs : s.Valid) {step : Step}
    (hstep : step.isForeign name = true) :
    (s.step step).session.restrict name = s.restrict name ∧ (s.step step).reply ≠ .outOfRange := by
  have hcons : ∀ {k : Nat} {u : Table}, s.tables[k]? = some u → ∃ f outer, u.stack = f :: outer :=
    fun hu => (hs.tables _ (List.mem_of_getElem? hu)).exists_cons
  cases step with
  | query k q =>
    rw [Session.step]
    cases hu : s.tables[k]? with
    | none =>
      rw [withTable_of_none hu]
      exact ⟨rfl, by simp [answer]⟩
    | some u =>
      obtain ⟨f, outer, hf⟩ := hcons hu
      obtain ⟨r, hr, hne⟩ := Table.isSome_answer? hf (s.child? k) q
      rw [withTable_of_some hu, hr]
      exact ⟨rfl, hne⟩
  | edit k e =>
    cases hu : s.tables[k]? with
    | none =>
      rw [Session.step, withTable_of_none hu]
      exact ⟨rfl, by simp [answer]⟩
    | some u =>
      obtain ⟨f, outer, hf⟩ := hcons hu
      rw [session_step_edit hu, reply_step_edit hu, restrict_setTable,
        Table.restrict_edited_of_isForeign hf hstep]
      exact ⟨setTable_self (getElem?_restrict hu), Table.replyTo_ne_outOfRange hf e⟩
  | _ => simp [Step.isForeign] at hstep

/-- **A foreign move is not seen in the restriction**, and it is not found out of range. -/
theorem restrict_move_of_isForeign (hs : s.Valid) {m : Move} (hm : m.isForeign name = true) :
    (s.move m).session.restrict name = s.restrict name ∧ (s.move m).reply ≠ .outOfRange := by
  cases m with
  | step step => exact restrict_step_of_isForeign hs hm
  | closeOn k => exact absurd hm Bool.false_ne_true

/-! ## Runs -/

/-- The turns of a run whose moves are not foreign. -/
def turnsOn (name : String) (s : Session) (ms : List Move) : List Turn :=
  (s.turns ms).filter fun x => !x.move.isForeign name

/-- **The restriction of a run.** The moves of a run that are not foreign, made on the restriction,
have the projected outcomes.

**Proof sketch.** Induction on the run: a foreign move leaves the restriction as it is, and every
other move is made there as well. -/
theorem restrict_turns (hs : s.Valid) (ms : List Move) :
    List.Forall₂
        (fun x y => x.move = y.move ∧
          x.outcome.Projects (.restrict name) (Reply.AgreesFor x.move) y.outcome)
        (s.turnsOn name ms)
        ((s.restrict name).turns (ms.filter fun m => !m.isForeign name)) ∧
      (s.ending ms).restrict name =
        (s.restrict name).ending (ms.filter fun m => !m.isForeign name) := by
  induction ms generalizing s with
  | nil => exact ⟨List.Forall₂.nil, rfl⟩
  | cons m ms ih =>
    obtain ⟨hforall, hending⟩ := ih (hs.move m)
    rw [ending_cons, turnsOn, turns_cons]
    cases hm : m.isForeign name with
    | true =>
      rw [(restrict_move_of_isForeign hs hm).1] at hforall hending
      rw [List.filter_cons_of_neg (by simp [hm]), List.filter_cons_of_neg (by simp [hm])]
      exact ⟨hforall, hending⟩
    | false =>
      have hprojects := projects_move_of_not_isForeign hs hm
      have hsession : (s.move m).session.restrict name =
          ((s.restrict name).move m).session := hprojects.session
      rw [hsession] at hforall hending
      rw [List.filter_cons_of_pos (by simp [hm]), List.filter_cons_of_pos (by simp [hm]),
        turns_cons, ending_cons]
      exact ⟨List.Forall₂.cons ⟨rfl, hprojects⟩ hforall, hending⟩

/-- **Names do not interfere.** Take two runs over the same fresh tables that differ only in
declarations, assignments, removals and lookups of names other than `name`. Their other moves are
the same, closings of children in whatever order among them, and correspond to each other. Of two
that correspond, both are out of range or neither is; they have the same reply, unless the move is
asked about the bindings of all names; and they leave sessions behind that are the same but for the
bindings of other names. So do the runs. The moves in which they differ are not out of range. -/
theorem names_do_not_interfere (name : String) (contexts : List Context) {ms ms' : List Move}
    (h : (ms.filter fun m => !m.isForeign name) = ms'.filter fun m => !m.isForeign name) :
    List.Forall₂ (fun x y => x.move = y.move ∧ x.outcome.AgreesOn name x.move y.outcome)
        ((ofContexts contexts).turnsOn name ms)
        ((ofContexts contexts).turnsOn name ms') ∧
      ((ofContexts contexts).ending ms).restrict name =
        ((ofContexts contexts).ending ms').restrict name ∧
      ∀ x ∈ (ofContexts contexts).turns ms ++ (ofContexts contexts).turns ms',
        x.move.isForeign name = true → x.outcome.reply ≠ .outOfRange := by
  have hreach := ReachableInAnyOrder.ofContexts contexts
  obtain ⟨hforall, hending⟩ := restrict_turns hreach.valid ms
  obtain ⟨hforall', hending'⟩ := restrict_turns hreach.valid ms'
  rw [← h] at hforall' hending'
  refine ⟨?_, hending.trans hending'.symm, ?_⟩
  · refine forall₂_of_common ?_ hforall hforall'
    rintro ⟨s, m⟩ ⟨s', m'⟩ ⟨s'', m''⟩ ⟨hm, hx⟩ ⟨hm', hx'⟩
    simp only at hm hm' hx hx'
    subst hm hm'
    exact ⟨rfl, hx.agreesOn hx'⟩
  · intro x hx hforeign
    rcases List.mem_append.1 hx with hx | hx
    · exact (restrict_move_of_isForeign (hreach.before hx).valid hforeign).2
    · exact (restrict_move_of_isForeign (hreach.before hx).valid hforeign).2

/-- Two runs in which `x` is declared twice, copied, written back and exchanged, with `y` declared,
removed and missed at different places, and in which the older of two children of different slots
is closed first: `x` ends up the same in both, although the sessions differ and `x` stands at
different places in their frames. -/
theorem names_do_not_interfere_shadowed :
    ∃ s s' : Session,
      s = (ofContexts [.traced, .quiet]).ending
        [.step (.edit 0 (.insert "y" "int" "0")), .step (.edit 0 (.insert "x" "int" "1")),
          .step (.openChild 0), .step (.openChild 1), .step (.edit 0 (.insert "x" "int" "2")),
          .step (.seed 0), .step (.edit 0 (.erase "y")), .step (.edit 0 (.assign "x" "3")),
          .step (.writeBack 0), .step (.copy 0 1), .step (.swap 0 1), .closeOn 0] ∧
      s' = (ofContexts [.traced, .quiet]).ending
        [.step (.edit 0 (.insert "x" "int" "1")), .step (.query 1 (.resolveHere "z")),
          .step (.openChild 0), .step (.openChild 1), .step (.edit 0 (.insert "y" "int" "8")),
          .step (.edit 0 (.insert "x" "int" "2")), .step (.seed 0),
          .step (.edit 0 (.assign "x" "3")), .step (.writeBack 0), .step (.edit 1 (.erase "y")),
          .step (.copy 0 1), .step (.swap 0 1), .closeOn 0] ∧
      s.restrict "x" = s'.restrict "x" ∧ s ≠ s' ∧ s.children = [⟨1, ⟨1, 0, false⟩⟩] ∧
      (s.tables.map fun t => t.stack.locate "x") ≠ s'.tables.map fun t => t.stack.locate "x" := by
  have h : ([.step (.edit 0 (.insert "y" "int" "0")), .step (.edit 0 (.insert "x" "int" "1")),
        .step (.openChild 0), .step (.openChild 1), .step (.edit 0 (.insert "x" "int" "2")),
        .step (.seed 0), .step (.edit 0 (.erase "y")), .step (.edit 0 (.assign "x" "3")),
        .step (.writeBack 0), .step (.copy 0 1), .step (.swap 0 1), .closeOn 0]
          : List Move).filter (fun m => !m.isForeign "x") =
      ([.step (.edit 0 (.insert "x" "int" "1")), .step (.query 1 (.resolveHere "z")),
        .step (.openChild 0), .step (.openChild 1), .step (.edit 0 (.insert "y" "int" "8")),
        .step (.edit 0 (.insert "x" "int" "2")), .step (.seed 0),
        .step (.edit 0 (.assign "x" "3")), .step (.writeBack 0), .step (.edit 1 (.erase "y")),
        .step (.copy 0 1), .step (.swap 0 1), .closeOn 0]
          : List Move).filter fun m => !m.isForeign "x" := by decide
  obtain ⟨-, hending, -⟩ := names_do_not_interfere "x" [.traced, .quiet] h
  exact ⟨_, _, rfl, rfl, hending, by decide, by decide, by decide⟩

end Session

end LexicalScope
