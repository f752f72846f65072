import Mathlib.Data.List.Basic
import LexicalScope.Proofs.Session.Bracket

set_option autoImplicit false

/-!
# Brackets restore the table

A child that is opened, used and closed again leaves its table as it found it, and so does a
scope that is entered, used and left, except that bindings that were visible at the beginning
may have other values.

## Main definitions

* `LexicalScope.Table.Restores` — a table is another one again, up to values of visible
  bindings.
* `LexicalScope.Turn.KeepsChildOpen`, `LexicalScope.Turn.StaysInScope` — what may happen inside of
  the two kinds of brackets.

## Main results

* `LexicalScope.Session.restores_of_close` — closing a child restores the table.
* `LexicalScope.Session.restores_of_exit` — leaving an entered scope restores the table.
* `LexicalScope.Session.brackets_restore_table` — both, for every session that is reached.
-/

namespace LexicalScope

/-- `t'` is `t` again: the same frames with the same levels, and in them, in order, bindings of
the same names, types and levels; the same floor and the same context; and the same values,
except possibly that of a binding which its name referred to in `t`. -/
structure Table.Restores (t t' : Table) : Prop where
  /-- Frames, levels, names, types and order are the same. -/
  shape : t'.stack.shape = t.stack.shape
  /-- The floor is the same. -/
  floor : t'.floor = t.floor
  /-- The context is the same. -/
  context : t'.context = t.context
  /-- A binding that is not the same stands where its name referred to. -/
  value : ∀ p b, t.stack.bindingAt? p = some b →
    t'.stack.bindingAt? p = some b ∨ (t.stack.locate b.name = some p ∧ t.resolve b.name = some b)

/-- Assignments restore a table. -/
lemma Table.restores_assignAll (t : Table) (bs : List Binding) :
    t.Restores { t with stack := t.stack.assignAll bs } where
  shape := Stack.shape_assignAll _ _
  floor := rfl
  context := rfl
  value := by
    intro p b hb
    rcases Stack.bindingAt?_assignAll t.stack bs p with h | ⟨name, hname⟩
    · exact Or.inl (h.trans hb)
    · have hresolve : t.stack.resolve name = some b := by
        rw [← Stack.bindingAt?_of_locate hname, hb]
      rw [Stack.name_of_resolve hresolve]
      exact Or.inr ⟨hname, hresolve⟩

/-- A table that stands on the frames of another one, with nothing on top, restores it. -/
lemma Table.restores_of_standsOn {t t' : Table} (hstands : t'.stack.StandsOn t.stack)
    (hlen : t'.stack.length = t.stack.length) (hfloor : t'.floor = t.floor)
    (hcontext : t'.context = t.context) : t.Restores t' := by
  obtain ⟨bs, hbs⟩ := hstands.eq_of_length hlen
  have heq : t' = { t with stack := t.stack.assignAll bs } := by
    cases t'
    simp_all
  rw [heq]
  exact t.restores_assignAll bs

/-! ## Rules -/

/-- A move inside of a child on which `n` children of the slot lie outside: the table of the slot
is not exchanged, and the child stays open. -/
def Turn.KeepsChildOpen (slot n : Nat) (x : Turn) : Prop :=
  ¬ x.move.Exchanges slot ∧ n < (x.outcome.session.childrenAt slot).length

/-- A move inside of a scope entered at `level`, with `n` children of the slot outside: the table
of the slot is not exchanged and stays above the level, and no child from outside is closed or
writes back. -/
def Turn.StaysInScope (slot n level : Nat) (x : Turn) : Prop :=
  ¬ x.move.Exchanges slot ∧ n ≤ (x.outcome.session.childrenAt slot).length ∧
    (∀ t ∈ x.outcome.session.tables[slot]?, level < t.level) ∧
    (x.move = .step (.writeBack slot) → n < (x.before.childrenAt slot).length)

namespace Session

/-! ## Runs inside of a bracket -/

/-- The session is valid, and the site of the slot is inside of a bracket. -/
def IsWithin (slot : Nat) (outer : Stack) (ground : Nat) (context : Context)
    (below : List Child) (u : Session) : Prop :=
  u.Valid ∧ ∃ x, u.site? slot = some x ∧ x.IsWithin outer ground context below

variable {slot : Nat} {outer : Stack} {ground : Nat} {context : Context} {below : List Child}

/-- A move that keeps a child open stays inside of the child.

**Proof sketch.** The ground of the bracket is the base of the child, so the floor protects the
frames outside. A write-back is that of a child opened inside, or of the child itself, whose
base is the number of frames outside. -/
lemma IsWithin.move_of_keepsChildOpen {c : Child} (hc : c.base = outer.length) {x : Turn}
    (h : x.before.IsWithin slot outer outer.length context (c :: below))
    (hrule : x.KeepsChildOpen slot below.length) :
    x.outcome.session.IsWithin slot outer outer.length context (c :: below) := by
  obtain ⟨hvalid, y, hy, hin⟩ := h
  obtain ⟨hswap, hopen⟩ := hrule
  have hact := site?_move x.before hswap
  rw [hy, Option.map_some] at hact
  have hyv := hvalid.of_site? hy
  have hbelow : (c :: below).length ≤ (y.act (x.before.actionOf slot x.move)).children.length := by
    rw [children_of_site? hact]
    exact hopen
  refine ⟨hvalid.move x.move, _, hact, hin.act hyv (hin.lt_length_act hyv _ hbelow) hbelow ?_⟩
  intro _ d hd
  obtain ⟨inner, hchildren, -, -, hbase⟩ := hin.floors
  cases inner with
  | nil =>
    rw [hchildren, List.nil_append, List.head?_cons, Option.mem_some_iff] at hd
    rw [← hd, hc]
  | cons e inner =>
    rw [hchildren, List.cons_append, List.head?_cons, Option.mem_some_iff] at hd
    exact hbase d (hd ▸ List.mem_cons_self)

/-- A move that stays in a scope stays inside of the scope.

**Proof sketch.** That the level is not left is part of the rule. A write-back is that of a child
opened inside, because the rule excludes those from outside. -/
lemma IsWithin.move_of_staysInScope {level : Nat} (hlevel : outer.length = level + 1) {x : Turn}
    (h : x.before.IsWithin slot outer ground context below)
    (hrule : x.StaysInScope slot below.length level) :
    x.outcome.session.IsWithin slot outer ground context below := by
  obtain ⟨hvalid, y, hy, hin⟩ := h
  obtain ⟨hswap, hopen, habove, hwrite⟩ := hrule
  have hact := site?_move x.before hswap
  rw [hy, Option.map_some] at hact
  have hyv := hvalid.of_site? hy
  have hbelow : below.length ≤ (y.act (x.before.actionOf slot x.move)).children.length := by
    rw [children_of_site? hact]
    exact hopen
  have hlen : outer.length < (y.act (x.before.actionOf slot x.move)).table.stack.length := by
    have hlt := habove _ (table_of_site? hact)
    have hvalid' := (hvalid.move x.move).of_site? hact
    have := hvalid'.level_add_one
    omega
  refine ⟨hvalid.move x.move, _, hact, hin.act hyv hlen hbelow ?_⟩
  intro ha d hd
  have hinside := hwrite (eq_of_requestOf_actionOf (by rw [ha]; rfl))
  rw [← children_of_site? hy] at hinside
  exact (hin.lt_base hinside hd).2

/-- A session inside of a bracket of whose children none is open any more: the table has the
floor that the bracket began with, and the children from outside are the open ones. -/
lemma IsWithin.exists_table {u : Session} (h : u.IsWithin slot outer ground context below)
    (hlen : (u.childrenAt slot).length = below.length) :
    ∃ t, u.tables[slot]? = some t ∧ t.Valid ∧ t.stack.StandsOn outer ∧
      outer.length < t.stack.length ∧ t.floor = ground ∧ t.context = context ∧
      u.childrenAt slot = below := by
  obtain ⟨hvalid, x, hx, hin⟩ := h
  obtain ⟨inner, hchildren, hfloor, -, -⟩ := hin.floors
  rw [← children_of_site? hx, hchildren, List.length_append] at hlen
  have hnil : inner = [] := by
    apply List.length_eq_zero_iff.1
    omega
  rw [hnil, List.nil_append] at hchildren
  rw [hnil, floorOver_nil] at hfloor
  exact ⟨x.table, table_of_site? hx, hvalid.of_site? hx, hin.standsOn, hin.lt_length, hfloor,
    hin.context_eq, (children_of_site? hx).symm.trans hchildren⟩

/-! ## Brackets -/

/-- Opening a child on a slot leads inside of it. -/
lemma isWithin_openChild {s : Session} (hs : s.Valid) {t : Table}
    (ht : s.tables[slot]? = some t) :
    (s.step (.openChild slot)).session.IsWithin slot t.stack t.stack.length t.context
      (t.openChild.answer :: s.childrenAt slot) := by
  have hact : (s.step (.openChild slot)).session.site? slot =
      (s.site? slot).map fun x => x.act (s.actionAt slot (.openChild slot)) :=
    site?_step s fun h => h
  rw [site?_of_some ht, Option.map_some, actionAt, if_pos rfl] at hact
  refine ⟨hs.step _, _, hact, ?_⟩
  exact
    { standsOn := (Stack.StandsOn.refl t.stack).cons _
      lt_length := Nat.lt_succ_self _
      context_eq := rfl
      floors := ⟨[], rfl, rfl, trivial, by simp⟩ }

/-- Entering a scope of a slot leads inside of it. -/
lemma isWithin_enter {s : Session} (hs : s.Valid) {t : Table} (ht : s.tables[slot]? = some t) :
    (s.step (.edit slot .enter)).session.IsWithin slot t.stack t.floor t.context
      (s.childrenAt slot) := by
  have hact : (s.step (.edit slot .enter)).session.site? slot =
      (s.site? slot).map fun x => x.act (s.actionAt slot (.edit slot .enter)) :=
    site?_step s fun h => h
  rw [site?_of_some ht, Option.map_some, actionAt, if_pos rfl] at hact
  refine ⟨hs.step _, _, hact, ?_⟩
  exact
    { standsOn := (Stack.StandsOn.refl t.stack).cons _
      lt_length := Nat.lt_succ_self _
      context_eq := rfl
      floors := ⟨[], rfl, rfl, trivial, by simp⟩ }

/-- Closing a child restores the table that it was opened on. -/
theorem restores_of_close {s : Session} (hs : s.Valid) {t : Table}
    (ht : s.tables[slot]? = some t) {ms : List Move}
    (hrule : ∀ x ∈ (s.step (.openChild slot)).session.turns ms,
      x.KeepsChildOpen slot (s.childrenAt slot).length)
    (hlen : (((s.step (.openChild slot)).session.ending ms).childrenAt slot).length =
      (s.childrenAt slot).length + 1) :
    ∃ t' e, ((s.step (.openChild slot)).session.ending ms).tables[slot]? = some t' ∧
      ((s.step (.openChild slot)).session.ending ms).child? slot = some t.openChild.answer ∧
      t.openChild.answer.close t' = some e ∧ t.Restores e.table := by
  have hin := ending_induction (fun _ h hturn => h.move_of_keepsChildOpen rfl hturn)
    (isWithin_openChild hs ht) hrule
  obtain ⟨t', ht', -, hstands, hlt, -, hcontext, hchildren⟩ := hin.exists_table hlen
  have hbase : t.openChild.answer.base ≤ t'.stack.length := hlt.le
  obtain ⟨e, he, -, htable⟩ := Child.close_of_le hbase
  refine ⟨t', e, ht', ?_, he, ?_⟩
  · rw [child?_eq_head?, hchildren, List.head?_cons]
  · rw [htable]
    apply Table.restores_of_standsOn
    · exact hstands.outside (le_refl _)
    · exact Stack.length_outside _ hbase
    · rfl
    · exact hcontext

/-- Leaving an entered scope, at its level and with no child opened in it, is not refused and
restores the table that it was entered on. -/
theorem restores_of_exit {s : Session} (hs : s.Valid) {t : Table}
    (ht : s.tables[slot]? = some t) {ms : List Move}
    (hrule : ∀ x ∈ (s.step (.edit slot .enter)).session.turns ms,
      x.StaysInScope slot (s.childrenAt slot).length t.level)
    (hlen : (((s.step (.edit slot .enter)).session.ending ms).childrenAt slot).length =
      (s.childrenAt slot).length)
    (hlevel : ∀ t' ∈ ((s.step (.edit slot .enter)).session.ending ms).tables[slot]?,
      t'.level = t.level + 1) :
    ∃ t' e, ((s.step (.edit slot .enter)).session.ending ms).tables[slot]? = some t' ∧
      t'.exit = some e ∧ e.answer = .ok () ∧ t.Restores e.table := by
  have hvt := hs.tables t (List.mem_of_getElem? ht)
  have hin := ending_induction
    (fun _ h hturn => h.move_of_staysInScope hvt.level_add_one.symm hturn)
    (isWithin_enter hs ht) hrule
  obtain ⟨t', ht', hvt', hstands, -, hfloor, hcontext, -⟩ := hin.exists_table hlen
  obtain ⟨f, rest, hf⟩ := hvt'.exists_cons
  have hrest : rest.length = t.stack.length := by
    have h1 := hlevel t' ht'
    have h2 := hvt'.level_add_one
    have h3 := hvt.level_add_one
    rw [hf, List.length_cons] at h2
    omega
  have hnot : ¬ rest.length ≤ t'.floor := by
    have := hvt.floor_lt
    omega
  have hexit : t'.exit =
      some
        { answer := .ok ()
          table := { t' with stack := rest }
          trace := t'.context.emit (.exited f.bindings.length) f.level } := by
    simp only [Table.exit, hf, if_neg hnot]
  refine ⟨t', _, ht', hexit, rfl, ?_⟩
  apply Table.restores_of_standsOn
  · exact Stack.StandsOn.tail (hf ▸ hstands) hrest.ge
  · exact hrest
  · exact hfloor
  · exact hcontext

/-- **Brackets restore the table.** From every session that is reached, on every slot with a table
`t`, in whatever order children of different slots are closed:

* if a child is opened on the slot and stays open in a run that does not exchange the table of
  the slot, and at the end the children opened inside of it are closed again, then the child can
  be closed and restores `t`;
* if a scope is entered on the slot, and in a run the table of the slot is not exchanged and
  stays above its old level, and no child from outside is closed or writes back, and at the end
  the scope is the current one and the children opened inside of it are closed again, then the
  scope can be left and restores `t`. -/
theorem brackets_restore_table {s : Session} (hs : s.ReachableInAnyOrder) {slot : Nat} {t : Table}
    (ht : s.tables[slot]? = some t) (ms : List Move) :
    ((∀ x ∈ (s.step (.openChild slot)).session.turns ms,
        x.KeepsChildOpen slot (s.childrenAt slot).length) →
      (((s.step (.openChild slot)).session.ending ms).childrenAt slot).length =
        (s.childrenAt slot).length + 1 →
      ∃ t' e, ((s.step (.openChild slot)).session.ending ms).tables[slot]? = some t' ∧
        ((s.step (.openChild slot)).session.ending ms).child? slot =
          some t.openChild.answer ∧
        t.openChild.answer.close t' = some e ∧ t.Restores e.table) ∧
    ((∀ x ∈ (s.step (.edit slot .enter)).session.turns ms,
        x.StaysInScope slot (s.childrenAt slot).length t.level) →
      (((s.step (.edit slot .enter)).session.ending ms).childrenAt slot).length =
        (s.childrenAt slot).length →
      (∀ t' ∈ ((s.step (.edit slot .enter)).session.ending ms).tables[slot]?,
        t'.level = t.level + 1) →
      ∃ t' e, ((s.step (.edit slot .enter)).session.ending ms).tables[slot]? = some t' ∧
        t'.exit = some e ∧ e.answer = .ok () ∧ t.Restores e.table) :=
  ⟨restores_of_close hs.valid ht, restores_of_exit hs.valid ht⟩

/-- Both brackets on a table that declares a name twice, with a child of another table that is open
from before. In each bracket a nested child overwrites the first of the two bindings, directly or
by writing back, and it is refused to leave its scope; in the first one the child of the other
table is closed although the nested child was opened after it. -/
theorem brackets_restore_table_nested :
    ∃ s : Session, ∃ t : Table, s.ReachableInAnyOrder ∧ s.tables[0]? = some t ∧
      (∃ t' e, ((s.step (.openChild 0)).session.ending
          [.step (.seed 0), .step (.openChild 0), .step (.edit 0 (.assign "x" "3")),
            .step (.edit 0 .exit), .closeOn 1, .closeOn 0, .step (.edit 0 .enter),
            .step (.writeBack 0)]).tables[0]? = some t' ∧
        t.openChild.answer.close t' = some e ∧ t.Restores e.table ∧
        e.table.resolve "x" = some ⟨"x", "int", "3", 0⟩) ∧
      ∃ t' e, ((s.step (.edit 0 .enter)).session.ending
          [.step (.openChild 0), .step (.edit 0 (.assign "x" "4")), .step (.edit 0 .exit),
            .step (.closeChild 0), .step (.copy 1 0)]).tables[0]? = some t' ∧
        t'.exit = some e ∧ e.answer = .ok () ∧ t.Restores e.table ∧
        e.table.resolve "x" = some ⟨"x", "int", "4", 0⟩ := by
  have hreach : ((ofContexts [.traced, .quiet]).ending
      [.step (.edit 0 (.insert "x" "int" "1")), .step (.edit 0 (.insert "x" "str" "2")),
        .step (.openChild 1)]).ReachableInAnyOrder := .ending (.ofContexts _) _
  have ht : ((ofContexts [.traced, .quiet]).ending
      [.step (.edit 0 (.insert "x" "int" "1")), .step (.edit 0 (.insert "x" "str" "2")),
        .step (.openChild 1)]).tables[0]? =
      some ⟨[⟨0, [⟨"x", "int", "1", 0⟩, ⟨"x", "str", "2", 0⟩]⟩], 0, .traced⟩ := by decide
  have hclose := (brackets_restore_table hreach ht
    [.step (.seed 0), .step (.openChild 0), .step (.edit 0 (.assign "x" "3")),
      .step (.edit 0 .exit), .closeOn 1, .closeOn 0, .step (.edit 0 .enter),
      .step (.writeBack 0)]).1
    (by
      simp only [turns_cons, turns_nil, List.forall_mem_cons, List.not_mem_nil, false_implies,
        implies_true, Turn.KeepsChildOpen, Move.Exchanges, Step.Exchanges]
      decide)
    (by decide)
  have hexit := (brackets_restore_table hreach ht
    [.step (.openChild 0), .step (.edit 0 (.assign "x" "4")), .step (.edit 0 .exit),
      .step (.closeChild 0), .step (.copy 1 0)]).2
    (by
      simp only [turns_cons, turns_nil, List.forall_mem_cons, List.not_mem_nil, false_implies,
        implies_true, Turn.StaysInScope, Move.Exchanges, Step.Exchanges]
      decide)
    (by decide) (by decide)
  obtain ⟨t₁, e₁, ht₁, -, he₁, hrestores₁⟩ := hclose
  obtain ⟨t₂, e₂, ht₂, he₂, hok₂, hrestores₂⟩ := hexit
  refine ⟨_, _, hreach, ht, ⟨t₁, e₁, ht₁, he₁, hrestores₁, ?_⟩, t₂, e₂, ht₂, he₂, hok₂,
    hrestores₂, ?_⟩
  · cases ht₁
    cases he₁
    decide
  · cases ht₂
    cases he₂
    decide

end Session

end LexicalScope
