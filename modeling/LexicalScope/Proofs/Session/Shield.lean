import Mathlib.Data.List.Basic
import LexicalScope.Proofs.Session.Restore
import LexicalScope.Proofs.Stack.Shadow
import LexicalScope.Proofs.Table.Copies

set_option autoImplicit false

/-!
# Seeded children

A child that was seeded in its own scope holds a copy of every binding outside of it. Its frame
thus declares every name of the frames outside, and it keeps doing so as long as nothing is
removed from it. Then all that happens in the child and in the scopes inside of it ends at the
copies, children opened in it and their write-backs included, and the frames outside stay as they
are.

## Main definitions

* `LexicalScope.Site.IsShielded` — the invariant of a site inside of a seeded child.
* `LexicalScope.Turn.StaysShielded` — what may happen inside of a seeded child.

## Main results

* `LexicalScope.Site.IsShielded.act` — an action that closes no child from outside, writes back
  from no child from outside and removes nothing from the frame of the seeded child keeps the
  invariant.
* `LexicalScope.Session.seeded_child_shields_outside` — the frames outside of a seeded child stay
  as they are.
-/

namespace LexicalScope

namespace Stack

/-- Declarations after all others forget no name. -/
lemma names_subset_extend (f : Frame) (bs : List Binding) : names [f] ⊆ names [f.extend bs] := by
  intro name hname
  rw [mem_names, resolve_singleton] at hname ⊢
  rw [Frame.find?_extend, Option.isSome_or, hname, Bool.true_or]

/-- A frame that is extended by copies of all bindings under it shadows them. -/
lemma shadows_extend_copies (f : Frame) (outer : Stack) (level : Nat) :
    Shadows (f.extend (outer.copies level) :: outer) outer := by
  refine ⟨[], _, rfl, ?_⟩
  intro name hname
  rw [mem_names] at hname ⊢
  rw [resolve_singleton, Frame.find?_extend, Option.isSome_or, find?_copies, Option.isSome_map,
    hname, Bool.or_true]

end Stack

/-- Edits leave shadowed frames alone, if the floor protects them and nothing is removed from the
frame that shadows them. -/
lemma Table.shadows_edited {t : Table} {f : Frame} {rest outer : Stack} (hf : t.stack = f :: rest)
    (h : t.stack.Shadows outer) (hfloor : outer.length ≤ t.floor) {e : Edit}
    (herase : ∀ name, e = .erase name → outer.length < rest.length) :
    (t.edited e).stack.Shadows outer := by
  cases e with
  | insert name typeTag value =>
    rw [edited_insert hf]
    exact (hf ▸ h).of_names_subset (Stack.names_subset_extend f _)
  | assign name value =>
    rw [edited_assign]
    exact h.assign name value
  | erase name =>
    rw [edited_erase hf]
    exact (Stack.Shadows.tail (hf ▸ h) (herase name rfl)).cons _
  | enter =>
    rw [edited_enter]
    exact h.cons _
  | exit =>
    rw [edited_exit hf]
    split
    · exact h
    · rename_i hnot
      exact Stack.Shadows.tail (hf ▸ h) (hfloor.trans_lt (Nat.lt_of_not_le hnot))

/-! ## The invariant -/

/-- A site inside of a seeded child that has the frames `outer` and the children `below` outside
of it, the child itself being the innermost of these: the site is inside of the child, and the
frame of the child shadows the frames outside. -/
structure Site.IsShielded (outer : Stack) (context : Context) (below : List Child)
    (x : Site) : Prop where
  /-- The floor protects the frames outside, and the children opened inside hand it on. -/
  isWithin : x.IsWithin outer outer.length context below
  /-- The frames outside are as they were, under a frame that declares all their names. -/
  shadows : x.table.stack.Shadows outer

/-- Closing a child that lies inside of the frame that shadows the others leaves them alone, whether
there is anything to close or not. -/
lemma Table.shadows_close {t : Table} {outer : Stack} (h : t.stack.Shadows outer) {c : Child}
    (hbase : outer.length < c.base) : (t.afterwards (c.close t)).stack.Shadows outer := by
  by_cases hle : c.base ≤ t.stack.length
  · obtain ⟨e, he, -, htable⟩ := Child.close_of_le hle
    rw [he, afterwards_some, htable]
    exact h.outside hbase
  · rw [Child.close, if_neg hle]
    exact h

namespace Site

variable {outer : Stack} {context : Context} {below : List Child} {x : Site}

/-- Copies of bindings extend the current frame, which forgets no name by it. -/
lemma IsShielded.shadows_insertAll (h : x.IsShielded outer context below) (bs : List Binding) :
    (x.table.afterwards (x.table.insertAll bs)).stack.Shadows outer := by
  obtain ⟨f, rest, hf, -, -⟩ := h.isWithin.exists_cons
  rw [Table.afterwards_insertAll hf]
  exact (hf ▸ h.shadows).of_names_subset (Stack.names_subset_extend f _)

/-- **An action inside of a seeded child.** An action keeps the invariant if it closes no child
from outside, writes back from no child from outside, and removes nothing from the frame of the
seeded child.

**Proof sketch.** One case for each action. Declarations make the current frame declare more
names. An assignment ends at the shadowing frame or before, and so does a write-back to the
outside of a child opened inside, whose base lies above the shadowing frame. Closing such a child
keeps the shadowing frame for the same reason, and leaving scopes stops at the floor. -/
theorem IsShielded.act (h : x.IsShielded outer context below) (hx : x.table.Valid) {a : Action}
    (hbelow : below.length ≤ (x.act a).children.length)
    (hwrite : a = .writeBack → below.length < x.children.length)
    (herase : ∀ name, a = .edit (.erase name) → outer.length < x.table.level) :
    (x.act a).IsShielded outer context below where
  isWithin := by
    apply h.isWithin.act hx (h.isWithin.lt_length_act hx a hbelow) hbelow
    intro ha c hc
    exact (h.isWithin.lt_base (hwrite ha) hc).2
  shadows := by
    cases a with
    | rest => exact h.shadows
    | edit e =>
      obtain ⟨f, rest, hf, -, -⟩ := h.isWithin.exists_cons
      obtain ⟨inner, -, hfloor, hchain, -⟩ := h.isWithin.floors
      apply Table.shadows_edited hf h.shadows
      · rw [hfloor]
        exact hchain.le_floorOver
      · intro name he
        rw [← Table.level_of_cons hf]
        exact herase name (congrArg Action.edit he)
    | declare bs => exact h.shadows_insertAll bs
    | overwrite bs =>
      rw [Site.act, Table.table_assignAll]
      exact h.shadows.writeBack h.isWithin.lt_length bs
    | openChild => exact h.shadows.cons _
    | seed =>
      rcases x.act_seed with hact | ⟨bs, hact⟩
      · rw [hact]
        exact h.shadows
      · rw [hact]
        exact h.shadows_insertAll bs
    | writeBack =>
      rcases x.act_writeBack with hact | ⟨c, hc, bs, hact⟩
      · rw [hact]
        exact h.shadows
      · rw [hact, Table.table_assignAll]
        exact h.shadows.writeBack (h.isWithin.lt_base (hwrite rfl) hc).1 bs
    | closeChild =>
      cases hcons : x.children with
      | nil =>
        rw [Site.act, hcons]
        exact h.shadows
      | cons c rest =>
        have hact : x.act .closeChild =
            { table := x.table.afterwards (c.close x.table), children := rest } := by
          rw [Site.act, hcons]
        rw [hact] at hbelow ⊢
        have hinner : below.length < x.children.length := by
          rw [hcons, List.length_cons]
          exact Nat.lt_succ_of_le hbelow
        have hbase := (h.isWithin.lt_base hinner (by rw [hcons]; rfl)).1
        exact Table.shadows_close h.shadows hbase

/-- Seeding a child at its own level shields the frames outside.

**Proof sketch.** A child opened inside would have its base above that level, and at or below the
floor. So the child is the innermost one, and it is the current frame that gets the copies. -/
lemma IsWithin.isShielded_seed {c : Child} (h : x.IsWithin outer outer.length context (c :: below))
    (hx : x.table.Valid) (hc : c.base = outer.length) (hlevel : x.table.level = outer.length) :
    x.children = c :: below ∧
      (x.act .seed).IsShielded (x.table.stack.outside outer.length) context (c :: below) := by
  have hlen := Stack.length_outside _ h.lt_length.le
  have hchildren : x.children = c :: below := by
    obtain ⟨inner, hchildren, hfloor, hchain, -⟩ := h.floors
    cases inner with
    | nil => exact hchildren
    | cons d inner =>
      have := hchain.lt_base
      have := hx.floor_lt
      have := hx.level_add_one
      rw [floorOver_cons] at hfloor
      omega
  obtain ⟨f, rest, hf, -, -⟩ := h.exists_cons
  have hrest : rest.length = outer.length := by
    rw [← hlevel, Table.level_of_cons hf]
  have houtside : x.table.stack.outside outer.length = rest := by
    rw [hf, Stack.outside_cons_of_le f hrest.ge, ← hrest, Stack.outside_length]
  have hact : x.act .seed =
      { x with table := x.table.afterwards (x.table.insertAll (Stack.scan rest)) } := by
    rw [Site.act, hchildren]
    simp only [Child.seed, Table.seed, hc, if_pos h.lt_length.le, houtside]
  refine ⟨hchildren, ?_⟩
  rw [hact]
  refine ⟨?_, ?_⟩
  · rw [hlen]
    exact h.outside.insertAll _
  · rw [Table.afterwards_insertAll hf, houtside]
    exact Stack.shadows_extend_copies f rest _

end Site

/-- A move inside of a seeded child at `base` on which `n` children of the slot lie outside: the
table of the slot is not exchanged, the child stays open and does not write back, and nothing is
removed at its own level. -/
def Turn.StaysShielded (slot n base : Nat) (x : Turn) : Prop :=
  x.KeepsChildOpen slot n ∧
    match x.move with
    | .step (.writeBack k) => k = slot → n + 1 < (x.before.childrenAt slot).length
    | .step (.edit k (.erase _)) => k = slot → ∀ t ∈ x.before.tables[slot]?, t.level ≠ base
    | _ => True

namespace Session

variable {slot : Nat} {outer : Stack} {context : Context} {below : List Child}

/-- The session is valid, and the site of the slot is inside of a seeded child. -/
def IsShielded (slot : Nat) (outer : Stack) (context : Context) (below : List Child)
    (u : Session) : Prop :=
  u.Valid ∧ ∃ x, u.site? slot = some x ∧ x.IsShielded outer context below

/-- A move that stays in the seeded child keeps the frames outside as they are. -/
lemma IsShielded.move {c : Child} {x : Turn}
    (h : x.before.IsShielded slot outer context (c :: below))
    (hrule : x.StaysShielded slot below.length outer.length) :
    x.outcome.session.IsShielded slot outer context (c :: below) := by
  obtain ⟨s, m⟩ := x
  obtain ⟨hvalid, y, hy, hin⟩ := h
  obtain ⟨⟨hswap, hopen⟩, hrule⟩ := hrule
  have hact := site?_move s hswap
  rw [hy, Option.map_some] at hact
  have hyv := hvalid.of_site? hy
  refine ⟨hvalid.move m, _, hact, hin.act hyv ?_ ?_ ?_⟩
  · rw [children_of_site? hact]
    exact hopen
  · intro ha
    obtain rfl : m = .step (.writeBack slot) := eq_of_requestOf_actionOf (by rw [ha]; rfl)
    rw [children_of_site? hy]
    exact hrule rfl
  · intro name ha
    obtain rfl : m = .step (.edit slot (.erase name)) :=
      eq_of_requestOf_actionOf (by rw [ha]; rfl)
    have hne := hrule rfl y.table (table_of_site? hy)
    have hlt := hin.isWithin.lt_length
    have hlevel := hyv.level_add_one
    omega

/-- **A seeded child shields the outside.** From every session that is reached, open a child on a
slot with a table `t`, and let it stay open in a run that does not exchange the table of the slot.
If the table then stands at the level of the child, seeding is carried out for this child. In every
further run that does not exchange the table, leaves the child open and does not let it write
back, and that removes nothing at the level of the child, the frames outside of the child stay
exactly what they were at the seeding. Children of different slots may be closed in any order. -/
theorem seeded_child_shields_outside {s : Session} (hs : s.ReachableInAnyOrder) {t : Table}
    (ht : s.tables[slot]? = some t) (ms : List Move) {u : Session}
    (hu : u = (s.step (.openChild slot)).session.ending ms)
    (hopen : ∀ x ∈ (s.step (.openChild slot)).session.turns ms,
      x.KeepsChildOpen slot (s.childrenAt slot).length)
    {v : Table} (hv : u.tables[slot]? = some v) (hlevel : v.level = t.openChild.answer.base)
    (more : List Move)
    (hmore : ∀ x ∈ (u.step (.seed slot)).session.turns more,
      x.StaysShielded slot (s.childrenAt slot).length t.openChild.answer.base) :
    u.child? slot = some t.openChild.answer ∧
    (u.step (.seed slot)).reply = .done ∧
    ∃ w, ((u.step (.seed slot)).session.ending more).tables[slot]? = some w ∧
      t.openChild.answer.base < w.stack.length ∧
      w.stack.outside t.openChild.answer.base = v.stack.outside t.openChild.answer.base := by
  have hbase : t.openChild.answer.base = t.stack.length := rfl
  rw [hbase] at hlevel hmore ⊢
  have hin := ending_induction (fun _ h hturn => h.move_of_keepsChildOpen rfl hturn)
    (isWithin_openChild hs.valid ht) hopen
  rw [← hu] at hin
  obtain ⟨hvalid, x, hx, hin⟩ := hin
  have hxv := hvalid.of_site? hx
  obtain rfl : x.table = v := Option.some.inj ((table_of_site? hx).symm.trans hv)
  obtain ⟨hchildren, hshielded⟩ := hin.isShielded_seed hxv hbase hlevel
  have hchild : u.child? slot = some t.openChild.answer := by
    rw [child?_eq_head?, ← children_of_site? hx, hchildren, List.head?_cons]
  have hlen := Stack.length_outside _ hin.lt_length.le
  have hseeded : (u.step (.seed slot)).session.IsShielded slot
      (x.table.stack.outside t.stack.length) t.context
      (t.openChild.answer :: s.childrenAt slot) := by
    have hact : (u.step (.seed slot)).session.site? slot =
        (u.site? slot).map fun x => x.act (u.actionAt slot (.seed slot)) :=
      site?_step u fun h => h
    rw [hx, Option.map_some, actionAt, if_pos rfl] at hact
    exact ⟨hvalid.step _, _, hact, hshielded⟩
  rw [← hlen] at hmore
  obtain ⟨-, y, hy, hend⟩ := ending_induction (fun _ h hturn => h.move hturn) hseeded hmore
  refine ⟨hchild, ?_, y.table, table_of_site? hy, ?_, ?_⟩
  · obtain ⟨f, rest, hf⟩ := hxv.exists_cons
    rw [Session.step, withChild, withTable_of_some hv]
    simp only [hchild, Child.seed, Table.seed, hbase, if_pos hin.lt_length.le,
      Table.insertAll_of_stack_eq_cons hf, commit]
  · rw [← hlen]
    exact hend.isWithin.lt_length
  · have houtside := hend.shadows.outside_eq
    rwa [hlen] at houtside

/-- A table that declares `x` twice. Its child is used before it is seeded, and an older child of
another slot is closed before it; afterwards `x` is overwritten, in the child and by what a nested
child and another table write back, declared again and removed from a deeper scope. All of it
reaches the copies only. -/
theorem seeded_child_shields_outside_nested :
    ∃ u w, u = (((ofContexts [.traced, .quiet, .quiet]).ending
        [.step (.edit 0 (.insert "x" "int" "1")), .step (.edit 0 (.insert "x" "str" "2")),
          .step (.edit 1 (.insert "x" "int" "8")), .step (.openChild 1)]).step
          (.openChild 0)).session.ending
        [.step (.edit 0 .enter), .step (.openChild 0), .closeOn 1, .step (.closeChild 0),
          .step (.edit 0 .exit), .step (.swap 1 2), .step (.edit 0 (.assign "x" "3"))] ∧
      ((u.step (.seed 0)).session.ending
        [.step (.edit 0 (.assign "x" "4")), .step (.openChild 0), .step (.openChild 1),
          .step (.edit 0 (.insert "x" "int" "5")), .step (.writeBack 0), .closeOn 0,
          .step (.edit 0 .enter), .step (.seed 0), .step (.edit 0 (.erase "x")),
          .step (.carry 2 0), .step (.edit 0 .exit), .step (.edit 0 .exit)]).tables[0]? = some w ∧
      w.stack.outside 1 = [⟨0, [⟨"x", "int", "3", 0⟩, ⟨"x", "str", "2", 0⟩]⟩] ∧
      w.resolve "x" = some ⟨"x", "int", "5", 1⟩ := by
  have hreach : ((ofContexts [.traced, .quiet, .quiet]).ending
      [.step (.edit 0 (.insert "x" "int" "1")), .step (.edit 0 (.insert "x" "str" "2")),
        .step (.edit 1 (.insert "x" "int" "8")), .step (.openChild 1)]).ReachableInAnyOrder :=
    .ending (.ofContexts _) _
  have ht : ((ofContexts [.traced, .quiet, .quiet]).ending
      [.step (.edit 0 (.insert "x" "int" "1")), .step (.edit 0 (.insert "x" "str" "2")),
        .step (.edit 1 (.insert "x" "int" "8")), .step (.openChild 1)]).tables[0]? =
      some ⟨[⟨0, [⟨"x", "int", "1", 0⟩, ⟨"x", "str", "2", 0⟩]⟩], 0, .traced⟩ := by decide
  obtain ⟨-, -, w, hw, -, houtside⟩ := seeded_child_shields_outside hreach ht
    [.step (.edit 0 .enter), .step (.openChild 0), .closeOn 1, .step (.closeChild 0),
      .step (.edit 0 .exit), .step (.swap 1 2), .step (.edit 0 (.assign "x" "3"))] rfl
    (by
      simp only [turns_cons, turns_nil, List.forall_mem_cons, List.not_mem_nil, false_implies,
        implies_true, Turn.KeepsChildOpen, Move.Exchanges, Step.Exchanges]
      decide)
    rfl rfl
    [.step (.edit 0 (.assign "x" "4")), .step (.openChild 0), .step (.openChild 1),
      .step (.edit 0 (.insert "x" "int" "5")), .step (.writeBack 0), .closeOn 0,
      .step (.edit 0 .enter), .step (.seed 0), .step (.edit 0 (.erase "x")), .step (.carry 2 0),
      .step (.edit 0 .exit), .step (.edit 0 .exit)]
    (by
      simp only [turns_cons, turns_nil, List.forall_mem_cons, List.not_mem_nil, false_implies,
        implies_true, Turn.StaysShielded, Turn.KeepsChildOpen, Move.Exchanges, Step.Exchanges]
      decide)
  refine ⟨_, w, rfl, hw, houtside, ?_⟩
  cases hw
  decide

end Session

end LexicalScope
