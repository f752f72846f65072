import Mathlib.Data.List.Basic
import LexicalScope.Proofs.Session.Valid

set_option autoImplicit false

/-!
# Inside of a bracket

A *bracket* is what happens on a site between the opening and the end of a scope. While it is
open, the frames outside of it stay where they are, up to assignments, and the children opened
in it hand the floor on to one another: each saved the floor that the next outer one had set,
the outermost the floor that the bracket began with.

## Main definitions

* `LexicalScope.floorOver` — the floor with the given children open.
* `LexicalScope.IsChain` — the floors that children saved fit together.
* `LexicalScope.Site.IsWithin` — the invariant of a site inside of a bracket.

## Main results

* `LexicalScope.Site.IsWithin.act` — an action that stays above the frames outside of the
  bracket, closes no child from outside, and writes back across no level from outside keeps the
  invariant.
* `LexicalScope.Site.IsWithin.lt_length_act` — where the floor protects the frames outside of
  the bracket, every action stays above them.

## Design

A site on its own, from the first table on, is inside of a bracket that nothing lies outside of.
So what is proved here of brackets says, with the empty stack, how the floors of a whole run fit
together.
-/

namespace LexicalScope

/-! ## Chains of floors -/

/-- The floor while the given children are open, innermost first: the base of the innermost, or
`ground` if there is none. -/
def floorOver (ground : Nat) : List Child → Nat
  | [] => ground
  | c :: _ => c.base

/-- Each of the children, innermost first, saved the floor that was in force with the outer ones
open, which was below its own base. -/
def IsChain (ground : Nat) : List Child → Prop
  | [] => True
  | c :: outer =>
    c.savedFloor = floorOver ground outer ∧ c.savedFloor < c.base ∧ IsChain ground outer

/-- With no child open, the floor is the ground. -/
@[simp] lemma floorOver_nil (ground : Nat) : floorOver ground [] = ground := rfl

/-- With children open, the floor is the base of the innermost. -/
@[simp] lemma floorOver_cons (ground : Nat) (c : Child) (cs : List Child) :
    floorOver ground (c :: cs) = c.base := rfl

/-- The floor does not sink below the ground. -/
lemma IsChain.le_floorOver {ground : Nat} {cs : List Child} (h : IsChain ground cs) :
    ground ≤ floorOver ground cs := by
  induction cs with
  | nil => exact le_refl ground
  | cons c cs ih =>
    obtain ⟨hsaved, hlt, hrest⟩ := h
    have := ih hrest
    rw [floorOver_cons]
    omega

/-- The base of the innermost child lies above the ground. -/
lemma IsChain.lt_base {ground : Nat} {c : Child} {cs : List Child} (h : IsChain ground (c :: cs)) :
    ground < c.base := by
  obtain ⟨hsaved, hlt, hrest⟩ := h
  have := hrest.le_floorOver
  omega

/-- Children that hand on the floor are valid. -/
lemma IsChain.valid {ground : Nat} {cs : List Child} (h : IsChain ground cs) :
    ∀ c ∈ cs, c.Valid := by
  induction cs with
  | nil => simp
  | cons c cs ih => exact List.forall_mem_cons.2 ⟨h.2.1, ih h.2.2⟩

/-! ## Tables standing on frames -/

namespace Table

/-- Edits leave the floor and the context alone. -/
lemma floor_edited {t : Table} {f : Frame} {outer : Stack} (hf : t.stack = f :: outer) (e : Edit) :
    (t.edited e).floor = t.floor ∧ (t.edited e).context = t.context := by
  cases e with
  | insert name typeTag value =>
    rw [edited_insert hf]
    exact ⟨rfl, rfl⟩
  | assign name value =>
    rw [edited_assign]
    exact ⟨rfl, rfl⟩
  | erase name =>
    rw [edited_erase hf]
    exact ⟨rfl, rfl⟩
  | enter => exact ⟨rfl, rfl⟩
  | exit =>
    rw [edited_exit hf]
    split <;> exact ⟨rfl, rfl⟩

/-- Edits leave frames under the current one alone, up to assignments. -/
lemma standsOn_edited {t : Table} {f : Frame} {outer base : Stack} (hf : t.stack = f :: outer)
    (h : t.stack.StandsOn base) (hlen : base.length ≤ outer.length) (e : Edit) :
    (t.edited e).stack.StandsOn base := by
  have houter : outer.StandsOn base := Stack.StandsOn.tail (hf ▸ h) hlen
  cases e with
  | insert name typeTag value =>
    rw [edited_insert hf]
    exact houter.cons _
  | assign name value =>
    rw [edited_assign]
    exact h.assign name value
  | erase name =>
    rw [edited_erase hf]
    exact houter.cons _
  | enter =>
    rw [edited_enter]
    exact h.cons _
  | exit =>
    rw [edited_exit hf]
    split
    · exact h
    · exact houter

/-- Edits do not go below frames that the floor protects. -/
lemma lt_length_edited {t : Table} {f : Frame} {outer : Stack} (hf : t.stack = f :: outer)
    {n : Nat} (hfloor : n ≤ t.floor) (hlen : n < t.stack.length) (e : Edit) :
    n < (t.edited e).stack.length := by
  cases e with
  | insert name typeTag value =>
    rw [edited_insert hf]
    rwa [hf] at hlen
  | assign name value =>
    rw [edited_assign]
    simp only [Stack.length_assign]
    exact hlen
  | erase name =>
    rw [edited_erase hf]
    rwa [hf] at hlen
  | enter => exact Nat.lt_succ_of_lt hlen
  | exit =>
    rw [edited_exit hf]
    split
    · exact hlen
    · show n < outer.length
      omega

end Table

/-! ## The invariant -/

/-- A site inside of a bracket that has the frames `outer` and the children `below` outside of
it, and that began with the floor `ground`. -/
structure Site.IsWithin (outer : Stack) (ground : Nat) (context : Context) (below : List Child)
    (x : Site) : Prop where
  /-- The frames outside of the bracket are where they were, up to assignments. -/
  standsOn : x.table.stack.StandsOn outer
  /-- The current frame is not one of them. -/
  lt_length : outer.length < x.table.stack.length
  /-- The context is what it was. -/
  context_eq : x.table.context = context
  /-- The children opened in the bracket are opened above the frames outside of it, and hand on
  the floor. -/
  floors : ∃ inner, x.children = inner ++ below ∧ x.table.floor = floorOver ground inner ∧
    IsChain ground inner ∧ ∀ c ∈ inner, outer.length ≤ c.base

namespace Site

variable {outer : Stack} {ground : Nat} {context : Context} {below : List Child} {x : Site}

/-- A change of the table that leaves the floor, the context and the frames outside of the
bracket alone stays inside of the bracket. -/
lemma IsWithin.of_table (h : x.IsWithin outer ground context below) {t : Table}
    (hstands : t.stack.StandsOn outer) (hlen : outer.length < t.stack.length)
    (hfloor : t.floor = x.table.floor) (hcontext : t.context = x.table.context) :
    IsWithin outer ground context below { x with table := t } where
  standsOn := hstands
  lt_length := hlen
  context_eq := hcontext.trans h.context_eq
  floors := by
    obtain ⟨inner, hchildren, heq, hchain, hbase⟩ := h.floors
    exact ⟨inner, hchildren, hfloor.trans heq, hchain, hbase⟩

/-- The current frame of a site inside of a bracket, and the frames under it. -/
lemma IsWithin.exists_cons (h : x.IsWithin outer ground context below) :
    ∃ f rest, x.table.stack = f :: rest ∧ outer.length ≤ rest.length ∧
      Stack.StandsOn rest outer := by
  have hlt := h.lt_length
  have hne : x.table.stack ≠ [] := by
    intro hnil
    rw [hnil, List.length_nil] at hlt
    omega
  obtain ⟨f, rest, hf⟩ := List.exists_cons_of_ne_nil hne
  rw [hf, List.length_cons] at hlt
  exact ⟨f, rest, hf, by omega, Stack.StandsOn.tail (hf ▸ h.standsOn) (by omega)⟩

/-- The base of the innermost child lies above the ground and above the frames outside of the
bracket, if the child was opened in the bracket. -/
lemma IsWithin.lt_base (h : x.IsWithin outer ground context below)
    (hinner : below.length < x.children.length) {c : Child} (hc : c ∈ x.children.head?) :
    ground < c.base ∧ outer.length ≤ c.base := by
  obtain ⟨inner, hchildren, -, hchain, hbase⟩ := h.floors
  cases inner with
  | nil =>
    rw [hchildren, List.nil_append] at hinner
    omega
  | cons d inner =>
    rw [hchildren, List.cons_append, List.head?_cons, Option.mem_some_iff] at hc
    subst hc
    exact ⟨hchain.lt_base, hbase d List.mem_cons_self⟩

/-- The frames outside of the bracket may be taken as they are now. -/
lemma IsWithin.outside (h : x.IsWithin outer ground context below) :
    x.IsWithin (x.table.stack.outside outer.length) ground context below := by
  have hlen := Stack.length_outside _ h.lt_length.le
  refine ⟨⟨x.table.stack.inside outer.length, [], ?_⟩, ?_, h.context_eq, ?_⟩
  · rw [Stack.assignAll_nil, Stack.inside_append_outside]
  · rw [hlen]
    exact h.lt_length
  · rw [hlen]
    exact h.floors

/-- Copies of bindings stay inside of the bracket. -/
lemma IsWithin.insertAll (h : x.IsWithin outer ground context below) (bs : List Binding) :
    IsWithin outer ground context below
      { x with table := x.table.afterwards (x.table.insertAll bs) } := by
  obtain ⟨f, rest, hf, hle, hrest⟩ := h.exists_cons
  have hlen := h.lt_length
  rw [hf] at hlen
  rw [Table.afterwards_insertAll hf]
  exact h.of_table (hrest.cons _) hlen rfl rfl

/-- Write-backs across a level that is not outside of the bracket stay inside of it. -/
lemma IsWithin.assignAll (h : x.IsWithin outer ground context below) {level : Nat}
    (hlevel : outer.length ≤ level) (bs : List Binding) :
    IsWithin outer ground context below
      { x with table := (x.table.assignAll level bs).table } := by
  apply h.of_table
  · rw [Table.table_assignAll]
    exact h.standsOn.writeBack hlevel bs
  · rw [Table.length_stack_assignAll]
    exact h.lt_length
  · exact Table.floor_assignAll _ _ _
  · exact Table.context_assignAll _ _ _

/-- Opening a child stays inside of the bracket: the child saves the floor in force, and its base
is above all frames. -/
lemma IsWithin.openChild (h : x.IsWithin outer ground context below) (hx : x.table.Valid) :
    (x.act .openChild).IsWithin outer ground context below where
  standsOn := h.standsOn.cons _
  lt_length := Nat.lt_succ_of_lt h.lt_length
  context_eq := h.context_eq
  floors := by
    obtain ⟨inner, hchildren, heq, hchain, hbase⟩ := h.floors
    refine ⟨x.table.openChild.answer :: inner, ?_, rfl, ⟨heq, hx.floor_lt, hchain⟩, ?_⟩
    · rw [act, hchildren, List.cons_append]
    · intro c hc
      rcases List.mem_cons.1 hc with rfl | hc
      · exact h.lt_length.le
      · exact hbase c hc

/-- Closing a child that was opened in the bracket gives back the floor that the next outer one
had set. It does not leave the bracket if frames on top of those outside remain. -/
lemma IsWithin.closeChild (h : x.IsWithin outer ground context below) (hx : x.table.Valid)
    {c : Child} {rest : List Child} (hcons : x.children = c :: rest)
    (hbelow : below.length ≤ rest.length) :
    outer.length ≤ c.base ∧ ground < c.base ∧ (x.act .closeChild).table.stack.length = c.base ∧
      (outer.length < c.base → (x.act .closeChild).IsWithin outer ground context below) := by
  obtain ⟨inner, hchildren, heq, hchain, hbase⟩ := h.floors
  cases inner with
  | nil =>
    have hlen := congrArg List.length (hchildren.symm.trans hcons)
    rw [List.nil_append, List.length_cons] at hlen
    omega
  | cons d inner =>
    rw [hcons, List.cons_append, List.cons.injEq] at hchildren
    obtain ⟨rfl, hrest⟩ := hchildren
    have hle : c.base ≤ x.table.stack.length := by
      have := hx.floor_lt
      rw [heq, floorOver_cons] at this
      omega
    have houter := hbase c List.mem_cons_self
    obtain ⟨e, he, -, htable⟩ := Child.close_of_le hle
    have hact : x.act .closeChild =
        { table := { x.table with stack := x.table.stack.outside c.base, floor := c.savedFloor }
          children := rest } := by
      rw [act, hcons]
      simp only [he, Table.afterwards_some, htable]
    have hlen := x.table.stack.length_outside hle
    refine ⟨houter, hchain.lt_base, by rw [hact]; exact hlen, ?_⟩
    intro hlt
    rw [hact]
    refine ⟨h.standsOn.outside houter, ?_, h.context_eq, inner, hrest, hchain.1, hchain.2.2, ?_⟩
    · show outer.length < (x.table.stack.outside c.base).length
      rwa [hlen]
    · intro d hd
      exact hbase d (List.mem_cons_of_mem c hd)

/-! ## Actions -/

/-- **An action inside of a bracket.** An action keeps the invariant of a bracket if it stays
above the frames outside of it, closes no child from outside, and writes back across no level
from outside.

**Proof sketch.** One case for each action. Edits and copies touch the current frame, which is
not outside; an overwritten value is that of a visible binding; a write-back reaches the outside
only through the names that it declares. Opening and closing children extends and shortens the
chain of floors. -/
theorem IsWithin.act (h : x.IsWithin outer ground context below) (hx : x.table.Valid)
    {a : Action} (hlen : outer.length < (x.act a).table.stack.length)
    (hbelow : below.length ≤ (x.act a).children.length)
    (hwrite : a = .writeBack → ∀ c ∈ x.children.head?, outer.length ≤ c.base) :
    (x.act a).IsWithin outer ground context below := by
  cases a with
  | rest => exact h
  | edit e =>
    obtain ⟨f, rest, hf, hle, -⟩ := h.exists_cons
    obtain ⟨hfloor, hcontext⟩ := Table.floor_edited hf e
    exact h.of_table (Table.standsOn_edited hf h.standsOn hle e) hlen hfloor hcontext
  | declare bs => exact h.insertAll bs
  | overwrite bs => exact h.assignAll h.lt_length.le bs
  | openChild => exact h.openChild hx
  | seed =>
    rcases x.act_seed with hact | ⟨bs, hact⟩
    · rw [hact]
      exact h
    · rw [hact]
      exact h.insertAll bs
  | writeBack =>
    rcases x.act_writeBack with hact | ⟨c, hc, bs, hact⟩
    · rw [hact]
      exact h
    · rw [hact]
      exact h.assignAll (hwrite rfl c hc) bs
  | closeChild =>
    cases hcons : x.children with
    | nil =>
      rw [Site.act, hcons]
      exact h
    | cons c rest =>
      have hrest : (x.act .closeChild).children = rest := by
        rw [Site.act, hcons]
      rw [hrest] at hbelow
      obtain ⟨-, -, hbase, hact⟩ := h.closeChild hx hcons hbelow
      exact hact (hbase ▸ hlen)

/-- Where no frames lie outside of the bracket, an action keeps the invariant if it closes no child
from outside. -/
lemma IsWithin.act_of_outer_nil (h : x.IsWithin [] ground context below) (hx : x.table.Valid)
    (hchildren : ∀ c ∈ x.children, c.Valid) {a : Action}
    (hbelow : below.length ≤ (x.act a).children.length) :
    (x.act a).IsWithin [] ground context below := by
  apply h.act hx
  · exact List.length_pos_iff.2 (Site.valid_act hx hchildren a).ne_nil
  · exact hbelow
  · intro _ c _
    exact Nat.zero_le _

/-- A site that nothing lies outside of stays so under every action. -/
lemma IsWithin.act_of_nil (h : x.IsWithin [] ground context []) (hx : x.table.Valid)
    (a : Action) : (x.act a).IsWithin [] ground context [] := by
  apply h.act_of_outer_nil hx
  · obtain ⟨inner, heq, -, hchain, -⟩ := h.floors
    rw [heq, List.append_nil]
    exact hchain.valid
  · exact Nat.zero_le _

/-- A site is inside of the bracket that begins now, with the children that are open outside. -/
lemma isWithin_self (hx : x.table.Valid) :
    x.IsWithin [] x.table.floor x.table.context x.children where
  standsOn := ⟨x.table.stack, [], (List.append_nil _).symm⟩
  lt_length := List.length_pos_iff.2 hx.ne_nil
  context_eq := rfl
  floors := ⟨[], rfl, rfl, trivial, by simp⟩

/-- Where no frames lie outside of the bracket, the site is, after an action, inside of a bracket
with no more children outside. This is the same one, unless a child from outside is closed: then a
new bracket begins. -/
lemma IsWithin.exists_act (h : x.IsWithin [] ground context below) (hx : x.table.Valid)
    (hchildren : ∀ c ∈ x.children, c.Valid) (a : Action) :
    ∃ ground' context' below', below'.length ≤ below.length ∧
      (x.act a).IsWithin [] ground' context' below' := by
  by_cases hbelow : below.length ≤ (x.act a).children.length
  · exact ⟨ground, context, below, le_rfl, h.act_of_outer_nil hx hchildren hbelow⟩
  · exact ⟨_, _, _, (Nat.lt_of_not_le hbelow).le, isWithin_self (Site.valid_act hx hchildren a)⟩

/-- **The floor protects the frames outside of the bracket**, if the bracket began with a floor
above all of them: no action goes below it as long as no child from outside is closed. -/
theorem IsWithin.lt_length_act (h : x.IsWithin outer outer.length context below)
    (hx : x.table.Valid) (a : Action) (hbelow : below.length ≤ (x.act a).children.length) :
    outer.length < (x.act a).table.stack.length := by
  have hlen := h.lt_length
  cases a with
  | rest => exact hlen
  | edit e =>
    obtain ⟨f, rest, hf, -, -⟩ := h.exists_cons
    have hfloor : outer.length ≤ x.table.floor := by
      obtain ⟨inner, -, heq, hchain, -⟩ := h.floors
      rw [heq]
      exact hchain.le_floorOver
    exact Table.lt_length_edited hf hfloor hlen e
  | declare bs => exact (h.insertAll bs).lt_length
  | overwrite bs => exact (h.assignAll hlen.le bs).lt_length
  | openChild => exact (h.openChild hx).lt_length
  | seed =>
    rcases x.act_seed with hact | ⟨bs, hact⟩
    · rw [hact]
      exact hlen
    · rw [hact]
      exact (h.insertAll bs).lt_length
  | writeBack =>
    rcases x.act_writeBack with hact | ⟨c, -, bs, hact⟩
    · rw [hact]
      exact hlen
    · rw [hact, Table.length_stack_assignAll]
      exact hlen
  | closeChild =>
    cases hcons : x.children with
    | nil =>
      rw [Site.act, hcons]
      exact hlen
    | cons c rest =>
      have hrest : (x.act .closeChild).children = rest := by
        rw [Site.act, hcons]
      rw [hrest] at hbelow
      obtain ⟨-, hground, hbase, -⟩ := h.closeChild hx hcons hbelow
      rw [hbase]
      exact hground

end Site

end LexicalScope
