import Mathlib.Data.List.Basic
import LexicalScope.Proofs.Session.LoopBody
import LexicalScope.Proofs.Session.Settle
import LexicalScope.Proofs.Table.Copies

set_option autoImplicit false

/-!
# Seeding a child

Seeding a child declares, in the current frame, a copy of every binding outside of the child. What
the current frame declared before is found before the copies, and the copies are found before all
that lies under the current frame, be it inside of the child or outside. The copies come from the
outside only, so seeding again declares the very same bindings once more, where they are not found.

## Main results

* `LexicalScope.Session.final_seeds` — what seedings in a row make of a session.
* `LexicalScope.Session.seeding_copies_outside` — what is declared and what names refer to after
  seeding, in every run that does not exchange the table under the child.
-/

namespace LexicalScope

/-! ## Frames with repeated copies -/

/-- What is found in repetitions of a list is found in the first of them. -/
lemma find?_flatten_replicate (test : Binding → Bool) (bs : List Binding) (n : Nat) :
    (List.replicate (n + 1) bs).flatten.find? test = bs.find? test := by
  induction n with
  | zero => simp
  | succ n ih =>
    rw [List.replicate_succ, List.flatten_cons, List.find?_append, ih, Option.or_self]

/-- Of two extensions of a frame, the first one comes first. -/
lemma Frame.extend_extend (f : Frame) (bs cs : List Binding) :
    (f.extend bs).extend cs = f.extend (bs ++ cs) := by
  simp only [extend, List.append_assoc]

/-- Repeating copies changes nothing of what names refer to. -/
lemma Stack.resolve_extend_flatten_replicate (f : Frame) (outer : Stack) (bs : List Binding)
    (n : Nat) (name : String) :
    resolve (f.extend (List.replicate (n + 1) bs).flatten :: outer) name =
      resolve (f.extend bs :: outer) name := by
  rw [resolve_cons, resolve_cons, Frame.find?_extend, Frame.find?_extend, find?_flatten_replicate]

/-- Repeating copies adds the same number of bindings each time. -/
lemma Stack.size_extend_flatten_replicate (f : Frame) (outer : Stack) (bs : List Binding)
    (n : Nat) :
    size (f.extend (List.replicate n bs).flatten :: outer) =
      size (f :: outer) + n * bs.length := by
  rw [size_cons, size_cons, Frame.extend, List.length_append, List.length_flatten,
    List.map_replicate, List.sum_replicate_nat]
  omega

/-- Seeding at a level outside of the current frame extends this frame by copies of what lies
outside of the level. -/
lemma Table.afterwards_seed {t : Table} {f : Frame} {outer : Stack} (hf : t.stack = f :: outer)
    {level : Nat} (hle : level ≤ outer.length) :
    ∃ e, t.seed level = some e ∧
      e.table =
        { t with stack := f.extend ((outer.outside level).copies outer.length) :: outer } := by
  have hlen : level ≤ t.stack.length := by
    rw [hf, List.length_cons]
    omega
  refine ⟨_, seed_of_stack_eq_cons hlen hf, ?_⟩
  rw [level_of_cons hf, hf, Stack.outside_cons_of_le f hle]

namespace Session

variable {s : Session} {slot : Nat} {t : Table} {c : Child}

/-! ## Seeding -/

/-- What seeding makes of a session. -/
lemma step_seed (ht : s.tables[slot]? = some t) (hc : s.child? slot = some c) {f : Frame}
    {outer : Stack} (hf : t.stack = f :: outer) (hle : c.base ≤ outer.length) :
    (s.step (.seed slot)).reply = .done ∧
      (s.step (.seed slot)).session =
        s.setTable slot
          { t with stack := f.extend ((outer.outside c.base).copies outer.length) :: outer } := by
  obtain ⟨e, he, htable⟩ := Table.afterwards_seed hf hle
  rw [Session.step, withChild, withTable_of_some ht]
  simp only [hc, Child.seed, he, commit, htable, and_self]

/-- **Seedings in a row** repeat the same copies.

**Proof sketch.** Induction on the number of seedings. The first extends the current frame, which is
not outside of the child, so what is copied by the others is the same. -/
theorem final_seeds (ht : s.tables[slot]? = some t) (hc : s.child? slot = some c) {f : Frame}
    {outer : Stack} (hf : t.stack = f :: outer) (hle : c.base ≤ outer.length) (n : Nat) :
    (s.run (List.replicate n (.seed slot))).map Outcome.reply = List.replicate n .done ∧
      s.final (List.replicate n (.seed slot)) =
        s.setTable slot
          { t with
            stack :=
              f.extend (List.replicate n ((outer.outside c.base).copies outer.length)).flatten
                :: outer } := by
  induction n generalizing s t f with
  | zero =>
    have hself : f.extend [] = f := by simp [Frame.extend]
    refine ⟨rfl, ?_⟩
    simp only [List.replicate_zero, final_nil, List.flatten_nil, hself, ← hf, setTable_self ht]
  | succ n ih =>
    obtain ⟨hreply, hsession⟩ := step_seed ht hc hf hle
    have hnext := getElem?_setTable ht
      { t with stack := f.extend ((outer.outside c.base).copies outer.length) :: outer }
    rw [← hsession] at hnext
    have hchild : (s.step (.seed slot)).session.child? slot = some c := by
      rw [hsession]
      exact hc
    obtain ⟨hreplies, hfinal⟩ := ih hnext hchild rfl
    refine ⟨?_, ?_⟩
    · rw [List.replicate_succ, run_cons, List.map_cons, hreply, hreplies, ← List.replicate_succ]
    · rw [List.replicate_succ, final_cons, hfinal, hsession, setTable_setTable,
        Frame.extend_extend, List.replicate_succ, List.flatten_cons]

/-- Seeding a child that was just opened changes no more than the stamp of what a name refers to. -/
lemma resolve_seed_openChild (ht : s.tables[slot]? = some t) :
    ∃ u w, (s.step (.openChild slot)).session.tables[slot]? = some u ∧
      ((s.step (.openChild slot)).session.step (.seed slot)).session.tables[slot]? = some w ∧
      ∀ name, w.resolve name = (u.resolve name).map fun b => b.atLevel u.level := by
  obtain ⟨hu, hc⟩ := openChild_slot ht
  have hopen : (s.step (.openChild slot)).session = (s.openChild slot t).session := by
    rw [Session.step, withTable_of_some ht]
  obtain ⟨-, hseed⟩ := step_seed hu hc rfl le_rfl
  rw [hopen, hseed]
  refine ⟨_, _, hu, getElem?_setTable hu _, ?_⟩
  intro name
  have hnone : (Frame.empty t.stack.length).find? name = none := rfl
  have hvisible : Stack.resolve (Frame.empty t.stack.length :: t.stack) name =
      t.stack.resolve name := by
    rw [Stack.resolve_cons, hnone, Option.none_or]
  have hout : t.stack.outside t.openChild.answer.base = t.stack := Stack.outside_length t.stack
  have hinside : t.openChild.table.resolve name = t.stack.resolve name := hvisible
  rw [hinside, Table.resolve, Stack.resolve_extend_copies, hnone, hout, hvisible]
  cases t.stack.resolve name with
  | none => rfl
  | some b => rfl

/-- **Seeding copies the outside.** Take any session that is reached, in whatever order children
were closed, in which no more than `k` children are open on a slot, and a run from there that
exchanges the table of the slot only while no more than `k` children are open on the slot. At the
end, take the table `t` of the slot.

* If a child is open on the slot, and is not one of the `k` outermost, any number of seedings in a
  row extends the current frame of `t`, and changes nothing else in the session. Each seeding adds
  the same bindings: one for each that lies outside of the child, stamped with the current level.
* From the first seeding on, a name that the current frame declared refers to what it did, any other
  name to the copy of what it refers to outside of the child, and if it refers to nothing there, to
  what it did.
* Seeding a child that was just opened changes the stamp of what names refer to, and nothing else.

With `k = 0` the child may be any, if the table was not exchanged since the slot was last idle.

**Proof sketch.** Since the table is not exchanged under them, the children of the slot fit
together, so the current frame is not outside of the innermost one. -/
theorem seeding_copies_outside {start : Session} (hstart : start.ReachableInAnyOrder) {k : Nat}
    (hk : (start.childrenAt slot).length ≤ k) {ms : List Move}
    (hrule : ∀ x ∈ start.turns ms, x.ExchangesBelow slot k) (hs : s = start.ending ms)
    (ht : s.tables[slot]? = some t) :
    (∀ c, s.child? slot = some c → k < (s.childrenAt slot).length →
      ∃ f outer new, t.stack = f :: outer ∧ c.base ≤ t.level ∧
        new = (t.stack.outside c.base).copies t.level ∧
        new.length = (t.stack.outside c.base).size ∧ (∀ b ∈ new, b.scopeLevel = t.level) ∧
        ∀ n, ∃ u, u = { t with stack := f.extend (List.replicate n new).flatten :: outer } ∧
          (s.run (List.replicate n (.seed slot))).map Outcome.reply = List.replicate n .done ∧
          s.final (List.replicate n (.seed slot)) = s.setTable slot u ∧
          u.size = t.size + n * (t.stack.outside c.base).size ∧
          (0 < n → ∀ name, u.resolve name =
            if (f.find? name).isSome then t.resolve name
            else (((t.stack.outside c.base).resolve name).map fun b => b.atLevel t.level).or
              (t.resolve name))) ∧
    ∃ u w, (s.step (.openChild slot)).session.tables[slot]? = some u ∧
      ((s.step (.openChild slot)).session.step (.seed slot)).session.tables[slot]? = some w ∧
      ∀ name, w.resolve name = (u.resolve name).map fun b => b.atLevel u.level := by
  refine ⟨?_, resolve_seed_openChild ht⟩
  intro c hc hlt
  have hfits : s.FitsTogether slot k :=
    hs ▸ ending_induction (fun _ h hturn => h.move hturn)
      (fitsTogether_of_length_le hstart.valid hk) hrule
  obtain ⟨f, outer, hf⟩ := (hfits.1.tables t (List.mem_of_getElem? ht)).exists_cons
  have hlevel : t.level = outer.length := Table.level_of_cons hf
  have hle : c.base ≤ outer.length := by
    have hbase := hfits.base_lt_length ht hc hlt
    rw [hf, List.length_cons] at hbase
    omega
  -- the current frame is not among those that are copied, so seeding does not change these
  have hout : t.stack.outside c.base = Stack.outside outer c.base := by
    rw [hf, Stack.outside_cons_of_le f hle]
  refine ⟨f, outer, _, hf, by omega, rfl, Stack.length_copies _ _,
    fun b hb => Stack.scopeLevel_of_mem_copies hb, ?_⟩
  intro n
  obtain ⟨hreplies, hfinal⟩ := final_seeds ht hc hf hle n
  rw [hout, hlevel]
  refine ⟨_, rfl, hreplies, hfinal, ?_, ?_⟩
  · rw [Table.size, Stack.size_extend_flatten_replicate, Stack.length_copies, Table.size, hf]
  · intro hpos name
    obtain ⟨j, rfl⟩ := Nat.exists_eq_add_one.2 hpos
    rw [Table.resolve, Stack.resolve_extend_flatten_replicate, Stack.resolve_extend_copies,
      Table.resolve, hf]

/-- The table of slot `0` came there by an exchange under an open child, and declares `x` twice. The
child that is opened on it then stays open longer than an older one of slot `1`. It declares `x` in
a scope under the current one, where `y` is declared. After two seedings `x` refers to the first
copy of what it refers to outside, and `y` and `z`, which the outside does not declare, refer to
what they did. -/
theorem seeding_copies_outside_hidden :
    ∃ start s t u, start = (ofContexts [.quiet, .traced]).ending
        [.step (.edit 1 (.insert "x" "int" "1")), .step (.edit 1 (.insert "y" "int" "2")),
          .step (.edit 1 (.insert "x" "str" "3")), .step (.openChild 0), .step (.swap 0 1)] ∧
      s = start.ending
        [.step (.openChild 1), .step (.openChild 0), .closeOn 1,
          .step (.edit 0 (.insert "x" "int" "4")), .step (.edit 0 (.insert "z" "int" "5")),
          .step (.edit 0 .enter), .step (.edit 0 (.insert "y" "int" "6"))] ∧
      s.tables[0]? = some t ∧ s.child? 0 = some ⟨1, 0, true⟩ ∧ t.level = 2 ∧
      t.resolve "x" = some ⟨"x", "int", "4", 1⟩ ∧
      s.final [.seed 0, .seed 0] = s.setTable 0 u ∧ u.size = t.size + 2 * 3 ∧
      u.resolve "x" = some ⟨"x", "int", "1", 2⟩ ∧ u.resolve "y" = t.resolve "y" ∧
      u.resolve "z" = some ⟨"z", "int", "5", 1⟩ := by
  have hreach : ((ofContexts [.quiet, .traced]).ending
      [.step (.edit 1 (.insert "x" "int" "1")), .step (.edit 1 (.insert "y" "int" "2")),
        .step (.edit 1 (.insert "x" "str" "3")), .step (.openChild 0),
        .step (.swap 0 1)]).ReachableInAnyOrder := .ending (.ofContexts _) _
  have hrule : ∀ x ∈ ((ofContexts [.quiet, .traced]).ending
      [.step (.edit 1 (.insert "x" "int" "1")), .step (.edit 1 (.insert "y" "int" "2")),
        .step (.edit 1 (.insert "x" "str" "3")), .step (.openChild 0), .step (.swap 0 1)]).turns
      [.step (.openChild 1), .step (.openChild 0), .closeOn 1,
        .step (.edit 0 (.insert "x" "int" "4")), .step (.edit 0 (.insert "z" "int" "5")),
        .step (.edit 0 .enter), .step (.edit 0 (.insert "y" "int" "6"))],
      x.ExchangesBelow 0 1 := by
    simp only [turns_cons, turns_nil, List.forall_mem_cons, List.not_mem_nil, false_implies,
      implies_true, Turn.ExchangesBelow, Move.Exchanges, Step.Exchanges]
    decide
  obtain ⟨f, outer, new, hf, -, -, -, -, hseeds⟩ :=
    (seeding_copies_outside hreach (by decide) hrule rfl rfl).1 ⟨1, 0, true⟩ rfl (by decide)
  obtain ⟨u, -, -, hfinal, hsize, hresolve⟩ := hseeds 2
  obtain ⟨rfl, rfl⟩ := List.cons_eq_cons.1 hf
  refine ⟨_, _, _, u, rfl, rfl, rfl, rfl, rfl, rfl, hfinal, hsize, ?_, ?_, ?_⟩
  · rw [hresolve (by decide)]
    decide
  · rw [hresolve (by decide)]
    decide
  · rw [hresolve (by decide)]
    decide

end Session

end LexicalScope
