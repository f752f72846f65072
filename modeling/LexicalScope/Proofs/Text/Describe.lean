import Mathlib.Data.List.Basic
import LexicalScope.Proofs.Text.Tree
import LexicalScope.Text.Describe

set_option autoImplicit false

/-!
# Texts identify states

The description of a table shows all of it, under names that are identifiers. So the table can be
told from the text of its description, in either layout, whatever the texts in its bindings are:
they are quoted, and cannot be mistaken for fields or bindings. The same holds for a child, but for
the floor that it saved and for its span, which its description does not show.

## Main results

* `LexicalScope.Table.isPlain_tree`, `LexicalScope.Child.isPlain_tree` — the names in descriptions
  are identifiers.
* `LexicalScope.Table.tree_injective` — the description of a table shows all of it.
* `LexicalScope.texts_identify_states` — tables and children are told from their texts.
-/

namespace LexicalScope

open Text (Layout)
open Text.Tree (IsPlain isPlain_record)

/-! ## Names in descriptions -/

/-- Bindings are described by plain trees. -/
lemma Binding.isPlain_tree (b : Binding) : b.tree.IsPlain := by
  refine isPlain_record ["name", "type_tag", "value", "scope_level"] rfl (by decide) ?_
  simp [IsPlain.quoted, IsPlain.number]

/-- Frames are described by plain trees. -/
lemma Frame.isPlain_tree (f : Frame) : f.tree.IsPlain := by
  have hbindings : ∀ t ∈ f.bindings.map Binding.tree, t.IsPlain :=
    List.forall_mem_map.2 fun b _ => b.isPlain_tree
  refine isPlain_record ["level", "bindings"] rfl (by decide) ?_
  simp [IsPlain.number, IsPlain.list hbindings]

/-- Tracers are described by plain trees. -/
lemma Tracer.isPlain_tree (t : Tracer) : t.tree.IsPlain := by
  cases t with
  | silent => exact .leaf rfl
  | log =>
    refine .node rfl ?_
    simp [IsPlain.leaf (rfl : Text.isIdentifier "LogTracer" = true)]

/-- Contexts are described by plain trees. -/
lemma Context.isPlain_tree (c : Context) : c.tree.IsPlain := by
  refine isPlain_record ["tracer", "frame_capacity"] rfl (by decide) ?_
  simp [IsPlain.number, c.tracer.isPlain_tree]

/-- Tables are described by plain trees. -/
lemma Table.isPlain_tree (t : Table) : t.tree.IsPlain := by
  have hframes : ∀ u ∈ t.stack.reverse.map Frame.tree, u.IsPlain :=
    List.forall_mem_map.2 fun f _ => f.isPlain_tree
  refine isPlain_record ["frames", "floor", "context"] rfl (by decide) ?_
  simp [IsPlain.number, IsPlain.list hframes, t.context.isPlain_tree, -List.map_reverse]

/-- Children are described by plain trees. -/
lemma Child.isPlain_tree (c : Child) (t : Table) : (c.tree t).IsPlain := by
  refine isPlain_record ["base", "table"] rfl (by decide) ?_
  simp [IsPlain.number, t.isPlain_tree]

/-! ## Descriptions show their values -/

/-- Different bindings have different trees. -/
lemma Binding.tree_injective : Function.Injective Binding.tree := by
  rintro ⟨name, typeTag, value, level⟩ ⟨name', typeTag', value', level'⟩ h
  simpa [tree] using h

/-- Different frames have different trees. -/
lemma Frame.tree_injective : Function.Injective Frame.tree := by
  rintro ⟨level, bindings⟩ ⟨level', bindings'⟩ h
  have hinj := List.map_injective_iff.2 Binding.tree_injective
  simpa [tree, hinj.eq_iff] using h

/-- Different tracers have different trees. -/
lemma Tracer.tree_injective : Function.Injective Tracer.tree := by
  intro t u h
  cases t <;> cases u <;> simp [tree, Text.Tree.leaf] at h ⊢

/-- Different contexts have different trees. -/
lemma Context.tree_injective : Function.Injective Context.tree := by
  rintro ⟨tracer, capacity⟩ ⟨tracer', capacity'⟩ h
  simpa [tree, Tracer.tree_injective.eq_iff] using h

/-- **The description of a table shows all of it.** -/
theorem Table.tree_injective : Function.Injective Table.tree := by
  rintro ⟨stack, floor, context⟩ ⟨stack', floor', context'⟩ h
  have hinj := List.map_injective_iff.2 Frame.tree_injective
  simpa [tree, hinj.eq_iff, Context.tree_injective.eq_iff] using h

/-- The description of a child shows its level and the table behind it. -/
lemma Child.tree_eq_iff {c d : Child} {t u : Table} :
    c.tree t = d.tree u ↔ c.base = d.base ∧ t = u := by
  simp [tree, Table.tree_injective.eq_iff]

/-! ## Descriptions are told from their texts -/

/-- **Texts identify states.** In either layout, two tables have the same text exactly if they have
the same frames, with the same levels and the same bindings in the same order, the same floor and
the same context. Two children, each with the table behind it, have the same text exactly if they
are of the same level and the tables are the same. No text in a binding is an exception. -/
theorem texts_identify_states (l : Layout) :
    (∀ t u : Table, t.tree.render l = u.tree.render l ↔
      t.stack = u.stack ∧ t.floor = u.floor ∧ t.context = u.context) ∧
    ∀ (c d : Child) (t u : Table), (c.tree t).render l = (d.tree u).render l ↔
      c.base = d.base ∧ t = u := by
  refine ⟨?_, ?_⟩
  · intro t u
    constructor
    · intro h
      obtain rfl : t = u := Table.tree_injective (t.isPlain_tree.render_inj u.isPlain_tree l h)
      exact ⟨rfl, rfl, rfl⟩
    · obtain ⟨stack, floor, context⟩ := t
      rintro ⟨rfl, rfl, rfl⟩
      rfl
  · intro c d t u
    constructor
    · intro h
      exact Child.tree_eq_iff.1 ((c.isPlain_tree t).render_inj (d.isPlain_tree u) l h)
    · intro h
      rw [Child.tree_eq_iff.2 h]

end LexicalScope
