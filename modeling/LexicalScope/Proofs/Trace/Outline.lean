import Mathlib.Data.List.GetD
import LexicalScope.Event
import LexicalScope.Proofs.Stack.Outer

set_option autoImplicit false

/-!
# Outlines

The *outline* of a stack is what an observer of its events can know of it: the names that are
declared in each frame, in order, the outermost frame first. An event fits some outlines and not
others, and where it fits it says what the outline is afterwards. Replaying events one after the
other thus reconstructs a stack, up to types and values, from nothing but what was reported.

## Main definitions

* `LexicalScope.Outline` — the names in each frame, outermost frame first.
* `LexicalScope.Outline.replay?` — the outline after an event, if the event fits.
* `LexicalScope.Outline.replayAll?` — the outline after several events, if all of them fit.
* `LexicalScope.Stack.outline` — the outline of a stack.

## Main results

* `LexicalScope.Outline.replayAll?_append` — events are replayed one after the other.
* `LexicalScope.Stack.outline_of_shape` — the outline does not depend on values.
* `LexicalScope.Stack.mem_outline_of_locate` — a name that has a position is declared in the frame
  at its depth.
* `LexicalScope.Stack.outline_append` — the outline of the outer part of a stack comes first.
* `LexicalScope.Stack.isSome_resolve_iff_outline` — the names that refer to something are those of
  the outline.
-/

namespace LexicalScope

/-- The names declared in each frame, in order; the outermost frame first. -/
abbrev Outline := List (List String)

namespace Outline

/-- The names in the frame at a level; none if there is no such frame. -/
def namesAt (o : Outline) (level : Nat) : List String :=
  o.getD level []

/-- The level is that of the innermost frame. -/
def IsTop (o : Outline) (level : Nat) : Prop :=
  level + 1 = o.length

/-- Whether a level is that of the innermost frame can be decided. -/
instance (o : Outline) (level : Nat) : Decidable (o.IsTop level) :=
  inferInstanceAs (Decidable (_ = _))

/-- The outline after an event at a level, or `none` if the event cannot have happened there:

* names are declared and removed in the innermost frame, and only a name that stands there is
  removed, where it stands first;
* values are overwritten only of names that stand in the frame at the level;
* a name is missed at the innermost frame, where it does not stand;
* a scope is entered at the next level;
* a scope is left for the frames outside of the level, and the number reported is that of the
  names which go away. -/
def replay? (o : Outline) (e : Emission) : Option Outline :=
  match e.event with
  | .declared name =>
    if o.IsTop e.level then some (o.modify e.level fun names => names ++ [name]) else none
  | .removed name =>
    if o.IsTop e.level ∧ name ∈ o.namesAt e.level then
      some (o.modify e.level fun names => names.erase name)
    else none
  | .updated name | .wroteBack name => if name ∈ o.namesAt e.level then some o else none
  | .missed name => if o.IsTop e.level ∧ name ∉ o.namesAt e.level then some o else none
  | .entered => if e.level = o.length then some (o ++ [[]]) else none
  | .exited reaped =>
    if e.level ≤ o.length ∧ reaped = (o.drop e.level).flatten.length then some (o.take e.level)
    else none

/-- The outline after several events, in order, if each of them fits. -/
def replayAll? (o : Outline) (es : List Emission) : Option Outline :=
  es.foldlM replay? o

/-- Without events the outline stays as it is. -/
@[simp] lemma replayAll?_nil (o : Outline) : o.replayAll? [] = some o := rfl

/-- The first event is replayed first, and the others if it fits. -/
lemma replayAll?_cons (o : Outline) (e : Emission) (es : List Emission) :
    o.replayAll? (e :: es) = (o.replay? e).bind fun o' => o'.replayAll? es := rfl

/-- A single event is replayed by itself. -/
@[simp] lemma replayAll?_singleton (o : Outline) (e : Emission) :
    o.replayAll? [e] = o.replay? e := by
  simp [replayAll?]

/-- Events are replayed one after the other. -/
lemma replayAll?_append {o o' : Outline} {es : List Emission} (h : o.replayAll? es = some o')
    (es' : List Emission) : o.replayAll? (es ++ es') = o'.replayAll? es' := by
  rw [replayAll?, List.foldlM_append]
  show (o.replayAll? es).bind _ = _
  rw [h]
  rfl

/-! ## Events that fit -/

section Fits

variable {o : Outline} {level : Nat}

/-- The names in the innermost frame. -/
lemma namesAt_append_singleton (h : o.length = level) (names : List String) :
    namesAt (o ++ [names]) level = names := by
  subst h
  simp [namesAt, List.getD]

/-- The names in an outer frame do not depend on the inner ones. -/
lemma namesAt_append_of_lt (h : level < o.length) (o' : Outline) :
    namesAt (o ++ o') level = o.namesAt level := by
  rw [namesAt, namesAt, List.getD_append _ _ _ _ h]

/-- The level of the innermost frame is the number of the others. -/
lemma isTop_append_singleton (h : o.length = level) (names : List String) :
    IsTop (o ++ [names]) level := by
  rw [IsTop, List.length_append, List.length_singleton, h]

/-- Changing the innermost frame leaves the others alone. -/
lemma modify_append_singleton (h : o.length = level) (names : List String)
    (change : List String → List String) :
    (o ++ [names]).modify level change = o ++ [change names] := by
  subst h
  exact List.modifyTailIdx_add (List.modifyHead change) 0 o [names]

/-- A name can be declared in the innermost frame. -/
lemma replay?_declared (h : o.length = level) (names : List String) (name : String) :
    replay? (o ++ [names]) ⟨.declared name, level⟩ = some (o ++ [names ++ [name]]) := by
  have htop := isTop_append_singleton h names
  simp [replay?, htop, modify_append_singleton h]

/-- Names can be declared in the innermost frame one after the other. -/
lemma replayAll?_declared (h : o.length = level) (names : List String) (bs : List Binding) :
    replayAll? (o ++ [names]) (bs.map fun b => ⟨.declared b.name, level⟩) =
      some (o ++ [names ++ bs.map Binding.name]) := by
  induction bs generalizing names with
  | nil => simp
  | cons b bs ih =>
    rw [List.map_cons, replayAll?_cons, replay?_declared h, Option.bind_some, ih, List.map_cons,
      List.append_assoc, List.singleton_append]

/-- A name that stands in the innermost frame can be removed from it. -/
lemma replay?_removed (h : o.length = level) {names : List String} {name : String}
    (hname : name ∈ names) :
    replay? (o ++ [names]) ⟨.removed name, level⟩ = some (o ++ [names.erase name]) := by
  have htop := isTop_append_singleton h names
  simp [replay?, htop, namesAt_append_singleton h, hname, modify_append_singleton h]

/-- A name that does not stand in the innermost frame can be missed. -/
lemma replay?_missed (h : o.length = level) {names : List String} {name : String}
    (hname : name ∉ names) :
    replay? (o ++ [names]) ⟨.missed name, level⟩ = some (o ++ [names]) := by
  have htop := isTop_append_singleton h names
  simp [replay?, htop, namesAt_append_singleton h, hname]

/-- The value of a name that stands in a frame can be overwritten. -/
lemma replay?_updated {name : String} (hname : name ∈ o.namesAt level) :
    replay? o ⟨.updated name, level⟩ = some o :=
  if_pos hname

/-- A value can be written back to a name that stands in a frame. -/
lemma replay?_wroteBack {name : String} (hname : name ∈ o.namesAt level) :
    replay? o ⟨.wroteBack name, level⟩ = some o :=
  if_pos hname

/-- A scope can be entered. -/
lemma replay?_entered (h : o.length = level) :
    replay? o ⟨.entered, level⟩ = some (o ++ [[]]) :=
  if_pos h.symm

/-- Inner frames can be left, if the names in them are counted. -/
lemma replay?_exited (h : o.length = level) {o' : Outline} {reaped : Nat}
    (hreaped : o'.flatten.length = reaped) :
    replay? (o ++ o') ⟨.exited reaped, level⟩ = some o := by
  subst h hreaped
  simp [replay?]

end Fits

end Outline

/-! ## Outlines of stacks -/

/-- The names that a frame declares, in order. -/
def Frame.nameList (f : Frame) : List String :=
  f.bindings.map Binding.name

namespace Frame

/-- The shape of a frame has the same names. -/
@[simp] lemma nameList_shape (f : Frame) : f.shape.nameList = f.nameList := by
  simp only [nameList, bindings_shape, List.map_map]
  rfl

/-- A name is in the list exactly if it is found in the frame. -/
lemma mem_nameList (f : Frame) (name : String) :
    name ∈ f.nameList ↔ (f.find? name).isSome = true := by
  simp [nameList, find?, List.find?_isSome]

/-- Removing a binding removes its name where it stands first. -/
lemma nameList_erase (f : Frame) (name : String) :
    (f.erase name).nameList = f.nameList.erase name := by
  rw [nameList, nameList, bindings_erase, List.erase_eq_eraseP', List.eraseP_map]
  rfl

end Frame

namespace Stack

/-- The names in each frame, outermost frame first. -/
def outline (s : Stack) : Outline :=
  s.reverse.map Frame.nameList

/-- The outline of no frames. -/
@[simp] lemma outline_nil : outline [] = [] := rfl

/-- The names of the innermost frame come last. -/
@[simp] lemma outline_cons (f : Frame) (s : Stack) :
    outline (f :: s) = s.outline ++ [f.nameList] := by
  simp [outline]

/-- The outline has one list of names for each frame. -/
@[simp] lemma length_outline (s : Stack) : s.outline.length = s.length := by
  simp [outline]

/-- The outline of the outer part of a stack comes first. -/
lemma outline_append (s u : Stack) : outline (s ++ u) = u.outline ++ s.outline := by
  simp [outline]

/-- The outline does not depend on values. -/
lemma outline_of_shape {s u : Stack} (h : s.shape = u.shape) : outline s = outline u := by
  have houtline : ∀ v : Stack, v.shape.outline = v.outline := by
    intro v
    simp [outline, shape, ← List.map_reverse, Function.comp_def]
  rw [← houtline s, h, houtline]

/-- The size counts the names of the outline. -/
lemma length_flatten_outline (s : Stack) : s.outline.flatten.length = s.size := by
  induction s with
  | nil => rfl
  | cons f s ih =>
    rw [outline_cons, List.flatten_append, List.length_append, ih, size_cons,
      List.flatten_singleton, Frame.nameList, List.length_map, Nat.add_comm]

/-- A name that has a position is declared in the frame at its depth. -/
lemma mem_outline_of_locate {s : Stack} {name : String} {p : Position}
    (h : s.locate name = some p) : name ∈ s.outline.namesAt p.depth := by
  induction s with
  | nil => simp [locate] at h
  | cons f s ih =>
    rw [locate] at h
    rw [outline_cons]
    cases hf : f.index? name with
    | some i =>
      simp only [hf, Option.some.injEq] at h
      subst h
      rw [Outline.namesAt_append_singleton (length_outline s), Frame.mem_nameList,
        ← Frame.isSome_index?, hf, Option.isSome_some]
    | none =>
      simp only [hf] at h
      have hlt : p.depth < (outline s).length := by
        rw [length_outline]
        exact depth_lt_of_locate h
      rw [Outline.namesAt_append_of_lt hlt]
      exact ih h

/-- A name refers to something exactly if it stands in a frame of the outline. -/
lemma isSome_resolve_iff_outline (s : Stack) (name : String) :
    (s.resolve name).isSome = true ↔ ∃ names ∈ s.outline, name ∈ names := by
  induction s with
  | nil => simp
  | cons f s ih =>
    rw [resolve_cons, Option.isSome_or, Bool.or_eq_true, ← Frame.mem_nameList, ih, outline_cons]
    constructor
    · rintro (hname | ⟨names, hmem, hname⟩)
      · exact ⟨f.nameList, by simp, hname⟩
      · exact ⟨names, List.mem_append_left _ hmem, hname⟩
    · rintro ⟨names, hmem, hname⟩
      rcases List.mem_append.1 hmem with hmem | hmem
      · exact Or.inr ⟨names, hmem, hname⟩
      · exact Or.inl (List.mem_singleton.1 hmem ▸ hname)

end Stack

end LexicalScope
