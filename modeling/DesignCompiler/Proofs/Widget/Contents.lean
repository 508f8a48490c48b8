import DesignCompiler.Lowering.Tree
/-!
# What a widget tree shows

A chain of wrappers applies to one widget, so what a tree *shows* are its widgets that are no
wrappers. `Widget.contents` lists them in the order of the walk, and everything said about a whole
tree goes by two facts:

* `Widget.contents_eq` — the contents of a chain are the widget beneath its wrappers, then the
  contents of the children of that widget, child by child;
* `Widget.contents_decorate` — putting the effects of a layer around a widget shows nothing new.

`Widget.induction` is the induction over widgets with the children of a box as one case.
-/

namespace DesignCompiler

namespace Widget

/-! ### Induction -/

/-- Induction over a widget tree, where a box has the claim for each of its children. -/
@[elab_as_elim]
theorem induction {motive : Widget → Prop}
    (leaf : ∀ key style content, motive (.leaf key style content))
    (box : ∀ key style arrangement children, (∀ c ∈ children, motive c.item) →
      motive (.box key style arrangement children))
    (wrap : ∀ key style wrapper child, motive child → motive (.wrap key style wrapper child))
    (w : Widget) : motive w := by
  -- The recursor has a motive for each type of the nest; lists of children and placed children say
  -- it of each item.
  refine Widget.rec (motive_1 := motive) (motive_2 := fun children => ∀ c ∈ children, motive c.item)
    (motive_3 := fun c => motive c.item) leaf box wrap ?_ ?_ ?_ w
  · intro c hc
    exact absurd hc List.not_mem_nil
  · intro c rest hc hrest d hd
    rcases List.mem_cons.mp hd with rfl | hd
    · exact hc
    · exact hrest d hd
  · exact fun _ _ _ h => h

/-! ### Chains of wrappers -/

/-- No wrapper is left beneath a chain of wrappers. -/
@[simp] theorem isWrapper_unwrapped (w : Widget) : w.unwrapped.isWrapper = false := by
  induction w using Widget.induction with
  | leaf => rfl
  | box => rfl
  | wrap key style wrapper child ih => exact ih

/-- A widget that is no wrapper is the end of its own chain. -/
theorem unwrapped_eq_self {w : Widget} (h : w.isWrapper = false) : w.unwrapped = w := by
  cases w with
  | leaf => rfl
  | box => rfl
  | wrap => exact absurd h (by simp [isWrapper])

/-- Nothing is above a widget that is no wrapper in its own chain. -/
theorem wrappers_eq_nil {w : Widget} (h : w.isWrapper = false) : w.wrappers = [] := by
  cases w with
  | leaf => rfl
  | box => rfl
  | wrap => cases h

theorem mem_walk_self (w : Widget) : w ∈ w.walk := by
  cases w <;> simp [walk]

/-- Everything beneath a chain of wrappers is met on the walk that starts above them. -/
theorem walk_unwrapped_subset (w : Widget) : w.unwrapped.walk ⊆ w.walk := by
  induction w using Widget.induction with
  | leaf => exact List.Subset.refl _
  | box => exact List.Subset.refl _
  | wrap key style wrapper child ih => exact List.Subset.trans ih (List.subset_cons_self _ _)

/-- The walk of a child of a box is part of what comes after the box. -/
theorem walk_child_subset {w : Widget} {c : Placed Widget} (h : c ∈ w.layoutChildren) :
    c.item.walk ⊆ w.walk.tail := by
  cases w with
  | leaf => exact absurd h List.not_mem_nil
  | wrap => exact absurd h List.not_mem_nil
  | box key style arrangement children =>
    intro v hv
    rw [walk, List.tail_cons, walkAll_eq_flatMap]
    exact List.mem_flatMap.mpr ⟨c, h, hv⟩

/-! ### Contents -/

/-- **The widgets of a tree that are no wrappers,** in the order of the walk. -/
def contents (w : Widget) : List Widget := w.walk.filter (!·.isWrapper)

theorem mem_contents {v w : Widget} : v ∈ w.contents ↔ v ∈ w.walk ∧ v.isWrapper = false := by
  simp [contents]

@[simp] theorem contents_wrap (key : WidgetKey) (style : Style) (wrapper : Wrapper)
    (child : Widget) : (wrap key style wrapper child).contents = child.contents := by
  simp [contents, walk, isWrapper]

/-- **The contents of a chain** are the widget beneath its wrappers and the contents of the
children of that widget. -/
theorem contents_eq (w : Widget) :
    w.contents = w.unwrapped :: w.unwrapped.layoutChildren.flatMap (·.item.contents) := by
  induction w using Widget.induction with
  | leaf => simp [contents, walk, isWrapper, unwrapped, layoutChildren]
  | box key style arrangement children _ =>
    simp [contents, walk, isWrapper, unwrapped, layoutChildren, walkAll_eq_flatMap,
      List.filter_flatMap]
  | wrap key style wrapper child ih => rw [contents_wrap, unwrapped_wrap, ih]

/-- Chains that end in one widget show the same. -/
theorem contents_congr {v w : Widget} (h : v.unwrapped = w.unwrapped) : v.contents = w.contents := by
  rw [contents_eq v, contents_eq w, h]

@[simp] theorem contents_decorate (l : Layer) (w : Widget) : (l.decorate w).contents = w.contents :=
  contents_congr (Layer.unwrapped_decorate l w)

/-! ### Leaves -/

/-- What a leaf shows. -/
def leaf? : Widget → Option Leaf
  | leaf _ _ content => some content
  | _ => none

/-- **What the leaves of a tree show,** in the order of the walk. -/
def leaves (w : Widget) : List Leaf := w.walk.filterMap leaf?

@[simp] theorem leaves_leaf (key : WidgetKey) (style : Style) (content : Leaf) :
    (leaf key style content).leaves = [content] := rfl

/-- The leaves of a box are those of its children, in order. -/
@[simp] theorem leaves_box (key : WidgetKey) (style : Style) (arrangement : Arrangement)
    (children : List (Placed Widget)) :
    (box key style arrangement children).leaves = children.flatMap (·.item.leaves) := by
  rw [leaves, walk, List.filterMap_cons_none rfl, walkAll_eq_flatMap, List.filterMap_flatMap]
  rfl

/-- A wrapper adds no leaf. -/
@[simp] theorem leaves_wrap (key : WidgetKey) (style : Style) (wrapper : Wrapper)
    (child : Widget) : (wrap key style wrapper child).leaves = child.leaves := by
  rw [leaves, walk, List.filterMap_cons_none rfl]
  rfl

/-- Nor do the wrappers on top of a tree. -/
@[simp] theorem leaves_unwrapped (w : Widget) : w.unwrapped.leaves = w.leaves := by
  induction w using Widget.induction with
  | leaf => rfl
  | box => rfl
  | wrap key style wrapper child ih => rw [unwrapped_wrap, leaves_wrap, ih]

end Widget

/-- The image of a leaf, whether it is shown or only stands in for a glyph. -/
def Leaf.image? : Leaf → Option ImageRef
  | image content => some content.src
  | icon content => some content.src
  | text _ | vector _ | boolean _ => none

/-! ### Changes keep what a widget holds -/

namespace Changes

variable (c : Changes) (w : Widget)

/-- Changes leave the key. -/
@[simp] theorem key_apply : (c.apply w).key = w.key := by
  rcases w with ⟨_, _, _ | _⟩ | _ | _ <;> rfl

/-- They make no wrapper and take none off. -/
@[simp] theorem isWrapper_apply : (c.apply w).isWrapper = w.isWrapper := by
  rcases w with ⟨_, _, _ | _⟩ | _ | _ <;> rfl

@[simp] theorem layoutChildren_apply : (c.apply w).layoutChildren = w.layoutChildren := by
  rcases w with ⟨_, _, _ | _⟩ | _ | _ <;> rfl

/-- Changes are made in a widget itself, and in nothing beneath it. -/
@[simp] theorem tail_walk_apply : (c.apply w).walk.tail = w.walk.tail := by
  rcases w with ⟨_, _, _ | _⟩ | _ | _ <;> rfl

end Changes

end DesignCompiler
