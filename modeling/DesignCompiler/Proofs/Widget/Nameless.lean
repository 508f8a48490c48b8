import DesignCompiler.Proofs.Widget.Contents
import Mathlib.Data.List.Basic
import Mathlib.Data.List.Induction
/-!
# Widgets up to names

The key of a widget holds the name that its layer came with. `Widget.nameless` erases these names
and nothing else, and two widgets are the same *up to names* when they are equal after it.

Lowering hands names through and never looks at one that is in a key. So erasing can be done before
each of its operations as well as after: there is one such equation for the effects of a layer, for
the changes that flags make, for the cut at the masks and for the container. In the first and the
last of them names are erased again at the end, since a wrapper and a clip are given names that are
made from that of the layer.
-/

namespace DesignCompiler

/-! ### Erasing names -/

/-- A key without its name. -/
def WidgetKey.nameless (k : WidgetKey) : WidgetKey := { k with originName := "" }

namespace Widget

mutual

/-- **A widget tree without the names in its keys.** -/
def nameless : Widget → Widget
  | leaf key style content => leaf key.nameless style content
  | box key style arrangement children =>
    box key.nameless style arrangement (namelessAll children)
  | wrap key style wrapper child => wrap key.nameless style wrapper child.nameless

/-- Placed widget trees without the names in their keys. -/
def namelessAll : List (Placed Widget) → List (Placed Widget)
  | [] => []
  | ⟨x, y, w⟩ :: rest => ⟨x, y, w.nameless⟩ :: namelessAll rest

end

end Widget

/-- A placed widget without names. -/
def Placed.nameless (c : Placed Widget) : Placed Widget := ⟨c.x, c.y, c.item.nameless⟩

/-- A layer without its name. -/
def Layer.nameless (l : Layer) : Layer := { l with name := "" }

/-- A lowered child without names. -/
def LoweredChild.nameless (c : LoweredChild) : LoweredChild :=
  ⟨c.layer.nameless, c.widget.map Widget.nameless⟩

/-- A surviving child without names. -/
def Survivor.nameless (s : Survivor) : Survivor := ⟨s.layer.nameless, s.widget.nameless⟩

/-- A mask and what it clips without names. -/
def MaskRun.nameless (run : MaskRun) : MaskRun :=
  ⟨run.mask.nameless, run.clipped.map Survivor.nameless⟩

/-- A mask is one without its name. -/
@[simp] theorem Layer.isMask_nameless (l : Layer) : l.nameless.isMask = l.isMask := rfl

@[simp] theorem WidgetKey.nameless_nameless (k : WidgetKey) : k.nameless.nameless = k.nameless :=
  rfl

theorem WidgetKey.nameless_derived (k : WidgetKey) (suffix : String) :
    (k.nameless.derived suffix).nameless = (k.derived suffix).nameless := rfl

namespace Widget

/-- The names in several children are erased child by child. -/
@[simp] theorem namelessAll_eq_map (children : List (Placed Widget)) :
    namelessAll children = children.map Placed.nameless := by
  induction children with
  | nil => rfl
  | cons c rest ih => rw [namelessAll, ih]; rfl

/-- Erasing the names around a widget. -/
@[simp] theorem nameless_wrapped (w : Widget) (key : WidgetKey) (wrapper : Wrapper) :
    (w.wrapped key wrapper).nameless = w.nameless.wrapped key.nameless wrapper := rfl

/-- There is nothing to erase twice in a tree. -/
@[simp] theorem nameless_nameless (w : Widget) : w.nameless.nameless = w.nameless := by
  induction w using Widget.induction with
  | leaf => rfl
  | box key style arrangement children ih =>
    -- By the induction hypothesis nothing is left to erase in any child.
    have hchildren : (children.map Placed.nameless).map Placed.nameless =
        children.map Placed.nameless := by
      rw [List.map_map]
      refine List.map_congr_left fun c hc => ?_
      rw [Function.comp_apply, Placed.nameless, Placed.nameless, ih c hc]
    simp only [nameless, namelessAll_eq_map, hchildren, WidgetKey.nameless_nameless]
  | wrap key style wrapper child ih =>
    simp only [nameless, ih, WidgetKey.nameless_nameless]

/-- Names are erased beneath wrappers as well. -/
@[simp] theorem unwrapped_nameless (w : Widget) : w.nameless.unwrapped = w.unwrapped.nameless := by
  induction w using Widget.induction with
  | leaf => rfl
  | box => rfl
  | wrap key style wrapper child ih => rw [nameless, unwrapped, ih, unwrapped]

/-- The children without names are the children, each without its names. -/
@[simp] theorem layoutChildren_nameless (w : Widget) :
    w.nameless.layoutChildren = w.layoutChildren.map Placed.nameless := by
  cases w with
  | leaf => rfl
  | box key style arrangement children => rw [nameless, layoutChildren, namelessAll_eq_map]; rfl
  | wrap => rfl

/-- Erasing names keeps what a tree shows. -/
theorem contents_nameless (w : Widget) : w.nameless.contents = w.contents.map nameless := by
  induction w using Widget.induction with
  | leaf => rfl
  | box key style arrangement children ih =>
    rw [contents_eq, contents_eq, unwrapped_nameless, layoutChildren_nameless, List.map_cons,
      List.map_flatMap, List.flatMap_map]
    congr 1
    exact List.flatMap_congr fun c hc => ih c hc
  | wrap key style wrapper child ih => rw [nameless, contents_wrap, contents_wrap, ih]

end Widget

/-! ### What lowering does with names -/

@[simp] theorem Changes.nameless_apply (c : Changes) (w : Widget) :
    (c.apply w).nameless = c.apply w.nameless := by
  rcases w with ⟨_, _, _ | _⟩ | _ | _ <;> rfl

namespace Layer

/-- A nest of wrappers is the same without names, whether they are erased before or after. -/
theorem nameless_foldl_wrapped (k : WidgetKey) (effects : List (String × Wrapper)) (w : Widget) :
    (effects.foldl (fun inner e => inner.wrapped (k.nameless.derived e.1) e.2)
      w.nameless).nameless =
      (effects.foldl (fun inner e => inner.wrapped (k.derived e.1) e.2) w).nameless := by
  -- From the outermost wrapper inwards, since its key is the first to be erased.
  induction effects using List.reverseRecOn with
  | nil => exact w.nameless_nameless
  | append_singleton effects e ih =>
    rw [List.foldl_append, List.foldl_append, List.foldl_cons, List.foldl_cons, List.foldl_nil,
      List.foldl_nil, Widget.nameless_wrapped, Widget.nameless_wrapped, ih,
      WidgetKey.nameless_derived]

/-- The effects of a layer are put around a widget whatever the names are. -/
theorem nameless_decorate (l : Layer) (w : Widget) :
    (l.nameless.decorate w.nameless).nameless = (l.decorate w).nameless :=
  nameless_foldl_wrapped l.plainKey l.effectWrappers w

end Layer

/-- Placing children reads no names. -/
theorem map_relativeTo_nameless (survivors : List Survivor) (origin : Float × Float) :
    ((survivors.map Survivor.nameless).map (·.relativeTo origin)).map Placed.nameless =
      (survivors.map (·.relativeTo origin)).map Placed.nameless := by
  simp only [List.map_map]
  refine List.map_congr_left fun s _ => ?_
  -- A survivor is placed by the box of its layer, which is no name.
  show Placed.mk _ _ s.widget.nameless.nameless = Placed.mk _ _ s.widget.nameless
  rw [Widget.nameless_nameless]
  rfl

/-- Whether a child has a widget does not depend on names. -/
theorem survivors_nameless (lowered : List LoweredChild) :
    survivors (lowered.map LoweredChild.nameless) =
      (survivors lowered).map Survivor.nameless := by
  unfold survivors
  rw [List.filterMap_map, List.map_filterMap]
  refine List.filterMap_congr fun c _ => ?_
  obtain ⟨layer, _ | w⟩ := c <;> rfl

/-- **The cuts at masks read no names.** -/
theorem partitionMasks_nameless (lowered : List LoweredChild) :
    partitionMasks (lowered.map LoweredChild.nameless) =
      ((partitionMasks lowered).1.map Survivor.nameless,
        (partitionMasks lowered).2.map MaskRun.nameless) := by
  induction lowered with
  | nil => rfl
  | cons c rest ih =>
    rw [List.map_cons, partitionMasks, ih, partitionMasks]
    -- A mask opens a run, a widget joins the survivors, and names matter to neither.
    by_cases hmask : c.layer.isMask = true
    · simp [hmask, MaskRun.nameless, LoweredChild.nameless]
    · cases hw : c.widget <;>
        simp [hmask, LoweredChild.nameless, Survivor.nameless, hw]

namespace LoweringOptions

variable (o : LoweringOptions)

/-- Nor does the clip of a mask. -/
theorem nameless_clip (origin : Float × Float) (run : MaskRun) :
    (o.clip origin run.nameless).nameless = (o.clip origin run).nameless := by
  simp only [clip, Placed.nameless]
  rw [← Layer.nameless_decorate run.mask, ← Layer.nameless_decorate run.nameless.mask]
  -- The two masks are one without their names, and so is what they clip.
  simp only [Widget.nameless, Widget.namelessAll_eq_map, MaskRun.nameless]
  rw [map_relativeTo_nameless]
  rfl

/-- Nor do the clips of several masks. -/
theorem map_clip_nameless (origin : Float × Float) (runs : List MaskRun) :
    ((runs.map MaskRun.nameless).map (o.clip origin)).map Placed.nameless =
      (runs.map (o.clip origin)).map Placed.nameless := by
  simp only [List.map_map]
  exact List.map_congr_left fun run _ => o.nameless_clip origin run

/-- **A container is put together whatever the names are.** -/
theorem nameless_containerWidget (l : Layer) (lowered : List LoweredChild) :
    (o.containerWidget l.nameless (lowered.map LoweredChild.nameless)).nameless =
      (o.containerWidget l lowered).nameless := by
  have hmasks : (lowered.map LoweredChild.nameless).any (·.layer.isMask) =
      lowered.any (·.layer.isMask) := by
    rw [List.any_map]
    rfl
  unfold containerWidget
  rw [hmasks]
  by_cases hmask : lowered.any (·.layer.isMask) = true
  · simp only [hmask, if_true, maskedWidget, partitionMasks_nameless, Widget.nameless,
      Widget.namelessAll_eq_map, List.map_append]
    rw [map_relativeTo_nameless, map_clip_nameless]
    rfl
  · simp only [hmask, Bool.false_eq_true, if_false, survivors_nameless]
    -- A group has no look and any other layer is a frame, of whatever name.
    have hkind : l.nameless.kind = l.kind := rfl
    rw [hkind]
    split
    · simp only [Layer.groupWidget, Widget.nameless, Widget.namelessAll_eq_map]
      rw [map_relativeTo_nameless]
      rfl
    · simp only [Layer.frameWidget, Widget.nameless, Widget.namelessAll_eq_map]
      rw [map_relativeTo_nameless]
      rfl

end LoweringOptions

end DesignCompiler
