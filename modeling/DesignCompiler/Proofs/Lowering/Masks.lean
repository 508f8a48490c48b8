import DesignCompiler.Proofs.Lowering.Preservation
/-!
# What a mask clips

A node with masks among its children is lowered to a container of its own kind: the children in front
of the first mask stand in it, and all others stand in the clip of the mask in front of them. A clip
is begun at a mask and ended by the next one or by the end of the list, whatever lies between them:
nothing, hidden children, or children that ask to be ignored.

`CutsAtMasks` says which siblings belong to which mask, of the nodes alone. That the clips are these
runs is an induction over the children (`exists_cut`), since a mask takes what has been collected
behind it. The widgets in them are those that the children have on their own, because the depth of a
node counts for nothing but a wrapping that the options may ask for (`lowerNode_depth`).
-/

namespace DesignCompiler

/-! ### Runs of siblings -/

/-- A mask with the siblings between it and the next mask. -/
structure NodeRun where
  mask : Node
  clipped : List Node

/-- **A cut of children at the masks:** those in front of the first mask, then each mask with the
siblings up to the next one. -/
structure CutsAtMasks (children before : List Node) (runs : List NodeRun) : Prop where
  children_eq : children = before ++ runs.flatMap fun run => run.mask :: run.clipped
  before : ∀ c ∈ before, c.layer.isMask = false
  mask : ∀ run ∈ runs, run.mask.layer.isMask = true
  clipped : ∀ run ∈ runs, ∀ c ∈ run.clipped, c.layer.isMask = false

namespace CutsAtMasks

/-- Without children there is nothing to cut. -/
theorem nil : CutsAtMasks [] [] [] where
  children_eq := rfl
  before _ h := absurd h List.not_mem_nil
  mask _ h := absurd h List.not_mem_nil
  clipped _ h := absurd h List.not_mem_nil

variable {children before : List Node} {runs : List NodeRun} {c : Node}

/-- A child that is no mask joins those in front of the first one. -/
theorem cons (hc : c.layer.isMask = false) (h : CutsAtMasks children before runs) :
    CutsAtMasks (c :: children) (c :: before) runs where
  children_eq := by rw [h.children_eq, List.cons_append]
  before := List.forall_mem_cons.mpr ⟨hc, h.before⟩
  mask := h.mask
  clipped := h.clipped

/-- A mask begins a run, and takes what has been in front of the first mask behind it. -/
theorem cons_mask (hc : c.layer.isMask = true) (h : CutsAtMasks children before runs) :
    CutsAtMasks (c :: children) [] (⟨c, before⟩ :: runs) where
  children_eq := by rw [h.children_eq, List.flatMap_cons, List.nil_append, List.cons_append]
  before _ h := absurd h List.not_mem_nil
  mask := List.forall_mem_cons.mpr ⟨hc, h.mask⟩
  clipped := List.forall_mem_cons.mpr ⟨h.before, h.clipped⟩

/-- **No child is lost in a cut, and none is there twice:** what is no mask comes in order. -/
theorem filter_eq (h : CutsAtMasks children before runs) :
    children.filter (!·.layer.isMask) = before ++ runs.flatMap (·.clipped) := by
  have hkept : ∀ cs : List Node, (∀ c ∈ cs, c.layer.isMask = false) →
      cs.filter (!·.layer.isMask) = cs := by
    intro cs hcs
    rw [List.filter_eq_self]
    intro c hc
    rw [hcs c hc]
    rfl
  -- Each run loses its mask at the front and nothing else.
  rw [h.children_eq, List.filter_append, hkept _ h.before, List.filter_flatMap]
  refine congrArg _ (List.flatMap_congr fun run hrun => ?_)
  rw [List.filter_cons_of_neg (by simp [h.mask run hrun]), hkept _ (h.clipped run hrun)]

end CutsAtMasks

namespace LoweringOptions

variable {o : LoweringOptions}

/-! ### Children on their own -/

/-- **Lowering does not look at the depth** unless there is a wrapping that does. -/
theorem lowerNode_depth (hwrap : o.wrap = none) (n : Node) :
    ∀ depth depth' : Nat, o.lowerNode depth n = o.lowerNode depth' n := by
  induction n using Node.induction with
  | node layer children ih =>
    intro depth depth'
    have hchildren : o.lowerChildren (depth + 1) children = o.lowerChildren (depth' + 1) children :=
      lowerChildren_congr fun c hc => ih c hc (depth + 1) (depth' + 1)
    rw [lowerNode, lowerNode, hchildren]
    simp only [finish_eq_decorate hwrap]

/-- The widget that a node has as a design of its own. -/
def alone? (o : LoweringOptions) (n : Node) : Option Widget := (o.lower n).toOption

/-- A node has the widget that it has on its own, wherever it stands. -/
theorem alone?_of_lowerNode (hwrap : o.wrap = none) {depth : Nat} {c : Node} {r : Option Widget}
    (h : o.lowerNode depth c = .ok r) : o.alone? c = r := by
  rw [alone?, lower, lowerNode_depth hwrap c 0 depth, h]
  cases r <;> rfl

/-- A child as it comes to its parent: with the widget that it has on its own, or as a mask. -/
def asChild (o : LoweringOptions) (c : Node) : LoweredChild :=
  ⟨c.layer, if c.layer.isMask then none else o.alone? c⟩

/-- **Lowered children are the children lowered alone.** -/
theorem eq_map_asChild (hwrap : o.wrap = none) {depth : Nat} {children : List Node}
    {lowered : List LoweredChild} (h : List.Forall₂ (o.LowersTo depth) children lowered) :
    lowered = children.map o.asChild := by
  induction h with
  | nil => rfl
  | @cons c d _ _ hcd _ ih =>
    obtain ⟨hlayer, hwidget⟩ := hcd
    have hd : d.widget = if c.layer.isMask then none else o.alone? c := by
      -- A mask is not lowered as a child; any other child is lowered as it is alone.
      split at hwidget
      · rw [hwidget, if_pos ‹_›]
      · rw [alone?_of_lowerNode hwrap hwidget, if_neg ‹_›]
    rw [ih, List.map_cons, asChild, ← hd, ← hlayer]

/-- A child that has a widget on its own. -/
def survivor? (o : LoweringOptions) (c : Node) : Option Survivor :=
  (o.alone? c).map (Survivor.mk c.layer)

/-- **The cut of lowered children is that of the children,** with the widgets that they have on
their own. -/
theorem exists_cut (o : LoweringOptions) (children : List Node) :
    ∃ before runs, CutsAtMasks children before runs ∧
      partitionMasks (children.map o.asChild) =
        (before.filterMap o.survivor?,
          runs.map fun run => ⟨run.mask.layer, run.clipped.filterMap o.survivor?⟩) := by
  induction children with
  | nil => exact ⟨[], [], .nil, rfl⟩
  | cons c rest ih =>
    -- The rest is cut already; a mask closes what is open there, and any other child joins it.
    obtain ⟨before, runs, hcut, hrest⟩ := ih
    by_cases hmask : c.layer.isMask = true
    · refine ⟨[], ⟨c, before⟩ :: runs, hcut.cons_mask hmask, ?_⟩
      rw [List.map_cons, partitionMasks, hrest]
      simp [asChild, hmask]
    · rw [Bool.not_eq_true] at hmask
      refine ⟨c :: before, runs, hcut.cons hmask, ?_⟩
      rw [List.map_cons, partitionMasks, hrest]
      cases hwidget : o.alone? c <;> simp [asChild, survivor?, hmask, hwidget]

/-! ### The law -/

/-- A child with the widget that it has on its own, placed relative to a point. -/
def placed? (o : LoweringOptions) (origin : Float × Float) (c : Node) : Option (Placed Widget) :=
  (o.alone? c).map fun w => ⟨c.layer.x - origin.1, c.layer.y - origin.2, w⟩

/-- Moving the widgets that there are to an origin places them. -/
theorem map_relativeTo_survivors (origin : Float × Float) (children : List Node) :
    (children.filterMap o.survivor?).map (·.relativeTo origin) =
      children.filterMap (o.placed? origin) := by
  rw [List.map_filterMap]
  congr 1
  funext c
  rw [survivor?, placed?, Option.map_map]
  rfl

/-- The placed widgets are those of the children lowered alone. -/
theorem map_item_placed (origin : Float × Float) (children : List Node) :
    (children.filterMap (o.placed? origin)).map (·.item) = children.filterMap o.alone? := by
  rw [List.map_filterMap]
  congr 1
  funext c
  rw [placed?, Option.map_map]
  exact Option.map_id'

/-- **The clip of a run:** it stands where the mask stands, and under the effects of the mask it is
a clipping box with the siblings that survive, each as it is on its own. -/
structure ClipsRun (o : LoweringOptions) (origin : Float × Float) (run : NodeRun)
    (clip : Placed Widget) : Prop where
  x : clip.x = run.mask.layer.x - origin.1
  y : clip.y = run.mask.layer.y - origin.2
  effects : clip.item.wrappers = run.mask.layer.wrappers
  box : ∃ shape, clip.item.unwrapped =
    .box (o.key run.mask.layer) (o.maskStyle run.mask.layer) (.container shape true)
      (run.clipped.filterMap (o.placed? (run.mask.layer.x, run.mask.layer.y))) ∧
    (shape = .circle ↔ ∃ arc, run.mask.layer.kind = some (.ellipse arc))

/-- **What it means that a widget parts the children of a node at the masks.** -/
structure PartsAtMasks (o : LoweringOptions) (n : Node) (before : List Node) (runs : List NodeRun)
    (clips : List (Placed Widget)) (w : Widget) : Prop where
  cut : CutsAtMasks n.children before runs
  /-- In front of the clips stand the children in front of the first mask. -/
  box : ∃ style, w.unwrapped = .box (o.key n.layer) style (.container .rectangle false)
    (before.filterMap (o.placed? n.layer.origin) ++ clips)
  /-- There is one clip for each mask, in order, if only an empty one. -/
  clip : List.Forall₂ (o.ClipsRun n.layer.origin) runs clips
  /-- Each child that survives is there once, and they are in order. -/
  once : (before.filterMap (o.placed? n.layer.origin) ++
      clips.flatMap (·.item.unwrapped.layoutChildren)).map (·.item) =
    (n.children.filter (!·.layer.isMask)).filterMap o.alone?
  /-- A child survives unless it is hidden or ignored. -/
  survives : ∀ c ∈ n.children, c.layer.isMask = false → o.alone? c = none →
    o.treatment c = .dropped

/-- **A clip is made of its mask and the run behind it,** in the effects of the mask. -/
theorem clipsRun_clip (origin : Float × Float) (run : NodeRun) :
    o.ClipsRun origin run
      (o.clip origin ⟨run.mask.layer, run.clipped.filterMap o.survivor?⟩) where
  x := rfl
  y := rfl
  effects := by
    rw [clip, Layer.wrappers_decorate]
    exact List.append_nil _
  box := by
    refine ⟨run.mask.layer.maskShape, ?_, ?_⟩
    · rw [clip, Layer.unwrapped_decorate, map_relativeTo_survivors]
      rfl
    · -- The kind of the mask gives the outline of the box.
      unfold Layer.maskShape
      split <;> simp_all

/-- **A node with masks parts its children at them,** if there is no fault in them and nothing else
is put around their widgets. -/
theorem lower_parts_at_masks {n : Node} {depth : Nat} {r : Option Widget} (hwrap : o.wrap = none)
    (hholds : o.HoldsChildren n) (hmask : n.containsMasking = true)
    (h : o.lowerNode depth n = .ok r) :
    ∃ w before runs clips, r = some w ∧ o.PartsAtMasks n before runs clips w := by
  -- Nodes that hold their children have a widget, and it is no leaf that they have at once.
  obtain ⟨w, rfl⟩ := hholds.exists_widget h
  obtain ⟨_, htreat⟩ := treatment_eq_container_iff.mpr hholds
  rcases lowerNode_eq_some_iff.mp h with ⟨v, hv, -⟩ | ⟨changes, lowered, -, hlowered, rfl⟩
  · rw [htreat] at hv
    cases hv
  -- What comes of the children is known from each on its own, and so are the clips.
  obtain rfl := eq_map_asChild hwrap hlowered
  obtain ⟨before, runs, hcut, hparts⟩ := o.exists_cut n.children
  have hany : (n.children.map o.asChild).any (·.layer.isMask) = true := by
    rw [List.any_map]
    exact hmask
  have hclips : List.Forall₂ (o.ClipsRun n.layer.origin) runs
      ((runs.map fun run => ⟨run.mask.layer, run.clipped.filterMap o.survivor?⟩).map
        (o.clip n.layer.origin)) := by
    rw [List.map_map, List.forall₂_map_right_iff, List.forall₂_same]
    exact fun run _ => clipsRun_clip n.layer.origin run
  refine ⟨_, before, runs, _, rfl, hcut, ?_, hclips, ?_, ?_⟩
  · refine ⟨changes.applyStyle n.layer.boxStyle, ?_⟩
    rw [finish_eq_decorate hwrap, Layer.unwrapped_decorate, containerWidget, if_pos hany,
      maskedWidget, hparts]
    simp only [map_relativeTo_survivors]
    rfl
  · -- Each clip holds the survivors of its run, and the runs are all that is no mask.
    rw [List.map_append, map_item_placed, hcut.filter_eq, List.filterMap_append, List.map_flatMap]
    congr 1
    rw [List.map_map, List.flatMap_map, List.filterMap_flatMap]
    refine List.flatMap_congr fun run _ => ?_
    obtain ⟨shape, hbox, -⟩ := (clipsRun_clip (o := o) n.layer.origin run).box
    rw [Function.comp_apply, hbox]
    exact map_item_placed _ _
  · -- A child without a widget has been lowered to nothing, and only a drop does that.
    intro c hc hcmask halone
    obtain ⟨d, -, -, hd⟩ := exists_mem_of_forall₂ hlowered hc
    rw [hcmask, if_neg Bool.false_ne_true] at hd
    rw [← alone?_of_lowerNode hwrap hd, halone] at hd
    exact lowerNode_eq_none_iff.mp hd

/-- A group with a box, two masks next to one another, and after the second one, which is round, a
faded box and a hidden one. -/
def maskedPair : Node :=
  let box id x y : Layer :=
    { id := id, name := id, kind := some .rectangle, x := x, y := y, width := 20, height := 20 }
  ⟨{ id := "g", name := "group", kind := some .group, x := 10, y := 20, width := 90, height := 90 },
    [⟨box "under" 10 20, []⟩,
      ⟨{ box "square" 15 25 with isMask := true }, []⟩,
      ⟨{ box "round" 30 40 with isMask := true, kind := some (.ellipse {}) }, []⟩,
      ⟨{ box "faded" 32 44 with opacity := 0.5 }, []⟩,
      ⟨{ box "hidden" 33 45 with visible := false }, []⟩]⟩

/-- The group with the two masks is parted at them. -/
theorem lower_maskedPair :
    ∃ w before runs clips, ({} : LoweringOptions).lower maskedPair = .ok w ∧
      ({} : LoweringOptions).PartsAtMasks maskedPair before runs clips w := by
  have htyped : ∀ n ∈ maskedPair.preorder, n.layer.kind.isSome = true := by
    simp [maskedPair, Node.preorder, Node.preorders]
  obtain ⟨r, hr⟩ := exists_lowerNode (o := {}) maskedPair 0 htyped
  have hflag : ({} : LoweringOptions).override? maskedPair = none := rfl
  have hholds : ({} : LoweringOptions).HoldsChildren maskedPair := by
    refine ⟨rfl, fun f hf => ?_, rfl, rfl, Or.inr (Or.inl rfl)⟩
    rw [hflag] at hf
    cases hf
  obtain ⟨w, before, runs, clips, rfl, hparts⟩ := lower_parts_at_masks rfl hholds rfl hr
  exact ⟨w, before, runs, clips, lower_eq_ok_iff.mpr hr, hparts⟩

end LoweringOptions

end DesignCompiler
