import DesignCompiler.Proofs.Lowering.Steps
import Mathlib.Data.List.Nodup
/-!
# Lowering keeps nodes, their order and their names

A lowered design shows widgets for some of its nodes. `preserves_nodes` says that they come in the
order of the design, each node at most once, under the name of their node, and that a node which
holds its children leaves out only those that are hidden or ignored.

The masks are where this could fail: `maskedWidget` takes the children apart and puts them together
under new containers. `map_contents_containerWidget` is the equation that settles it. What is shown
in a container is, whether there are masks or not, what the children show one after the other, with
a mask standing before what it clips. Everything about order is an induction over the design from
there.

What a parent shows is followed from the root down by `Reaches`, the nodes that lowering comes to.
-/

namespace DesignCompiler

/-! ### What a container shows -/

/-- The keys of the widgets that a tree shows. -/
def Widget.contentKeys (w : Widget) : List WidgetKey := w.contents.map (·.key)

/-- The keys of a chain are that of its last widget and those of the children of it. -/
theorem Widget.contentKeys_eq (w : Widget) :
    w.contentKeys =
      w.unwrapped.key :: w.unwrapped.layoutChildren.flatMap (·.item.contentKeys) := by
  unfold contentKeys
  rw [contents_eq, List.map_cons, List.map_flatMap]

namespace LoweringOptions

variable {o : LoweringOptions}

/-- The keys that a child shows in the container of its parent; a mask shows its own key there, and
what it clips comes after it. -/
def childKeys (o : LoweringOptions) (c : LoweredChild) : List WidgetKey :=
  if c.layer.isMask then [o.key c.layer] else c.widget.toList.flatMap (·.contentKeys)

section Readings

variable {α : Type} {read : Widget → α} {atMask : Layer → α}

/-- What is read of the widgets that a child shows in the container of its parent. A mask shows
itself there, and what it clips comes after it. -/
def childReadings (atMask : Layer → α) (read : Widget → α) (c : LoweredChild) : List α :=
  if c.layer.isMask then [atMask c.layer] else c.widget.toList.flatMap (·.contents.map read)

/-- A reading that knows the clip of a mask by the mask alone. -/
def ReadsMasks (o : LoweringOptions) (atMask : Layer → α) (read : Widget → α) : Prop :=
  ∀ mask style arrangement children,
    read (.box (o.key mask) style arrangement children) = atMask mask

/-- The clip of a mask shows the mask, then what it clips. -/
theorem map_contents_clip (hread : o.ReadsMasks atMask read) (origin : Float × Float)
    (run : MaskRun) :
    (o.clip origin run).item.contents.map read =
      atMask run.mask :: run.clipped.flatMap (·.widget.contents.map read) := by
  rw [Widget.contents_eq, List.map_cons, List.map_flatMap]
  simp only [clip, Layer.unwrapped_decorate, Widget.unwrapped, Widget.layoutChildren,
    List.flatMap_map, hread run.mask]
  rfl

/-- **Cutting at the masks loses nothing:** the parts show what the children show, in order. -/
theorem map_contents_partitionMasks (lowered : List LoweredChild) :
    (partitionMasks lowered).1.flatMap (·.widget.contents.map read) ++
        (partitionMasks lowered).2.flatMap (fun run =>
          atMask run.mask :: run.clipped.flatMap (·.widget.contents.map read)) =
      lowered.flatMap (childReadings atMask read) := by
  induction lowered with
  | nil => rfl
  | cons c rest ih =>
    rw [List.flatMap_cons, ← ih, childReadings, partitionMasks]
    -- A mask begins a run that clips what has been collected behind it; a child joins its run.
    by_cases hmask : c.layer.isMask = true
    · simp [hmask]
    · cases hw : c.widget <;> simp [hmask]

/-- **The children of a container,** with masks among them or without: those before the first mask,
then a clip for each mask. -/
theorem layoutChildren_containerWidget (l : Layer) (lowered : List LoweredChild) :
    (o.containerWidget l lowered).layoutChildren =
      (partitionMasks lowered).1.map (·.relativeTo l.origin) ++
        (partitionMasks lowered).2.map (o.clip l.origin) := by
  by_cases hmask : lowered.any (·.layer.isMask) = true
  · simp only [containerWidget, hmask, if_true]
    rfl
  · have hnone : ∀ c ∈ lowered, c.layer.isMask = false := by simpa using hmask
    -- Without masks all children are in front of the first one, and there are no clips.
    rw [partitionMasks_of_no_mask hnone, List.map_nil, List.append_nil]
    simp only [containerWidget, hmask, Bool.false_eq_true, if_false]
    split <;> rfl

/-- **What is shown in a container** is what its children show, one child after the other. -/
theorem map_contents_containerWidget (hread : o.ReadsMasks atMask read) (l : Layer)
    (lowered : List LoweredChild) :
    (o.containerWidget l lowered).layoutChildren.flatMap (·.item.contents.map read) =
      lowered.flatMap (childReadings atMask read) := by
  rw [layoutChildren_containerWidget, ← map_contents_partitionMasks, List.flatMap_append,
    List.flatMap_map, List.flatMap_map]
  simp only [map_contents_clip hread]
  rfl

end Readings

/-- **The keys shown in a container** are those of its children, one child after the other. -/
theorem keys_containerWidget (l : Layer) (lowered : List LoweredChild) :
    (o.containerWidget l lowered).layoutChildren.flatMap (·.item.contentKeys) =
      lowered.flatMap o.childKeys :=
  map_contents_containerWidget (fun _ _ _ _ => rfl) l lowered

/-- A container of a layer has its key, and is no wrapper. -/
theorem key_containerWidget (l : Layer) (lowered : List LoweredChild) :
    (o.containerWidget l lowered).key = o.key l ∧
      (o.containerWidget l lowered).isWrapper = false := by
  unfold containerWidget
  split
  · exact ⟨rfl, rfl⟩
  · simp only
    split <;> exact ⟨rfl, rfl⟩

/-! ### Order -/

/-- **A node with a widget has one of its own,** named after it, that is finished. -/
theorem exists_finish {depth : Nat} {n : Node} {w : Widget}
    (h : o.lowerNode depth n = .ok (some w)) :
    ∃ v, v.isWrapper = false ∧ o.Names n.layer v.key ∧ w = o.finish n depth v := by
  rcases lowerNode_eq_some_iff.mp h with ⟨v, hv, rfl⟩ | ⟨changes, lowered, -, -, rfl⟩
  · have hwhole := treatment_finished hv
    exact ⟨v, hwhole.isWrapper, hwhole.names, rfl⟩
  · -- What changes a container keeps its key.
    obtain ⟨hkey, hcontainer⟩ := key_containerWidget (o := o) n.layer lowered
    refine ⟨_, ?_, ?_, rfl⟩
    · rw [Changes.isWrapper_apply, hcontainer]
    · rw [Changes.key_apply]
      exact Or.inl hkey

/-- The widget of a node is named after it. -/
theorem names_lowerNode (hwrap : o.wrap = none) {depth : Nat} {n : Node} {w : Widget}
    (h : o.lowerNode depth n = .ok (some w)) : o.Names n.layer w.unwrapped.key := by
  obtain ⟨v, hv, hnames, rfl⟩ := exists_finish h
  rw [finish_eq_decorate hwrap, Layer.unwrapped_decorate, Widget.unwrapped_eq_self hv]
  exact hnames

/-- **What a lowered node shows** are widgets for some of the nodes beneath it, in the order of the
design and under their names. -/
theorem contentKeys_lowerNode (hwrap : o.wrap = none) (n : Node) :
    ∀ {depth : Nat} {w : Widget}, o.lowerNode depth n = .ok (some w) →
      List.SublistForall₂ (fun k m => o.Names m.layer k) w.contentKeys n.preorder := by
  induction n using Node.induction with
  | node layer children ih =>
    intro depth w h
    rw [Node.preorder_eq, Widget.contentKeys_eq]
    -- The node itself comes first, under its name; what is beneath it follows.
    refine .cons (names_lowerNode hwrap h) ?_
    rcases lowerNode_eq_some_iff.mp h with ⟨v, hv, rfl⟩ | ⟨changes, lowered, -, hlowered, rfl⟩
    · have hwhole := treatment_finished hv
      rw [finish_eq_decorate hwrap, Layer.unwrapped_decorate,
        Widget.unwrapped_eq_self hwhole.isWrapper, hwhole.layoutChildren]
      -- A widget had at once shows nothing beneath it, so the children are passed over.
      exact .nil
    · obtain ⟨-, hcontainer⟩ := key_containerWidget (o := o) layer lowered
      rw [finish_eq_decorate hwrap, Layer.unwrapped_decorate,
        Widget.unwrapped_eq_self (by rw [Changes.isWrapper_apply, hcontainer]),
        Changes.layoutChildren_apply, keys_containerWidget, Node.preorders_eq_flatMap]
      -- Child by child; each shows a part of what is beneath its own node.
      refine sublistForall₂_flatMap hlowered.flip ?_
      rintro c m hm ⟨hlayer, hc⟩
      unfold childKeys
      rw [hlayer]
      by_cases hmask : m.layer.isMask = true
      · -- A mask shows itself, and what is in it stays away.
        rw [if_pos hmask, Node.preorder_eq]
        exact .cons (Or.inl rfl) .nil
      · rw [if_neg hmask] at hc ⊢
        cases hw : c.widget with
        | none => exact .nil
        | some v =>
          rw [hw] at hc
          rw [Option.toList_some, List.flatMap_singleton]
          exact ih m hm hc

/-! ### Completeness -/

/-- **The nodes that lowering comes to:** the root, and what is neither a mask nor under one among
the children of a node that holds its children. -/
inductive Reaches (o : LoweringOptions) (root : Node) : Node → Prop
  | root : Reaches o root root
  | child {n c : Node} : Reaches o root n → o.HoldsChildren n → c ∈ n.children →
      c.layer.isMask = false → Reaches o root c

/-- The children that have a widget are all there after the cut, and so are the masks. -/
theorem mem_partitionMasks {lowered : List LoweredChild} {c : LoweredChild} (hc : c ∈ lowered) :
    if c.layer.isMask then ∃ run ∈ (partitionMasks lowered).2, run.mask = c.layer
    else ∀ w, c.widget = some w →
      Survivor.mk c.layer w ∈ (partitionMasks lowered).1 ∨
        ∃ run ∈ (partitionMasks lowered).2, Survivor.mk c.layer w ∈ run.clipped := by
  -- The first mask of a list ends the run that stands before it, so the induction asks where each
  -- child of the rest has gone.
  induction lowered with
  | nil => exact absurd hc List.not_mem_nil
  | cons d rest ih =>
    rw [partitionMasks]
    rcases List.mem_cons.mp hc with rfl | hc
    · by_cases hmask : c.layer.isMask = true
      · simp [hmask]
      · simp +contextual [hmask]
    · specialize ih hc
      by_cases hd : d.layer.isMask = true
      · -- What came before the first mask of the rest is now clipped by this one.
        by_cases hmask : c.layer.isMask = true
        · simp only [hmask, hd, if_true] at ih ⊢
          obtain ⟨run, hrun, hlayer⟩ := ih
          exact ⟨run, List.mem_cons_of_mem _ hrun, hlayer⟩
        · simp only [hmask, hd, if_true, if_false, Bool.false_eq_true] at ih ⊢
          intro w hw
          rcases ih w hw with hbefore | ⟨run, hrun, hclipped⟩
          · exact Or.inr ⟨_, List.mem_cons_self, hbefore⟩
          · exact Or.inr ⟨run, List.mem_cons_of_mem _ hrun, hclipped⟩
      · simp only [hd, if_false, Bool.false_eq_true]
        split at ih
        · next hmask =>
          rw [if_pos hmask]
          exact ih
        · next hmask =>
          rw [if_neg hmask]
          intro w hw
          exact (ih w hw).imp_left (List.mem_append_right _)

/-- What is in a clip is met on the walk of a container that has the clip. -/
theorem walk_clip_subset (l : Layer) {lowered : List LoweredChild} {run : MaskRun}
    (hrun : run ∈ (partitionMasks lowered).2) :
    (o.clip l.origin run).item.unwrapped.walk ⊆ (o.containerWidget l lowered).walk.tail := by
  have hclip : o.clip l.origin run ∈ (o.containerWidget l lowered).layoutChildren := by
    rw [layoutChildren_containerWidget]
    exact List.mem_append_right _ (List.mem_map_of_mem hrun)
  exact List.Subset.trans (Widget.walk_unwrapped_subset _) (Widget.walk_child_subset hclip)

/-- The widget of a child that is no mask is met on the walk of the container, whether it is one of
its children or one of those of a clip. -/
theorem walk_subset_containerWidget (l : Layer) {lowered : List LoweredChild} {c : LoweredChild}
    {w : Widget} (hc : c ∈ lowered) (hmask : c.layer.isMask = false) (hw : c.widget = some w) :
    w.walk ⊆ (o.containerWidget l lowered).walk.tail := by
  -- The child stands in front of all masks, or is clipped by one of them.
  have hcut := mem_partitionMasks hc
  rw [if_neg (by rw [hmask]; exact Bool.false_ne_true)] at hcut
  rcases hcut w hw with hbefore | ⟨run, hrun, hclipped⟩
  · have hchild : (Survivor.mk c.layer w).relativeTo l.origin ∈
        (o.containerWidget l lowered).layoutChildren := by
      rw [layoutChildren_containerWidget]
      exact List.mem_append_left _ (List.mem_map_of_mem hbefore)
    exact Widget.walk_child_subset hchild
  · have hinside : (Survivor.mk c.layer w).relativeTo (run.mask.x, run.mask.y) ∈
        (o.clip l.origin run).item.unwrapped.layoutChildren := by
      simp only [clip, Layer.unwrapped_decorate, Widget.unwrapped, Widget.layoutChildren]
      exact List.mem_map_of_mem hclipped
    calc w.walk ⊆ (o.clip l.origin run).item.unwrapped.walk.tail := Widget.walk_child_subset hinside
      _ ⊆ (o.clip l.origin run).item.unwrapped.walk := (List.tail_sublist _).subset
      _ ⊆ (o.containerWidget l lowered).walk.tail := walk_clip_subset l hrun

/-- A node that holds its children has a widget, if it is lowered at all. -/
theorem HoldsChildren.exists_widget {depth : Nat} {n : Node} {r : Option Widget}
    (hholds : o.HoldsChildren n) (h : o.lowerNode depth n = .ok r) : ∃ w, r = some w := by
  obtain ⟨_, htreat⟩ := treatment_eq_container_iff.mpr hholds
  cases r with
  | some w => exact ⟨w, rfl⟩
  | none =>
    rw [lowerNode_eq_none_iff, htreat] at h
    cases h

/-- **The widget of a node that holds its children:** a box under the effects of its layer, in which
each child of the node that has a widget is met, and each mask. -/
theorem lowerNode_container (hwrap : o.wrap = none) {depth : Nat} {n : Node} {w : Widget}
    (hholds : o.HoldsChildren n) (h : o.lowerNode depth n = .ok (some w)) :
    w.unwrapped.key = o.key n.layer ∧
      ∀ c ∈ n.children,
        if c.layer.isMask then
          ∃ u ∈ w.unwrapped.walk.tail, u.isWrapper = false ∧ u.key = o.key c.layer
        else ∃ r, o.lowerNode (depth + 1) c = .ok r ∧
          ∀ v, r = some v → v.walk ⊆ w.unwrapped.walk.tail := by
  obtain ⟨_, htreat⟩ := treatment_eq_container_iff.mpr hholds
  rcases lowerNode_eq_some_iff.mp h with ⟨v, hv, -⟩ | ⟨changes, lowered, -, hlowered, rfl⟩
  · rw [htreat] at hv
    cases hv
  · obtain ⟨hkey, hcontainer⟩ := key_containerWidget (o := o) n.layer lowered
    rw [finish_eq_decorate hwrap, Layer.unwrapped_decorate,
      Widget.unwrapped_eq_self (by rw [Changes.isWrapper_apply, hcontainer])]
    refine ⟨by rw [Changes.key_apply, hkey], ?_⟩
    intro c hc
    -- The child is lowered somewhere in the list, and the cut at the masks keeps it.
    obtain ⟨lowered_c, hmem, hlayer, hc⟩ := exists_mem_of_forall₂ hlowered hc
    rw [Changes.tail_walk_apply]
    by_cases hmask : c.layer.isMask = true
    · rw [if_pos hmask]
      have hcut := mem_partitionMasks hmem
      rw [hlayer, if_pos hmask] at hcut
      obtain ⟨run, hrun, hrunmask⟩ := hcut
      refine ⟨(o.clip n.layer.origin run).item.unwrapped,
        walk_clip_subset _ hrun (Widget.mem_walk_self _), Widget.isWrapper_unwrapped _, ?_⟩
      rw [clip, Layer.unwrapped_decorate, ← hrunmask]
      rfl
    · rw [if_neg hmask] at hc ⊢
      refine ⟨lowered_c.widget, hc, fun v hv => ?_⟩
      exact walk_subset_containerWidget n.layer hmem (by rw [hlayer]; simpa using hmask) hv

/-- What lowering comes to is lowered, and is met on the walk of the whole. -/
theorem Reaches.lowered (hwrap : o.wrap = none) {root n : Node} {w : Widget}
    (hreach : o.Reaches root n) (h : o.lower root = .ok w) :
    ∃ depth r, o.lowerNode depth n = .ok r ∧ ∀ v, r = some v → v.walk ⊆ w.walk := by
  induction hreach with
  | root =>
    refine ⟨0, some w, lower_eq_ok_iff.mp h, ?_⟩
    rintro v ⟨⟩
    exact List.Subset.refl _
  | @child n c _ hholds hc hmask ih =>
    -- The parent has a widget in the whole, and the child has its own in that of the parent.
    obtain ⟨depth, r, hr, hwalk⟩ := ih
    obtain ⟨v, rfl⟩ := hholds.exists_widget hr
    obtain ⟨-, hchildren⟩ := lowerNode_container hwrap hholds hr
    have hchild := hchildren c hc
    rw [if_neg (by rw [hmask]; exact Bool.false_ne_true)] at hchild
    obtain ⟨r', hr', hwalk'⟩ := hchild
    refine ⟨depth + 1, r', hr', fun u hu => ?_⟩
    calc u.walk ⊆ v.unwrapped.walk.tail := hwalk' u hu
      _ ⊆ v.unwrapped.walk := (List.tail_sublist _).subset
      _ ⊆ v.walk := Widget.walk_unwrapped_subset v
      _ ⊆ w.walk := hwalk v rfl

/-! ### The law -/

/-- What a widget tree keeps of the design that it is lowered from. -/
structure Preserves (o : LoweringOptions) (root : Node) (w : Widget) : Prop where
  /-- The ids of the widgets shown are a subsequence of those of the design. -/
  order : (w.contents.map (·.id)).Sublist (root.preorder.map (·.layer.id))
  /-- The widget beneath the outermost wrappers is that of the root. -/
  top : w.unwrapped.id = root.layer.id
  /-- A widget has the name of its node, marked only where the tag of the node has no handling, and
  the component of the node unless components are left out. -/
  names : ∀ v ∈ w.contents, ∀ n ∈ root.preorder, n.layer.id = v.id →
    (v.key.originName = n.layer.name ∨
      (∃ tag, n.layer.kind = some (.unrecognized tag)) ∧
        v.key.originName = n.layer.name ++ " " ++ Layer.unhandledMarker) ∧
    v.key.component = if o.skipComponents then none else n.layer.component
  /-- The widget of a node that holds its children has in it one for each mask among them, and one
  for each other child that is shown and not ignored. -/
  children : ∀ n, o.Reaches root n → o.HoldsChildren n →
    ∃ v ∈ w.contents, v.id = n.layer.id ∧ ∀ c ∈ n.children,
      (c.layer.isMask = true ∨ c.layer.visible = true ∧
        ¬(o.readsFlags c = true ∧ c.layer.override? = .ok (some .ignore))) →
      ∃ u ∈ v.walk.tail, u.isWrapper = false ∧ u.id = c.layer.id

/-- **Lowering keeps nodes, their order and their names,** where the nodes of a design have ids of
their own and nothing else is put around their widgets. -/
theorem lower_preserves_nodes {root : Node} {w : Widget}
    (hids : (root.preorder.map (·.layer.id)).Nodup) (hwrap : o.wrap = none)
    (h : o.lower root = .ok w) : o.Preserves root w := by
  have hroot := lower_eq_ok_iff.mp h
  -- The widgets shown are named after a subsequence of the nodes.
  obtain ⟨shown, hshown, hsub⟩ :=
    List.sublistForall₂_iff.mp (contentKeys_lowerNode hwrap root hroot)
  have hshownIds : w.contents.map (·.id) = shown.map (·.layer.id) := by
    have hids := map_eq_map_of_forall₂ (f := WidgetKey.id) (g := fun n : Node => n.layer.id)
      (hshown.imp fun _ _ hk => hk.id)
    rw [← hids, Widget.contentKeys, List.map_map]
    rfl
  refine ⟨?_, (names_lowerNode hwrap hroot).id, ?_, ?_⟩
  · rw [hshownIds]
    exact hsub.map _
  · intro v hv n hn hid
    obtain ⟨m, hm, hnames⟩ := exists_mem_of_forall₂ hshown (List.mem_map_of_mem hv)
    -- Ids are distinct, so the node with the id of a widget is the one it is named after.
    have hnm : n = m :=
      List.inj_on_of_nodup_map hids hn (hsub.subset hm) (hid.trans hnames.id)
    subst hnm
    exact ⟨hnames.originName, hnames.component⟩
  · intro n hreach hholds
    obtain ⟨depth, r, hr, hwalk⟩ := hreach.lowered hwrap h
    obtain ⟨v, rfl⟩ := hholds.exists_widget hr
    obtain ⟨hkey, hchildren⟩ := lowerNode_container hwrap hholds hr
    have hmem : v.unwrapped ∈ w.contents := by
      rw [Widget.mem_contents]
      exact ⟨hwalk v rfl (Widget.walk_unwrapped_subset v (Widget.mem_walk_self _)),
        Widget.isWrapper_unwrapped v⟩
    refine ⟨v.unwrapped, hmem, congrArg WidgetKey.id hkey, fun c hc hkept => ?_⟩
    have hchild := hchildren c hc
    by_cases hmask : c.layer.isMask = true
    · rw [if_pos hmask] at hchild
      obtain ⟨u, hu, hwrapper, hukey⟩ := hchild
      exact ⟨u, hu, hwrapper, congrArg WidgetKey.id hukey⟩
    · rw [if_neg hmask] at hchild
      obtain ⟨r', hr', hinside⟩ := hchild
      obtain ⟨hvisible, hflag⟩ := hkept.resolve_left hmask
      cases r' with
      | none =>
        -- A child without a widget is hidden or ignored, and this one is neither.
        rcases treatment_dropped (lowerNode_eq_none_iff.mp hr') with hhidden | hignored
        · rw [hvisible] at hhidden
          cases hhidden
        · exact absurd hignored hflag
      | some u =>
        exact ⟨u.unwrapped, hinside u rfl (Widget.walk_unwrapped_subset u (Widget.mem_walk_self _)),
          Widget.isWrapper_unwrapped u, (names_lowerNode hwrap hr').id⟩

/-- A frame with a box, a mask, and after it a turned box, a hidden one and an ignored one. -/
def maskedFrame : Node :=
  let box id name : Layer :=
    { id := id, name := name, kind := some .rectangle, width := 20, height := 20 }
  ⟨{ id := "f", name := "frame", kind := some .frame, width := 90, height := 90 },
    [⟨box "under" "under", []⟩,
      ⟨{ box "mask" "mask" with isMask := true }, [⟨box "in" "in", []⟩]⟩,
      ⟨{ box "turned" "turned" with rotation := 30 }, []⟩,
      ⟨{ box "hidden" "hidden" with visible := false }, []⟩,
      ⟨box "out" "out --ignore", []⟩]⟩

/-- The masked frame is lowered, and keeps its nodes. -/
theorem lower_maskedFrame :
    ∃ w, ({} : LoweringOptions).lower maskedFrame = .ok w ∧
      ({} : LoweringOptions).Preserves maskedFrame w := by
  have htyped : ∀ n ∈ maskedFrame.preorder, n.layer.kind.isSome = true := by
    simp [maskedFrame, Node.preorder, Node.preorders]
  obtain ⟨w, hw⟩ := exists_lower_of_silent htyped rfl rfl
  exact ⟨w, hw, lower_preserves_nodes (by decide) rfl hw⟩

end LoweringOptions

end DesignCompiler
