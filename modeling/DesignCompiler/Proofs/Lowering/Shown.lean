import DesignCompiler.Proofs.Lowering.Effects
import DesignCompiler.Proofs.Lowering.Failure
import DesignCompiler.Proofs.Lowering.Hidden
/-!
# Which nodes have a widget

Widgets of nodes are made at two places. `lowerNode` makes that of each node that lowering comes to,
and asks for the type of the node before it does anything else. The container of the children of a
node makes the clips of the masks among them, and does not ask what a mask is: it may be hidden, and
it may lack a type, which then counts as that of a rectangle.

`Shows` has a constructor for either place, and `id_mem_contents_iff` says that there is no third.
So if a design is lowered at all, its nodes without a type are nowhere among the widgets, but for
those that clip as masks (`lower_showsTyped_iff`). `not_showsTyped_untypedMask` is a design with
such a mask: it is lowered, and nothing tells that the type is missing.
-/

namespace DesignCompiler

/-- No widget has the id of a node without a type. -/
def ShowsTyped (root : Node) (w : Widget) : Prop :=
  ∀ n ∈ root.preorder, n.layer.kind = none → ∀ v ∈ w.contents, v.id ≠ n.layer.id

namespace LoweringOptions

variable {o : LoweringOptions}

/-- **The masks that clip** are those among the children of a node that lowering comes to, where the
node holds its children. -/
def Clips (o : LoweringOptions) (root m : Node) : Prop :=
  ∃ n, o.Reaches root n ∧ o.HoldsChildren n ∧ m ∈ n.children ∧ m.layer.isMask = true

/-- **How a node comes to have a widget:** lowering comes to it and does not drop it, or it is a
mask that clips. -/
inductive Shows (o : LoweringOptions) (root n : Node) : Prop
  | lowered (hreach : o.Reaches root n) (hkept : ¬o.Drops n)
  | clip (hclip : o.Clips root n)

/-- What is shown is in the design. -/
theorem Shows.mem_preorder {root n : Node} (h : o.Shows root n) : n ∈ root.preorder := by
  cases h with
  | lowered hreach => exact hreach.mem_preorder
  | clip hclip =>
    obtain ⟨p, hreach, -, hmem, -⟩ := hclip
    exact Node.mem_preorder_child hreach.mem_preorder hmem

/-- What a child shows is shown by its parent, if this one holds its children. -/
theorem Shows.of_child {root c n : Node} (hholds : o.HoldsChildren root) (hc : c ∈ root.children)
    (hmask : c.layer.isMask = false) (h : o.Shows c n) : o.Shows root n := by
  cases h with
  | lowered hreach hkept => exact .lowered (hreach.of_child hholds hc hmask) hkept
  | clip hclip =>
    obtain ⟨p, hreach, hclips⟩ := hclip
    exact .clip ⟨p, hreach.of_child hholds hc hmask, hclips⟩

/-! ### From widgets to nodes -/

/-- A node with a widget is not dropped. -/
theorem not_drops_of_lowerNode {depth : Nat} {n : Node} {w : Widget}
    (h : o.lowerNode depth n = .ok (some w)) : ¬o.Drops n := by
  intro hdrops
  rw [lowerNode_eq_none_iff.mpr (treatment_eq_dropped_iff.mpr hdrops)] at h
  cases h

/-- Every chain of a lowered node has the id of a node that has a widget. -/
theorem exists_shows (hwrap : o.wrap = none) (n : Node) :
    ∀ {depth : Nat} {w : Widget}, o.lowerNode depth n = .ok (some w) →
      ∀ {placement : Placement} {c : Chain}, c ∈ w.chains placement →
        ∃ m, o.Shows n m ∧ m.layer.id = c.id := by
  -- The induction goes down the containers that lowering goes into, and stops at the clip of a
  -- mask.
  induction n using Node.induction with
  | node layer children ih =>
    intro depth w h placement c hc
    rcases Widget.mem_chains hc with rfl | ⟨d, hd, place, hbeneath⟩
    · exact ⟨_, .lowered .root (not_drops_of_lowerNode h), (names_lowerNode hwrap h).id.symm⟩
    · -- Only a container has anything beneath it, and what is there comes from the children.
      rcases lowerNode_eq_some_iff.mp h with ⟨u, hu, rfl⟩ | ⟨changes, lowered, htreat, hlowered, rfl⟩
      · have hwhole := treatment_finished hu
        rw [finish_eq_decorate hwrap, Layer.unwrapped_decorate,
          Widget.unwrapped_eq_self hwhole.isWrapper, hwhole.layoutChildren] at hd
        exact absurd hd List.not_mem_nil
      · have hholds := treatment_eq_container_iff.mp ⟨changes, htreat⟩
        have hbox := (key_containerWidget (o := o) layer lowered).2
        rw [finish_eq_decorate hwrap, Layer.unwrapped_decorate,
          Widget.unwrapped_eq_self (by rw [Changes.isWrapper_apply, hbox]),
          Changes.layoutChildren_apply] at hd
        rcases mem_chains_container hlowered hd hbeneath with
          ⟨m, hm, hmask, hclip⟩ | ⟨m, hm, hmask, v, place, hnode, hc⟩
        · exact ⟨m, .clip ⟨_, .root, hholds, hm, hmask⟩, hclip.1.symm⟩
        · obtain ⟨k, hk, hid⟩ := ih m hm hnode hc
          exact ⟨k, hk.of_child hholds hm hmask, hid⟩

/-! ### From nodes to widgets -/

/-- **What is shown has a widget.** -/
theorem Shows.exists_content (hwrap : o.wrap = none) {root n : Node} {w : Widget}
    (h : o.lower root = .ok w) (hshows : o.Shows root n) :
    ∃ v ∈ w.contents, v.id = n.layer.id := by
  cases hshows with
  | lowered hreach hkept =>
    obtain ⟨depth, r, hr, hwalk⟩ := hreach.lowered hwrap h
    cases r with
    | none => exact absurd (treatment_eq_dropped_iff.mp (lowerNode_eq_none_iff.mp hr)) hkept
    | some v =>
      have hmem : v.unwrapped ∈ w.walk :=
        hwalk v rfl (Widget.walk_unwrapped_subset v (Widget.mem_walk_self _))
      exact ⟨v.unwrapped, Widget.mem_contents.mpr ⟨hmem, v.isWrapper_unwrapped⟩,
        (names_lowerNode hwrap hr).id⟩
  | clip hclip =>
    -- The clip is met on the walk of the container that the mask is in.
    obtain ⟨p, hreach, hholds, hmem, hmask⟩ := hclip
    obtain ⟨depth, r, hr, hwalk⟩ := hreach.lowered hwrap h
    obtain ⟨v, rfl⟩ := hholds.exists_widget hr
    have hchild := (lowerNode_container hwrap hholds hr).2 n hmem
    rw [if_pos hmask] at hchild
    obtain ⟨u, hu, hwrapper, hkey⟩ := hchild
    have hwhole : v.unwrapped.walk.tail ⊆ w.walk :=
      calc v.unwrapped.walk.tail ⊆ v.unwrapped.walk := (List.tail_sublist _).subset
        _ ⊆ v.walk := v.walk_unwrapped_subset
        _ ⊆ w.walk := hwalk v rfl
    exact ⟨u, Widget.mem_contents.mpr ⟨hwhole hu, hwrapper⟩, congrArg WidgetKey.id hkey⟩

/-- **The nodes with a widget,** where the nodes of a design have ids of their own. -/
theorem id_mem_contents_iff {root n : Node} {w : Widget}
    (hids : (root.preorder.map (·.layer.id)).Nodup) (hwrap : o.wrap = none)
    (h : o.lower root = .ok w) (hn : n ∈ root.preorder) :
    (∃ v ∈ w.contents, v.id = n.layer.id) ↔ o.Shows root n := by
  constructor
  · rintro ⟨v, hv, hid⟩
    obtain ⟨c, hc, rfl⟩ := Widget.exists_chain hv .root
    obtain ⟨m, hm, hmid⟩ := exists_shows hwrap root (lower_eq_ok_iff.mp h) hc
    -- Ids are distinct, so the node that the chain comes from is the one asked about.
    obtain rfl : m = n := List.inj_on_of_nodup_map hids hm.mem_preorder hn (hmid.trans hid)
    exact hm
  · exact Shows.exists_content hwrap h

/-! ### Nodes without a type -/

/-- Where a design is lowered, lowering has come to no node without a type but to drop it. -/
theorem Reaches.drops_of_untyped (hwrap : o.wrap = none) {root n : Node} {w : Widget}
    (h : o.lower root = .ok w) (hreach : o.Reaches root n) (huntyped : n.layer.kind = none) :
    o.Drops n := by
  obtain ⟨depth, r, hr, -⟩ := hreach.lowered hwrap h
  by_contra hkept
  have hvisible : n.layer.visible = true := by
    by_contra hhidden
    exact hkept (Or.inl (by simpa using hhidden))
  -- The missing type would have been a fault right here.
  obtain ⟨layer, children⟩ := n
  rw [lowerNode, treatment_eq_untyped_iff.mpr ⟨hvisible, huntyped⟩] at hr
  cases hr

/-- A node without a type can only be shown as a mask that clips. -/
theorem Shows.clips_of_untyped (hwrap : o.wrap = none) {root n : Node} {w : Widget}
    (h : o.lower root = .ok w) (hshows : o.Shows root n) (huntyped : n.layer.kind = none) :
    o.Clips root n := by
  cases hshows with
  | lowered hreach hkept => exact absurd (hreach.drops_of_untyped hwrap h huntyped) hkept
  | clip hclip => exact hclip

/-- **A node without a type has a widget exactly if it is a mask that clips,** so there is no such
widget exactly if every mask that clips has a type. -/
theorem lower_showsTyped_iff {root : Node} {w : Widget}
    (hids : (root.preorder.map (·.layer.id)).Nodup) (hwrap : o.wrap = none)
    (h : o.lower root = .ok w) :
    (∀ n ∈ root.preorder, n.layer.kind = none →
      ((∃ v ∈ w.contents, v.id = n.layer.id) ↔ o.Clips root n)) ∧
    (ShowsTyped root w ↔ ∀ m, o.Clips root m → m.layer.kind.isSome = true) := by
  have huntyped : ∀ n ∈ root.preorder, n.layer.kind = none →
      ((∃ v ∈ w.contents, v.id = n.layer.id) ↔ o.Clips root n) := by
    intro n hn hkind
    rw [id_mem_contents_iff hids hwrap h hn]
    exact ⟨fun hshows => hshows.clips_of_untyped hwrap h hkind, .clip⟩
  -- An untyped mask that clips has a widget, and any other untyped node has none.
  refine ⟨huntyped, fun htyped m hclip => ?_, fun hmasks n hn hkind v hv hid => ?_⟩
  · by_contra hkind
    have hnone : m.layer.kind = none := by simpa using hkind
    obtain ⟨v, hv, hid⟩ := Shows.exists_content hwrap h (.clip hclip)
    exact htyped m (Shows.clip hclip).mem_preorder hnone v hv hid
  · have htyped := hmasks n ((huntyped n hn hkind).mp ⟨v, hv, hid⟩)
    rw [hkind] at htyped
    cases htyped

/-- A frame with a mask that has no type, a box behind it, and two more nodes without a type: one is
hidden, and one is in the box. -/
def untypedMask : Node :=
  let layer id kind : Layer := { id := id, name := id, kind := kind, width := 20, height := 20 }
  ⟨layer "frame" (some .frame),
    [⟨{ layer "mask" none with isMask := true }, []⟩,
      ⟨layer "box" (some .rectangle), [⟨layer "beneath" none, []⟩]⟩,
      ⟨{ layer "hidden" none with visible := false }, []⟩]⟩

/-- The frame with the untyped mask is lowered, with a widget for the mask. -/
theorem exists_lower_untypedMask : ∃ w, ({} : LoweringOptions).lower untypedMask = .ok w ∧
    w.contents.map (·.id) = ["frame", "mask", "box"] := by
  have hids : (({} : LoweringOptions).lower untypedMask).toOption.map (·.contents.map (·.id)) =
      some ["frame", "mask", "box"] := by decide +kernel
  cases hlower : ({} : LoweringOptions).lower untypedMask with
  | error e => simp [hlower, Except.toOption] at hids
  | ok w => exact ⟨w, rfl, by simpa [hlower, Except.toOption] using hids⟩

/-- The law at this frame, whose mask makes both sides false. -/
theorem lower_showsTyped_untypedMask : ∃ w, ({} : LoweringOptions).lower untypedMask = .ok w ∧
    (∀ n ∈ untypedMask.preorder, n.layer.kind = none →
      ((∃ v ∈ w.contents, v.id = n.layer.id) ↔ ({} : LoweringOptions).Clips untypedMask n)) ∧
    (ShowsTyped untypedMask w ↔
      ∀ m, ({} : LoweringOptions).Clips untypedMask m → m.layer.kind.isSome = true) := by
  obtain ⟨w, hw, -⟩ := exists_lower_untypedMask
  exact ⟨w, hw, lower_showsTyped_iff (by decide) rfl hw⟩

/-- **A mask without a type is lowered like any other,** and has a widget. -/
theorem not_showsTyped_untypedMask : (untypedMask.preorder.map (·.layer.id)).Nodup ∧
    ∃ w, ({} : LoweringOptions).lower untypedMask = .ok w ∧ ¬ShowsTyped untypedMask w := by
  obtain ⟨w, hw, hshown⟩ := exists_lower_untypedMask
  refine ⟨by decide, w, hw, fun htyped => ?_⟩
  obtain ⟨n, hn, hkind, hid⟩ : ∃ n ∈ untypedMask.preorder,
      n.layer.kind = none ∧ n.layer.id = "mask" :=
    ⟨_, Node.mem_preorder_of_child List.mem_cons_self (Node.mem_preorder_self _), rfl, rfl⟩
  obtain ⟨v, hv, hmask⟩ : ∃ v ∈ w.contents, v.id = "mask" :=
    List.mem_map.mp (hshown ▸ by decide)
  exact htyped n hn hkind v hv (hmask.trans hid.symm)

end LoweringOptions

end DesignCompiler
