import DesignCompiler.Proofs.Lowering.Effects
/-!
# What is put around the widgets of a depth

`LoweringOptions.wrap` is handed the finished widget of a node with the depth of the node, and one
would expect to meet it around every widget of a design. The case looked at here is `sizedAt`, which
puts a box of the size of its node around every widget of one depth.

Depth is counted alike in both walks, that of the children and that of the children with masks among
them, so no widget of another depth is wrapped. But the clip of a mask is made by the node that
holds the mask: it has the effects of the mask, and `wrap` is never asked about it. Of the two
constructors of `StandsFor` one goes through `finish`, and the other does not.

`lower_sizesDepth_iff` puts the two together. A widget is sized exactly when its node is at the
depth and is no mask beneath the root, so all of the depth is sized exactly when no mask of the
depth has a widget. `lower_clip_not_sized` is a design with such a mask.
-/

namespace DesignCompiler

/-- Puts a box of the size of the node around every widget of a depth. -/
def sizedAt (depth : Nat) (w : Widget) (n : Node) (level : Nat) : Widget :=
  if level = depth then
    w.wrapped (w.key.derived "sized") (.sizedBox n.layer.width n.layer.height)
  else w

/-- **A widget sized by a layer:** the outermost wrapper is a box of the size of the layer, named
after what is in it, and the effects of the layer come next. -/
def Layer.Sizes (l : Layer) (w : Widget) : Prop :=
  ∃ inner : Widget, w = inner.wrapped (inner.key.derived "sized") (.sizedBox l.width l.height) ∧
    inner.wrappers = l.wrappers

/-- No wrapper of a chain gives it a size. -/
def Widget.Unsized (w : Widget) : Prop :=
  ∀ width height, Wrapper.sizedBox width height ∉ w.wrappers

namespace Layer

variable {l : Layer} {w : Widget}

/-- A size is no effect. -/
theorem unsized_of_wrappers (h : w.wrappers = l.wrappers) : w.Unsized := by
  intro width height hmem
  rw [h] at hmem
  have hrank := l.wrappedIn_wrappers.onlyEffects _ hmem
  simp [Wrapper.rank] at hrank

/-- A sized widget is not one without a size. -/
theorem Sizes.not_unsized (h : l.Sizes w) : ¬w.Unsized := by
  obtain ⟨inner, rfl, -⟩ := h
  intro hunsized
  exact hunsized _ _ List.mem_cons_self

end Layer

/-- **The sized widgets of a design** are those of the nodes which `sized` holds of, where a node is
given with the way down to it. Each chain of the widget tree has its node. -/
structure SizesJust (root : Node) (w : Widget) (sized : List (Node × Node) → Node → Prop) :
    Prop where
  exists_node : ∀ c ∈ w.chains .root, ∃ steps n, root.Path steps n ∧ n.layer.id = c.id
  sizes : ∀ c ∈ w.chains .root, ∀ {steps n}, root.Path steps n → n.layer.id = c.id →
    sized steps n → n.layer.Sizes c.head
  unsized : ∀ c ∈ w.chains .root, ∀ {steps n}, root.Path steps n → n.layer.id = c.id →
    ¬sized steps n → c.head.Unsized

/-- All nodes of a depth, which is the number of steps to them. -/
def AtDepth (depth : Nat) (steps : List (Node × Node)) (_ : Node) : Prop := steps.length = depth

/-- The nodes of a depth that are lowered for themselves: the root, and what is no mask. -/
def LoweredAtDepth (depth : Nat) (steps : List (Node × Node)) (n : Node) : Prop :=
  steps.length = depth ∧ (steps = [] ∨ n.layer.isMask = false)

/-- No mask beneath the root that is at a depth has a widget. -/
def NoClipAtDepth (depth : Nat) (root : Node) (w : Widget) : Prop :=
  ∀ v ∈ w.contents, ∀ steps m, root.Path steps m → m.layer.id = v.id → steps.length = depth →
    steps ≠ [] → m.layer.isMask = false

namespace LoweringOptions

variable {o : LoweringOptions} {depth : Nat}

/-! ### One chain -/

theorem finish_sizedAt (hwrap : o.wrap = some (sizedAt depth)) (n : Node) (level : Nat)
    (w : Widget) : o.finish n level w = sizedAt depth (n.layer.decorate w) n level := by
  simp [finish, hwrap]

/-- A provider of sizes only wraps. -/
theorem onlyWraps_sizedAt (hwrap : o.wrap = some (sizedAt depth)) : o.OnlyWraps := by
  intro n level w
  rw [finish_sizedAt hwrap, sizedAt]
  split <;> simp

/-- **What a chain has around it** goes by how it comes to stand for its node: a finished widget of
the depth is sized, and neither another one nor a clip is. -/
theorem StandsFor.sizes (hwrap : o.wrap = some (sizedAt depth)) {c : Chain}
    {steps : List (Node × Node)} {m : Node} (h : o.StandsFor 0 c steps m) :
    (LoweredAtDepth depth steps m → m.layer.Sizes c.head) ∧
      (¬LoweredAtDepth depth steps m → c.head.Unsized) := by
  cases h with
  | @finished v hv hid hmask hhead =>
    -- The widget was no wrapper, so the effects are all that has been put around it before.
    have heffects : (m.layer.decorate v).wrappers = m.layer.wrappers :=
      (Layer.surrounds_decorate hid hv .root).2
    rw [finish_sizedAt hwrap, Nat.zero_add, sizedAt] at hhead
    constructor
    · rintro ⟨hdepth, -⟩
      rw [if_pos hdepth] at hhead
      exact ⟨_, hhead, heffects⟩
    · intro hother
      have hdepth : ¬steps.length = depth := fun hdepth => hother ⟨hdepth, hmask⟩
      rw [if_neg hdepth] at hhead
      exact Layer.unsized_of_wrappers (hhead ▸ heffects)
  | clip hsteps hmask hclip =>
    constructor
    · rintro ⟨-, hroot | hnone⟩
      · exact absurd hroot hsteps
      · exact absurd (hmask.symm.trans hnone) Bool.noConfusion
    · intro _
      exact Layer.unsized_of_wrappers hclip.2

/-! ### The law -/

/-- **What is sized are the nodes of the depth that are lowered for themselves.** -/
theorem sizesJust_lowered {root : Node} {w : Widget}
    (hids : (root.preorder.map (·.layer.id)).Nodup) (hwrap : o.wrap = some (sizedAt depth))
    (h : o.lower root = .ok w) : SizesJust root w (LoweredAtDepth depth) := by
  have hroot := lower_eq_ok_iff.mp h
  have honly := onlyWraps_sizedAt hwrap
  -- A chain stands for one node, and ids are distinct, so it is the node with the id of the chain.
  have hstands : ∀ c ∈ w.chains .root, ∀ {steps n}, root.Path steps n → n.layer.id = c.id →
      o.StandsFor 0 c steps n := by
    intro c hc steps n hpath hid
    obtain ⟨steps', m, hpath', hc⟩ := exists_standsFor honly root hroot hc
    have hsame : n.layer.id = m.layer.id := hid.trans (hc.id honly)
    obtain rfl : n = m :=
      List.inj_on_of_nodup_map hids hpath.mem_preorder hpath'.mem_preorder hsame
    rw [hpath.unique hids hpath' rfl]
    exact hc
  refine ⟨fun c hc => ?_, fun c hc _ _ hpath hid hsized => ?_, fun c hc _ _ hpath hid hsized => ?_⟩
  · obtain ⟨steps, m, hpath, hc⟩ := exists_standsFor honly root hroot hc
    exact ⟨steps, m, hpath, (hc.id honly).symm⟩
  · exact ((hstands c hc hpath hid).sizes hwrap).1 hsized
  · exact ((hstands c hc hpath hid).sizes hwrap).2 hsized

/-- **All widgets of a depth are sized, and no others,** exactly when no mask of the depth has a
widget. -/
theorem lower_sizesDepth_iff {root : Node} {w : Widget}
    (hids : (root.preorder.map (·.layer.id)).Nodup) (hwrap : o.wrap = some (sizedAt depth))
    (h : o.lower root = .ok w) :
    SizesJust root w (LoweredAtDepth depth) ∧
      (SizesJust root w (AtDepth depth) ↔ NoClipAtDepth depth root w) := by
  have hjust := sizesJust_lowered hids hwrap h
  refine ⟨hjust, fun hall => ?_, fun hclip => ?_⟩
  · intro v hv steps m hpath hid hdepth hsteps
    -- A mask with a widget would be sized, being of the depth, and unsized, being a mask.
    obtain ⟨c, hc, rfl⟩ := List.mem_map.mp ((Widget.map_widget_chains w .root).symm ▸ hv)
    by_contra hmask
    have hsized := hall.sizes c hc hpath hid hdepth
    have hunsized := hjust.unsized c hc hpath hid fun hlowered =>
      hlowered.2.elim hsteps hmask
    exact hsized.not_unsized hunsized
  · -- Without masks of the depth, all nodes of the depth with widgets are lowered for themselves.
    have hiff : ∀ c ∈ w.chains .root, ∀ {steps n}, root.Path steps n → n.layer.id = c.id →
        (AtDepth depth steps n ↔ LoweredAtDepth depth steps n) := by
      intro c hc steps n hpath hid
      have hv : c.widget ∈ w.contents :=
        Widget.map_widget_chains w .root ▸ List.mem_map_of_mem hc
      constructor
      · intro hdepth
        by_cases hsteps : steps = []
        · exact ⟨hdepth, Or.inl hsteps⟩
        · exact ⟨hdepth, Or.inr (hclip _ hv steps n hpath hid hdepth hsteps)⟩
      · exact fun hlowered => hlowered.1
    refine ⟨hjust.exists_node, fun c hc _ _ hpath hid hsized => ?_,
      fun c hc _ _ hpath hid hsized => ?_⟩
    · exact hjust.sizes c hc hpath hid ((hiff c hc hpath hid).mp hsized)
    · exact hjust.unsized c hc hpath hid (mt (hiff c hc hpath hid).mpr hsized)

/-! ### A mask of the depth -/

/-- The options that size the widgets at the depth of the mask in the masked group. -/
def sizingMasks : LoweringOptions := { wrap := some (sizedAt 2) }

/-- The masked group is lowered, with a widget for each of its nodes. -/
theorem exists_lower_sizingMasks : ∃ w, sizingMasks.lower maskedGroup = .ok w ∧
    w.contents.map (·.id) = ["f", "g", "mask", "in"] := by
  have hids : (sizingMasks.lower maskedGroup).toOption.map (·.contents.map (·.id)) =
      some ["f", "g", "mask", "in"] := by decide +kernel
  cases hlower : sizingMasks.lower maskedGroup with
  | error e => simp [hlower, Except.toOption] at hids
  | ok w => exact ⟨w, rfl, by simpa [hlower, Except.toOption] using hids⟩

/-- The law at the masked group, in which a clip is at the depth. -/
theorem lower_sizesDepth_maskedGroup : ∃ w, sizingMasks.lower maskedGroup = .ok w ∧
    SizesJust maskedGroup w (LoweredAtDepth 2) ∧
      (SizesJust maskedGroup w (AtDepth 2) ↔ NoClipAtDepth 2 maskedGroup w) := by
  obtain ⟨w, hw, -⟩ := exists_lower_sizingMasks
  exact ⟨w, hw, lower_sizesDepth_iff (by decide) rfl hw⟩

/-- **The clip of a mask is not sized,** though the mask is at the depth and has a widget. -/
theorem lower_clip_not_sized : (maskedGroup.preorder.map (·.layer.id)).Nodup ∧
    ∃ w, sizingMasks.lower maskedGroup = .ok w ∧ ¬SizesJust maskedGroup w (AtDepth 2) := by
  have hids : (maskedGroup.preorder.map (·.layer.id)).Nodup := by decide
  obtain ⟨w, hw, hshown⟩ := exists_lower_sizingMasks
  refine ⟨hids, w, hw, fun hall => ?_⟩
  -- The mask is two steps down, and the third of the widgets shown is its clip.
  obtain ⟨steps, m, hpath, hmask, hid, hdepth⟩ : ∃ steps m, maskedGroup.Path steps m ∧
      m.layer.isMask = true ∧ m.layer.id = "mask" ∧ steps.length = 2 :=
    ⟨_, _, .child List.mem_cons_self (.child List.mem_cons_self (.here _)), rfl, rfl, rfl⟩
  obtain ⟨c, hc, hclip⟩ : ∃ c ∈ w.chains .root, c.id = "mask" := by
    rw [← w.map_id_chains .root] at hshown
    exact List.mem_map.mp (hshown ▸ by decide)
  have hsized := hall.sizes c hc hpath (hid.trans hclip.symm) hdepth
  have hunsized := (sizesJust_lowered hids rfl hw).unsized c hc hpath (hid.trans hclip.symm) <| by
    rintro ⟨-, hroot | hnone⟩
    · rw [hroot] at hdepth
      cases hdepth
    · cases hmask.symm.trans hnone
  exact hsized.not_unsized hunsized

end LoweringOptions

end DesignCompiler
