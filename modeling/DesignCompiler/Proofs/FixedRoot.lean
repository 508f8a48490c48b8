import DesignCompiler.Pipeline
import DesignCompiler.Proofs.Lowering.Merged
/-!
# The size of a fixed root

A root that is kept at its size has a box of this size outermost, above the effects of its layer.
On the web all of them are one element, and what stands further in is written over what stands
further out. So it is not the box that has the last word on the size: a root that is pinned to both
edges of its parent fills it all the same (`css_of_fixRootSize`). In every other case the style pins
the size, whatever other effects the layer has.
-/

namespace DesignCompiler

/-- A style of the size of a layer that cuts off what lies outside. -/
structure Css.Pins (css : Css) (l : Layer) : Prop where
  width : css.get? "width" = some (px l.width)
  height : css.get? "height" = some (px l.height)
  overflow : css.get? "overflow" = some "hidden"

namespace Layer

/-- Whether a layer is as wide as its parent, being pinned to both sides. A layer that fills the
line it is in does so instead. -/
def fillsWidth (l : Layer) : Bool := l.layout.align != .stretch && l.layout.horizontal == .stretch

/-- Whether a layer is as high as its parent. -/
def fillsHeight (l : Layer) : Bool := l.layout.align != .stretch && l.layout.vertical == .stretch

variable {k : String} (l : Layer)

/-- Of all the effects of a layer, only filling the parent can be about sizes. -/
theorem last?_wrappers (hk : k ∉ ["flex-grow", "opacity", "transform"]) (placement : Placement) :
    Declarations.last? (l.wrappers.flatMap (·.declarations placement)) k =
      (l.stretchDeclarations placement).last? k := by
  rw [declarations_wrappers, Declarations.last?_append, last?_effectDeclarations hk, Option.or_none]

/-- What the effects of a layer at the top set for its size. -/
theorem last?_wrappers_size :
    Declarations.last? (l.wrappers.flatMap (·.declarations .root)) "width" =
        (if l.fillsWidth then some "100%" else none) ∧
      Declarations.last? (l.wrappers.flatMap (·.declarations .root)) "height" =
        if l.fillsHeight then some "100%" else none := by
  rw [last?_wrappers l (by decide), last?_wrappers l (by decide)]
  unfold stretchDeclarations stretchAxis? fillsWidth fillsHeight
  by_cases halign : l.layout.align = .stretch
  · simp [halign, StretchAxis.declarations]
  · cases l.layout.horizontal == .stretch <;> cases l.layout.vertical == .stretch <;>
      simp [halign, StretchAxis.declarations, Declarations.last?_cons]

/-- No effect has anything to do with what lies outside. -/
theorem last?_wrappers_overflow :
    Declarations.last? (l.wrappers.flatMap (·.declarations .root)) "overflow" = none := by
  rw [last?_wrappers l (by decide), last?_stretchDeclarations (by decide)]

end Layer

/-- A size in pixels is not a share. -/
theorem px_ne_full (x : Float) : px x ≠ "100%" := by
  intro h
  have hlast : (px x).toList.getLast? = some 'x' := by
    rw [px, String.toList_append]
    exact List.getLast?_append_of_ne_nil _ (by decide)
  rw [h] at hlast
  exact absurd hlast (by decide)

/-! ### The root of a run -/

section Root

variable {build : BuildOptions} {root : Node} {w : Widget}

/-- Around a root that is kept at its size stand the box of this size and the cut, then the effects
of its layer. -/
theorem wrappers_of_fixRootSize (hfix : build.fixRootSize = true)
    (hlower : build.lowering.lower root = .ok w) :
    w.wrappers =
      .sizedBox root.layer.width root.layer.height :: .overflowBox :: root.layer.wrappers := by
  obtain ⟨v, hv, hnames, rfl⟩ :=
    LoweringOptions.exists_finish (LoweringOptions.lower_eq_ok_iff.mp hlower)
  have hfinish : build.lowering.finish root 0 v = fixSize (root.layer.decorate v) root := by
    simp [LoweringOptions.finish, BuildOptions.lowering, hfix, fixRoot]
  rw [hfinish]
  exact congrArg _ (congrArg _ (Layer.surrounds_decorate hnames.id hv .root).2)

/-- The style of a root that is kept at its size. -/
theorem exists_css_of_fixRootSize (hfix : build.fixRootSize = true)
    (hlower : build.lowering.lower root = .ok w) :
    ∃ css, w.css? .root = some css ∧
      css.get? "width" =
        some (if root.layer.fillsWidth then "100%" else px root.layer.width) ∧
      css.get? "height" =
        some (if root.layer.fillsHeight then "100%" else px root.layer.height) ∧
      css.get? "overflow" = some "hidden" := by
  -- What the effects leave open is as the box and the cut above them say.
  have hlast : ∀ k, (w.declared .root).last? k =
      ((Declarations.last? (root.layer.wrappers.flatMap (·.declarations .root)) k).or
        (Declarations.last? [("width", px root.layer.width), ("height", px root.layer.height),
          ("overflow", "hidden")] k)).or
        (Declarations.last? (w.unwrapped.ownDeclarations?.getD []) k) := by
    intro k
    rw [Widget.declared, wrappers_of_fixRootSize hfix hlower, Declarations.last?_append,
      List.flatMap_cons, List.flatMap_cons, ← List.append_assoc, Placement.declarations,
      List.append_nil, Declarations.last?_append]
    rfl
  have hwidth : (w.declared .root).last? "width" =
      some (if root.layer.fillsWidth then "100%" else px root.layer.width) := by
    rw [hlast, root.layer.last?_wrappers_size.1]
    split <;> simp [Declarations.last?_cons]
  have hheight : (w.declared .root).last? "height" =
      some (if root.layer.fillsHeight then "100%" else px root.layer.height) := by
    rw [hlast, root.layer.last?_wrappers_size.2]
    split <;> simp [Declarations.last?_cons]
  have hoverflow : (w.declared .root).last? "overflow" = some "hidden" := by
    rw [hlast, Layer.last?_wrappers_overflow]
    simp [Declarations.last?_cons]
  obtain ⟨css, hcss, hvalue⟩ := Widget.exists_css (by decide) hwidth
  exact ⟨css, hcss, hvalue, (Widget.get?_css (by decide) hcss).trans hheight,
    (Widget.get?_css (by decide) hcss).trans hoverflow⟩

/-- **A root that is kept at its size** has a style that cuts off what lies outside. It is as wide
as the layer, unless that fills the width of its parent, and as high, unless that fills the height;
so its size is pinned just where the layer does neither. -/
theorem css_of_fixRootSize (hfix : build.fixRootSize = true)
    (hlower : build.lowering.lower root = .ok w) :
    ∃ css, w.css? .root = some css ∧
      css.get? "width" =
        some (if root.layer.fillsWidth then "100%" else px root.layer.width) ∧
      css.get? "height" =
        some (if root.layer.fillsHeight then "100%" else px root.layer.height) ∧
      css.get? "overflow" = some "hidden" ∧
      (css.Pins root.layer ↔ root.layer.fillsWidth = false ∧ root.layer.fillsHeight = false) := by
  obtain ⟨css, hcss, hwidth, hheight, hoverflow⟩ := exists_css_of_fixRootSize hfix hlower
  -- No number of pixels is written as the full width, so a root that fills its parent is not
  -- pinned.
  refine ⟨css, hcss, hwidth, hheight, hoverflow, fun hpins => ⟨?_, ?_⟩, fun ⟨hx, hy⟩ => ?_⟩
  · by_contra hfills
    rw [hpins.width, if_pos (by simpa using hfills)] at hwidth
    exact px_ne_full _ (Option.some.inj hwidth)
  · by_contra hfills
    rw [hpins.height, if_pos (by simpa using hfills)] at hheight
    exact px_ne_full _ (Option.some.inj hheight)
  · rw [hx, if_neg Bool.false_ne_true] at hwidth
    rw [hy, if_neg Bool.false_ne_true] at hheight
    exact ⟨hwidth, hheight, hoverflow⟩

end Root

/-- A card with some effects and a layout of its own. -/
def laidOutCard (layout : NodeLayout) : Node :=
  ⟨{ id := "1:1", name := "Card", kind := some .frame, width := 320, height := 200, opacity := 0.5,
     rotation := 90, layout := layout }, []⟩

/-- The card is lowered with its size fixed, whatever its layout. -/
theorem exists_lower_laidOutCard (layout : NodeLayout) : ∃ w,
    ({ fixRootSize := true } : BuildOptions).lowering.lower (laidOutCard layout) = .ok w := by
  -- Flags are in the name, whatever the layout is.
  have hname : (laidOutCard layout).layer.override? = (laidOutCard {}).layer.override? := rfl
  refine LoweringOptions.exists_lower_of_silent (fun n hn => ?_) rfl (hname.trans rfl)
  rw [Node.preorder_eq] at hn
  obtain rfl : n = laidOutCard layout := List.mem_singleton.mp hn
  rfl

/-- Its size is pinned where it only stretches across the line that it is in. -/
theorem css_laidOutCard_cross : ∃ w css,
    ({ fixRootSize := true } : BuildOptions).lowering.lower
      (laidOutCard { align := .stretch, horizontal := .stretch }) = .ok w ∧
    w.css? .root = some css ∧
      css.Pins (laidOutCard { align := .stretch, horizontal := .stretch }).layer := by
  obtain ⟨w, hw⟩ := exists_lower_laidOutCard { align := .stretch, horizontal := .stretch }
  obtain ⟨css, hcss, -, -, -, hpins⟩ := css_of_fixRootSize rfl hw
  exact ⟨w, css, hw, hcss, hpins.mpr ⟨rfl, rfl⟩⟩

/-- **A root that is pinned to both sides is not of its size,** fixed or not. -/
theorem css_laidOutCard_horizontal : ∃ w css,
    ({ fixRootSize := true } : BuildOptions).lowering.lower
      (laidOutCard { horizontal := .stretch }) = .ok w ∧
    w.css? .root = some css ∧ css.get? "width" = some "100%" ∧
      ¬css.Pins (laidOutCard { horizontal := .stretch }).layer := by
  obtain ⟨w, hw⟩ := exists_lower_laidOutCard { horizontal := .stretch }
  obtain ⟨css, hcss, hwidth, -, -⟩ := exists_css_of_fixRootSize rfl hw
  have hfull : css.get? "width" = some "100%" := hwidth
  refine ⟨w, css, hw, hcss, hfull, fun hpins => ?_⟩
  rw [hpins.width] at hfull
  exact px_ne_full _ (Option.some.inj hfull)

end DesignCompiler
