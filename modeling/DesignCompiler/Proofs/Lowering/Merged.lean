import DesignCompiler.Proofs.Lowering.Effects
import DesignCompiler.Proofs.Style.Merge
/-!
# Effects in one style

On the web the wrappers around a widget have no elements of their own. Their effects, the look of the
widget and its place in the parent are written into one record, and a later write takes the place of
an earlier one. `Layer.MergesEffects` says that nothing is lost on the way:

* turning, fading and growing are each set by one wrapper and by nothing else;
* blurs of a kind are set by any number of wrappers, and are collected;
* the offset is written last, over the position that a box has for the sake of its children;
* filling the parent sets sizes, over those of the widget.

So sizes and the position are all that a widget can have written over. What remains is to see that a
chain has just the wrappers of one layer around it, which `exists_surrounds` says of every chain of a
lowered design.
-/

namespace DesignCompiler

/-! ### What the parts of a chain declare -/

namespace Declarations

/-- One declaration that depends on a condition. -/
theorem last?_ite {p : Prop} [Decidable p] {d : String × String} {k : String} :
    last? (if p then [d] else []) k = if k = d.1 then (if p then some d.2 else none) else none := by
  by_cases hp : p <;> simp [hp, last?_cons]

end Declarations

namespace Layer

/-- What the effects of a layer declare, blurs and filling the parent apart. -/
def effectDeclarations (l : Layer) : Declarations :=
  (if Float.round l.rotation != 0 then
    [("transform", "rotate(" ++ radians (rotationAngle l.rotation) ++ "rad)")] else []) ++
  (if l.opacity != 1 then [("opacity", cssNumber l.opacity)] else []) ++
  (if l.layout.grow > 0 then [("flex-grow", toString l.flexShare.toNat)] else [])

/-- What a layer declares for filling its parent. -/
def stretchDeclarations (l : Layer) (placement : Placement) : Declarations :=
  l.stretchAxis?.toList.flatMap (·.declarations placement)

/-- **What the wrappers of a layer declare.** -/
theorem declarations_wrappers (l : Layer) (placement : Placement) :
    l.wrappers.flatMap (·.declarations placement) =
      l.effectDeclarations ++ l.stretchDeclarations placement := by
  have hpart : ∀ (p : Prop) [Decidable p] (e : Wrapper),
      (if p then [e] else []).flatMap (·.declarations placement) =
        if p then e.declarations placement else [] := by
    intro p _ e
    split <;> simp
  have hblurs : (l.blurs.reverse.map Wrapper.blurred).flatMap (·.declarations placement) = [] := by
    rw [List.flatMap_map]
    exact List.flatMap_eq_nil_iff.mpr fun _ _ => rfl
  have hstretched :
      (l.stretchAxis?.toList.map Wrapper.stretched).flatMap (·.declarations placement) =
        l.stretchDeclarations placement := List.flatMap_map ..
  -- A blur declares nothing on its own: it is added to the filters when all wrappers are read.
  simp only [wrappers_eq, List.flatMap_append, hpart, hblurs, hstretched, List.nil_append]
  simp only [effectDeclarations, Wrapper.declarations, List.append_assoc]

/-- Filling the parent is about sizes, and about how a child lies across a line. -/
theorem last?_stretchDeclarations {l : Layer} {placement : Placement} {k : String}
    (hk : k ∉ ["align-self", "height", "width"]) :
    (l.stretchDeclarations placement).last? k = none := by
  refine Declarations.last?_eq_none fun hmem => hk ?_
  obtain ⟨d, hd, rfl⟩ := List.mem_map.mp hmem
  obtain ⟨axis, -, hd⟩ := List.mem_flatMap.mp hd
  revert hd
  cases axis with
  | cross => cases placement <;> simp +contextual [StretchAxis.declarations]
  | _ => simp +contextual [StretchAxis.declarations, or_imp]

/-- The other effects are about no sizes. -/
theorem last?_effectDeclarations {l : Layer} {k : String}
    (hk : k ∉ ["flex-grow", "opacity", "transform"]) : l.effectDeclarations.last? k = none := by
  obtain ⟨hflex, hopacity, htransform⟩ : k ≠ "flex-grow" ∧ k ≠ "opacity" ∧ k ≠ "transform" := by
    simpa using hk
  simp [effectDeclarations, Declarations.last?_ite, hflex, hopacity, htransform]

/-- The values of the blurs of a kind, the last one first. -/
def blurValues (l : Layer) (kind : BlurKind) : List String :=
  (l.blurs.reverse.filter (·.kind = kind)).map Blur.value

/-- The blurs of a kind among the wrappers are those of the layer, outermost first. -/
theorem filterMap_blurValue_wrappers (l : Layer) (kind : BlurKind) :
    l.wrappers.filterMap (·.blurValue? kind) = l.blurValues kind := by
  -- A blur has a value for its own kind, and nothing else has one.
  have hblur : ∀ e : Wrapper, e.blurValue? kind =
      e.blur?.bind fun blur => if blur.kind = kind then some blur.value else none := by
    intro e
    cases e <;> rfl
  have hkind : ∀ blurs : List Blur,
      blurs.filterMap (fun blur => if blur.kind = kind then some blur.value else none) =
        (blurs.filter (·.kind = kind)).map Blur.value := by
    intro blurs
    induction blurs with
    | nil => rfl
    | cons blur rest ih => by_cases h : blur.kind = kind <;> simp [h, ih]
  simp only [hblur]
  rw [← List.filterMap_filterMap, l.wrappedIn_wrappers.blurs, hkind]
  rfl

end Layer

/-! ### Merging -/

/-- **The style of a chain has all effects of a layer,** each with its value, and has no others. What
the widget declares itself is there too, with its own value unless it is a size or the position. -/
structure Layer.MergesEffects (l : Layer) (head : Widget) (placement : Placement) (css : Css) :
    Prop where
  opacity : css.get? "opacity" = if l.opacity != 1 then some (cssNumber l.opacity) else none
  flexGrow : css.get? "flex-grow" =
    if l.layout.grow > 0 then some (toString l.flexShare.toNat) else none
  transform : css.get? "transform" = if Float.round l.rotation != 0 then
    some ("rotate(" ++ radians (rotationAngle l.rotation) ++ "rad)") else none
  filter : css.get? "filter" = listValue? (l.blurValues .layer)
  backdropFilter : css.get? "backdrop-filter" = listValue? (l.blurValues .background)
  left : css.get? "left" = placement.offset?.map fun offset => px offset.1
  top : css.get? "top" = placement.offset?.map fun offset => px offset.2
  position : css.get? "position" = some "absolute" ↔ placement.offset?.isSome = true
  own : ∀ own, head.unwrapped.ownDeclarations? = some own →
    ∀ k v, (Css.setAll .empty own).get? k = some v → (css.get? k).isSome = true ∧
      (k ∉ ["width", "height", "position"] → css.get? k = some v)

section Merge

variable {l : Layer} {head : Widget} {placement : Placement} {css : Css}

/-- **The writes for a property,** the last one first: by the place, by filling the parent, by the
other effects, and by the widget. -/
theorem get?_css_of_wrappers (hwrappers : head.wrappers = l.wrappers)
    (hcss : head.css? placement = some css) {k : String} (hk : k ∉ blurProperties) :
    css.get? k = (placement.declarations.last? k).or
      (((l.stretchDeclarations placement).last? k).or ((l.effectDeclarations.last? k).or
        (Declarations.last? (head.unwrapped.ownDeclarations?.getD []) k))) := by
  rw [Widget.get?_css hk hcss, Widget.declared, hwrappers, l.declarations_wrappers]
  simp only [Declarations.last?_append, Option.or_assoc]

/-- The position is that of the place, or the one that the widget has for its children. -/
theorem position_eq_absolute_iff (hwrappers : head.wrappers = l.wrappers)
    (hcss : head.css? placement = some css) :
    css.get? "position" = some "absolute" ↔ placement.offset?.isSome = true := by
  rw [get?_css_of_wrappers hwrappers hcss (by decide), Placement.last?_declarations,
    Layer.last?_stretchDeclarations (by decide), Layer.last?_effectDeclarations (by decide)]
  cases placement.offset? with
  | some offset => simp
  | none =>
    -- No widget has itself placed by an offset.
    simp only [Option.map_none, Option.none_or, Option.isSome_none, Bool.false_eq_true, iff_false]
    intro habsolute
    rcases head.unwrapped.isOwn_ownDeclarations _ (Declarations.mem_of_last? habsolute) with h | h
    · exact absurd h (by decide)
    · exact absurd h (by decide)

/-- The look of a widget has none of the properties that effects and offsets are about. -/
theorem apart_of_mem_lookProperties : ∀ k ∈ lookProperties,
    k ∉ blurProperties ∧ k ≠ "align-self" ∧ k ∉ ["flex-grow", "opacity", "transform"] ∧
      k ∉ ["left", "position", "top"] := by
  decide

/-- What the widget declares itself is written over in its sizes and its position only. -/
theorem get?_css_own (hwrappers : head.wrappers = l.wrappers)
    (hcss : head.css? placement = some css) {own : Declarations}
    (hown : head.unwrapped.ownDeclarations? = some own) {k v : String}
    (hk : (Css.setAll .empty own).get? k = some v) :
    (css.get? k).isSome = true ∧ (k ∉ ["width", "height", "position"] → css.get? k = some v) := by
  rw [Css.get?_setAll, Record.get?_empty, Option.or_none] at hk
  have hvalue : k ∉ blurProperties → css.get? k = (placement.declarations.last? k).or
      (((l.stretchDeclarations placement).last? k).or
        ((l.effectDeclarations.last? k).or (some v))) := by
    intro hblur
    rw [get?_css_of_wrappers hwrappers hcss hblur, hown, Option.getD_some, hk]
  have hdeclared := head.unwrapped.isOwn_ownDeclarations (k, v)
  rw [hown, Option.getD_some] at hdeclared
  rcases hdeclared (Declarations.mem_of_last? hk) with hlook | hposition
  · obtain ⟨hblur, halign, heffects, hplace⟩ := apart_of_mem_lookProperties k hlook
    rw [hvalue hblur]
    refine ⟨by simp, fun hsize => ?_⟩
    -- It is no size, so nothing around the widget is about it.
    simp only [List.mem_cons, List.not_mem_nil, or_false, not_or] at hsize hplace
    rw [Placement.last?_declarations, if_neg hplace.2.2, if_neg hplace.1, if_neg hplace.2.1,
      Layer.last?_stretchDeclarations (by simp [halign, hsize]),
      Layer.last?_effectDeclarations heffects, Option.none_or, Option.none_or, Option.none_or]
  · obtain ⟨rfl, -⟩ := Prod.mk.inj hposition
    rw [hvalue (by decide)]
    exact ⟨by simp, fun h => absurd h (by decide)⟩

/-- **A chain around which there are the wrappers of a layer** has the effects of the layer. -/
theorem Layer.mergesEffects (hwrappers : head.wrappers = l.wrappers)
    (hcss : head.css? placement = some css) : l.MergesEffects head placement css := by
  -- Neither the widget nor filling the parent is about the effects and the offset.
  have hapart : ∀ k ∈ ["flex-grow", "left", "opacity", "top", "transform"],
      k ∉ blurProperties ∧ k ∉ lookProperties ∧ k ≠ "position" ∧
        k ∉ ["align-self", "height", "width"] := by decide
  have hset : ∀ k ∈ ["flex-grow", "left", "opacity", "top", "transform"],
      css.get? k = (placement.declarations.last? k).or (l.effectDeclarations.last? k) := by
    intro k hk
    obtain ⟨hblur, hlook, hposition, hstretch⟩ := hapart k hk
    rw [get?_css_of_wrappers hwrappers hcss hblur, last?_stretchDeclarations hstretch,
      Widget.last?_own_eq_none _ hlook hposition, Option.none_or, Option.or_none]
  have hblurs : ∀ kind : BlurKind, css.get? kind.property = listValue? (l.blurValues kind) := by
    intro kind
    rw [Widget.get?_css_blur hcss, hwrappers, l.filterMap_blurValue_wrappers]
  constructor
  case opacity =>
    rw [hset _ (by decide), Placement.last?_declarations]
    simp [effectDeclarations, Declarations.last?_ite]
  case flexGrow =>
    rw [hset _ (by decide), Placement.last?_declarations]
    simp [effectDeclarations, Declarations.last?_ite]
  case transform =>
    rw [hset _ (by decide), Placement.last?_declarations]
    simp [effectDeclarations, Declarations.last?_ite]
  case filter => exact hblurs .layer
  case backdropFilter => exact hblurs .background
  case left =>
    rw [hset _ (by decide), Placement.last?_declarations, last?_effectDeclarations (by decide)]
    simp
  case top =>
    rw [hset _ (by decide), Placement.last?_declarations, last?_effectDeclarations (by decide)]
    simp
  case position => exact position_eq_absolute_iff hwrappers hcss
  case own => exact fun own hown k v hk => get?_css_own hwrappers hcss hown hk

end Merge

/-! ### Lowered designs -/

namespace LoweringOptions

variable {o : LoweringOptions}

/-- **Merging loses no effect.** Wherever a lowered node is placed, its style has all effects of its
layer, and so it is for every chain beneath it and the node whose widget the chain ends in. -/
theorem lower_mergesEffects {root : Node} {w : Widget} (hwrap : o.wrap = none)
    (h : o.lower root = .ok w) :
    (∀ placement css, w.css? placement = some css →
      root.layer.MergesEffects w placement css) ∧
    ∀ c ∈ w.chains .root, ∃ n ∈ root.preorder, n.layer.id = c.id ∧
      ∀ placement css, c.head.css? placement = some css →
        n.layer.MergesEffects c.head placement css := by
  have hroot := lower_eq_ok_iff.mp h
  -- The chain of the root is the finished widget itself; any other is found around its node.
  refine ⟨fun placement css hcss => ?_, fun c hc => ?_⟩
  · obtain ⟨v, hv, hnames, rfl⟩ := exists_finish hroot
    rw [finish_eq_decorate hwrap] at hcss ⊢
    exact Layer.mergesEffects (Layer.surrounds_decorate hnames.id hv placement).2 hcss
  · obtain ⟨n, hn, hid, hwrappers⟩ := exists_surrounds hwrap hroot hc
    exact ⟨n, hn, hid.symm, fun placement css hcss => Layer.mergesEffects hwrappers hcss⟩

/-- A pane that is turned and faded, is blurred twice itself and once behind it, and grows. -/
def frostedPane : Node :=
  ⟨{ id := "p", name := "pane", kind := some .rectangle, width := 20, height := 20,
     rotation := 30, opacity := 0.5,
     effects := [.layerBlur 4, .backgroundBlur 8, .layerBlur 2], layout := { grow := 1 } }, []⟩

/-- The style of the pane has all of its effects. -/
theorem lower_frostedPane : ∃ w css, ({} : LoweringOptions).lower frostedPane = .ok w ∧
    w.css? (.absolute 3 4) = some css ∧
      frostedPane.layer.MergesEffects w (.absolute 3 4) css := by
  obtain ⟨w, hw⟩ : ∃ w, ({} : LoweringOptions).lower frostedPane = .ok w :=
    exists_lower_of_silent (by decide) rfl rfl
  -- An offset is a style, whatever the pane is lowered to.
  obtain ⟨css, hcss, -⟩ : ∃ css, w.css? (.absolute 3 4) = some css ∧ css.get? "left" = some (px 3) := by
    refine Widget.exists_css (by decide) ?_
    rw [Widget.declared, Declarations.last?_append, Declarations.last?_append,
      Placement.last?_declarations]
    simp [Placement.offset?]
  exact ⟨w, css, hw, hcss, (lower_mergesEffects rfl hw).1 _ css hcss⟩

end LoweringOptions

end DesignCompiler
