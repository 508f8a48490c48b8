import DesignCompiler.Proofs.Lowering.Effects
import DesignCompiler.Proofs.Style.Merge
/-!
# What is recorded of a look, and what is written of it

Lowering decides by the type of a node which parts of its look are recorded in the style of its
widget, and the computed style decides by the kind of the widget which parts are written. Nothing
ties the two together: a part that is recorded for a kind that never writes it is lost.

`Widget.RecordsLook` says what lowering records for each kind (`recordsLook_contents`), and
`Style.KeptIn` what it means that a part is written. The two meet in `Widget.writes_ownDeclarations`,
kind by kind, and wrappers and placements only write over what is there (`Widget.writes_css`).
Shadows are kept apart, since they are what is lost: those of a text are recorded and never written
(`lower_keeps_styles`, `lower_shadow_lost`).
-/

namespace DesignCompiler

/-! ### What is written -/

/-- **What it means that the parts of a style are written,** shadows apart. A gradient around a
diamond has no such form. -/
structure Style.KeptIn (s : Style) (written : String → Prop) : Prop where
  width : s.width.isSome = true → written "width"
  height : s.height.isSome = true → written "height"
  minWidth : s.minWidth.isSome = true → written "min-width"
  maxWidth : s.maxWidth.isSome = true → written "max-width"
  background : ∀ b, s.background = some b → (∀ stops, b ≠ .gradient (.diamond stops)) →
    written "background-color" ∨ written "background" ∨ written "background-image"
  border : s.border.isSome = true → written "border"
  borderRadius : s.borderRadius.isSome = true → written "border-radius"
  padding : s.padding.isSome = true → written "padding"

/-- A shadow of a box or of a text is written. -/
def ShowsShadow (written : String → Prop) : Prop := written "box-shadow" ∨ written "text-shadow"

/-- A record of declarations has a property. -/
def Css.Has (css : Css) (property : String) : Prop := (css.get? property).isSome = true

/-- A property is among some declarations. -/
def Declarations.Has (ds : Declarations) (property : String) : Prop := property ∈ ds.map Prod.fst

namespace Declarations

variable {ds es : Declarations} {k : String}

@[simp] theorem not_has_nil : ¬Has [] k := List.not_mem_nil

@[simp] theorem has_cons {d : String × String} : Has (d :: ds) k ↔ k = d.1 ∨ Has ds k :=
  List.mem_cons

@[simp] theorem has_append : Has (ds ++ es) k ↔ Has ds k ∨ Has es k := by
  rw [Has, List.map_append]
  exact List.mem_append

/-- A value is declared under its property, if there is one. -/
@[simp] theorem has_declare {α : Type} {property : String} {write : α → String}
    {value : Option α} :
    Has (declare? property write value) k ↔ value.isSome = true ∧ k = property := by
  cases value <;> simp [declare?]

/-- A property has a last value exactly if it is declared. -/
theorem isSome_last? : (last? ds k).isSome = true ↔ ds.Has k := by
  induction ds with
  | nil => simp
  | cons d rest ih =>
    rw [last?_cons, Option.isSome_or, Bool.or_eq_true, ih, has_cons, or_comm]
    refine or_congr ?_ Iff.rfl
    split <;> simp [*]

/-- What does not declare a property leaves it as it is. -/
theorem last?_append_of_not_has (h : ¬es.Has k) : last? (ds ++ es) k = last? ds k := by
  rw [last?_append, last?_eq_none h, Option.none_or]

end Declarations

/-- **A computed style has what is declared for its chain,** blurs apart. -/
theorem Widget.has_css_iff {head : Widget} {placement : Placement} {css : Css} {k : String}
    (hk : k ∉ blurProperties) (h : head.css? placement = some css) :
    css.Has k ↔ (head.declared placement).Has k := by
  rw [Css.Has, get?_css hk h, Declarations.isSome_last?]

namespace Style

variable {s : Style} {written written' : String → Prop}

/-- A style that is kept stays kept where more is written. -/
theorem KeptIn.mono (h : s.KeptIn written) (hw : ∀ k, written k → written' k) :
    s.KeptIn written' where
  width hs := hw _ (h.width hs)
  height hs := hw _ (h.height hs)
  minWidth hs := hw _ (h.minWidth hs)
  maxWidth hs := hw _ (h.maxWidth hs)
  background b hb hd := (h.background b hb hd).imp (hw _) (Or.imp (hw _) (hw _))
  border hs := hw _ (h.border hs)
  borderRadius hs := hw _ (h.borderRadius hs)
  padding hs := hw _ (h.padding hs)

/-- A style without the look of a box. -/
structure IsBare (s : Style) : Prop where
  background : s.background = none
  border : s.border = none
  padding : s.padding = none

/-- What is recorded of a bare style are sizes, and corners in some cases. -/
theorem IsBare.keptIn (hbare : s.IsBare) (hsizes : ∀ k, s.sizeDeclarations.Has k → written k)
    (hradius : s.borderRadius.isSome = true → written "border-radius") : s.KeptIn written where
  width hs := hsizes _ (by simp [sizeDeclarations, hs])
  height hs := hsizes _ (by simp [sizeDeclarations, hs])
  minWidth hs := hsizes _ (by simp [sizeDeclarations, hs])
  maxWidth hs := hsizes _ (by simp [sizeDeclarations, hs])
  -- What a bare style does not have need not be kept.
  background b hb := by
    rw [hbare.background] at hb
    cases hb
  border hs := by
    rw [hbare.border] at hs
    cases hs
  borderRadius := hradius
  padding hs := by
    rw [hbare.padding] at hs
    cases hs

/-- **A box writes all parts of its style,** shadows too. -/
theorem keptIn_boxDeclarations (s : Style) : s.KeptIn s.boxDeclarations.Has where
  width hs := by simp [boxDeclarations, sizeDeclarations, hs]
  height hs := by simp [boxDeclarations, sizeDeclarations, hs]
  minWidth hs := by simp [boxDeclarations, sizeDeclarations, hs]
  maxWidth hs := by simp [boxDeclarations, sizeDeclarations, hs]
  background b hb hdiamond := by
    -- A background is declared under one of three properties, unless it is a gradient without a
    -- form.
    have hdeclared : Declarations.Has b.declarations "background-color" ∨
        Declarations.Has b.declarations "background" ∨
        Declarations.Has b.declarations "background-image" := by
      rcases b with c | g | ref
      · simp [Background.declarations]
      · -- Each other gradient has a form.
        cases g with
        | diamond stops => exact absurd rfl (hdiamond stops)
        | _ => simp [Background.declarations, gradientValue?]
      · simp [Background.declarations]
    have hbox : ∀ k, Declarations.Has b.declarations k → s.boxDeclarations.Has k := by
      intro k hk
      simp [boxDeclarations, hb, hk]
    exact hdeclared.imp (hbox _) (Or.imp (hbox _) (hbox _))
  border hs := by simp [boxDeclarations, hs]
  borderRadius hs := by simp [boxDeclarations, hs]
  padding hs := by
    obtain ⟨insets, hpadding⟩ := Option.isSome_iff_exists.mp hs
    simp [boxDeclarations, hpadding]

end Style

/-! ### What is recorded -/

/-- **What is recorded of the look of a widget,** by its kind: only boxes have one in full, and a
group has none. -/
def Widget.RecordsLook : Widget → Prop
  | .leaf _ s (.text _) => s.IsBare ∧ s.borderRadius = none
  | .leaf _ s (.image _) => s.IsBare
  | .leaf _ s (.icon _) | .box _ s .group _ => s.IsBare ∧ s.borderRadius = none ∧ s.shadows = []
  | _ => True

/-- A widget that is shown by paths, which have their look in attributes. -/
def Widget.IsDrawn (w : Widget) : Prop := w.kindName = "Vector" ∨ w.kindName = "BooleanOperation"

/-- **What a widget writes of what it records:** everything but the shadows of a text. -/
structure Widget.Writes (w : Widget) (written : String → Prop) : Prop where
  keptIn : w.style.KeptIn written
  shadows : w.style.shadows ≠ [] → (ShowsShadow written ↔ w.kindName ≠ "Text")

/-- **What is recorded is written** by every widget that is not drawn, but for the shadows of a
text. -/
theorem Widget.writes_ownDeclarations {w : Widget} (hwrapper : w.isWrapper = false)
    (hdrawn : ¬w.IsDrawn) (h : w.RecordsLook) :
    ∃ own, w.ownDeclarations? = some own ∧ w.Writes own.Has := by
  -- A box declares its shadows like the rest of its look, whatever it declares besides.
  have hbox : ∀ {key s arrangement children} {ds : Declarations},
      (Widget.box key s arrangement children).kindName ≠ "Text" →
      (∀ k, s.boxDeclarations.Has k → ds.Has k) →
      (Widget.box key s arrangement children).Writes ds.Has := by
    intro key s arrangement children ds hkind hds
    refine ⟨s.keptIn_boxDeclarations.mono hds, fun hshadows => iff_of_true (Or.inl ?_) hkind⟩
    have hshadows : s.shadows ≠ [] := hshadows
    exact hds _ (by simp [Style.boxDeclarations, Style.shadowDeclarations, hshadows])
  cases w with
  | wrap => cases hwrapper
  | leaf key s content =>
    cases content with
    | vector => exact absurd (Or.inl rfl) hdrawn
    | boolean => exact absurd (Or.inr rfl) hdrawn
    | text content =>
      obtain ⟨hbare, hradius⟩ := h
      refine ⟨_, rfl, hbare.keptIn (fun k hk => by simp [hk]) (by simp [hradius]), fun _ => ?_⟩
      -- Neither property is among the sizes, and the typography has none of them.
      simp [ShowsShadow, kindName, Style.sizeDeclarations, TextStyle.declarations]
    | image content =>
      have h : s.IsBare := h
      refine ⟨_, rfl, h.keptIn (fun k hk => by simp [hk]) (fun hs => by simp [hs]), fun hshadows => ?_⟩
      have hshadows : s.shadows ≠ [] := hshadows
      refine iff_of_true (Or.inl ?_) (by simp [kindName])
      simp [Style.shadowDeclarations, hshadows]
    | icon content =>
      obtain ⟨hbare, hradius, hnone⟩ := h
      exact ⟨_, rfl, hbare.keptIn (fun k hk => hk) (by simp [hradius]),
        fun hshadows => absurd hnone hshadows⟩
  | box key s arrangement children =>
    cases arrangement with
    | container shape clip =>
      exact ⟨_, rfl, hbox (by simp [kindName]) fun k hk => by simp [Arrangement.declarations, hk]⟩
    | stack isRoot =>
      exact ⟨_, rfl, hbox (by simp [kindName]) fun k hk => by simp [Arrangement.declarations, hk]⟩
    | flex line isRoot =>
      exact ⟨_, rfl, hbox (by simp [kindName]) fun k hk => by simp [Arrangement.declarations, hk]⟩
    | group =>
      obtain ⟨hbare, hradius, hnone⟩ := h
      exact ⟨_, rfl, hbare.keptIn (fun k hk => by simp [Arrangement.declarations, hk])
        (by simp [hradius]), fun hshadows => absurd hnone hshadows⟩

/-- **The computed style of a chain** has what the widget at its end writes, and the shadow of one
only if that is written by the widget. -/
theorem Widget.writes_css {head : Widget} (placement : Placement)
    (hdrawn : ¬head.unwrapped.IsDrawn) (h : head.unwrapped.RecordsLook) :
    ∃ css, head.css? placement = some css ∧ head.unwrapped.Writes css.Has := by
  obtain ⟨own, hown, hwrites⟩ := writes_ownDeclarations (isWrapper_unwrapped head) hdrawn h
  obtain ⟨css, hcss⟩ := exists_css_of_own hown placement
  have hown_has : ∀ k, own.Has k → k ∉ blurProperties := by
    intro k hk
    obtain ⟨d, hd, rfl⟩ := List.mem_map.mp hk
    have hisOwn := isOwn_ownDeclarations head.unwrapped
    rw [hown, Option.getD_some] at hisOwn
    rcases hisOwn d hd with hlook | rfl
    · exact (by decide : ∀ k ∈ lookProperties, k ∉ blurProperties) _ hlook
    · decide
  -- Around the widget nothing is said about shadows, nor by the place that it has, so whether one is
  -- shown depends on the widget alone.
  have hshadow : ∀ k, k ∉ blurProperties → k ∉ wrapperProperties → k ∉ ["position", "left", "top"] →
      (css.Has k ↔ own.Has k) := by
    intro k hblur hwrapper hplace
    have haround : ¬Declarations.Has (head.wrappers.flatMap (·.declarations placement)) k := by
      intro hk
      obtain ⟨d, hd, rfl⟩ := List.mem_map.mp hk
      exact hwrapper (mem_wrapperProperties hd)
    have hat : ¬Declarations.Has placement.declarations k := by
      cases placement with
      | absolute x y => simpa [Placement.declarations] using hplace
      | _ => simp [Placement.declarations]
    rw [has_css_iff hblur hcss, declared, hown]
    simp [haround, hat]
  refine ⟨css, hcss, hwrites.keptIn.mono fun k hk => ?_, fun hs => ?_⟩
  · rw [has_css_iff (hown_has k hk) hcss, declared, hown]
    simp [hk]
  · rw [← hwrites.shadows hs, ShowsShadow, ShowsShadow]
    exact or_congr (hshadow _ (by decide) (by decide) (by decide))
      (hshadow _ (by decide) (by decide) (by decide))

namespace Changes

/-- A change of a widget is none of its recorded look. -/
theorem recordsLook_apply {w : Widget} (h : w.RecordsLook) (c : Changes) :
    (c.apply w).RecordsLook := by
  have hbare : ∀ {s : Style}, s.IsBare → (c.applyStyle s).IsBare := fun hs =>
    ⟨hs.background, hs.border, hs.padding⟩
  -- Changes go to the width bounds and the tag, which are no part of what has to be bare.
  cases w with
  | leaf key s content =>
    cases content with
    | text => exact ⟨hbare h.1, h.2⟩
    | image => exact hbare h
    | icon => exact ⟨hbare h.1, h.2⟩
    | vector => trivial
    | boolean => trivial
  | box key s arrangement children =>
    cases arrangement with
    | group => exact ⟨hbare h.1, h.2⟩
    | _ => trivial
  | wrap => trivial

end Changes

namespace LoweringOptions

variable {o : LoweringOptions}

/-! ### What lowering records -/

/-- An image has no background, no border and no padding. -/
theorem recordsLook_imageWidget (l : Layer) (found : ImageMatch) (key : WidgetKey) :
    (l.imageWidget found key).RecordsLook := by
  unfold Layer.imageWidget
  simp only
  split <;> exact ⟨rfl, rfl, rfl⟩

/-- Nor has a picture. -/
theorem recordsLook_picture (l : Layer) (key : WidgetKey) : (l.picture key).RecordsLook :=
  ⟨rfl, rfl, rfl⟩

theorem recordsLook_iconWidget (l : Layer) (found : IconMatch) (key : WidgetKey) :
    (l.iconWidget found key).RecordsLook :=
  ⟨⟨rfl, rfl, rfl⟩, rfl, rfl⟩

/-- **A widget had at once** records of its look what its kind does. -/
theorem recordsLook_finished {n : Node} {w : Widget} (h : o.treatment n = .finished w) :
    w.RecordsLook := by
  cases finishes h with
  | artwork => exact recordsLook_picture ..
  | flagged => exact recordsLook_iconWidget ..
  | image _ changes => exact Changes.recordsLook_apply (recordsLook_imageWidget ..) changes
  | icon _ changes => exact Changes.recordsLook_apply (recordsLook_iconWidget ..) changes
  | typed _ _ hmade changes =>
    refine Changes.recordsLook_apply ?_ changes
    cases hmade with
    | text => exact ⟨⟨rfl, rfl, rfl⟩, rfl⟩
    | rectangle => trivial
    | ellipse arc =>
      -- An arc is a picture; a whole ellipse is a box.
      unfold Layer.ellipseWidget
      split
      · trivial
      · exact recordsLook_picture ..
    | line => trivial
    | vector => trivial
    | boolean => trivial
    | unrecognized => exact recordsLook_picture ..

/-- The container of a layer is a box, and a group only if nothing is recorded of its look. -/
theorem recordsLook_container (l : Layer) (lowered : List LoweredChild) :
    (o.containerWidget l lowered).RecordsLook := by
  unfold containerWidget
  split
  · trivial
  · simp only
    split
    · exact ⟨⟨rfl, rfl, rfl⟩, rfl, rfl⟩
    · -- A frame is arranged by its layout, and none of these arrangements is a group.
      have hgroup : l.arrangement ≠ .group := by
        unfold Layer.arrangement
        split <;> exact nofun
      unfold Layer.frameWidget
      cases harrangement : l.arrangement with
      | group => exact absurd harrangement hgroup
      | _ => trivial

/-- **What is shown in the container of a node:** the clips of masks, and what is shown by the
widgets of children that are no masks. -/
theorem mem_contents_container {depth : Nat} {n : Node} {lowered : List LoweredChild}
    (hlowered : List.Forall₂ (o.LowersTo depth) n.children lowered) {v : Widget}
    (hv : v ∈ (o.containerWidget n.layer lowered).layoutChildren.flatMap (·.item.contents)) :
    (∃ key style shape children, v = .box key style (.container shape true) children) ∨
      ∃ m ∈ n.children, ∃ w, o.lowerNode depth m = .ok (some w) ∧ v ∈ w.contents := by
  obtain ⟨hbefore, hruns⟩ := partitionMasks_sound lowered
  obtain ⟨d, hd, hv⟩ := List.mem_flatMap.mp hv
  rw [layoutChildren_containerWidget, List.mem_append, List.mem_map, List.mem_map] at hd
  rcases hd with ⟨s, hs, rfl⟩ | ⟨run, hrun, rfl⟩
  · obtain ⟨m, hm, -, hnode⟩ := (hbefore s hs).exists_child hlowered
    exact Or.inr ⟨m, hm, s.widget, hnode, hv⟩
  · obtain ⟨-, hclipped⟩ := hruns run hrun
    -- Beneath its effects, a mask is a box that holds what it clips.
    rw [Widget.contents_eq] at hv
    simp only [clip, Layer.unwrapped_decorate, Widget.unwrapped, Widget.layoutChildren] at hv
    rcases List.mem_cons.mp hv with rfl | hv
    · exact Or.inl ⟨_, _, _, _, rfl⟩
    · rw [List.flatMap_map] at hv
      obtain ⟨s, hs, hv⟩ := List.mem_flatMap.mp hv
      obtain ⟨m, hm, -, hnode⟩ := (hclipped s hs).exists_child hlowered
      exact Or.inr ⟨m, hm, s.widget, hnode, hv⟩

/-- **Whatever a lowered node shows** records of its look what its kind does. -/
theorem recordsLook_contents (hwrap : o.wrap = none) (n : Node) :
    ∀ {depth : Nat} {w : Widget}, o.lowerNode depth n = .ok (some w) →
      ∀ v ∈ w.contents, v.RecordsLook := by
  induction n using Node.induction with
  | node layer children ih =>
    intro depth w h v hv
    rcases lowerNode_eq_some_iff.mp h with ⟨u, hu, rfl⟩ | ⟨changes, lowered, -, hlowered, rfl⟩
    · have hwhole := treatment_finished hu
      rw [finish_eq_decorate hwrap, Widget.contents_decorate, Widget.contents_eq,
        Widget.unwrapped_eq_self hwhole.isWrapper, hwhole.layoutChildren] at hv
      -- A widget had at once shows nothing but itself.
      obtain rfl := List.mem_singleton.mp hv
      exact recordsLook_finished hu
    · obtain ⟨-, hcontainer⟩ := key_containerWidget (o := o) layer lowered
      rw [finish_eq_decorate hwrap, Widget.contents_decorate, Widget.contents_eq,
        Widget.unwrapped_eq_self (by rw [Changes.isWrapper_apply, hcontainer]),
        Changes.layoutChildren_apply] at hv
      rcases List.mem_cons.mp hv with rfl | hv
      · exact Changes.recordsLook_apply (recordsLook_container layer lowered) changes
      · rcases mem_contents_container hlowered hv with ⟨_, _, _, _, rfl⟩ | ⟨m, hm, u, hnode, hv⟩
        · trivial
        · exact ih m hm hnode v hv

/-! ### The law -/

/-- **What it means that computed styles keep what a widget tree records.** Each widget that is no
wrapper ends one chain. Unless it is drawn, the chain has a style, wherever it stands, and the style
has all parts that the widget records, but for the shadows of a text. -/
structure KeepsStyles (w : Widget) : Prop where
  chains : (w.chains .root).map (·.widget) = w.contents
  styles : ∀ c ∈ w.chains .root, ¬c.widget.IsDrawn → ∀ placement,
    ∃ css, c.head.css? placement = some css ∧ c.widget.Writes css.Has

/-- **Computed styles keep what is recorded,** shadows of texts apart, where nothing else is put
around the widgets of a design. -/
theorem lower_keeps_styles {root : Node} {w : Widget} (hwrap : o.wrap = none)
    (h : o.lower root = .ok w) : KeepsStyles w := by
  have hchains := Widget.map_widget_chains w .root
  refine ⟨hchains, fun c hc hdrawn placement => ?_⟩
  have hcontent : c.widget ∈ w.contents := by
    rw [← hchains]
    exact List.mem_map_of_mem hc
  exact Widget.writes_css placement hdrawn
    (recordsLook_contents hwrap root (lower_eq_ok_iff.mp h) _ hcontent)

/-- A text with a drop shadow. -/
def shadowedText : Node :=
  ⟨{ id := "t", name := "title", kind := some (.text "Hello" {}), width := 50, height := 20,
     effects := [.dropShadow
      { x := 0, y := 2, blur := 4, spread := 0, color := .black, inset := false }] }, []⟩

/-- The text with the shadow is lowered, and all else that it records is kept. -/
theorem lower_shadowedText :
    ∃ w, ({} : LoweringOptions).lower shadowedText = .ok w ∧ KeepsStyles w := by
  have htyped : ∀ n ∈ shadowedText.preorder, n.layer.kind.isSome = true := by
    simp [shadowedText, Node.preorder, Node.preorders]
  obtain ⟨w, hw⟩ := exists_lower_of_silent htyped rfl rfl
  exact ⟨w, hw, lower_keeps_styles rfl hw⟩

/-- **The shadow of a text is recorded and lost:** nothing in the style of the chain that ends in the
text shows it, wherever the chain stands. -/
theorem lower_shadow_lost :
    ∃ w, ({} : LoweringOptions).lower shadowedText = .ok w ∧ ¬w.unwrapped.IsDrawn ∧
      w.unwrapped.style.shadows ≠ [] ∧
      ∀ placement, ∃ css, w.css? placement = some css ∧ ¬ShowsShadow css.Has := by
  let text := shadowedText.layer.textWidget "Hello" {} (LoweringOptions.key {} shadowedText.layer)
  have htreatment : ({} : LoweringOptions).treatment shadowedText = .finished (Changes.apply {} text) :=
    rfl
  have hlower : ({} : LoweringOptions).lower shadowedText =
      .ok (shadowedText.layer.decorate (Changes.apply {} text)) := by
    rw [lower_eq_ok_iff, lowerNode_eq_some_iff]
    exact Or.inl ⟨_, htreatment, (finish_eq_decorate rfl ..).symm⟩
  have hunwrapped : (shadowedText.layer.decorate (Changes.apply {} text)).unwrapped =
      Changes.apply {} text := Layer.unwrapped_decorate ..
  have hdrawn : ¬(Changes.apply {} text).IsDrawn := by
    simp [text, Widget.IsDrawn, Layer.textWidget, Changes.apply, Widget.kindName]
  have hrecords : (Changes.apply {} text).RecordsLook := ⟨⟨rfl, rfl, rfl⟩, rfl⟩
  have hshadows : (Changes.apply {} text).style.shadows ≠ [] := List.cons_ne_nil _ _
  refine ⟨_, hlower, by rw [hunwrapped]; exact hdrawn, by rw [hunwrapped]; exact hshadows,
    fun placement => ?_⟩
  -- The style keeps all that the text records but its shadow, so one that shows it would have to be
  -- without it.
  obtain ⟨css, hcss, hwrites⟩ := Widget.writes_css placement
    (by rw [hunwrapped]; exact hdrawn) (by rw [hunwrapped]; exact hrecords)
  refine ⟨css, hcss, fun hshows => ?_⟩
  rw [hunwrapped] at hwrites
  exact (hwrites.shadows hshadows).mp hshows rfl

end LoweringOptions

end DesignCompiler
