import DesignCompiler.Proofs.Style.Chains
import DesignCompiler.Proofs.Style.Neat
/-!
# What computed styles are made of

The declarations of a computed style are neat but for one: a box may have an image by its address,
and a text has its font by its name (`FreeText`). Both of these are written without regard to what
is in them. What makes such a style legible all the same is that the property with the free text
always comes with a certain other one (`Legible`). The properties themselves are named in small letters
with hyphens (`IsHyphenated`), so a name is neat too.

The parts of a style are looked at one by one: what the widget sets itself, then what the wrappers
and the placement add, which is neat throughout. The result is `Chain.composed_css`, which also says
what the free text is, and `Chain.legible_css`.
-/

namespace DesignCompiler

/-- The properties whose values are always plain. -/
def plainProperties : List String :=
  ["align-items", "align-self", "backdrop-filter", "background", "background-color",
    "background-position", "background-size", "border", "border-radius", "box-shadow",
    "box-sizing", "color", "display", "filter", "flex-direction", "flex-grow", "font-size",
    "font-weight", "gap", "height", "justify-content", "left", "letter-spacing", "line-height",
    "max-width", "min-width", "object-fit", "opacity", "overflow", "padding", "position",
    "text-align", "text-decoration", "top", "transform", "width"]

/-- What may stand in a style as any text: the address of an image or the name of a font. -/
inductive FreeText where
  | image
  | family
deriving DecidableEq

namespace FreeText

/-- The property that has the text in its value. -/
def property : FreeText → String
  | image => "background-image"
  | family => "font-family"

/-- A property that is set wherever the text is. -/
def companion : FreeText → String
  | image => "background-position"
  | family => "font-size"

/-- The text that the style of an element of a tag may have. -/
def ofTag (tag : String) : FreeText := if tag = "div" then image else family

/-- The free properties are not among the plain ones. -/
theorem property_not_mem (f : FreeText) : f.property ∉ plainProperties := by
  cases f <;> decide

end FreeText

/-! ### Names of properties -/

/-- **A name in small letters,** with hyphens between its words. -/
def IsHyphenated (name : String) : Prop :=
  name.toList ≠ [] ∧ ∀ c ∈ name.toList, c.isLower = true ∨ c = '-'

instance : DecidablePred IsHyphenated := fun name =>
  decidable_of_iff
    ((!name.toList.isEmpty && name.toList.all fun c => c.isLower || c == '-') = true)
    (by simp [IsHyphenated])

/-- Plain properties are named by letters, digits and hyphens. -/
theorem isHyphenated_of_mem : ∀ property ∈ plainProperties, IsHyphenated property := by
  decide +kernel

theorem FreeText.isHyphenated_property (f : FreeText) : IsHyphenated f.property := by
  cases f <;> decide

namespace IsHyphenated

variable {name : String} (h : IsHyphenated name)
include h

/-- Nothing but letters, digits and hyphens stands in such a name. -/
theorem alphanum_or_hyphen : ∀ c ∈ name.toList, c.isAlphanum = true ∨ c = '-' := by
  intro c hc
  refine (h.2 c hc).imp_left fun hlower => ?_
  show (c.isUpper || c.isLower || c.isDigit) = true
  rw [hlower, Bool.or_true, Bool.true_or]

/-- A name in small letters is neat, so it may stand wherever a value may. -/
theorem neat : Neat name := by
  have hphrase : IsPhrase name := by
    intro c hc
    rcases h.alphanum_or_hyphen c hc with hletter | rfl
    · refine ⟨by rw [isTameChar, hletter, Bool.true_or], ?_, ?_⟩ <;>
        exact fun heq => absurd hletter (by rw [heq]; decide)
    · decide
  have hspace : ' ' ∉ name.toList := fun hc => absurd (h.2 _ hc) (by decide)
  exact neat_phrase ⟨hphrase, firm_of_tame hphrase.balanced.tame hspace h.1⟩

/-- In camel case the hyphens are gone. -/
theorem tame_camelCase : Tame (camelCase name) := by
  refine tame_of_alphanum (alphanum_camelCase fun c hc => ?_)
  refine (h.alphanum_or_hyphen c hc).imp_right ?_
  rintro rfl
  decide

end IsHyphenated

/-! ### Plain declarations -/

/-- Declarations of known properties with plain values. -/
def AllPlain (ds : Declarations) : Prop := ∀ d ∈ ds, d.1 ∈ plainProperties ∧ Plain d.2

theorem allPlain_cons {property value : String} {ds : Declarations} :
    AllPlain ((property, value) :: ds) ↔
      (property ∈ plainProperties ∧ Plain value) ∧ AllPlain ds := by
  simp only [AllPlain, List.forall_mem_cons]

/-- Declarations of known properties with neat values. -/
def AllNeat (ds : Declarations) : Prop := ∀ d ∈ ds, d.1 ∈ plainProperties ∧ Neat d.2

@[simp] theorem allNeat_nil : AllNeat [] := fun _ h => absurd h List.not_mem_nil

@[simp] theorem allNeat_cons {property value : String} {ds : Declarations} :
    AllNeat ((property, value) :: ds) ↔
      (property ∈ plainProperties ∧ Neat value) ∧ AllNeat ds := by
  simp only [AllNeat, List.forall_mem_cons]

@[simp] theorem allNeat_append {ds es : Declarations} :
    AllNeat (ds ++ es) ↔ AllNeat ds ∧ AllNeat es := by
  simp only [AllNeat, List.forall_mem_append]

theorem allNeat_single {property value : String} (hknown : property ∈ plainProperties)
    (hneat : Neat value) : AllNeat [(property, value)] :=
  allNeat_cons.mpr ⟨⟨hknown, hneat⟩, allNeat_nil⟩

/-- An optional declaration is neat when its value is, whatever it is. -/
theorem allNeat_declare {α : Type} {property : String} (hknown : property ∈ plainProperties)
    {write : α → String} (hneat : ∀ v, Neat (write v)) (value : Option α) :
    AllNeat (declare? property write value) := by
  cases value with
  | none => exact allNeat_nil
  | some v => exact allNeat_single hknown (hneat v)

@[simp] theorem allNeat_sizeDeclarations (s : Style) : AllNeat s.sizeDeclarations := by
  simp only [Style.sizeDeclarations, allNeat_append]
  refine ⟨⟨⟨?_, ?_⟩, ?_⟩, ?_⟩ <;> exact allNeat_declare (by decide) neat_px _

@[simp] theorem allNeat_shadowDeclarations (s : Style) : AllNeat s.shadowDeclarations := by
  unfold Style.shadowDeclarations
  split
  · exact allNeat_nil
  · next hshadows =>
    exact allNeat_single (by decide) (neat_shadowsValue fun h => hshadows (by simp [h]))

@[simp] theorem allNeat_lineDeclarations (line : FlexLine) : AllNeat line.declarations := by
  have hdirection : Neat line.direction.value := by
    cases line.direction <;> exact neat_phrase (by decide)
  have hmain : Neat line.mainAxis.justifyValue := by
    cases line.mainAxis <;> exact neat_phrase (by decide)
  have hcross : Neat line.crossAxis.alignValue := by
    cases line.crossAxis <;> exact neat_phrase (by decide)
  unfold FlexLine.declarations
  split <;> simp +decide [hdirection, hmain, hcross]

@[simp] theorem allNeat_rootDeclarations (isRoot : Bool) : AllNeat (rootDeclarations isRoot) := by
  cases isRoot <;> simp +decide [rootDeclarations]

/-! ### Legible declarations -/

/-- **Declarations that can be read off their canonical text:** all are plain but for the free text,
and that has its companion with it. -/
structure Legible (f : FreeText) (ds : Declarations) : Prop where
  plain : ∀ d ∈ ds, d.1 ≠ f.property → d.1 ∈ plainProperties ∧ Plain d.2
  companion : f.property ∈ ds.map Prod.fst → f.companion ∈ ds.map Prod.fst

/-- **Declarations that are neat but for a free text.** What the free text may be is left open. -/
structure Composed (f : FreeText) (Free : String → Prop) (ds : Declarations) : Prop where
  neat : ∀ d ∈ ds, d.1 ≠ f.property → d.1 ∈ plainProperties ∧ Neat d.2
  free : ∀ d ∈ ds, d.1 = f.property → Free d.2
  companion : f.property ∈ ds.map Prod.fst → f.companion ∈ ds.map Prod.fst

variable {f : FreeText} {Free : String → Prop}

theorem Composed.tame {ds : Declarations} (h : Composed f Free ds) :
    ∀ d ∈ ds, d.1 ≠ f.property → d.1 ∈ plainProperties ∧ Tame d.2 :=
  fun d hd hne => ⟨(h.neat d hd hne).1, (h.neat d hd hne).2.tame⟩

theorem Composed.legible {ds : Declarations} (h : Composed f Free ds) : Legible f ds where
  plain d hd hne := ⟨(h.tame d hd hne).1, (h.tame d hd hne).2.plain⟩
  companion := h.companion

/-- Neat declarations have no free value to look after. -/
theorem AllNeat.composed {ds : Declarations} (h : AllNeat ds) : Composed f Free ds where
  neat d hd _ := h d hd
  free d hd hproperty := absurd (hproperty ▸ (h d hd).1) f.property_not_mem
  companion hmem := by
    obtain ⟨d, hd, hproperty⟩ := List.mem_map.mp hmem
    exact absurd (hproperty ▸ (h d hd).1) f.property_not_mem

/-- Composed declarations may follow one another. -/
theorem Composed.append {ds es : Declarations} (hds : Composed f Free ds)
    (hes : Composed f Free es) : Composed f Free (ds ++ es) where
  neat d hd := (List.mem_append.mp hd).elim (hds.neat d) (hes.neat d)
  free d hd := (List.mem_append.mp hd).elim (hds.free d) (hes.free d)
  companion hmem := by
    -- The free text brings its companion with it, on whichever side it is.
    rw [List.map_append, List.mem_append] at hmem ⊢
    exact hmem.imp hds.companion hes.companion

/-- A free text before neat declarations with its companion among them. -/
theorem composed_cons_free {rest : Declarations} (hrest : AllNeat rest)
    (hcompanion : f.companion ∈ rest.map Prod.fst) {value : String} (hvalue : Free value) :
    Composed f Free ((f.property, value) :: rest) where
  neat d hd hne := by
    -- The free declaration is the first one, and no plain one has its name.
    rcases List.mem_cons.mp hd with rfl | hd
    · exact absurd rfl hne
    · exact hrest d hd
  free d hd hproperty := by
    rcases List.mem_cons.mp hd with rfl | hd
    · exact hvalue
    · exact absurd (hproperty ▸ (hrest d hd).1) f.property_not_mem
  companion _ := List.mem_cons_of_mem _ hcompanion

/-- The address of an image is the only value of a background that need not be neat. -/
theorem composed_background {b : Background}
    (h : ∀ ref, b = .image ref → Free ("url(" ++ ref.source ++ ")")) :
    Composed .image Free b.declarations := by
  cases b with
  | color c => exact (allNeat_single (by decide) (neat_cssText c)).composed
  | gradient g =>
    cases hvalue : gradientValue? g with
    | none => rw [Background.declarations, hvalue]; exact allNeat_nil.composed
    | some value =>
      rw [Background.declarations, hvalue]
      exact (allNeat_single (by decide) (neat_gradientValue hvalue)).composed
  | image ref =>
    -- The address is the first declaration of the three.
    have hrest : AllNeat [("background-size", "cover"), ("background-position", "center")] := by
      simp +decide
    exact composed_cons_free (f := .image) hrest (by decide) (h ref rfl)

section Box

variable {s : Style} (h : ∀ ref, s.background = some (.image ref) →
  Free ("url(" ++ ref.source ++ ")"))
include h

/-- A box is neat but for the image behind it. -/
theorem composed_boxDeclarations : Composed .image Free s.boxDeclarations := by
  have hborder : AllNeat (declare? "border" Border.value s.border) :=
    allNeat_declare (by decide) neat_borderValue _
  have hradius : AllNeat (declare? "border-radius" cornersValue s.borderRadius) :=
    allNeat_declare (by decide) neat_cornersValue _
  -- The background is the one part that may hold an image.
  unfold Style.boxDeclarations
  refine (((((allNeat_sizeDeclarations s).composed.append ?_).append hborder.composed).append
    hradius.composed).append (allNeat_shadowDeclarations s).composed).append ?_
  · cases hbackground : s.background with
    | none => exact allNeat_nil.composed
    | some b => exact composed_background fun ref hb => h ref (hbackground.trans (hb ▸ rfl))
  · refine AllNeat.composed ?_
    cases s.padding <;> simp +decide

/-- **What a box sets** is neat but for the address of an image. -/
theorem composed_arrangement (empty : Bool) (a : Arrangement) :
    Composed .image Free (a.declarations s empty) := by
  have hbox := composed_boxDeclarations h
  -- Only the part all boxes share may hold an image; what each arrangement adds is neat.
  cases a with
  | container shape clip =>
    unfold Arrangement.declarations
    refine ((hbox.append (AllNeat.composed ?_)).append (AllNeat.composed ?_)).append
      (AllNeat.composed ?_) <;> split <;> simp +decide
  | group =>
    exact (allNeat_sizeDeclarations s).composed.append (AllNeat.composed (by simp +decide))
  | stack isRoot =>
    exact (hbox.append (AllNeat.composed (by simp +decide))).append
      (allNeat_rootDeclarations isRoot).composed
  | flex line isRoot =>
    exact (hbox.append (allNeat_lineDeclarations line).composed).append
      (allNeat_rootDeclarations isRoot).composed

end Box

/-- The name of the font is the only value of a text style that need not be neat. -/
theorem composed_textStyle {t : TextStyle} (h : Free ("\"" ++ t.fontFamily ++ "\"")) :
    Composed .family Free t.declarations := by
  have hsizeWeight : AllNeat
      [("font-size", px t.fontSize), ("font-weight", toString t.fontWeight.toNat)] := by
    simp +decide
  have hfont := composed_cons_free (f := .family) hsizeWeight List.mem_cons_self h
  -- The rest of a text style is neat, each part on its own.
  have halign : AllNeat (declare? "text-align" id t.align.value?) := by
    cases t.align <;> simp +decide [declare?, TextAlign.value?]
  have hdecoration : AllNeat (declare? "text-decoration" id t.decoration.value?) := by
    cases t.decoration <;> simp +decide [declare?, TextDecoration.value?]
  have hheight : AllNeat (declare? "line-height" px t.lineHeight) :=
    allNeat_declare (by decide) neat_px _
  have hspacing : AllNeat (declare? "letter-spacing" px t.letterSpacing) :=
    allNeat_declare (by decide) neat_px _
  exact (((hfont.append hheight.composed).append hspacing.composed).append halign.composed).append
    hdecoration.composed

/-- **What a leaf sets** is neat but for the name of a font. -/
theorem composed_leaf {s : Style} {leaf : Leaf}
    (hfree : ∀ content, leaf = .text content → Free ("\"" ++ content.style.fontFamily ++ "\""))
    {ds : Declarations} (h : leaf.declarations? s = some ds) : Composed .family Free ds := by
  have hsize := allNeat_sizeDeclarations s
  -- A text has its font family; the other leaves declare neat values only.
  cases leaf with
  | text content =>
    have hcolor : AllNeat (declare? "color" Color.cssText content.color) :=
      allNeat_declare (by decide) neat_cssText _
    cases h
    exact (hsize.composed.append hcolor.composed).append (composed_textStyle (hfree content rfl))
  | image content =>
    have hfit : Neat content.fit.value := by
      cases content.fit <;> exact neat_phrase (by decide)
    have hradius : AllNeat (declare? "border-radius" cornersValue s.borderRadius) :=
      allNeat_declare (by decide) neat_cornersValue _
    cases h
    refine AllNeat.composed ?_
    simp +decide [hsize, hfit, hradius]
  | icon content => cases h; exact hsize.composed
  | vector content => cases h
  | boolean content => cases h

/-! ### Wrappers and placement -/

/-- Putting one more declaration keeps the css neat. -/
theorem allNeat_put {css : Css} (h : AllNeat css.toList) {property value : String}
    (hknown : property ∈ plainProperties) (hneat : Neat value) :
    AllNeat (css.put property value).toList := by
  intro d hd
  rcases Record.mem_toList_put.mp hd with rfl | ⟨-, hd⟩
  · exact ⟨hknown, hneat⟩
  · exact h d hd

/-- So does putting several. -/
theorem allNeat_setAll {css : Css} (h : AllNeat css.toList) {ds : Declarations}
    (hds : AllNeat ds) : AllNeat (Css.setAll css ds).toList := by
  intro d hd
  rcases Css.mem_setAll hd with hd | hd
  · exact h d hd
  · exact hds d hd

/-- A blur is added to the blurs that are there, which are neat. -/
theorem allNeat_addTo (placement : Placement) {css : Css} (h : AllNeat css.toList)
    (wrapper : Wrapper) : AllNeat (wrapper.addTo placement css).toList := by
  cases wrapper with
  | opacity value => exact allNeat_put h (by decide) (neat_cssNumber value)
  | stretched axis =>
    refine allNeat_setAll h ?_
    cases axis with
    | cross => cases placement <;> simp +decide [StretchAxis.declarations]
    | _ => simp +decide [StretchAxis.declarations]
  | expanded flex => exact allNeat_put h (by decide) (neat_natural flex.toNat)
  | blurred blur =>
    have hkind : blur.kind.property ∈ plainProperties := by cases blur.kind <;> decide
    -- The blur is put behind those of the same kind that are there.
    have hvalue := neat_blur blur.radius
    refine allNeat_put h hkind ?_
    cases hexisting : css.get? blur.kind.property with
    | none => exact hvalue
    | some existing =>
      have hneat := (h _ (Record.get?_eq_some_iff.mp hexisting)).2
      exact hneat.spaced hvalue
  | rotation angle => exact allNeat_put h (by decide) (neat_rotation angle)
  | sizedBox width height => exact allNeat_setAll h (by simp +decide)
  | overflowBox => exact allNeat_put h (by decide) (neat_phrase (by decide))

/-- **What wrappers and a placement add** is neat. -/
theorem allNeat_extraCss (wrappers : List Wrapper) (placement : Placement) :
    AllNeat (extraCss wrappers placement).toList := by
  -- Each wrapper adds to what the wrappers above it have added.
  have hwrappers : ∀ css : Css, AllNeat css.toList →
      AllNeat (wrappers.foldl (Wrapper.addTo placement) css).toList := by
    induction wrappers with
    | nil => exact fun _ h => h
    | cons wrapper rest ih =>
      intro css h
      rw [List.foldl_cons]
      exact ih _ (allNeat_addTo placement h wrapper)
  refine allNeat_setAll (hwrappers _ allNeat_nil) ?_
  cases placement <;> simp +decide [Placement.declarations]

/-! ### Chains -/

/-- Merging composed declarations leaves them composed, since each one that is left was declared. -/
theorem Composed.setAll {ds : Declarations} (h : Composed f Free ds) :
    Composed f Free (Css.setAll .empty ds).toList where
  neat d hd := (Css.mem_setAll hd).elim (fun hd => absurd hd List.not_mem_nil) (h.neat d)
  free d hd := (Css.mem_setAll hd).elim (fun hd => absurd hd List.not_mem_nil) (h.free d)
  companion hmem := by
    change f.property ∈ (Css.setAll .empty ds).keys at hmem
    change f.companion ∈ (Css.setAll .empty ds).keys
    rw [Css.mem_keys_setAll] at hmem ⊢
    rcases hmem with hmem | hmem
    · exact absurd hmem List.not_mem_nil
    · exact Or.inr (h.companion hmem)

/-- The tags of the elements of leaves. -/
def leafTags : List String := ["h1", "h2", "h3", "h4", "h5", "h6", "p", "span", "img", "svg"]

/-- A leaf is written with one of a few tags. -/
theorem mem_leafTags (name : String) (leaf : Leaf) : (leaf.element name).start.name ∈ leafTags := by
  have hhtml : ∀ tag : TextTag, tag.html ∈ leafTags := by
    intro tag
    cases tag <;> decide
  cases leaf with
  | text content =>
    change (content.tag.map (·.html)).getD "span" ∈ leafTags
    cases content.tag with
    | none => exact (by decide : "span" ∈ leafTags)
    | some tag => exact hhtml tag
  | image content => exact (by decide : "img" ∈ leafTags)
  | icon content => exact (by decide : "img" ∈ leafTags)
  | vector content => exact (by decide : "svg" ∈ leafTags)
  | boolean content => exact (by decide : "svg" ∈ leafTags)

/-- The free text in what a widget sets: the address of its background or the name of its font. -/
def Widget.FreeValue (w : Widget) (value : String) : Prop :=
  match w with
  | .leaf _ _ (.text content) => value = "\"" ++ content.style.fontFamily ++ "\""
  | .box _ style _ _ =>
    ∃ ref, style.background = some (.image ref) ∧ value = "url(" ++ ref.source ++ ")"
  | _ => False

/-- What a widget sets is neat but for its free text. -/
theorem composed_ownDeclarations {w : Widget} {ds : Declarations}
    (h : w.ownDeclarations? = some ds) :
    Composed (.ofTag w.element.start.name) w.FreeValue ds := by
  cases w with
  | leaf key style leaf =>
    have htag : ∀ tag ∈ leafTags, FreeText.ofTag tag = .family := by decide
    change Composed (FreeText.ofTag (leaf.element key.originName).start.name) _ ds
    rw [htag _ (mem_leafTags key.originName leaf)]
    refine composed_leaf (fun content hcontent => ?_) h
    rw [hcontent]
    rfl
  -- Of the two free properties a box has the image, its tag being none of a leaf.
  | box key style arrangement children =>
    cases h
    exact composed_arrangement (fun ref href => ⟨ref, href, rfl⟩) children.isEmpty arrangement
  | wrap key style wrapper child => cases h; exact allNeat_nil.composed

/-- **The computed style of a chain** is neat but for the free text of the widget at its end. -/
theorem Chain.composed_css {c : Chain} {css : Css} (h : c.css? = some css) :
    Composed (.ofTag c.element.start.name) c.head.unwrapped.FreeValue css.toList := by
  have hextra := allNeat_extraCss c.head.wrappers c.placement
  unfold Chain.css? Widget.css? at h
  -- A widget without a style of its own has one only from what is around it.
  cases hown : c.head.unwrapped.ownDeclarations? with
  | none =>
    simp only [hown] at h
    split at h
    · exact absurd h (by simp)
    · cases h
      exact hextra.composed
  | some own =>
    simp only [hown, Option.some.injEq] at h
    have hcomposed := composed_ownDeclarations hown
    rw [Widget.element_unwrapped] at hcomposed
    rw [← h, ← Css.setAll_append]
    exact (hcomposed.append hextra.composed).setAll

/-- **The computed style of a chain is legible** for the tag of the element. -/
theorem Chain.legible_css {c : Chain} {css : Css} (h : c.css? = some css) :
    Legible (.ofTag c.element.start.name) css.toList :=
  (c.composed_css h).legible

end DesignCompiler
