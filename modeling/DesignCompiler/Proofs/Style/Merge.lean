import DesignCompiler.Proofs.Record
import DesignCompiler.Style.Computed
/-!
# What a merged style holds

The style of an element is written into one record: what the widget sets itself, then what each
wrapper sets from the outside in, then what its place in the parent sets. A later write takes the
place of an earlier one, so the value of a property is the last one that is declared for it.

`Widget.declared` lists the declarations of a chain in the order of the writes, and `Widget.get?_css`
reads a property off this list. Only blurs are not in it: blurs of one kind go behind each other into
one value, which no list of declarations shows. That value is the list of all of them from the
outside in (`Widget.get?_css_blur`).
-/

namespace DesignCompiler

/-! ### The last of several writes -/

/-- The last value that is declared for a property. -/
def Declarations.last? (ds : Declarations) (k : String) : Option String := ds.reverse.lookup k

namespace Declarations

variable {ds es : Declarations} {k v : String}

@[simp] theorem last?_nil : last? [] k = none := rfl

/-- Later declarations win. -/
@[simp] theorem last?_append : last? (ds ++ es) k = (last? es k).or (last? ds k) := by
  rw [last?, List.reverse_append, List.lookup_append]
  rfl

@[simp] theorem last?_singleton {l : String} :
    last? [(l, v)] k = if k = l then some v else none := by
  by_cases h : k = l <;> simp [last?, List.lookup_cons, h, beq_false_of_ne]

theorem last?_cons {d : String × String} :
    last? (d :: ds) k = (last? ds k).or (if k = d.1 then some d.2 else none) := by
  rw [← List.singleton_append, last?_append, last?_singleton]

theorem last?_declare {α : Type} {property : String} {write : α → String} {value : Option α} :
    last? (declare? property write value) k = if k = property then value.map write else none := by
  cases value <;> simp [declare?]

/-- What is found was declared. -/
theorem mem_of_last? (h : last? ds k = some v) : (k, v) ∈ ds := by
  induction ds with
  | nil => cases h
  | cons d rest ih =>
    rw [last?_cons, Option.or_eq_some_iff] at h
    -- Found among the later ones, or it is the first.
    rcases h with h | ⟨-, h⟩
    · exact List.mem_cons_of_mem _ (ih h)
    · split at h
      · next hk =>
        cases h
        rw [hk]
        exact List.mem_cons_self
      · cases h

/-- A property that is not declared is not found. -/
theorem last?_eq_none (h : k ∉ ds.map Prod.fst) : last? ds k = none := by
  by_contra hsome
  obtain ⟨v, hv⟩ := Option.ne_none_iff_exists'.mp hsome
  exact h (List.mem_map.mpr ⟨_, mem_of_last? hv, rfl⟩)

/-- Where all values that are declared for a property agree, the last one is among them. -/
theorem last?_eq_some (hmem : (k, v) ∈ ds) (hall : ∀ u, (k, u) ∈ ds → u = v) :
    last? ds k = some v := by
  cases hlast : last? ds k with
  | some u => rw [hall u (mem_of_last? hlast)]
  | none =>
    -- Some declaration is the last one, since there is one at all.
    exfalso
    have hkeys : k ∈ ds.reverse.map Prod.fst := by
      rw [List.map_reverse, List.mem_reverse]
      exact List.mem_map.mpr ⟨_, hmem, rfl⟩
    rw [last?, List.lookup_eq_none_iff] at hlast
    obtain ⟨d, hd, hdk⟩ := List.mem_map.mp hkeys
    exact absurd (hlast d hd) (by simp [hdk])

end Declarations

namespace Css

/-- **Several writes leave the last value** of each property that they write. -/
theorem get?_setAll (css : Css) (ds : Declarations) (k : String) :
    (setAll css ds).get? k = (ds.last? k).or (css.get? k) :=
  Record.get?_foldl_put ds css k

/-- The pairs of a record declare each property once. -/
theorem last?_toList (css : Css) (k : String) : Declarations.last? css.toList k = css.get? k := by
  have hnodup : (css.toList.reverse.map Prod.fst).Nodup := by
    rw [List.map_reverse, List.nodup_reverse]
    exact css.keys_nodup
  ext v
  rw [Declarations.last?, Record.lookup_eq_some_iff hnodup, List.mem_reverse,
    Record.get?_eq_some_iff]

end Css

/-! ### Wrappers -/

/-- The properties that blurs are collected in. -/
def blurProperties : List String := [BlurKind.layer.property, BlurKind.background.property]

/-- **What a wrapper declares,** a blur apart. -/
def Wrapper.declarations (placement : Placement) : Wrapper → Declarations
  | opacity value => [("opacity", cssNumber value)]
  | stretched axis => axis.declarations placement
  | expanded flex => [("flex-grow", toString flex.toNat)]
  | blurred _ => []
  | rotation angle => [("transform", "rotate(" ++ radians angle ++ "rad)")]
  | sizedBox width height => [("width", px width), ("height", px height)]
  | overflowBox => [("overflow", "hidden")]

section Wrappers

variable {k : String} (hk : k ∉ blurProperties) (placement : Placement)

include hk

/-- What a wrapper declares wins over what is there. -/
theorem get?_addTo (css : Css) (e : Wrapper) :
    (e.addTo placement css).get? k =
      ((e.declarations placement).last? k).or (css.get? k) := by
  rw [← Css.get?_setAll]
  cases e with
  | blurred blur =>
    -- A blur is written under a property of its own kind, which is not the one asked for.
    have hne : k ≠ blur.kind.property := by
      rintro rfl
      exact hk (by cases blur.kind <;> decide)
    rw [Wrapper.addTo, Record.get?_put, if_neg hne]
    rfl
  | _ => rfl

/-- A chain of wrappers writes its declarations from the outside in. -/
theorem get?_foldl_addTo (ws : List Wrapper) (css : Css) :
    (ws.foldl (Wrapper.addTo placement) css).get? k =
      (Declarations.last? (ws.flatMap (·.declarations placement)) k).or (css.get? k) := by
  induction ws generalizing css with
  | nil => rfl
  | cons e rest ih =>
    rw [List.foldl_cons, ih, get?_addTo hk, List.flatMap_cons, Declarations.last?_append,
      Option.or_assoc]

/-- The extra css holds the last of what the wrappers and the placement declare. -/
theorem get?_extraCss (ws : List Wrapper) :
    (extraCss ws placement).get? k =
      Declarations.last? (ws.flatMap (·.declarations placement) ++ placement.declarations) k := by
  rw [extraCss, Css.get?_setAll, get?_foldl_addTo hk, Record.get?_empty, Option.or_none,
    Declarations.last?_append]

end Wrappers

/-! ### Which part declares what -/

/-- The properties that wrappers set, blurs apart. -/
def wrapperProperties : List String :=
  ["align-self", "flex-grow", "height", "opacity", "overflow", "transform", "width"]

/-- Wrappers declare a few properties only. -/
theorem Wrapper.mem_wrapperProperties (placement : Placement) (e : Wrapper) :
    ∀ d ∈ e.declarations placement, d.1 ∈ wrapperProperties := by
  cases e with
  | stretched axis =>
    cases axis with
    | cross => cases placement <;> simp +decide [Wrapper.declarations, StretchAxis.declarations]
    | _ => simp +decide [Wrapper.declarations, StretchAxis.declarations]
  | _ => simp +decide [Wrapper.declarations]

theorem mem_wrapperProperties {placement : Placement} {ws : List Wrapper} {d : String × String}
    (hd : d ∈ ws.flatMap (·.declarations placement)) : d.1 ∈ wrapperProperties := by
  obtain ⟨e, -, hd⟩ := List.mem_flatMap.mp hd
  exact e.mem_wrapperProperties placement d hd

/-- Of other properties, wrappers declare nothing. -/
theorem last?_wrappers_eq_none {k : String} (hk : k ∉ wrapperProperties) (placement : Placement)
    (ws : List Wrapper) : Declarations.last? (ws.flatMap (·.declarations placement)) k = none := by
  refine Declarations.last?_eq_none fun hmem => hk ?_
  obtain ⟨d, hd, rfl⟩ := List.mem_map.mp hmem
  exact mem_wrapperProperties hd

/-- The offset of a place, if it has one. -/
def Placement.offset? : Placement → Option (Float × Float)
  | absolute x y => some (x, y)
  | root | flex _ => none

/-- A place sets its offset, and says that it has one. -/
theorem Placement.last?_declarations (placement : Placement) (k : String) :
    placement.declarations.last? k =
      if k = "top" then placement.offset?.map fun offset => px offset.2
      else if k = "left" then placement.offset?.map fun offset => px offset.1
      else if k = "position" then placement.offset?.map fun _ => "absolute"
      else none := by
  cases placement with
  | absolute x y =>
    simp only [declarations, offset?, Declarations.last?_cons, Declarations.last?_nil,
      Option.map_some, Option.none_or]
    -- The three properties differ, so the order in which they are looked for does not matter.
    split
    · rfl
    · rw [Option.none_or]
      split <;> rfl
  | _ => simp [declarations, offset?]

/-- The properties that a widget may set itself for the look of it. -/
def lookProperties : List String :=
  ["align-items", "background", "background-color", "background-image", "background-position",
    "background-size", "border", "border-radius", "box-shadow", "box-sizing", "color", "display",
    "flex-direction", "font-family", "font-size", "font-weight", "gap", "height",
    "justify-content", "letter-spacing", "line-height", "max-width", "min-width", "object-fit",
    "overflow", "padding", "text-align", "text-decoration", "width"]

/-- What a widget may declare itself: its look, and that its children are placed from it. -/
def IsOwn (ds : Declarations) : Prop :=
  ∀ d ∈ ds, d.1 ∈ lookProperties ∨ d = ("position", "relative")

section Own

@[simp] theorem isOwn_nil : IsOwn [] := fun _ h => absurd h List.not_mem_nil

@[simp] theorem isOwn_cons {d : String × String} {ds : Declarations} :
    IsOwn (d :: ds) ↔ (d.1 ∈ lookProperties ∨ d = ("position", "relative")) ∧ IsOwn ds := by
  simp only [IsOwn, List.forall_mem_cons]

@[simp] theorem isOwn_append {ds es : Declarations} :
    IsOwn (ds ++ es) ↔ IsOwn ds ∧ IsOwn es := by
  simp only [IsOwn, List.forall_mem_append]

theorem isOwn_declare {α : Type} {property : String} (h : property ∈ lookProperties)
    {write : α → String} (value : Option α) : IsOwn (declare? property write value) := by
  cases value with
  | none => exact isOwn_nil
  | some v => exact isOwn_cons.mpr ⟨Or.inl h, isOwn_nil⟩

@[simp] theorem isOwn_sizeDeclarations (s : Style) : IsOwn s.sizeDeclarations := by
  simp only [Style.sizeDeclarations, isOwn_append]
  refine ⟨⟨⟨?_, ?_⟩, ?_⟩, ?_⟩ <;> exact isOwn_declare (by decide) _

@[simp] theorem isOwn_shadowDeclarations (s : Style) : IsOwn s.shadowDeclarations := by
  unfold Style.shadowDeclarations
  split <;> simp +decide

/-- A box declares its look. -/
@[simp] theorem isOwn_boxDeclarations (s : Style) : IsOwn s.boxDeclarations := by
  have hborder : IsOwn (declare? "border" Border.value s.border) := isOwn_declare (by decide) _
  have hradius : IsOwn (declare? "border-radius" cornersValue s.borderRadius) :=
    isOwn_declare (by decide) _
  have hbackground : ∀ b : Background, IsOwn b.declarations := by
    rintro (c | g | ref)
    · simp +decide [Background.declarations]
    · exact isOwn_declare (by decide) _
    · simp +decide [Background.declarations]
  simp only [Style.boxDeclarations, isOwn_append, isOwn_sizeDeclarations, hborder, hradius,
    isOwn_shadowDeclarations, true_and, and_true]
  -- What is left is the background, of three kinds, and the padding.
  constructor
  · cases s.background with
    | none => exact isOwn_nil
    | some b => exact hbackground b
  · cases s.padding <;> simp +decide

/-- An arrangement declares the look of its box and how it lays its children out. -/
theorem isOwn_arrangement (s : Style) (empty : Bool) (a : Arrangement) :
    IsOwn (a.declarations s empty) := by
  have hroot : ∀ isRoot, IsOwn (rootDeclarations isRoot) := by
    rintro (_ | _) <;> simp +decide [rootDeclarations]
  -- The root and the flex line bring declarations of their own, each of them a look.
  cases a with
  | container shape clip =>
    simp only [Arrangement.declarations, isOwn_append, isOwn_boxDeclarations, true_and]
    refine ⟨⟨?_, ?_⟩, ?_⟩ <;> split <;> simp +decide
  | group => simp +decide [Arrangement.declarations]
  | stack isRoot => simp +decide [Arrangement.declarations, hroot]
  | flex line isRoot =>
    have hline : IsOwn line.declarations := by
      unfold FlexLine.declarations
      split <;> simp +decide
    simp only [Arrangement.declarations, isOwn_append, isOwn_boxDeclarations, hline, hroot,
      and_self]

/-- A leaf declares its look. -/
theorem isOwn_leaf {s : Style} {leaf : Leaf} {ds : Declarations}
    (h : leaf.declarations? s = some ds) : IsOwn ds := by
  cases leaf with
  | text content =>
    cases h
    simp only [isOwn_append, isOwn_sizeDeclarations, TextStyle.declarations, true_and]
    simp +decide [isOwn_declare]
  | image content =>
    cases h
    simp +decide [isOwn_declare]
  | icon content =>
    cases h
    exact isOwn_sizeDeclarations s
  | vector content => cases h
  | boolean content => cases h

/-- **What a widget declares itself** is its look and where its children are placed from. -/
theorem Widget.isOwn_ownDeclarations (w : Widget) : IsOwn (w.ownDeclarations?.getD []) := by
  cases w with
  | leaf key style leaf =>
    rw [ownDeclarations?]
    cases h : leaf.declarations? style with
    | none => exact isOwn_nil
    | some ds => exact isOwn_leaf h
  | box key style arrangement children => exact isOwn_arrangement style children.isEmpty arrangement
  | wrap key style wrapper child => exact isOwn_nil

/-- Of other properties, a widget declares nothing itself. -/
theorem Widget.last?_own_eq_none (w : Widget) {k : String} (hk : k ∉ lookProperties)
    (hposition : k ≠ "position") :
    Declarations.last? (w.ownDeclarations?.getD []) k = none := by
  refine Declarations.last?_eq_none fun hmem => ?_
  obtain ⟨d, hd, rfl⟩ := List.mem_map.mp hmem
  rcases w.isOwn_ownDeclarations d hd with hlook | rfl
  · exact hk hlook
  · exact hposition rfl

end Own

/-! ### Blurs -/

/-- The value of one blur. -/
def Blur.value (b : Blur) : String := "blur(" ++ px b.radius ++ ")"

/-- The value of a property that holds a list, where there is anything in the list. -/
def listValue? (values : List String) : Option String :=
  if values = [] then none else some (" ".intercalate values)

/-- One more value goes behind what is there. -/
theorem listValue?_concat (values : List String) (v : String) :
    listValue? (values ++ [v]) = some (match listValue? values with
      | some existing => existing ++ " " ++ v
      | none => v) := by
  have hne : values ++ [v] ≠ [] := by simp
  by_cases hvalues : values = []
  · simp [listValue?, hvalues]
  · simp only [listValue?, if_neg hne, if_neg hvalues]
    rw [String.intercalate_append_of_ne_nil hvalues (by simp), String.intercalate_singleton]

/-- The value that a wrapper adds to the blurs of a kind. -/
def Wrapper.blurValue? (kind : BlurKind) : Wrapper → Option String
  | blurred blur => if blur.kind = kind then some blur.value else none
  | _ => none

section Blurs

variable (placement : Placement) {kind : BlurKind}

theorem BlurKind.property_inj {kind kind' : BlurKind} :
    kind.property = kind'.property ↔ kind = kind' := by
  cases kind <;> cases kind' <;> decide

/-- No look, wrapper or placement declares a blur. -/
theorem BlurKind.property_not_mem (kind : BlurKind) :
    kind.property ∉ wrapperProperties ∧ kind.property ∉ lookProperties ∧
      kind.property ∉ ["left", "position", "top"] := by
  cases kind <;> decide

/-- Wrappers that are no blur declare nothing about blurs. -/
theorem Wrapper.last?_declarations_blur (e : Wrapper) :
    (e.declarations placement).last? kind.property = none := by
  have hnone := last?_wrappers_eq_none kind.property_not_mem.1 placement [e]
  rwa [List.flatMap_singleton] at hnone

/-- A wrapper puts its blur, if it is one of the kind, behind those further out. -/
theorem get?_addTo_blur {css : Css} {values : List String}
    (h : css.get? kind.property = listValue? values) (e : Wrapper) :
    (e.addTo placement css).get? kind.property =
      listValue? (values ++ (e.blurValue? kind).toList) := by
  -- What is no blur is a list of declarations, and none of them is about blurs.
  have hother : ∀ ds : Declarations, ds.last? kind.property = none →
      (css.setAll ds).get? kind.property = listValue? (values ++ []) := by
    intro ds hds
    rw [Css.get?_setAll, hds, Option.none_or, h, List.append_nil]
  cases e with
  | blurred blur =>
    rw [Wrapper.addTo, Record.get?_put]
    by_cases hkind : blur.kind = kind
    · subst hkind
      simp only [Wrapper.blurValue?, if_true, Option.toList_some, h]
      exact (listValue?_concat values blur.value).symm
    · have hne : kind.property ≠ blur.kind.property :=
        fun heq => hkind (BlurKind.property_inj.mp heq).symm
      rw [if_neg hne, h]
      simp [Wrapper.blurValue?, hkind]
  | opacity value => exact hother _ (Wrapper.last?_declarations_blur placement (.opacity value))
  | stretched axis => exact hother _ (Wrapper.last?_declarations_blur placement (.stretched axis))
  | expanded flex => exact hother _ (Wrapper.last?_declarations_blur placement (.expanded flex))
  | rotation angle => exact hother _ (Wrapper.last?_declarations_blur placement (.rotation angle))
  | sizedBox x y => exact hother _ (Wrapper.last?_declarations_blur placement (.sizedBox x y))
  | overflowBox => exact hother _ (Wrapper.last?_declarations_blur placement .overflowBox)

/-- **A chain of wrappers collects its blurs from the outside in.** -/
theorem get?_foldl_addTo_blur (ws : List Wrapper) {css : Css} {values : List String}
    (h : css.get? kind.property = listValue? values) :
    (ws.foldl (Wrapper.addTo placement) css).get? kind.property =
      listValue? (values ++ ws.filterMap (·.blurValue? kind)) := by
  induction ws generalizing css values with
  | nil => simpa using h
  | cons e rest ih =>
    rw [List.foldl_cons, ih (get?_addTo_blur placement h e), List.append_assoc]
    congr 2
    cases hvalue : e.blurValue? kind <;> simp [hvalue]

end Blurs

/-! ### Chains -/

namespace Widget

/-- **Everything that is declared for a chain,** in the order of the writes. -/
def declared (head : Widget) (placement : Placement) : Declarations :=
  head.unwrapped.ownDeclarations?.getD [] ++
    (head.wrappers.flatMap (·.declarations placement) ++ placement.declarations)

variable {head : Widget} {placement : Placement} {k : String}

/-- A style has what is set around its widget, and where nothing is, what the widget sets itself. -/
theorem get?_css_parts {css : Css} (h : head.css? placement = some css) (k : String) :
    css.get? k = ((extraCss head.wrappers placement).get? k).or
      (Declarations.last? (head.unwrapped.ownDeclarations?.getD []) k) := by
  unfold css? at h
  cases hown : head.unwrapped.ownDeclarations? with
  | none =>
    -- Without a style of its own, the widget has what is around it, if that is anything.
    simp only [hown] at h
    split at h
    · cases h
    · cases h
      rw [Option.getD_none, Declarations.last?_nil, Option.or_none]
  | some own =>
    simp only [hown, Option.some.injEq] at h
    rw [← h, Css.get?_setAll, Css.last?_toList, Css.get?_setAll, Record.get?_empty, Option.or_none,
      Option.getD_some]

/-- **The value of a property is the last one declared,** in the style of a chain that has one. -/
theorem get?_css (hk : k ∉ blurProperties) {css : Css} (h : head.css? placement = some css) :
    css.get? k = (head.declared placement).last? k := by
  rw [get?_css_parts h, get?_extraCss hk, declared]
  exact Declarations.last?_append.symm

/-- **The blurs of a kind are one value,** the list of all of them from the outside in. -/
theorem get?_css_blur {css : Css} (h : head.css? placement = some css) (kind : BlurKind) :
    css.get? kind.property = listValue? (head.wrappers.filterMap (·.blurValue? kind)) := by
  obtain ⟨-, hlook, hoffset⟩ := kind.property_not_mem
  simp only [List.mem_cons, List.not_mem_nil, or_false, not_or] at hoffset
  -- Neither the place of the chain nor the widget at its end says anything about blurs.
  have hplace : placement.declarations.last? kind.property = none := by
    rw [Placement.last?_declarations, if_neg hoffset.2.2, if_neg hoffset.1, if_neg hoffset.2.1]
  have hown : Declarations.last? (head.unwrapped.ownDeclarations?.getD []) kind.property = none :=
    head.unwrapped.last?_own_eq_none hlook hoffset.2.1
  rw [get?_css_parts h, hown, Option.or_none, extraCss, Css.get?_setAll, hplace, Option.none_or]
  have hempty : (Record.empty : Css).get? kind.property = listValue? [] := rfl
  exact get?_foldl_addTo_blur placement head.wrappers hempty

/-- A chain has a style if its widget has declarations of its own, were they none at all. -/
theorem exists_css_of_own {own : Declarations} (h : head.unwrapped.ownDeclarations? = some own)
    (placement : Placement) : ∃ css, head.css? placement = some css := by
  unfold css?
  rw [h]
  exact ⟨_, rfl⟩

/-- A chain for which a property is declared has a style. -/
theorem exists_css {v : String} (hk : k ∉ blurProperties)
    (h : (head.declared placement).last? k = some v) :
    ∃ css, head.css? placement = some css ∧ css.get? k = some v := by
  suffices hstyled : ∃ css, head.css? placement = some css by
    obtain ⟨css, hcss⟩ := hstyled
    exact ⟨css, hcss, (get?_css hk hcss).trans h⟩
  cases hown : head.unwrapped.ownDeclarations? with
  | some own => exact exists_css_of_own hown placement
  | none =>
    unfold declared at h
    rw [hown, Option.getD_none, List.nil_append, ← get?_extraCss hk] at h
    -- What declares the property is around the widget, so that is not nothing.
    have hsome : (extraCss head.wrappers placement).isEmpty = false := by
      rw [Record.isEmpty, List.isEmpty_eq_false_iff_exists_mem]
      exact ⟨_, Record.get?_eq_some_iff.mp h⟩
    unfold css?
    simp only [hown, hsome]
    exact ⟨_, rfl⟩

end Widget

end DesignCompiler
