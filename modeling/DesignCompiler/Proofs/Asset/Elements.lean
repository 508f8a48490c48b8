import DesignCompiler.Emit.Page
import DesignCompiler.Emit.React
import DesignCompiler.Proofs.Asset.Modules
import DesignCompiler.Proofs.Emit.Content
import DesignCompiler.Proofs.Style.ClassName
/-!
# References in elements

An element of the web has references in two places, in its fixed attributes and in the style that is
bound to it, and each output writes both in a way of its own. `StyleBinding.Leads` says of a binding
that it keeps references as they are there. All four bindings do, so the markup of a tree has only
references to images of the tree (`StyleBinding.cited_markup`).

This does not say which images those are. An icon has its source for an attribute whether it has a
glyph or not.
-/

namespace DesignCompiler

variable {P : String → Prop} {language : Language}

/-! ### Attributes -/

/-- The attributes that elements have by themselves. -/
def elementAttributes : List String :=
  ["src", "alt", "width", "height", "viewBox", "fill", "xmlns", "style", "d", "fill-rule",
    "clip-rule", "stroke", "stroke-width"]

/-- **An attribute as it comes with a design.** -/
structure Attribute.Clean (P : String → Prop) (a : Attribute) : Prop where
  name : a.name ∈ elementAttributes
  text : ∀ value, a.value = .text value → DesignCompiler.Clean P value
  record : ∀ entries, a.value = .record entries → CleanDeclarations P entries

/-- An attribute of an element is clean with a clean value. -/
theorem Attribute.Clean.ofText {name value : String} (hname : name ∈ elementAttributes)
    (hvalue : DesignCompiler.Clean P value) : (Attribute.ofText name value).Clean P where
  name := hname
  text _ h := by cases h; exact hvalue
  record _ h := by cases h

theorem Tame.clean {text : String} (h : Tame text) : Clean P text := Or.inl h.not_holdsPrefix

/-- A clean attribute leads when it is written as markup. -/
theorem Attribute.Clean.leads_plain {a : Attribute} (h : a.Clean P) :
    Leads P (a.plain.write .html) := by
  have hinert : ∀ name ∈ elementAttributes, Inert (name ++ "=") := by decide +kernel
  refine (hinert _ h.name).leads.append ?_
  unfold Attribute.plain
  cases hvalue : a.value with
  | text value => exact leads_inQuotes ((h.text value hvalue).escape escaping_markup).cites
  | record entries => exact (h.record entries hvalue).leads_markup

theorem leads_inBraces {text : String} (h : Leads P text) : Leads P (inBraces text) :=
  ((Inert.leads (by decide)).append h).append (Inert.leads (by decide))

/-- **A clean attribute leads in a script,** whether it is quoted, in braces or a record of styles.
-/
theorem Attribute.Clean.leads_scriptAttribute {a : Attribute} (h : a.Clean P)
    (hlanguage : language.isScript = true) :
    Leads P ((React.scriptAttribute a).write language) := by
  have hinert : ∀ name ∈ elementAttributes, Inert (React.attributeName name ++ "=") := by
    decide +kernel
  refine (hinert _ h.name).leads.append ?_
  unfold React.scriptAttribute
  -- A text is quoted if it can be, and in braces otherwise; a record is always in braces.
  cases hvalue : a.value with
  | text value =>
    have hclean := h.text value hvalue
    simp only [hlanguage, if_true]
    split
    · exact leads_inBraces hclean.leads_scriptQuoted
    · exact leads_inQuotes hclean.cites
  | record entries => exact leads_inBraces (h.record entries hvalue).leads_styleObject

/-! ### Elements of widgets -/

/-- The texts of a leaf. -/
def Leaf.texts : Leaf → List String
  | text content => [content.data, content.style.fontFamily]
  | image content => [content.alt]
  | icon content => content.glyph.toList
  | vector content => content.paths.map (·.data)
  | boolean content => content.paths.map (·.data)

namespace Widget

/-- The texts of a widget that are written as they are. -/
def texts : Widget → List String
  | leaf key _ content => key.originName :: content.texts
  | box .. | wrap .. => []

/-- The images of a widget, its background among them. -/
def images : Widget → List ImageRef
  | leaf _ _ content => content.image?.toList
  | box _ style _ _ =>
    match style.background with
    | some (.image ref) => [ref]
    | _ => []
  | wrap .. => []

/-- **A widget as it comes with a design:** the prefix is in none of its texts, and in its images only
in front of keys with the property. -/
structure Clean (P : String → Prop) (w : Widget) : Prop where
  texts : ∀ text ∈ w.texts, ¬ HoldsPrefix text
  images : ∀ ref ∈ w.images, DesignCompiler.Clean P ref.source

end Widget

/-- **An element as it comes with a design.** -/
structure OwnElement.Clean (P : String → Prop) (e : OwnElement) : Prop where
  attributes : ∀ a ∈ e.start.attributes, a.Clean P
  text : ∀ data, e.text = some data → ¬ HoldsPrefix data
  shapes : ∀ t ∈ e.shapes, ∀ a ∈ t.attributes, a.Clean P

/-- An attribute with a tame value, or with a given one. -/
def Attribute.TameBut (given : String) (a : Attribute) : Prop :=
  ∃ name ∈ elementAttributes, ∃ value, a = .ofText name value ∧ (value = given ∨ Tame value)

/-- An attribute that is tame but for one given text is clean if this text is. -/
theorem Attribute.TameBut.clean {given : String} {a : Attribute} (h : a.TameBut given)
    (hgiven : ¬ HoldsPrefix given) : a.Clean P := by
  obtain ⟨name, hname, value, rfl, rfl | hvalue⟩ := h
  · exact .ofText hname (Or.inl hgiven)
  · exact .ofText hname hvalue.clean

/-- **The path of a drawing** has tame attributes, but for its data. -/
theorem tameBut_pathTag (path : VectorPath) (fill : Option Color) (rule : Option WindingRule)
    (stroke : Option Border) :
    ∀ a ∈ (pathTag path fill rule stroke).attributes, a.TameBut path.data := by
  have htame : ∀ {name value : String}, name ∈ elementAttributes → Tame value →
      (Attribute.ofText name value).TameBut path.data := fun hname hvalue =>
    ⟨_, hname, _, rfl, Or.inr hvalue⟩
  have hfill : Tame ((fill.map (·.cssText)).getD "none") := by
    cases fill with
    | none => decide
    | some c => exact tame_cssText c
  unfold pathTag
  simp only [List.forall_mem_append, List.forall_mem_singleton]
  -- The path data is the given text; the fill, the rule and the stroke are written as names, colors
  -- and numbers.
  refine ⟨⟨⟨⟨_, by decide, _, rfl, Or.inl rfl⟩, ?_⟩, htame (by decide) hfill⟩, ?_⟩
  · split
    · exact List.forall_mem_cons.mpr ⟨htame (by decide) (by decide),
        List.forall_mem_singleton.mpr (htame (by decide) (by decide))⟩
    · exact List.forall_mem_nil _
  · cases stroke with
    | none => exact List.forall_mem_nil _
    | some border =>
      exact List.forall_mem_cons.mpr ⟨htame (by decide) (tame_cssText _),
        List.forall_mem_singleton.mpr (htame (by decide) (tame_cssNumber _))⟩

/-- The namespace of drawings. -/
def svgNamespace : String := "http://www.w3.org/2000/svg"

/-- **A drawing** has tame attributes, but for the namespace and what lets its paths overflow. -/
theorem tameBut_svgElement (width height : Float) (shapes : List StartTag) :
    ∀ a ∈ (svgElement width height shapes).start.attributes,
      a.TameBut svgNamespace ∨ a = ⟨"style", .record [("overflow", "visible")]⟩ := by
  have htame : ∀ {name value : String}, name ∈ elementAttributes → Tame value →
      (Attribute.ofText name value).TameBut svgNamespace := fun hname hvalue =>
    ⟨_, hname, _, rfl, Or.inr hvalue⟩
  have hviewBox : Tame s!"0 0 {cssNumber width} {cssNumber height}" := by simp +decide
  simp only [svgElement, List.forall_mem_cons, List.not_mem_nil, false_imp_iff, implies_true,
    and_true]
  exact ⟨Or.inl (htame (by decide) (tame_cssNumber _)),
    Or.inl (htame (by decide) (tame_cssNumber _)), Or.inl (htame (by decide) hviewBox),
    Or.inl (htame (by decide) (by decide)), Or.inl ⟨_, by decide, _, rfl, Or.inl rfl⟩, Or.inr trivial⟩

/-- The tag of a path has no references if its path data has none. -/
theorem clean_pathTag {path : VectorPath} (h : ¬ HoldsPrefix path.data) (fill : Option Color)
    (rule : Option WindingRule) (stroke : Option Border) :
    ∀ a ∈ (pathTag path fill rule stroke).attributes, a.Clean P :=
  fun a ha => (tameBut_pathTag path fill rule stroke a ha).clean h

/-- A drawing has those of its shapes. -/
theorem clean_svgElement (width height : Float) {shapes : List StartTag}
    (h : ∀ t ∈ shapes, ∀ a ∈ t.attributes, a.Clean P) :
    (svgElement width height shapes).Clean P where
  attributes a ha := by
    have hnamespace : ¬ HoldsPrefix svgNamespace := by decide +kernel
    have hstyle : CleanDeclarations P [("overflow", "visible")] := by
      refine List.forall_mem_singleton.mpr ⟨by decide, Or.inl ?_⟩
      exact (show Tame "visible" by decide).not_holdsPrefix
    -- Among the values only the namespace is not tame; it has an address in it, but no prefix.
    rcases tameBut_svgElement width height shapes a ha with htame | rfl
    · exact htame.clean hnamespace
    · exact ⟨by decide, fun _ h => (by cases h), fun _ h => by cases h; exact hstyle⟩
  text _ h := by cases h
  shapes := h

/-- An image has that of its source. -/
theorem clean_img {src alt : String} (hsrc : Clean P src) (halt : ¬ HoldsPrefix alt) :
    OwnElement.Clean P ⟨⟨"img", [.ofText "src" src, .ofText "alt" alt]⟩, none, []⟩ where
  attributes := List.forall_mem_cons.mpr ⟨.ofText (by decide) hsrc,
    List.forall_mem_singleton.mpr (.ofText (by decide) (Or.inl halt))⟩
  text _ h := by cases h
  shapes _ h := absurd h List.not_mem_nil

/-- **The element of a widget is clean** if the widget is. -/
theorem Widget.Clean.element {w : Widget} (h : w.unwrapped.Clean P) : w.element.Clean P := by
  rw [← Widget.element_unwrapped]
  cases hend : w.unwrapped with
  | leaf key style content =>
    rw [hend] at h
    have htexts : ∀ text ∈ content.texts, ¬ HoldsPrefix text :=
      fun text htext => h.texts text (List.mem_cons_of_mem _ htext)
    cases content with
    | text content =>
      refine ⟨fun _ ha => absurd ha List.not_mem_nil, fun data hdata => ?_,
        fun _ ht => absurd ht List.not_mem_nil⟩
      cases hdata
      exact htexts _ List.mem_cons_self
    | image content =>
      exact clean_img (h.images _ List.mem_cons_self) (htexts _ List.mem_cons_self)
    | icon content =>
      refine clean_img (h.images _ List.mem_cons_self) ?_
      -- An icon is described by its glyph, or by its name.
      cases hglyph : content.glyph with
      | none => exact h.texts _ List.mem_cons_self
      | some glyph => exact htexts _ (Option.mem_toList.mpr hglyph)
    | vector content =>
      exact clean_svgElement _ _ (List.forall_mem_map.mpr fun path hpath =>
        clean_pathTag (htexts _ (List.mem_map_of_mem hpath)) _ _ _)
    | boolean content =>
      exact clean_svgElement _ _ (List.forall_mem_map.mpr fun path hpath =>
        clean_pathTag (htexts _ (List.mem_map_of_mem hpath)) _ _ _)
  | box =>
    refine ⟨fun _ ha => absurd ha List.not_mem_nil, fun data hdata => ?_,
      fun _ ht => absurd ht List.not_mem_nil⟩
    cases hdata
  | wrap key style wrapper child =>
    have hnone := Widget.isWrapper_unwrapped w
    rw [hend] at hnone
    cases hnone

/-- **The computed style of a chain is clean** if the widget at its end is. -/
theorem Chain.clean_css {c : Chain} (h : c.widget.Clean P) {css : Css} (hcss : c.css? = some css) :
    CleanDeclarations P css.toList := by
  refine (c.composed_css hcss).clean fun value hvalue => ?_
  change c.widget.FreeValue value at hvalue
  unfold Widget.FreeValue at hvalue
  split at hvalue
  · -- The name of a font is put in quotes, which are not in the prefix.
    next key style content hend =>
    rw [hend] at h
    have hfamily : ¬ HoldsPrefix content.style.fontFamily :=
      h.texts _ (List.mem_cons_of_mem _ (List.mem_cons_of_mem _ List.mem_cons_self))
    rw [hvalue]
    exact Or.inl (not_holdsPrefix_quoted hfamily)
  · next key style arrangement children hend =>
    rw [hend] at h
    obtain ⟨ref, hbackground, rfl⟩ := hvalue
    have hmem : ref ∈ (Widget.box key style arrangement children).images := by
      simp [Widget.images, hbackground]
    exact Or.inr ⟨_, h.images ref hmem, rfl⟩
  · exact hvalue.elim

/-! ### Bindings -/

/-- **An entry as it comes with a design.** -/
def StyleEntry.Clean (P : String → Prop) (e : StyleEntry) : Prop :=
  ∀ s, e.styling = some s → CleanDeclarations P s.style.toList ∧ IsIdentifier s.declaration.name

/-- **A binding that keeps references as they are:** whatever it writes leads. -/
structure StyleBinding.Leads (b : StyleBinding) (language : Language) (P : String → Prop) :
    Prop where
  convert : ∀ a : Attribute, a.Clean P → DesignCompiler.Leads P ((b.convert a).write language)
  bind : ∀ e : StyleEntry, e.Clean P → ∀ a ∈ b.bind e, DesignCompiler.Leads P (a.write language)

/-- Classes add no references to elements. -/
theorem Page.leads_classBinding : classBinding.Leads .html P where
  convert _ h := h.leads_plain
  bind e he a ha := by
    cases hstyling : e.styling with
    | none => simp [classBinding, hstyling] at ha
    | some styling =>
      have htame : Clean P (className styling.declaration.name) :=
        (tame_kebabCase (he styling hstyling).2).clean
      simp only [classBinding, hstyling, List.mem_singleton] at ha
      -- The class is the name in kebab case, which is tame, and stands in quotes.
      rw [ha]
      exact (show Inert ("class" ++ "=") by decide).leads.append
        (leads_inQuotes (htame.escape escaping_markup).cites)

/-- A style in an attribute leads if clean styles do when they are written so. -/
theorem leads_styleAttribute {value : Css → AttributeValue}
    (h : ∀ css : Css, CleanDeclarations P css.toList →
      Leads P (Attribute.write language ⟨"style", value css⟩)) {e : StyleEntry} (he : e.Clean P) :
    ∀ a ∈ StyleBinding.styleAttribute value e, Leads P (a.write language) := by
  intro a ha
  unfold StyleBinding.styleAttribute at ha
  split at ha
  · next styling hstyling =>
    split at ha
    · exact absurd ha List.not_mem_nil
    · rw [List.mem_singleton.mp ha]
      exact h _ (he styling hstyling).1
  · exact absurd ha List.not_mem_nil

/-- Inline styles of a page add the references of the styles and no others. -/
theorem Page.leads_inlineBinding : inlineBinding.Leads .html P where
  convert _ h := h.leads_plain
  bind e he := by
    show ∀ a ∈ StyleBinding.styleAttribute (fun css => .text css.inline) e, Leads P (a.write .html)
    refine leads_styleAttribute (fun css hcss => ?_) he
    exact (show Inert ("style" ++ "=") by decide).leads.append hcss.leads_markup

/-- So do the style objects of a script. -/
theorem React.leads_inlineBinding (hlanguage : language.isScript = true) :
    inlineBinding.Leads language P where
  convert _ h := h.leads_scriptAttribute hlanguage
  bind e he := by
    show ∀ a ∈ StyleBinding.styleAttribute (fun css => .record css.camelCased) e,
      Leads P (a.write language)
    refine leads_styleAttribute (fun css hcss => ?_) he
    exact (show Inert ("style" ++ "=") by decide).leads.append
      (leads_inBraces hcss.leads_styleObject)

/-- Shared styles are declared elsewhere, and the elements have only their attributes. -/
theorem React.leads_sharedBinding (hlanguage : language.isScript = true) :
    sharedBinding.Leads language P where
  convert _ h := h.leads_scriptAttribute hlanguage
  bind _ _ _ ha := absurd ha List.not_mem_nil

/-! ### Trees -/

/-- **An entry that belongs to a chain:** it has the attributes of its element, a name or the tag of it,
and its style under an identifier. -/
structure StyleEntry.BelongsTo (e : StyleEntry) (c : Chain) : Prop where
  attributes : e.attributes = c.element.start.attributes
  tag : e.tag = c.element.start.name ∨ IsIdentifier e.tag
  styling : ∀ s, e.styling = some s → c.css? = some s.style ∧ IsIdentifier s.declaration.name

theorem StyleEntry.BelongsTo.clean {e : StyleEntry} {c : Chain} (h : e.BelongsTo c)
    (hc : c.widget.Clean P) : e.Clean P :=
  fun s hs => ⟨c.clean_css hc (h.styling s hs).1, (h.styling s hs).2⟩

/-- The elements of widgets have plain tags. -/
theorem Widget.tame_start (w : Widget) : Tame w.element.start.name := by
  have htame : ∀ tag ∈ contentTags, Tame tag := by decide
  induction w using Widget.induction with
  | leaf key style content => exact htame _ (content.start_mem_contentTags key.originName)
  | box => exact (show Tame "div" by decide)
  | wrap key style wrapper child ih => exact ih

namespace StyleBinding

variable {b : StyleBinding} {sheet : StyleSheet}

/-- The start tag of a clean chain has no references but those of its entry. -/
theorem Leads.cited_chainTag (hb : b.Leads language P) {c : Chain} (hc : c.widget.Clean P)
    {e : StyleEntry} (he : sheet.entry? c.id = some e) (hbelongs : e.BelongsTo c) :
    (b.chainTag sheet c).Cited language P := by
  unfold chainTag startTag
  rw [he]
  constructor
  · -- The tag is that of the element or the name of a component, and neither holds the prefix.
    rcases hbelongs.tag with htag | htag
    · exact htag ▸ c.head.tame_start.not_holdsPrefix
    · exact (tame_of_alphanum htag.alphanum).not_holdsPrefix
  · rw [List.forall_mem_append, List.forall_mem_map, hbelongs.attributes]
    exact ⟨fun a ha => hb.convert a (hc.element.attributes a ha),
      hb.bind e (hbelongs.clean hc)⟩

/-- What is in an element in front of its children is clean if the widget is. -/
theorem Leads.cited_content (hb : b.Leads language P) {w : Widget} (hw : w.unwrapped.Clean P) :
    ∀ m ∈ b.content w.element, m.Cited language P := by
  have hclean := hw.element
  rw [content, List.forall_mem_append, List.forall_mem_map]
  constructor
  · intro m hm
    obtain ⟨data, hdata, rfl⟩ := Option.map_eq_some_iff.mp (Option.mem_toList.mp hm)
    exact .text (hclean.text data hdata)
  · intro t ht
    refine .element ⟨?_, ?_⟩ (List.forall_mem_nil _)
    · rw [w.name_shapes t ht]
      exact (show Tame "path" by decide).not_holdsPrefix
    · exact List.forall_mem_map.mpr fun a ha => hb.convert a (hclean.shapes t ht a ha)

/-- **The markup of a tree** has only references that its widgets have. -/
theorem Leads.cited_markup (hb : b.Leads language P) (c : Chain) :
    (∀ d ∈ c.head.chains c.placement, d.widget.Clean P ∧
      ∃ e, sheet.entry? d.id = some e ∧ e.BelongsTo d) →
      (b.markup sheet c.head).Cited language P := by
  -- The element of a chain has its own tag and content, and beneath it the elements of the chains
  -- in it.
  induction c using Chain.induction with
  | step c ih =>
    intro hall
    rw [Widget.chains_eq, List.forall_mem_cons] at hall
    obtain ⟨⟨hclean, e, he, hbelongs⟩, hbeneath⟩ := hall
    rw [markup_head]
    refine .element (hb.cited_chainTag hclean he hbelongs) ?_
    rw [List.forall_mem_append, List.forall_mem_map]
    exact ⟨hb.cited_content hclean, fun d hd =>
      ih d hd fun e he => hbeneath e (List.mem_flatMap.mpr ⟨d, hd, he⟩)⟩

end StyleBinding

end DesignCompiler
