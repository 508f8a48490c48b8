import DesignCompiler.Proofs.Emit.Page
import DesignCompiler.Proofs.Emit.React
/-!
# The content of markup

What a page shows of itself are texts, images and drawings; the other elements are boxes around
them, and the paths inside drawings. `Module.ShowsInOrder` says of a module of markup that its
content elements are those of the leaves of a tree, in the order of the walk: a text with just the
data of its leaf in it, an image with the source of its leaf.

Tags are read through the declarations of the module (`Module.htmlTag`), since a styled component is
an element of the tag that it is declared for. That this reading gives every element back its own tag
is where the modes differ (`StyleSheet.Fits`). Sharing must not mistake a tag for the name of a
declaration and nothing plain may be taken for a component, and both hold since declarations have
identifiers for their names and plain tags are in lower case.
-/

namespace DesignCompiler

/-! ### Content elements -/

/-- The tags of elements that show something themselves. -/
def contentTags : List String := ["img", "svg"] ++ TextTag.all.map (·.html)

/-- The value of the first attribute of a name. -/
def StartTag.attribute? (t : StartTag) (name : String) : Option AttributeValue :=
  (t.attributes.find? (·.name == name)).map (·.value)

/-- Whether a node is a content element, where tags are read by `htmlTag`. -/
def Markup.isContent (htmlTag : String → String) : Markup → Bool
  | .element start _ => contentTags.contains (htmlTag start.name)
  | .text _ => false

/-- The content elements of a tree, parents first. -/
def Markup.contentElements (htmlTag : String → String) (m : Markup) : List Markup :=
  m.elements.filter (·.isContent htmlTag)

/-- **The element that shows a leaf:** a text of the tag asked for with just the data in it, an image
from the source, or a drawing. -/
def Leaf.ShownBy (htmlTag : String → String) : Leaf → Markup → Prop
  | .text content, .element start inner =>
    htmlTag start.name = (content.tag.map (·.html)).getD "span" ∧ inner = [.text content.data]
  | .image content, .element start _ =>
    htmlTag start.name = "img" ∧ start.attribute? "src" = some (.text content.src.source)
  | .icon content, .element start _ =>
    htmlTag start.name = "img" ∧ start.attribute? "src" = some (.text content.src.source)
  | .vector _, .element start _ | .boolean _, .element start _ => htmlTag start.name = "svg"
  | _, .text _ => False

/-- The tag that a declaration gives to a name. -/
def Declaration.htmlTag? (name : String) : Declaration → Option String
  | .styledComponent component tag _ => if component == name then some tag else none
  | .cssRule .. => none

/-- The HTML tag of an element of a module: that of the component it is, or its own. -/
def Module.htmlTag (m : Module) (name : String) : String :=
  (m.declarations.findSome? (·.htmlTag? name)).getD name

/-- **A module of markup shows some leaves** and nothing else, in their order. -/
def Module.ShowsInOrder (m : Module) (leaves : List Leaf) : Prop :=
  ∃ tree, m.body = [.markup tree] ∧
    List.Forall₂ (Leaf.ShownBy m.htmlTag) leaves (tree.contentElements m.htmlTag)

/-! ### Plain tags -/

theorem html_mem_contentTags (tag : TextTag) : tag.html ∈ contentTags := by
  cases tag <;> decide

/-- **The element of a leaf has the tag of a content.** -/
theorem Leaf.start_mem_contentTags (l : Leaf) (name : String) :
    (l.element name).start.name ∈ contentTags := by
  cases l with
  | text content =>
    simp only [Leaf.element]
    cases content.tag with
    | none => decide
    | some tag => exact html_mem_contentTags tag
  | image content => show "img" ∈ contentTags; decide
  | icon content => show "img" ∈ contentTags; decide
  | vector content => show "svg" ∈ contentTags; decide
  | boolean content => show "svg" ∈ contentTags; decide

/-- No element of a widget is named like a declaration. -/
theorem Widget.not_isIdentifier_start (w : Widget) : ¬ IsIdentifier w.element.start.name := by
  induction w using Widget.induction with
  | leaf key style content =>
    have hall : ∀ tag ∈ contentTags, tag.toList.head?.all (!·.isUpper) = true := by decide
    exact not_isIdentifier (hall _ (content.start_mem_contentTags key.originName))
  | box =>
    show ¬ IsIdentifier "div"
    exact not_isIdentifier (by decide)
  | wrap key style wrapper child ih => exact ih

/-- The empty elements inside the element of a widget are paths. -/
theorem Widget.name_shapes (w : Widget) : ∀ t ∈ w.element.shapes, t.name = "path" := by
  -- Only drawings have shapes, and all of these are paths.
  induction w using Widget.induction with
  | leaf key style content =>
    intro t ht
    cases content with
    | vector content =>
      obtain ⟨path, -, rfl⟩ := List.mem_map.mp ht
      rfl
    | boolean content =>
      obtain ⟨path, -, rfl⟩ := List.mem_map.mp ht
      rfl
    | _ => exact absurd ht List.not_mem_nil
  | box => exact fun t ht => absurd ht List.not_mem_nil
  | wrap key style wrapper child ih => exact ih

/-! ### One walk for all modes -/

/-- **The entry of a chain fits it:** it has the attributes of its element, and its tag is read as that
of the element. -/
def StyleSheet.Fits (s : StyleSheet) (htmlTag : String → String) (c : Chain) : Prop :=
  ∃ e, s.entry? c.id = some e ∧ e.attributes = c.element.start.attributes ∧
    htmlTag e.tag = c.element.start.name

namespace StyleBinding

variable {b : StyleBinding} {sheet : StyleSheet} {htmlTag : String → String}

/-- Nothing that is written for a chain itself inside its element is a content element. -/
theorem contentElements_content (hpath : htmlTag "path" = "path") (c : Chain) :
    (Markup.elementsAll (b.content c.element)).filter (·.isContent htmlTag) = [] := by
  rw [List.filter_eq_nil_iff, Markup.elementsAll_eq_flatMap]
  intro m hm
  obtain ⟨node, hnode, hm⟩ := List.mem_flatMap.mp hm
  -- It is a text, or the paths of a drawing.
  rcases List.mem_append.mp hnode with hnode | hnode
  · obtain ⟨text, -, rfl⟩ := Option.map_eq_some_iff.mp (Option.mem_toList.mp hnode)
    exact absurd hm List.not_mem_nil
  · obtain ⟨t, ht, rfl⟩ := List.mem_map.mp hnode
    have hname : t.name = "path" := c.head.name_shapes t ht
    rw [shape, Markup.elements, Markup.elementsAll, List.mem_singleton] at hm
    rw [hm, Markup.isContent, hname, hpath]
    decide

/-- **The content elements of the element of a chain** are itself, if it is one, and those of the
elements right beneath it. -/
theorem contentElements_markup (hpath : htmlTag "path" = "path") (c : Chain) :
    (b.markup sheet c.head).contentElements htmlTag =
      (if contentTags.contains (htmlTag (b.chainTag sheet c).name) then [b.markup sheet c.head]
        else []) ++
      c.children.flatMap fun d => (b.markup sheet d.head).contentElements htmlTag := by
  -- The content of the element itself has paths at most, and what is beneath it comes from the
  -- chains in it.
  have hbeneath : (Markup.elementsAll (c.children.map fun d => b.markup sheet d.head)).filter
      (·.isContent htmlTag) =
        c.children.flatMap fun d => (b.markup sheet d.head).contentElements htmlTag := by
    rw [Markup.elementsAll_eq_flatMap, List.flatMap_map, List.filter_flatMap]
    rfl
  rw [Markup.contentElements, markup_head, Markup.elements, List.filter_cons,
    Markup.elementsAll_eq_flatMap, List.flatMap_append, List.filter_append,
    ← Markup.elementsAll_eq_flatMap, ← Markup.elementsAll_eq_flatMap,
    contentElements_content hpath, hbeneath, List.nil_append, Markup.isContent]
  split <;> rfl

/-- The tag of a chain is read as that of its element, with what the styling adds behind its
attributes. -/
theorem chainTag_of_fits {c : Chain} (h : sheet.Fits htmlTag c) :
    htmlTag (b.chainTag sheet c).name = c.element.start.name ∧
      ∃ bound, (b.chainTag sheet c).attributes =
        c.element.start.attributes.map b.convert ++ bound := by
  obtain ⟨e, hentry, hattributes, htag⟩ := h
  unfold chainTag startTag
  rw [hentry]
  exact ⟨htag, b.bind e, congrArg (fun as => as.map b.convert ++ b.bind e) hattributes⟩

/-- The element of a leaf shows it. -/
theorem shownBy_chainTag (hsrc : ∀ value, b.convert (.ofText "src" value) = .ofText "src" value)
    {c : Chain} {content : Leaf} {name : String} {inner : List Markup}
    (hfits : sheet.Fits htmlTag c) (helement : c.element = content.element name)
    (hinner : inner = b.content c.element) :
    content.ShownBy htmlTag (.element (b.chainTag sheet c) inner) := by
  obtain ⟨hname, bound, hattributes⟩ := chainTag_of_fits (b := b) hfits
  rw [helement] at hname hattributes hinner
  -- The source is the first attribute that an image has.
  have hattribute : ∀ source alt, (content.element name).start.attributes =
      [.ofText "src" source, .ofText "alt" alt] →
        (b.chainTag sheet c).attribute? "src" = some (.text source) := by
    intro source alt h
    rw [StartTag.attribute?, hattributes, h, List.map_cons, hsrc, List.cons_append]
    rfl
  cases content with
  | text content => exact ⟨hname, hinner⟩
  | image content => exact ⟨hname, hattribute _ _ rfl⟩
  | icon content => exact ⟨hname, hattribute _ _ rfl⟩
  | vector content => exact hname
  | boolean content => exact hname

/-- **The markup of a tree shows its leaves in order,** where the entries fit the chains. -/
theorem forall₂_contentElements (hpath : htmlTag "path" = "path")
    (hsrc : ∀ value, b.convert (.ofText "src" value) = .ofText "src" value) (c : Chain) :
    (∀ d ∈ c.head.chains c.placement, sheet.Fits htmlTag d) →
      List.Forall₂ (Leaf.ShownBy htmlTag) c.head.leaves
        ((b.markup sheet c.head).contentElements htmlTag) := by
  induction c using Chain.induction with
  | step c ih =>
    intro hfits
    rw [Widget.chains_eq, List.forall_mem_cons] at hfits
    obtain ⟨hhead, hbeneath⟩ := hfits
    have hname := (chainTag_of_fits (b := b) hhead).1
    rw [contentElements_markup hpath, hname, ← Widget.leaves_unwrapped]
    -- A chain ends in a leaf, which is shown, or in a box, which shows what its children show.
    cases hend : c.head.unwrapped with
    | leaf key style content =>
      have helement : c.element = content.element key.originName := by
        rw [Chain.element, ← Widget.element_unwrapped, hend]
        rfl
      have hchildren : c.children = [] := by rw [Chain.children, hend]
      have htag : contentTags.contains c.element.start.name = true := by
        rw [helement, List.contains_iff_mem]
        exact content.start_mem_contentTags key.originName
      rw [if_pos htag, hchildren, List.flatMap_nil, List.append_nil, Widget.leaves_leaf, markup_head,
        hchildren, List.map_nil, List.append_nil]
      exact .cons (shownBy_chainTag hsrc hhead helement rfl) .nil
    | box key style arrangement children =>
      have helement : c.element.start.name = "div" := by
        rw [Chain.element, ← Widget.element_unwrapped, hend]
        rfl
      have hchildren : c.children = children.map fun d => ⟨d.item, arrangement.placement d⟩ := by
        rw [Chain.children, hend]
      have htag : ¬ contentTags.contains c.element.start.name = true := by
        rw [helement]
        decide
      have hleaves : children.flatMap (·.item.leaves) = c.children.flatMap (·.head.leaves) := by
        rw [hchildren, List.flatMap_map]
      rw [if_neg htag, List.nil_append, Widget.leaves_box, hleaves]
      exact forall₂_flatMap fun d hd =>
        ih d hd fun e he => hbeneath e (List.mem_flatMap.mpr ⟨d, hd, he⟩)
    | wrap key style wrapper child =>
      have hnone := Widget.isWrapper_unwrapped c.head
      rw [hend] at hnone
      cases hnone

end StyleBinding

/-! ### Sheets that fit -/

namespace StyleSheet

/-- **Without sharing, a sheet has the entries it is made of.** -/
theorem lookup_ofMap_unshared (map : Record StyleEntry) (id : String) :
    entry? (ofMap map false) id = map.get? id := by
  -- Without sharing, every entry passes through as it is.
  have hpairs : ∀ pairs seen, (shareDeclarations false seen pairs).1 = pairs := by
    intro pairs
    induction pairs with
    | nil => exact fun _ => rfl
    | cons pair rest ih =>
      intro seen
      obtain ⟨id, entry⟩ := pair
      cases hstyling : entry.styling with
      | none => simp only [shareDeclarations, hstyling, ih]
      | some s => simp [shareDeclarations, hstyling, ih]
  have hentries : (ofMap map false).entries = map := Record.ext (hpairs map.toList [])
  unfold entry?
  rw [hentries]

variable {w : Widget} {c : Chain} {htmlTag : String → String}

/-- The tag of the entry of a chain is that of its element, unless declarations give their names to
tags. -/
theorem entry_tag {p : StylePreferences} (hp : p.renameTag = false) (c : Chain) (name : String) :
    (c.entry p name).tag = c.element.start.name := by
  unfold Chain.entry
  split
  · rfl
  · simp [hp]

/-- A sheet without sharing and without new tags fits, if plain tags are read as they are. -/
theorem fits_unshared (hids : (w.contents.map (·.id)).Nodup) {p : StylePreferences}
    (hp : p.renameTag = false) (n : Namer) (hread : ∀ tag, htmlTag tag = tag)
    (hc : c ∈ w.chains .root) : (ofMap (n.styleMap p w).1 false).Fits htmlTag c := by
  obtain ⟨name, hentry⟩ := Namer.exists_entry hids p n hc
  refine ⟨_, (lookup_ofMap_unshared ..).trans hentry, c.attributes_entry p name, ?_⟩
  rw [hread, entry_tag hp]

/-- A sheet with sharing and without new tags fits: a tag is not the name of a declaration, so it
stays when another declaration is taken. -/
theorem fits_shared (hids : (w.contents.map (·.id)).Nodup) {p : StylePreferences}
    (hp : p.renameTag = false) (n : Namer) (hread : ∀ tag, htmlTag tag = tag)
    (hc : c ∈ w.chains .root) : (ofMap (n.styleMap p w).1 true).Fits htmlTag c := by
  obtain ⟨name, hentry⟩ := Namer.exists_entry hids p n hc
  refine ⟨_, entry?_eq_some_iff.mpr ⟨_, hentry, rfl⟩, ?_, ?_⟩
  · rw [StyleEntry.attributes_shareIn, c.attributes_entry]
  · rw [hread, StyleEntry.tag_shareIn_of_ne, entry_tag hp]
    intro d hd htag
    -- Declarations in the map have identifiers for their names.
    have hidentifier := isIdentifier_declarationsOf hids p n d (mem_declarationsOf hentry hd)
    rw [← htag, entry_tag hp] at hidentifier
    exact c.head.not_isIdentifier_start hidentifier

end StyleSheet

/-! ### The modes -/

/-- Classes are declared by rules, so tags are read as they stand. -/
theorem Module.htmlTag_of_rules {m : Module} {rules : List StyleDeclaration}
    (h : m.declarations = rules.map Page.classRule) (tag : String) : m.htmlTag tag = tag := by
  have hnone : m.declarations.findSome? (·.htmlTag? tag) = none := by
    rw [h, List.findSome?_eq_none_iff]
    intro d hd
    obtain ⟨rule, -, rfl⟩ := List.mem_map.mp hd
    rfl
  rw [htmlTag, hnone, Option.getD_none]

/-- **A module written for a tree:** its body is the markup of the tree, and the entries that the
start tags are taken from fit the chains. -/
structure Module.WrittenFor (m : Module) (w : Widget) (b : StyleBinding) (sheet : StyleSheet) :
    Prop where
  body : m.body = [.markup (b.markup sheet w)]
  path : m.htmlTag "path" = "path"
  source : ∀ value, b.convert (.ofText "src" value) = .ofText "src" value
  fits : ∀ c ∈ w.chains .root, sheet.Fits m.htmlTag c

/-- A module that is written for a tree shows its leaves. -/
theorem Module.WrittenFor.showsInOrder {m : Module} {w : Widget} {b : StyleBinding}
    {sheet : StyleSheet} (h : m.WrittenFor w b sheet) : m.ShowsInOrder w.leaves :=
  ⟨_, h.body, StyleBinding.forall₂_contentElements h.path h.source ⟨w, .root⟩ h.fits⟩

namespace React

/-- With inline styles nothing is declared, and the body is the markup of the tree. -/
theorem emit_inlineCss {o : ReactOptions} (h : o.styling = .inlineCss) (w : Widget) :
    (emit o w).declarations = [] ∧
      (emit o w).body =
        [.markup (inlineBinding.markup (.ofMap ((namer w).styleMap {} w).1 false) w)] := by
  have hpackage : o.styling.package? = none := by rw [h]; rfl
  unfold emit namer
  rcases w.componentName .react with ⟨name, namer⟩
  simp only [hpackage]
  exact ⟨rfl, rfl⟩

/-- The source of an image is under its own name in scripts. -/
theorem scriptAttribute_src (value : String) :
    scriptAttribute (.ofText "src" value) = .ofText "src" value := by
  have hname : attributeName "src" = "src" := by decide
  simp only [scriptAttribute, Attribute.ofText, hname]

variable {w : Widget}

/-- A declared component is read as the tag that it is made of. -/
theorem htmlTag_declared {m : Module} {ds : List StyleDeclaration}
    (h : m.declarations = ds.map styledComponent) (hnames : (ds.map (·.name)).Nodup)
    {d : StyleDeclaration} (hd : d ∈ ds) : m.htmlTag d.name = d.htmlTag := by
  have hfound : ∀ es : List StyleDeclaration, d ∈ es → (es.map (·.name)).Nodup →
      (es.map styledComponent).findSome? (·.htmlTag? d.name) = some d.htmlTag := by
    intro es
    induction es with
    | nil => exact fun hd _ => absurd hd List.not_mem_nil
    | cons e es ih =>
      intro hd hnodup
      rw [List.map_cons, List.nodup_cons] at hnodup
      rw [List.map_cons, List.findSome?_cons]
      rcases List.mem_cons.mp hd with rfl | hd
      · simp [styledComponent, Declaration.htmlTag?]
      · -- Another component of this name would come twice.
        have hne : ¬ e.name = d.name := fun heq => hnodup.1 (heq ▸ List.mem_map_of_mem hd)
        have hpassed : Declaration.htmlTag? d.name (styledComponent e) = none := by
          simp [styledComponent, Declaration.htmlTag?, hne]
        rw [hpassed]
        exact ih hd hnodup.2
  rw [Module.htmlTag, h, hfound ds hd hnames, Option.getD_some]

/-- A tag that is no identifier is not the name of a component. -/
theorem htmlTag_plain {m : Module} {ds : List StyleDeclaration}
    (h : m.declarations = ds.map styledComponent) (hnames : ∀ d ∈ ds, IsIdentifier d.name)
    {tag : String} (htag : ¬ IsIdentifier tag) : m.htmlTag tag = tag := by
  have hnone : m.declarations.findSome? (·.htmlTag? tag) = none := by
    rw [h, List.findSome?_eq_none_iff]
    intro e he
    obtain ⟨d, hd, rfl⟩ := List.mem_map.mp he
    have hne : ¬ d.name = tag := fun heq => htag (heq ▸ hnames d hd)
    simp [styledComponent, Declaration.htmlTag?, hne]
  rw [Module.htmlTag, hnone, Option.getD_none]

/-- A module is written for its tree, however it is styled. -/
theorem exists_writtenFor (hids : (w.contents.map (·.id)).Nodup) (o : ReactOptions) :
    ∃ b sheet, (emit o w).WrittenFor w b sheet := by
  cases hstyling : o.styling with
  | inlineCss =>
    obtain ⟨hdeclarations, hbody⟩ := emit_inlineCss hstyling w
    have hrules : (emit o w).declarations = List.map Page.classRule [] := hdeclarations
    have hread : ∀ tag, (emit o w).htmlTag tag = tag := Module.htmlTag_of_rules hrules
    exact ⟨_, _, hbody, hread _, scriptAttribute_src, fun c hc =>
      StyleSheet.fits_unshared hids rfl (namer w) hread hc⟩
  | styledComponents package =>
    obtain ⟨-, hdeclarations, hbody⟩ := emit_styledComponents hstyling w
    obtain ⟨hnodup, hshares⟩ := StyleSheet.sharesExactly_styleMap hids ⟨true, true⟩ (namer w)
    have hnames : ((sheet w).uniques.map (·.name)).Nodup :=
      (hshares.uniques_sublist.map _).nodup hnodup
    have hidentifiers : ∀ d ∈ (sheet w).uniques, IsIdentifier d.name :=
      StyleSheet.isIdentifier_uniques hids ⟨true, true⟩ (namer w)
    have hpath : (emit o w).htmlTag "path" = "path" :=
      htmlTag_plain hdeclarations hidentifiers (not_isIdentifier (by decide))
    refine ⟨_, _, hbody, hpath, scriptAttribute_src, fun c hc => ?_⟩
    obtain ⟨name, hentry⟩ := Namer.exists_entry hids ⟨true, true⟩ (namer w) hc
    have hsheet := StyleSheet.entry?_eq_some_iff.mpr ⟨_, hentry, rfl⟩
    have htag := name_chainTag hentry
    obtain ⟨hbare, hstyled⟩ := tagged_chainTag hids hc
    refine ⟨_, hsheet, ?_, ?_⟩
    · rw [StyleEntry.attributes_shareIn, c.attributes_entry]
    · -- The tag is the plain one, or a component that is declared for it.
      show (emit o w).htmlTag _ = _
      rw [styleMap] at htag
      rw [← htag]
      cases hcss : c.css? with
      | none =>
        rw [hbare hcss]
        exact htmlTag_plain hdeclarations hidentifiers c.head.not_isIdentifier_start
      | some css =>
        obtain ⟨d, hd, hname, hhtml, -⟩ := hstyled css hcss
        rw [hname, htmlTag_declared hdeclarations hnames hd, hhtml]

/-- **A module shows the leaves of its tree in order,** however it is styled. -/
theorem showsInOrder (hids : (w.contents.map (·.id)).Nodup) (o : ReactOptions) :
    (emit o w).ShowsInOrder w.leaves := by
  obtain ⟨b, sheet, h⟩ := exists_writtenFor hids o
  exact h.showsInOrder

end React

namespace Page

variable {w : Widget}

/-- With classes, a page declares its rules, and the body refers to them. -/
theorem emit_classes {o : PageOptions} (h : o.styling = .classes) (w : Widget) :
    (emit o w).declarations = (sheet w).uniques.map classRule ∧
      (emit o w).body = [.markup (classBinding.markup (sheet w) w)] := by
  unfold emit sheet
  rcases w.componentName .none with ⟨name, namer⟩
  simp only [h]
  exact ⟨rfl, rfl⟩

/-- With inline styles a page declares nothing. -/
theorem emit_inlineCss {o : PageOptions} (h : o.styling = .inlineCss) (w : Widget) :
    (emit o w).declarations = [] ∧ (emit o w).body =
      [.markup (inlineBinding.markup
        (.ofMap ((w.componentName .none).2.styleMap {} w).1 false) w)] := by
  unfold emit
  rcases w.componentName .none with ⟨name, namer⟩
  simp only [h]
  exact ⟨rfl, rfl⟩

/-- A page is written for its tree, however it is styled. -/
theorem exists_writtenFor (hids : (w.contents.map (·.id)).Nodup) (o : PageOptions) :
    ∃ b sheet, (emit o w).WrittenFor w b sheet := by
  -- In both stylings a tag is read as it stands.
  cases hstyling : o.styling with
  | classes =>
    obtain ⟨hdeclarations, hbody⟩ := emit_classes hstyling w
    have hread : ∀ tag, (emit o w).htmlTag tag = tag := Module.htmlTag_of_rules hdeclarations
    exact ⟨_, _, hbody, hread _, fun _ => rfl, fun c hc =>
      StyleSheet.fits_shared hids rfl _ hread hc⟩
  | inlineCss =>
    obtain ⟨hdeclarations, hbody⟩ := emit_inlineCss hstyling w
    have hrules : (emit o w).declarations = List.map Page.classRule [] := hdeclarations
    have hread : ∀ tag, (emit o w).htmlTag tag = tag := Module.htmlTag_of_rules hrules
    exact ⟨_, _, hbody, hread _, fun _ => rfl, fun c hc =>
      StyleSheet.fits_unshared hids rfl _ hread hc⟩

/-- **A page shows the leaves of its tree in order,** however it is styled. -/
theorem showsInOrder (hids : (w.contents.map (·.id)).Nodup) (o : PageOptions) :
    (emit o w).ShowsInOrder w.leaves := by
  obtain ⟨b, sheet, h⟩ := exists_writtenFor hids o
  exact h.showsInOrder

end Page

end DesignCompiler
