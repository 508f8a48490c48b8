import DesignCompiler.Proofs.Emit.Agreement
import DesignCompiler.Proofs.Markup.ReadBack
/-!
# Pages are read back

The markup of a page is read back as the tree that the page returns (`Page.markup_reads_back`). All
that has to be shown is that the tree can be (`Markup.Readable`): the names of its tags and
attributes are plain words whatever the widgets are called, a page has texts for its attributes, and
a text is alone in its element. The last is a matter of the widgets, since only leaves show texts and
a leaf has no children.
-/

namespace DesignCompiler

/-! ### The words of markup -/

/-- The names in a tag are names in markup. -/
def StartTag.Named (t : StartTag) : Prop :=
  IsMarkupName t.name ∧ ∀ a ∈ t.attributes, IsMarkupName a.name

/-- The tag of a path and its attributes have names that can be read. -/
theorem named_pathTag (path : VectorPath) (fill : Option Color) (rule : Option WindingRule)
    (stroke : Option Border) : (pathTag path fill rule stroke).Named := by
  have hpath : IsMarkupName "path" ∧ IsMarkupName "d" ∧ IsMarkupName "fill" := by decide
  have hrule : IsMarkupName "fill-rule" ∧ IsMarkupName "clip-rule" := by decide
  have hstroke : IsMarkupName "stroke" ∧ IsMarkupName "stroke-width" := by decide
  unfold pathTag
  refine ⟨hpath.1, ?_⟩
  simp only [List.forall_mem_append, List.forall_mem_singleton]
  refine ⟨⟨⟨hpath.2.1, ?_⟩, hpath.2.2⟩, ?_⟩
  · -- The rule and the stroke are there or not; their names can be read in any case.
    split
    · exact List.forall_mem_cons.mpr ⟨hrule.1, List.forall_mem_singleton.mpr hrule.2⟩
    · exact List.forall_mem_nil _
  · cases stroke with
    | some border =>
      exact List.forall_mem_cons.mpr ⟨hstroke.1, List.forall_mem_singleton.mpr hstroke.2⟩
    | none => exact List.forall_mem_nil _

/-- So has the tag of a drawing. -/
theorem named_svgElement (width height : Float) (shapes : List StartTag) :
    (svgElement width height shapes).start.Named := by
  have hname : IsMarkupName "svg" ∧ IsMarkupName "width" ∧ IsMarkupName "height" ∧
      IsMarkupName "viewBox" ∧ IsMarkupName "fill" ∧ IsMarkupName "xmlns" ∧ IsMarkupName "style" := by
    decide
  simpa [StartTag.Named, svgElement, Attribute.ofText] using hname

/-- So has an image. -/
theorem named_img (src alt : String) :
    StartTag.Named ⟨"img", [.ofText "src" src, .ofText "alt" alt]⟩ := by
  have hname : IsMarkupName "img" ∧ IsMarkupName "src" ∧ IsMarkupName "alt" := by decide
  simpa [StartTag.Named, Attribute.ofText] using hname

theorem isMarkupName_content : ∀ name ∈ contentTags, IsMarkupName name := by decide

/-- The element of a leaf has names that can be read. -/
theorem Leaf.named_element (l : Leaf) (name : String) : (l.element name).start.Named ∧
    ∀ t ∈ (l.element name).shapes, t.Named := by
  have hname := isMarkupName_content _ (l.start_mem_contentTags name)
  cases l with
  | text content => exact ⟨⟨hname, List.forall_mem_nil _⟩, List.forall_mem_nil _⟩
  | image content => exact ⟨named_img _ _, List.forall_mem_nil _⟩
  | icon content => exact ⟨named_img _ _, List.forall_mem_nil _⟩
  | vector content =>
    exact ⟨named_svgElement _ _ _, List.forall_mem_map.mpr fun _ _ => named_pathTag _ _ _ _⟩
  | boolean content =>
    exact ⟨named_svgElement _ _ _, List.forall_mem_map.mpr fun _ _ => named_pathTag _ _ _ _⟩

/-- So has the element of any widget. -/
theorem Widget.named_element (w : Widget) :
    w.element.start.Named ∧ (∀ t ∈ w.element.shapes, t.Named) := by
  induction w using Widget.induction with
  | leaf key style content => exact content.named_element key.originName
  | box =>
    exact ⟨⟨by show IsMarkupName "div"; decide, List.forall_mem_nil _⟩, List.forall_mem_nil _⟩
  | wrap key style wrapper child ih => exact ih

/-! ### Trees of pages -/

/-- A binding of styles that has texts for all attributes, under names. -/
structure StyleBinding.Textual (b : StyleBinding) : Prop where
  convert : ∀ a, b.convert a = a.plain
  bind : ∀ e, ∀ a ∈ b.bind e, a.Readable

/-- An attribute in plain text can be read if its name can. -/
theorem Attribute.readable_plain {a : Attribute} (h : IsMarkupName a.name) : a.plain.Readable := by
  refine ⟨h, ?_⟩
  unfold Attribute.plain
  cases a.value with
  | text value => exact ⟨_, rfl⟩
  | record entries => exact ⟨_, rfl⟩

namespace StyleBinding

variable {b : StyleBinding} {sheet : StyleSheet}

/-- A textual styling writes attributes that can be read. -/
theorem Textual.readable_map_convert (hb : b.Textual) {attributes : List Attribute}
    (h : ∀ a ∈ attributes, IsMarkupName a.name) : ∀ a ∈ attributes.map b.convert, a.Readable := by
  refine List.forall_mem_map.mpr fun a ha => ?_
  rw [hb.convert]
  exact Attribute.readable_plain (h a ha)

/-- The start tag of a chain has the names of its element, whose entry only adds the style. -/
theorem Textual.readable_chainTag (hb : b.Textual) {c : Chain} (h : sheet.Fits id c) :
    (b.chainTag sheet c).Readable := by
  obtain ⟨hname, hattributes⟩ := c.head.named_element.1
  obtain ⟨e, hentry, hkept, htag⟩ := h
  unfold chainTag startTag
  rw [hentry]
  -- The name is the tag of the widget, and the attributes are converted or bound, all of them
  -- text.
  constructor
  · show IsMarkupName (id e.tag)
    rw [htag]
    exact hname
  · rw [List.forall_mem_append, hkept]
    exact ⟨hb.readable_map_convert hattributes, hb.bind e⟩

/-- The paths of a drawing are read back. -/
theorem Textual.readable_shape (hb : b.Textual) {t : StartTag} (h : t.Named) :
    (b.shape t).Readable :=
  .nested ⟨h.1, hb.readable_map_convert h.2⟩ (List.forall_mem_nil _)

/-- The element of a leaf has a text in it, or paths only. -/
theorem Textual.readable_leaf (hb : b.Textual) {start : StartTag} (hstart : start.Readable)
    (content : Leaf) (name : String) :
    (Markup.element start (b.content (content.element name))).Readable := by
  have hshapes := fun t ht => hb.readable_shape ((content.named_element name).2 t ht)
  cases content with
  | text content => exact .line hstart content.data
  | image content => exact .nested hstart (List.forall_mem_nil _)
  | icon content => exact .nested hstart (List.forall_mem_nil _)
  | vector content => exact .nested hstart (List.forall_mem_map.mpr hshapes)
  | boolean content => exact .nested hstart (List.forall_mem_map.mpr hshapes)

/-- **The markup of a tree is read back,** where the entries fit the chains. -/
theorem Textual.readable_markup (hb : b.Textual) (c : Chain) :
    (∀ d ∈ c.head.chains c.placement, sheet.Fits id d) →
      (b.markup sheet c.head).Readable := by
  induction c using Chain.induction with
  | step c ih =>
    intro hfits
    rw [Widget.chains_eq, List.forall_mem_cons] at hfits
    have hstart := hb.readable_chainTag hfits.1
    rw [markup_head, Chain.element, ← Widget.element_unwrapped]
    -- A chain ends in a leaf, which has no children, or in a box, which shows nothing itself.
    cases hend : c.head.unwrapped with
    | leaf key style content =>
      have hchildren : c.children = [] := by rw [Chain.children, hend]
      rw [hchildren, List.map_nil, List.append_nil]
      exact hb.readable_leaf hstart content key.originName
    | box key style arrangement children =>
      refine .nested hstart (List.forall_mem_map.mpr fun d hd => ?_)
      exact ih d hd fun e he => hfits.2 e (List.mem_flatMap.mpr ⟨d, hd, he⟩)
    | wrap key style wrapper child =>
      have hnone := Widget.isWrapper_unwrapped c.head
      rw [hend] at hnone
      cases hnone

end StyleBinding

/-! ### The law -/

namespace Page

variable {w : Widget}

/-- Classes are a text. -/
theorem textual_classBinding : classBinding.Textual where
  convert _ := rfl
  bind e a ha := by
    have hname : IsMarkupName "class" := by decide
    cases hstyling : e.styling with
    | some styling =>
      simp only [classBinding, hstyling, List.mem_singleton] at ha
      exact ha ▸ ⟨hname, _, rfl⟩
    | none => simp [classBinding, hstyling] at ha

/-- So are inline styles of a page. -/
theorem textual_inlineBinding : inlineBinding.Textual where
  convert _ := rfl
  bind e a ha := by
    have hname : IsMarkupName "style" := by decide
    simp only [inlineBinding, StyleBinding.styleAttribute] at ha
    split at ha
    · split at ha
      · exact absurd ha List.not_mem_nil
      · rw [List.mem_singleton.mp ha]
        exact ⟨hname, _, rfl⟩
    · exact absurd ha List.not_mem_nil

/-- A page returns a tree that can be read back, however it is styled. -/
theorem exists_readable (hids : (w.contents.map (·.id)).Nodup) (o : PageOptions) :
    ∃ tree, (emit o w).body = [.markup tree] ∧ tree.Readable := by
  cases hstyling : o.styling with
  | classes =>
    obtain ⟨-, hbody⟩ := emit_classes hstyling w
    exact ⟨_, hbody, textual_classBinding.readable_markup ⟨w, .root⟩ fun c hc =>
      StyleSheet.fits_shared hids rfl _ (fun _ => rfl) hc⟩
  | inlineCss =>
    obtain ⟨-, hbody⟩ := emit_inlineCss hstyling w
    exact ⟨_, hbody, textual_inlineBinding.readable_markup ⟨w, .root⟩ fun c hc =>
      StyleSheet.fits_unshared hids rfl _ (fun _ => rfl) hc⟩

/-- **The markup of a page is read as the tree that the page returns,** however it is styled, where
the widgets that are no wrappers have ids of their own: it has the same tags with the same attributes
in the same order, and the same children and texts, an empty text being none. -/
theorem markup_reads_back (hids : (w.contents.map (·.id)).Nodup) (o : PageOptions) :
    ∃ tree, (emit o w).body = [.markup tree] ∧
      Markup.readAll? (emit o w).markup = some [tree.withoutEmptyTexts] := by
  obtain ⟨tree, hbody, hreadable⟩ := exists_readable hids o
  have hmarkup : (emit o w).markup = tree.write .html 0 := by
    rw [Module.markup, hbody]
    simp [Expr.writeLines]
  exact ⟨tree, hbody, by rw [hmarkup, Markup.readAll?_write hreadable]⟩

/-- The figure is read back, whether its elements have classes or inline styles. -/
theorem captionedFigure_reads_back : (captionedFigure.contents.map (·.id)).Nodup ∧
    ∀ o : PageOptions, ∃ tree, (emit o captionedFigure).body = [.markup tree] ∧
      Markup.readAll? (emit o captionedFigure).markup = some [tree.withoutEmptyTexts] :=
  ⟨by decide, markup_reads_back (by decide)⟩

end Page

end DesignCompiler
