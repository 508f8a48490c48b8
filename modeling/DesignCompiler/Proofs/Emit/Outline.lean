import DesignCompiler.Proofs.Emit.Agreement
/-!
# One tree for all web modes

Script components and plain pages, with styles inline or shared, differ in attributes and in the
names of their elements. What is left without attributes, with each styled component read as the tag
that it is declared for (`Markup.bare`), is one tree for all of them: the `Widget.outline` of the
widget tree, in which every widget that is no wrapper is one element and nothing else is but the
paths of drawings.

The outline knows nothing of styles, and the walks that write markup know them only through start
tags. So it is enough that start tags are read back right, which `StyleSheet.Fits` says of each
mode. Distinct ids are what this needs: an element whose id comes twice would be written under the
entry of the later one.
-/

namespace DesignCompiler

/-! ### Bare markup -/

/-- A bare element of a tag. -/
def Markup.tagged (tag : String) (children : List Markup) : Markup := .element ⟨tag, []⟩ children

namespace Markup

mutual

/-- **Markup without attributes,** where tags are read by `htmlTag`. -/
def bare (htmlTag : String → String) : Markup → Markup
  | text data => text data
  | element start children => tagged (htmlTag start.name) (bareAll htmlTag children)

/-- Several nodes without attributes. -/
def bareAll (htmlTag : String → String) : List Markup → List Markup
  | [] => []
  | m :: rest => m.bare htmlTag :: bareAll htmlTag rest

end

/-- Several nodes are stripped one by one. -/
theorem bareAll_eq_map (htmlTag : String → String) (nodes : List Markup) :
    bareAll htmlTag nodes = nodes.map (bare htmlTag) := by
  induction nodes with
  | nil => rfl
  | cons node rest ih => rw [bareAll, ih, List.map_cons]

/-- Whether a node is a path of a drawing. -/
def isPath : Markup → Bool
  | element start _ => start.name == "path"
  | text _ => false

end Markup

/-- **A module of markup renders a tree,** up to attributes and to names of styled components. -/
def Module.Renders (m : Module) (outline : Markup) : Prop :=
  ∃ tree, m.body = [.markup tree] ∧ tree.bare m.htmlTag = outline

/-! ### Outlines -/

/-- The tag of a leaf. -/
def Leaf.tagName : Leaf → String
  | text content => (content.tag.map (·.html)).getD "span"
  | image _ | icon _ => "img"
  | vector _ | boolean _ => "svg"

/-- What is in the element of a leaf: its text, or a path for each path of a drawing. -/
def Leaf.inside : Leaf → List Markup
  | text content => [.text content.data]
  | image _ | icon _ => []
  | vector ⟨paths, _, _, _, _⟩ | boolean ⟨_, paths, _, _, _⟩ =>
    paths.map fun _ => .tagged "path" []

namespace Widget

/-- The tag of a widget that is no wrapper. -/
def tagName : Widget → String
  | leaf _ _ content => content.tagName
  | box .. => "div"
  | wrap _ _ _ child => child.tagName

/-- What is in the element of a widget in front of its children. -/
def inside : Widget → List Markup
  | leaf _ _ content => content.inside
  | box .. => []
  | wrap _ _ _ child => child.inside

mutual

/-- **The outline of a widget tree:** a widget is one element with what is in it and the outlines of
its children. Wrappers leave no trace. -/
def outline : Widget → Markup
  | leaf _ _ content => .tagged content.tagName content.inside
  | box _ _ _ children => .tagged "div" (outlineAll children)
  | wrap _ _ _ child => child.outline

/-- The outlines of some children. -/
def outlineAll : List (Placed Widget) → List Markup
  | [] => []
  | ⟨_, _, w⟩ :: rest => w.outline :: outlineAll rest

end

/-- The outlines of several children are those of each. -/
theorem outlineAll_eq_map (children : List (Placed Widget)) :
    outlineAll children = children.map (·.item.outline) := by
  induction children with
  | nil => rfl
  | cons c rest ih => rw [outlineAll, ih]; rfl

/-- **The outline of a chain of wrappers** is that of the widget beneath it, which is one element
with the outlines of its children in it. -/
theorem outline_eq (w : Widget) :
    w.outline = .tagged w.unwrapped.tagName
      (w.unwrapped.inside ++ w.unwrapped.layoutChildren.map (·.item.outline)) := by
  induction w using Widget.induction with
  | leaf key style content =>
    show _ = Markup.tagged content.tagName (content.inside ++ [])
    rw [outline, List.append_nil]
  | box key style arrangement children _ =>
    show _ = Markup.tagged "div" ([] ++ children.map (·.item.outline))
    rw [outline, outlineAll_eq_map, List.nil_append]
  | wrap key style wrapper child ih => rw [outline, unwrapped_wrap, ih]

end Widget

/-- No leaf is a path. -/
theorem Leaf.tagName_ne_path (l : Leaf) : l.tagName ≠ "path" := by
  cases l with
  | text content =>
    -- A text may have a tag of its own, but there is none for paths to be asked for.
    rw [tagName]
    cases content.tag with
    | none => decide
    | some tag => cases tag <;> decide
  | image => show "img" ≠ "path"; decide
  | icon => show "img" ≠ "path"; decide
  | vector => show "svg" ≠ "path"; decide
  | boolean => show "svg" ≠ "path"; decide

/-- The elements in the element of a leaf are paths. -/
theorem Leaf.elements_inside (l : Leaf) :
    (Markup.elementsAll l.inside).filter (!·.isPath) = [] := by
  have hpaths : ∀ paths : List VectorPath,
      (Markup.elementsAll (paths.map fun _ => .tagged "path" [])).filter (!·.isPath) = [] := by
    intro paths
    induction paths with
    | nil => rfl
    | cons path rest ih => exact ih
  -- Only drawings have elements inside, and these are all paths.
  cases l with
  | text => rfl
  | image => rfl
  | icon => rfl
  | vector content => exact hpaths content.paths
  | boolean content => exact hpaths content.paths

namespace Widget

/-- **One element for each widget:** the elements of an outline that are no paths are the outlines
of the widgets that are no wrappers, in the order of the walk. -/
theorem elements_outline (w : Widget) :
    w.outline.elements.filter (!·.isPath) = w.contents.map outline := by
  induction w using Widget.induction with
  | leaf key style content =>
    have hpath : (!(Markup.element ⟨content.tagName, []⟩ content.inside).isPath) = true := by
      simp [Markup.isPath, content.tagName_ne_path]
    have hcontents : (leaf key style content).contents = [leaf key style content] := rfl
    rw [hcontents, List.map_singleton, outline, Markup.tagged, Markup.elements,
      List.filter_cons, if_pos hpath, content.elements_inside]
  | box key style arrangement children ih =>
    have hpath : (!(Markup.element ⟨"div", []⟩ (outlineAll children)).isPath) = true := rfl
    -- The box comes first, and its children have one element for each widget by induction.
    have hchildren : (Markup.elementsAll (outlineAll children)).filter (!·.isPath) =
        children.flatMap fun c => c.item.contents.map outline := by
      rw [Markup.elementsAll_eq_flatMap, outlineAll_eq_map, List.flatMap_map, List.filter_flatMap]
      exact List.flatMap_congr fun c hc => ih c hc
    rw [contents_eq, unwrapped_eq_self rfl, List.map_cons, List.map_flatMap, outline,
      Markup.tagged, Markup.elements, List.filter_cons, if_pos hpath, hchildren]
    rfl
  | wrap key style wrapper child ih => rw [outline, contents_wrap, ih]

/-- The element of a widget has the tag that its outline has. -/
theorem name_element (w : Widget) : w.element.start.name = w.tagName := by
  induction w using Widget.induction with
  | leaf key style content => cases content <;> rfl
  | box => rfl
  | wrap key style wrapper child ih => exact ih

end Widget

namespace StyleBinding

variable {b : StyleBinding} {sheet : StyleSheet} {htmlTag : String → String}

/-- Paths without their attributes are bare paths. -/
theorem bare_paths (hpath : htmlTag "path" = "path") {tags : List StartTag}
    (htags : ∀ t ∈ tags, t.name = "path") :
    (tags.map b.shape).map (Markup.bare htmlTag) = tags.map fun _ => Markup.tagged "path" [] := by
  rw [List.map_map]
  refine List.map_congr_left fun t ht => ?_
  show Markup.tagged (htmlTag t.name) [] = _
  rw [htags t ht, hpath]

/-- What is written in an element in front of its children is read back as what is in it. -/
theorem bare_content (hpath : htmlTag "path" = "path") (w : Widget) :
    (b.content w.element).map (Markup.bare htmlTag) = w.inside := by
  rw [content, List.map_append, bare_paths hpath w.name_shapes]
  -- There is one bare path for each shape, and only drawings have shapes.
  induction w using Widget.induction with
  | leaf key style content =>
    cases content with
    | text content => rfl
    | image content => rfl
    | icon content => rfl
    | vector content =>
      show [] ++ (content.paths.map _).map _ = _
      rw [List.nil_append, List.map_map]
      rfl
    | boolean content =>
      show [] ++ (content.paths.map _).map _ = _
      rw [List.nil_append, List.map_map]
      rfl
  | box => rfl
  | wrap key style wrapper child ih => exact ih

/-- **Markup without attributes is the outline,** where the entries fit the chains. -/
theorem bare_markup (hpath : htmlTag "path" = "path") (c : Chain) :
    (∀ d ∈ c.head.chains c.placement, sheet.Fits htmlTag d) →
      (b.markup sheet c.head).bare htmlTag = c.head.outline := by
  induction c using Chain.induction with
  | step c ih =>
    intro hfits
    rw [Widget.chains_eq, List.forall_mem_cons] at hfits
    obtain ⟨hhead, hbeneath⟩ := hfits
    -- A chain is written as the element of the widget at its end, with that widget's children.
    have htag : htmlTag (b.chainTag sheet c).name = c.head.unwrapped.tagName := by
      rw [(chainTag_of_fits hhead).1, Chain.element, ← Widget.element_unwrapped,
        Widget.name_element]
    have hcontent : (b.content c.element).map (Markup.bare htmlTag) = c.head.unwrapped.inside := by
      rw [Chain.element, ← Widget.element_unwrapped, bare_content hpath]
    have hchildren : (c.children.map fun d => b.markup sheet d.head).map (Markup.bare htmlTag) =
        c.head.unwrapped.layoutChildren.map (·.item.outline) := by
      calc (c.children.map fun d => b.markup sheet d.head).map (Markup.bare htmlTag)
          = c.children.map (·.head.outline) := by
            rw [List.map_map]
            exact List.map_congr_left fun d hd =>
              ih d hd fun e he => hbeneath e (List.mem_flatMap.mpr ⟨d, hd, he⟩)
        _ = (c.children.map (·.head)).map Widget.outline := by rw [List.map_map]; rfl
        _ = c.head.unwrapped.layoutChildren.map (·.item.outline) := by
            rw [c.map_head_children, List.map_map]; rfl
    rw [markup_head, Widget.outline_eq, Markup.bare, htag, Markup.bareAll_eq_map, List.map_append,
      hcontent, hchildren]

end StyleBinding

/-! ### The law -/

/-- **A module that is written for a tree renders its outline.** -/
theorem Module.WrittenFor.renders {m : Module} {w : Widget} {b : StyleBinding} {sheet : StyleSheet}
    (h : m.WrittenFor w b sheet) : m.Renders w.outline :=
  ⟨_, h.body, StyleBinding.bare_markup h.path ⟨w, .root⟩ h.fits⟩

/-- **What the web modes of a tree have in common:** one tree, in which each widget that is no
wrapper is one element around its own content and its children, and what else is an element is a
path. -/
structure RendersOneTree (w : Widget) : Prop where
  react : ∀ o : ReactOptions, (React.emit o w).Renders w.outline
  page : ∀ o : PageOptions, (Page.emit o w).Renders w.outline
  elements : w.outline.elements.filter (!·.isPath) = w.contents.map Widget.outline
  nested : ∀ v ∈ w.contents, v.outline =
    .tagged v.tagName (v.inside ++ v.layoutChildren.map (·.item.outline))

/-- **All web modes render one tree,** where the widgets that are no wrappers have ids of their
own. -/
theorem renders_one_tree {w : Widget} (hids : (w.contents.map (·.id)).Nodup) :
    RendersOneTree w where
  react o := by
    obtain ⟨b, sheet, h⟩ := React.exists_writtenFor hids o
    exact h.renders
  page o := by
    obtain ⟨b, sheet, h⟩ := Page.exists_writtenFor hids o
    exact h.renders
  elements := w.elements_outline
  nested v hv := by
    have hend : v.unwrapped = v := Widget.unwrapped_eq_self (Widget.mem_contents.mp hv).2
    rw [Widget.outline_eq, hend]

/-- The figure is rendered as one tree: a row with a caption and a plate, and on the plate two
images and a drawing. -/
theorem renders_one_tree_captionedFigure : (captionedFigure.contents.map (·.id)).Nodup ∧
    RendersOneTree captionedFigure ∧ captionedFigure.outline =
      .tagged "div" [.tagged "h2" [.text "A $5 note"],
        .tagged "div" [.tagged "img" [], .tagged "img" [],
          .tagged "svg" [.tagged "path" []]]] :=
  ⟨by decide, renders_one_tree (by decide), rfl⟩

end DesignCompiler
