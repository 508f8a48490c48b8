import DesignCompiler.Proofs.Emit.Calls
import DesignCompiler.Proofs.Text.Joined
/-!
# Everything that is called

The constructors in use are spread over the looks, the leaves, the boxes and the effects.
`Flutter.callees` lists them, and `Flutter.built_expr` is the proof that the list is complete: the
expression of a widget tree is built from them and from nothing else. The texts in such an expression
are tame, but for those that come with the design: strings, and drawings, which are put in as markup
(`Flutter.FreeLiteral`). Not one of them breaks a line, since strings are escaped and a drawing is put
in on one line.
-/

namespace DesignCompiler

open DesignCompiler.Expr

namespace Flutter

/-! ### Boxes and effects -/

/-- **The constructors that expressions are built from:** those of looks, those of leaves, and those
of boxes and effects. -/
def callees : List String :=
  lookCallees ++ contentCallees ++
    ["Container", "Stack", "Positioned", "Row", "Column", "SizedBox", "SizedBox.expand",
      "ConstrainedBox", "ClipRRect", "ui.ImageFilter.blur", "ImageFiltered", "ClipRect",
      "BackdropFilter", "Opacity", "Transform.rotate", "OverflowBox", "Expanded"]

theorem tame_callees : ∀ callee ∈ callees, Tame callee := tame_of_mem (by decide +kernel)

theorem lookCallees_subset : lookCallees ⊆ callees :=
  List.subset_append_of_subset_left _ (List.subset_append_left _ _)

variable {S : String → Prop}

theorem builtArguments_of_look {arguments : List (Argument Expr)}
    (h : BuiltArguments S lookCallees arguments) : BuiltArguments S callees arguments :=
  h.mono lookCallees_subset

/-- A call around a child is built if its arguments and the child are. -/
theorem built_around {names : List String} {callee : String} {arguments : List (Argument Expr)}
    {child : Expr} (hcallee : callee ∈ names) (h : BuiltArguments S names arguments)
    (hchild : child.Built S names) : (around callee arguments child).Built S names :=
  built_call hcallee (by simpa +decide [h] using hchild)

theorem builtArguments_child {child : Option Expr} (h : ∀ e, child = some e → e.Built S callees) :
    BuiltArguments S callees (named? "child" id child) :=
  builtArguments_named? (by decide) h

/-- **A container is built** with the one free text in it, the source of its background. -/
theorem built_container {s : Style}
    (hs : ∀ ref, s.background = some (.image ref) → S (dartQuoted ref.source)) (shape : BoxShape)
    (clip : Bool) {child : Option Expr} (h : ∀ e, child = some e → e.Built S callees) :
    (container s shape clip child).Built S callees := by
  refine built_call (by decide) (builtArguments_append.mpr ⟨builtArguments_append.mpr ⟨?_, ?_⟩, ?_⟩)
  · exact builtArguments_of_look (builtArguments_looks hs shape clip)
  · split
    · simp +decide
    · exact builtArguments_nil
  · exact builtArguments_child h

/-- A stack of what is built is built. -/
theorem built_stack {children : List Expr} (h : ∀ e ∈ children, e.Built S callees) :
    ∀ e, stack? children = some e → e.Built S callees := by
  intro e he
  unfold stack? at he
  split at he
  · cases he
  · cases he
    exact built_call (by decide) (by simpa +decide using Built.list h)

/-- **Wrappers have no free text in them.** -/
theorem built_wrapper (parent : Option Direction) (w : Wrapper) {child : Expr}
    (h : child.Built S callees) : (wrapper parent w child).Built S callees := by
  -- What a wrapper is given are numbers and members of types.
  cases w with
  | opacity opacity => exact built_around (by decide) (by simp +decide) h
  | stretched axis =>
    simp only [wrapper, stretched]
    split
    · exact built_around (by decide) (by simp +decide) h
    · exact built_around (by decide) (by simp +decide) h
    · exact built_around (by decide) (by simp) h
    · exact built_around (by decide) (by simp) h
    · exact h
  | expanded flex => exact h
  | blurred blur =>
    have hfilter : (Expr.call "ui.ImageFilter.blur"
        [numbered "sigmaX" blur.radius, numbered "sigmaY" blur.radius]).Built S callees :=
      built_call (by decide) (by simp +decide)
    simp only [wrapper, blurred]
    split
    · exact built_around (by decide) (by simp +decide [hfilter]) h
    · exact built_around (by decide) (by simp)
        (built_around (by decide) (by simp +decide [hfilter]) h)
  | rotation angle => exact built_around (by decide) (by simp +decide) h
  | sizedBox width height => exact built_around (by decide) (by simp +decide) h
  | overflowBox =>
    exact built_around (by decide) (by simp) (built_around (by decide) (by simp +decide) h)

/-- Nor has a share in a line. -/
theorem built_flexItem (share : Option UInt32) {item : Expr} (h : item.Built S callees) :
    (flexItem share item).Built S callees := by
  unfold flexItem
  split
  · next flex =>
    have hflex : Tame (toString flex.toNat) := tame_repr _
    exact built_around (by decide) (by simp +decide only [builtArguments_cons,
      builtArgument_named, built_literal, hflex, builtArguments_nil, true_or, and_self]) h
  · exact h

/-! ### Leaves -/

/-- **A text that comes with the design** in the expression of a widget: a string or a drawing. -/
def FreeLiteral (w : Widget) (text : String) : Prop :=
  match w with
  | .leaf _ _ (.text content) =>
    text = dartQuoted content.data ∨ text = dartQuoted content.style.fontFamily
  | .leaf _ _ (.image content) => text = dartQuoted content.src.source
  | .leaf _ _ (.icon content) => content.glyph = none ∧ text = dartQuoted content.src.source
  | .leaf _ _ (.vector content) =>
    text = "'''" ++ svgText (Leaf.element "" (.vector content)) ++ "'''"
  | .leaf _ _ (.boolean content) =>
    text = "'''" ++ svgText (Leaf.element "" (.boolean content)) ++ "'''"
  | .box _ style _ _ =>
    ∃ ref, style.background = some (.image ref) ∧ text = dartQuoted ref.source
  | .wrap .. => False

/-- **The constructors that leaves are built from:** those of looks, those of content, and the boxes
that stand around a text and an image. -/
def leafCallees : List String :=
  lookCallees ++ contentCallees ++ ["SizedBox", "ConstrainedBox", "ClipRRect"]

theorem lookCallees_subset_leafCallees : lookCallees ⊆ leafCallees :=
  List.subset_append_of_subset_left _ (List.subset_append_left _ _)

theorem leafCallees_subset : leafCallees ⊆ callees :=
  List.append_subset.mpr ⟨List.subset_append_left _ _,
    List.Subset.trans (by decide) (List.subset_append_right _ _)⟩

/-- **A text is built** with two free texts: its data and its font. -/
theorem built_text (s : Style) {content : TextContent} (hdata : S (dartQuoted content.data))
    (hfamily : S (dartQuoted content.style.fontFamily)) : (text s content).Built S leafCallees := by
  have hstring : (string content.data).Built S leafCallees := built_string hdata
  have hstyle := (built_textStyle hfamily).mono lookCallees_subset_leafCallees
  have halign : Tame (alignName content.style.align) := by
    cases content.style.align <;> decide
  have hbare : (Expr.call "Text"
      [plain (string content.data), named "style" (textStyle content),
        member "textAlign" "TextAlign" (alignName content.style.align)]).Built S leafCallees :=
    built_call (by decide) (by simp +decide [hstring, hstyle, halign])
  unfold text
  simp only
  -- The width and its bounds are boxes around the text.
  have hsized : ∀ width, (around "SizedBox" [numbered "width" width] _).Built S leafCallees :=
    fun _ => built_around (by decide) (by simp +decide) hbare
  cases hbounds : widthBounds? s with
  | none =>
    cases s.width with
    | none => exact hbare
    | some width => exact hsized width
  | some bounds =>
    have hconstraints : BuiltArguments S leafCallees [named "constraints" bounds] := by
      simpa using ⟨by decide, (built_widthBounds hbounds).mono lookCallees_subset_leafCallees⟩
    cases s.width with
    | none => exact built_around (by decide) hconstraints hbare
    | some width => exact built_around (by decide) hconstraints (hsized width)

/-- **An image is built** with its source. -/
theorem built_image (s : Style) {content : ImageContent} (h : S (dartQuoted content.src.source)) :
    (image s content).Built S leafCallees := by
  have hstring : (string content.src.source).Built S leafCallees := built_string h
  have hfit : Tame content.fit.value := by
    cases content.fit <;> decide
  have hbare : (Expr.call "Image.network"
      ([plain (string content.src.source)] ++ sizeArguments s ++
        [member "fit" "BoxFit" content.fit.value])).Built S leafCallees := by
    refine built_call (by decide) ?_
    simp +decide [hstring, built_sizeArguments, hfit]
  unfold image
  simp only
  -- Rounded corners are cut by a clip around the image.
  cases rounded? s with
  | none => exact hbare
  | some radius =>
    have hradius : BuiltArguments S leafCallees [named "borderRadius" (corners radius)] := by
      simpa using ⟨by decide, (built_corners radius).mono lookCallees_subset_leafCallees⟩
    exact built_around (by decide) hradius hbare

/-- A glyph is a name and no free text. -/
theorem built_glyph (name : String) : (glyph name).Built S leafCallees := by
  have hknown : ∀ known ∈ materialIcons, Tame known := tame_of_mem (by decide +kernel)
  refine .literal (Or.inl (tame_append.mpr ⟨by decide, ?_⟩))
  split
  · next h => exact hknown name (List.contains_iff_mem.mp h)
  · decide

/-- **An icon is built** with its source, if it has no glyph. -/
theorem built_icon {content : IconContent}
    (h : content.glyph = none → S (dartQuoted content.src.source)) :
    (icon content).Built S leafCallees := by
  unfold icon
  split
  · next name _ =>
    have htint : BuiltArguments S leafCallees (named? "color" color content.color) :=
      builtArguments_named? (by decide) fun _ _ => built_color _
    exact built_call (by decide) (by simp +decide [built_glyph, htint])
  · next hnone =>
    have hstring : (string content.src.source).Built S leafCallees := built_string (h hnone)
    exact built_call (by decide) (by simp +decide [hstring])

/-- **A drawing is built** with its own text in quotes. -/
theorem built_svg (s : Style) {e : OwnElement} (h : S ("'''" ++ svgText e ++ "'''")) :
    (svg s e).Built S leafCallees :=
  built_call (by decide) (by simpa [built_sizeArguments] using Or.inr h)

/-- **A leaf is built** with what is free in it. -/
theorem built_leaf (key : WidgetKey) (s : Style) {content : Leaf}
    (h : ∀ text, FreeLiteral (.leaf key s content) text → S text) :
    (leaf key s content).Built S leafCallees := by
  cases content with
  | text content => exact built_text s (h _ (Or.inl rfl)) (h _ (Or.inr rfl))
  | image content => exact built_image s (h _ rfl)
  | icon content => exact built_icon fun hnone => h _ ⟨hnone, rfl⟩
  | vector content => exact built_svg s (h _ rfl)
  | boolean content => exact built_svg s (h _ rfl)

/-! ### Trees -/

/-- Children at places are built if they are built alone. -/
theorem built_positionedItems {children : List (Placed Widget)}
    (h : ∀ c ∈ children, ∀ parent, (expr parent c.item).Built S callees) :
    ∀ e ∈ positionedItems children, e.Built S callees := by
  rw [positionedItems_eq_map, List.forall_mem_map]
  exact fun c hc => built_around (by decide) (by simp +decide) (h c hc none)

/-- So are children in a line, with the spaces between them. -/
theorem built_flexItems (line : FlexLine) {children : List (Placed Widget)}
    (h : ∀ c ∈ children, ∀ parent, (expr parent c.item).Built S callees) :
    ∀ first, ∀ e ∈ flexItems line first children, e.Built S callees := by
  have hspacer : (spacer line).Built S callees := by
    unfold spacer
    cases line.direction <;> exact built_call (by decide) (by simp +decide)
  intro first e he
  rcases mem_flexItems children he with rfl | ⟨c, hc, rfl⟩
  · exact hspacer
  · exact built_flexItem _ (h c hc (some line.direction))

/-- A line of what is built is built. -/
theorem built_flexLine (line : FlexLine) {items : List Expr} (h : ∀ e ∈ items, e.Built S callees) :
    (flexLine line items).Built S callees := by
  have hname : lineName line.direction ∈ callees := by
    cases line.direction <;> decide
  have hmain : Tame (mainAxis line.mainAxis) := by
    cases line.mainAxis <;> decide
  have hcross : Tame (crossAxis line.crossAxis) := by
    cases line.crossAxis <;> decide
  exact built_call hname (by simpa +decide [hmain, hcross] using Built.list h)

/-- **An expression is built from these constructors,** in a line or not, with the texts that come
with the design. -/
theorem built_expr_of_free (w : Widget)
    (h : ∀ v ∈ w.walk, ∀ text, FreeLiteral v text → S text) :
    ∀ parent, (expr parent w).Built S callees := by
  -- For all parents at once, since a line is the parent of its items.
  induction w using Widget.induction with
  | leaf key style content =>
    intro parent
    rw [expr_leaf]
    exact (built_leaf key style (h _ (Widget.mem_walk_self _))).mono leafCallees_subset
  | box key style arrangement children ih =>
    intro parent
    let box := Widget.box key style arrangement children
    replace ih : ∀ c ∈ children, ∀ parent, (expr parent c.item).Built S callees := fun c hc =>
      ih c hc fun v hv => h v (List.mem_of_mem_tail (Widget.walk_child_subset (w := box) hc hv))
    have hs : ∀ ref, style.background = some (.image ref) → S (dartQuoted ref.source) :=
      fun ref href => h _ (Widget.mem_walk_self _) _ ⟨ref, href, rfl⟩
    have hstack := built_stack (built_positionedItems ih)
    cases arrangement with
    | container shape clip =>
      rw [expr_container]
      exact built_container hs shape clip hstack
    | stack isRoot =>
      rw [expr_stack]
      exact built_container hs .rectangle isRoot hstack
    | group =>
      rw [expr_group]
      refine built_call (by decide) (builtArguments_append.mpr ⟨?_, builtArguments_child hstack⟩)
      exact built_sizeArguments style
    | flex line isRoot =>
      rw [expr_flex]
      refine built_container hs .rectangle isRoot fun e he => ?_
      cases he
      exact built_flexLine line (built_flexItems line ih true)
  | wrap key style wrapper child ih =>
    intro parent
    rw [expr_wrap]
    exact built_wrapper parent wrapper
      (ih (fun v hv => h v (List.mem_cons_of_mem _ hv)) parent)

/-! ### Lines -/

/-- A drawing is put in on one line. -/
theorem oneLine_svgText (e : OwnElement) : OneLine (svgText e) := by
  unfold OneLine svgText
  rw [String.toList_ofList, List.mem_flatten]
  rintro ⟨part, hpart, hmem⟩
  obtain ⟨line, hline, rfl⟩ := List.mem_map.mp hpart
  -- What is left of a line without the blanks at both ends is part of the line.
  exact line_feed_not_mem_line hline ((trimBlanks_sublist line).mem hmem)

/-- **No free text goes over a line:** quoted texts have their line feeds escaped, and the lines of
a drawing are joined. -/
theorem oneLine_freeLiteral {w : Widget} {text : String} (h : FreeLiteral w text) :
    OneLine text := by
  have hdrawing : ∀ e, OneLine ("'''" ++ svgText e ++ "'''") := fun e => by
    simp +decide [oneLine_svgText]
  -- The cases are those of a free literal.
  unfold FreeLiteral at h
  split at h
  · rcases h with rfl | rfl <;> exact oneLine_dartQuoted _
  · exact h ▸ oneLine_dartQuoted _
  · exact h.2 ▸ oneLine_dartQuoted _
  · exact h ▸ hdrawing _
  · exact h ▸ hdrawing _
  · obtain ⟨ref, -, rfl⟩ := h
    exact oneLine_dartQuoted _
  · exact h.elim

/-- **Nothing that an expression is built from breaks a line.** -/
theorem built_expr (w : Widget) (parent : Option Direction) :
    (expr parent w).Built OneLine callees :=
  built_expr_of_free w (fun _ _ _ h => oneLine_freeLiteral h) parent

end Flutter

end DesignCompiler
