import DesignCompiler.Proofs.Emit.React
import DesignCompiler.Proofs.Paint.Shade
import DesignCompiler.Proofs.Pipeline
import DesignCompiler.Proofs.Style.Filled
import DesignCompiler.Proofs.Style.Repeated
/-!
# Different fills stay different

Two rectangles in a flex frame differ in nothing but their ids and the color of the one fill that is
seen (`paintedPair`). On the way to a module of styled components,

* lowering makes two filled boxes in a line (`exists_lower_paintedPair`);
* the boxes have one style if and only if their fills are written alike (`alike_filledBox_iff`), and
  then one component, whose name is the tag of both elements (`React.exists_showsPair`);
* fills are written alike if and only if they are of one shade (`Color.cssText_eq_iff`).

The law is `fills_apart`. The id of the frame does not matter, so it may be that of a rectangle.
-/

namespace DesignCompiler

/-! ### What is switched off -/

/-- No flag is read in a build without flags. -/
theorem BuildOptions.override?_eq_none (b : BuildOptions) (h : b.skipFlags = true) (n : Node) :
    b.lowering.override? n = none := by
  simp [LoweringOptions.override?, LoweringOptions.readsFlags, lowering, h]

/-- No node is an icon in a build without icon detection. -/
theorem BuildOptions.detectIcon?_eq_none (b : BuildOptions) (h : b.skipIconDetection = true)
    (n : Node) : b.lowering.detectIcon? n = none := by
  simp [LoweringOptions.detectIcon?, lowering, h]

/-! ### The rectangles -/

/-- A layer under an id of its own whose fills are some others and a color among them. -/
def Layer.painted (base : Layer) (before after : List Paint) (id : String) (c : Color) : Layer :=
  { base with id := id, fills := before ++ ⟨.solid c, 1, true⟩ :: after }

/-- The widget of a painted rectangle: a filled box in the wrappers that the layer asks for. -/
def BuildOptions.paintedBox (b : BuildOptions) (base : Layer) (before after : List Paint)
    (id : String) (c : Color) : Widget :=
  (base.painted before after id c).decorate
    (filledBox (b.lowering.key (base.painted before after id c)) base.boxStyle (c.withOpacity 1))

section Painted

variable {base : Layer} {before after : List Paint} {id : String} {c : Color}
  (hhidden : ∀ p ∈ before ++ after, p.visible = false)

/-- Neither the id nor the color of a rectangle is asked for in its wrappers. -/
theorem wrappers_paintedBox (b : BuildOptions) (id' : String) (c' : Color) :
    (b.paintedBox base before after id c).wrappers =
      (b.paintedBox base before after id' c').wrappers := by
  simp only [BuildOptions.paintedBox, Layer.wrappers_decorate]
  rfl

include hhidden

/-- Among hidden fills, the color is the one that shows. -/
theorem primaryPaint?_painted :
    primaryPaint? (base.painted before after id c).fills = some ⟨.solid c, 1, true⟩ := by
  have hpaint : (⟨.solid c, 1, true⟩ : Paint).isShown = true := by
    change (true && decide ((1 : Float) > 0)) = true
    decide +kernel
  have hafter : after.reverse.find? (·.isShown) = none := by
    rw [List.find?_eq_none]
    intro p hp
    have hp := hhidden p (List.mem_append_right _ (List.mem_reverse.mp hp))
    simp [Paint.isShown, hp]
  -- The topmost paint that is shown is looked for from behind; those above the solid one are
  -- hidden.
  rw [primaryPaint?, Layer.painted, List.reverse_append, List.reverse_cons, List.append_assoc,
    List.find?_append, hafter, Option.none_or, List.singleton_append, List.find?_cons, hpaint]

/-- The box of the rectangle is filled with the color. -/
theorem rectangleWidget_painted (key : WidgetKey) :
    (base.painted before after id c).rectangleWidget key =
      filledBox key base.boxStyle (c.withOpacity 1) := by
  have hbackground : (base.painted before after id c).background? =
      some (.color (c.withOpacity 1)) := by
    rw [Layer.background?, primaryPaint?_painted hhidden]
    rfl
  unfold Layer.rectangleWidget Layer.boxStyle
  rw [hbackground]
  rfl

/-- A rectangle that is painted with a color is no image. -/
theorem detect_painted (hkind : base.kind = some .rectangle) (d : ImageDetector) :
    d.detect ⟨base.painted before after id c, []⟩ = none := by
  have hkind' : (base.painted before after id c).kind = some .rectangle := hkind
  have hbox : Node.imageBox? ⟨base.painted before after id c, []⟩ = none := by
    unfold Node.imageBox?
    rw [primaryPaint?_painted hhidden]
    split_ifs <;> rfl
  rw [ImageDetector.detect, hbox, ImageDetector.illustration?, hkind']
  rfl

variable {b : BuildOptions} (hicons : b.skipIconDetection = true) (hflags : b.skipFlags = true)

include hicons hflags

/-- **A painted rectangle is lowered to a filled box** in the wrappers that it asks for. -/
theorem lowerNode_painted (hkind : base.kind = some .rectangle) (hvisible : base.visible = true)
    {depth : Nat} (hdepth : depth ≠ 0) :
    b.lowering.lowerNode depth ⟨base.painted before after id c, []⟩ =
      .ok (some (b.paintedBox base before after id c)) := by
  have htreatment : b.lowering.treatment ⟨base.painted before after id c, []⟩ =
      .finished (filledBox (b.lowering.key (base.painted before after id c)) base.boxStyle
        (c.withOpacity 1)) := by
    have hkind' : (base.painted before after id c).kind = some .rectangle := hkind
    have hvisible' : (base.painted before after id c).visible = true := hvisible
    have himage : b.lowering.detectImage ⟨base.painted before after id c, []⟩ = none :=
      detect_painted hhidden hkind {}
    simp only [LoweringOptions.treatment, hvisible', hkind', b.override?_eq_none hflags,
      LoweringOptions.ordinaryTreatment, himage, b.detectIcon?_eq_none hicons,
      rectangleWidget_painted hhidden]
    rfl
  -- Nothing else is put around widgets beneath the root.
  have hfinish (n : Node) (w : Widget) : b.lowering.finish n depth w = n.layer.decorate w := by
    unfold LoweringOptions.finish BuildOptions.lowering
    cases b.fixRootSize
    · rfl
    · exact if_neg hdepth
  rw [LoweringOptions.lowerNode, htreatment]
  simp only [hfinish, BuildOptions.paintedBox]

end Painted

/-! ### The frame -/

/-- A frame with two rectangles in it that differ in their ids and in their colors only. -/
def paintedPair (frame base : Layer) (before after : List Paint) (i j : String) (c d : Color) : Node :=
  ⟨frame, [⟨base.painted before after i c, []⟩, ⟨base.painted before after j d, []⟩]⟩

section Frame

variable {frame base : Layer} {before after : List Paint} {i j : String} {c d : Color}

/-- A frame with rectangles in it is no image either: there are no shapes in it. -/
theorem detect_paintedPair (hframe : frame.kind = some .frame)
    (hkind : base.kind = some .rectangle) :
    ({} : ImageDetector).detect (paintedPair frame base before after i j c d) = none := by
  have hbeneath : (paintedPair frame base before after i j c d).properDescendants =
      [⟨base.painted before after i c, []⟩, ⟨base.painted before after j d, []⟩] := by
    simp [paintedPair, Node.properDescendants, Node.descendants, Node.descendantsFrom]
  -- A rectangle counts for no shape, and with an image among its hidden fills it spoils the count.
  have hshape (id : String) (c : Color) : (base.painted before after id c).shapeCount? = none ∨
      (base.painted before after id c).shapeCount? = some 0 := by
    have hkind' : (base.painted before after id c).kind = some .rectangle := hkind
    unfold Layer.shapeCount?
    rw [hkind']
    split_ifs
    · exact Or.inl rfl
    · exact Or.inr rfl
  have hcount : (countShapes? (paintedPair frame base before after i j c d).properDescendants).any
      (8 ≤ ·) = false := by
    rw [hbeneath]
    rcases hshape i c with hi | hi <;> rcases hshape j d with hj | hj <;>
      simp [countShapes?, hi, hj]
  have hbox : (paintedPair frame base before after i j c d).imageBox? = none := by
    have hplain : (paintedPair frame base before after i j c d).isPlainBox = false := by
      simp [Node.isPlainBox, paintedPair, hframe]
    simp [Node.imageBox?, hplain]
  have hframe' : (paintedPair frame base before after i j c d).layer.kind = some .frame := hframe
  rw [ImageDetector.detect, hbox, ImageDetector.illustration?, hframe']
  simp [hcount]

/-- The frame is a container, since nothing claims it. -/
theorem treatment_paintedPair {b : BuildOptions} (hicons : b.skipIconDetection = true)
    (hflags : b.skipFlags = true) (hframe : frame.kind = some .frame)
    (hshown : frame.visible = true) (hkind : base.kind = some .rectangle) :
    b.lowering.treatment (paintedPair frame base before after i j c d) = .container {} := by
  have hframe' : (paintedPair frame base before after i j c d).layer.kind = some .frame := hframe
  have hshown' : (paintedPair frame base before after i j c d).layer.visible = true := hshown
  simp only [LoweringOptions.treatment, hshown', hframe', b.override?_eq_none hflags]
  refine LoweringOptions.ordinaryTreatment_eq_container_iff.mpr
    ⟨rfl, ?_, b.detectIcon?_eq_none hicons _, Or.inl rfl⟩
  exact detect_paintedPair hframe hkind

/-- A layer that lines its children up is arranged in a line. -/
theorem exists_arrangement_eq_flex {layer : Layer} (h : layer.layout.mode ≠ .none) :
    ∃ line, layer.arrangement = .flex line layer.isRoot := by
  unfold Layer.arrangement
  cases hmode : layer.layout.mode with
  | none => exact absurd hmode h
  | horizontal => exact ⟨_, rfl⟩
  | vertical => exact ⟨_, rfl⟩

/-- The widget of a frame that lines up two children, neither of which is a mask. -/
theorem exists_containerWidget_flex (o : LoweringOptions) (hframe : frame.kind = some .frame)
    (hflex : frame.layout.mode ≠ .none) (l₁ l₂ : Layer) (hmask₁ : l₁.isMask = false)
    (hmask₂ : l₂.isMask = false) (v₁ v₂ : Widget) :
    ∃ key style line isRoot x₁ y₁ x₂ y₂,
      o.containerWidget frame [⟨l₁, some v₁⟩, ⟨l₂, some v₂⟩] =
        .box key style (.flex line isRoot) [⟨x₁, y₁, v₁⟩, ⟨x₂, y₂, v₂⟩] := by
  obtain ⟨line, hline⟩ := exists_arrangement_eq_flex hflex
  -- Without a mask among the children the frame lines them all up.
  have hnone : [(⟨l₁, some v₁⟩ : LoweredChild), ⟨l₂, some v₂⟩].any (·.layer.isMask) = false := by
    simp [hmask₁, hmask₂]
  rw [LoweringOptions.containerWidget, hnone, hframe]
  simp only [Bool.false_eq_true, if_false, Layer.frameWidget, hline]
  exact ⟨_, _, _, _, _, _, _, _, rfl⟩

/-- The rectangles of the pair are lowered one by one, since neither is a mask. -/
theorem lowerChildren_paintedPair {b : BuildOptions} (hicons : b.skipIconDetection = true)
    (hflags : b.skipFlags = true) (hkind : base.kind = some .rectangle)
    (hvisible : base.visible = true) (hmask : base.isMask = false)
    (hhidden : ∀ p ∈ before ++ after, p.visible = false) {depth : Nat} (hdepth : depth ≠ 0) :
    b.lowering.lowerChildren depth (paintedPair frame base before after i j c d).children =
      .ok [⟨base.painted before after i c, some (b.paintedBox base before after i c)⟩,
        ⟨base.painted before after j d, some (b.paintedBox base before after j d)⟩] := by
  have hmask' (id : String) (c : Color) : (base.painted before after id c).isMask = false := hmask
  simp only [paintedPair, LoweringOptions.lowerChildren, hmask', Bool.false_eq_true, if_false,
    lowerNode_painted hhidden hicons hflags hkind hvisible hdepth]

/-- **The pair is lowered to two filled boxes in a line.** -/
theorem exists_lower_paintedPair {b : BuildOptions} (hicons : b.skipIconDetection = true)
    (hflags : b.skipFlags = true) (hframe : frame.kind = some .frame)
    (hflex : frame.layout.mode ≠ .none) (hshown : frame.visible = true)
    (hkind : base.kind = some .rectangle) (hvisible : base.visible = true)
    (hmask : base.isMask = false) (hhidden : ∀ p ∈ before ++ after, p.visible = false) :
    ∃ w key style line isRoot x₁ y₁ x₂ y₂,
      b.lowering.lower (paintedPair frame base before after i j c d) = .ok w ∧
      w.unwrapped = .box key style (.flex line isRoot)
        [⟨x₁, y₁, b.paintedBox base before after i c⟩,
          ⟨x₂, y₂, b.paintedBox base before after j d⟩] := by
  obtain ⟨key, style, line, isRoot, x₁, y₁, x₂, y₂, hwidget⟩ :=
    exists_containerWidget_flex b.lowering hframe hflex (base.painted before after i c)
      (base.painted before after j d) hmask hmask (b.paintedBox base before after i c)
      (b.paintedBox base before after j d)
  -- The frame is a container without changes, so its box is all there is beneath the wrappers.
  refine ⟨b.lowering.finish (paintedPair frame base before after i j c d) 0
    (.box key style (.flex line isRoot) _), key, style, line, isRoot, x₁, y₁, x₂, y₂,
    LoweringOptions.lower_eq_ok_iff.mpr ?_, BuildOptions.unwrapped_finish ..⟩
  refine LoweringOptions.lowerNode_eq_some_iff.mpr (Or.inr ⟨{}, _,
    treatment_paintedPair hicons hflags hframe hshown hkind,
    LoweringOptions.lowerChildren_eq_ok_iff.mp
      (lowerChildren_paintedPair hicons hflags hkind hvisible hmask hhidden (by decide)), ?_⟩)
  exact congrArg _ (congrArg (Changes.apply {}) hwidget).symm

end Frame

/-! ### The components -/

namespace React

/-- **A module with two empty elements in one,** whose tags are the names of these two of its
components. -/
structure ShowsPair (m : Module) (first second : StyleDeclaration) (ds : List StyleDeclaration) :
    Prop where
  declarations : m.declarations = ds.map styledComponent
  names_nodup : (ds.map (·.name)).Nodup
  first_mem : first ∈ ds
  second_mem : second ∈ ds
  body : ∃ start start₁ start₂,
    m.body = [.markup (.element start [.element start₁ [], .element start₂ []])] ∧
      start₁.name = first.name ∧ start₂.name = second.name

section Pair

variable {w w₁ w₂ : Widget} {key key₁ key₂ : WidgetKey} {style s : Style} {line : FlexLine}
  {isRoot : Bool} {x₁ y₁ x₂ y₂ : Float} {c d : Color}
  (hw : w.unwrapped = .box key style (.flex line isRoot) [⟨x₁, y₁, w₁⟩, ⟨x₂, y₂, w₂⟩])
  (h₁ : w₁.unwrapped = filledBox key₁ s c) (h₂ : w₂.unwrapped = filledBox key₂ s d)

include hw h₁ h₂

/-- The chains of two filled boxes in a line. -/
theorem chains_pair : w.chains .root =
    [⟨w, .root⟩, ⟨w₁, .flex line.direction⟩, ⟨w₂, .flex line.direction⟩] := by
  have hleaf {v : Widget} {k : WidgetKey} {e : Color} (h : v.unwrapped = filledBox k s e)
      (placement : Placement) : v.chains placement = [⟨v, placement⟩] := by
    rw [Widget.chains_eq, Chain.children, h]
    rfl
  rw [Widget.chains_eq, Chain.children, hw]
  simp [Arrangement.placement, hleaf h₁, hleaf h₂]

/-- The markup of the pair is an element with two empty ones in it. -/
theorem markup_pair (b : StyleBinding) (sheet : StyleSheet) : b.markup sheet w =
    .element (b.chainTag sheet ⟨w, .root⟩)
      [.element (b.chainTag sheet ⟨w₁, .flex line.direction⟩) [],
        .element (b.chainTag sheet ⟨w₂, .flex line.direction⟩) []] := by
  -- A filled box has nothing in its element but what its children add.
  have hcontent {v u : Widget} (h : v.unwrapped = u) (hu : u.element = { start := { name := "div" } }) :
      b.content v.element = [] := by
    rw [← Widget.element_unwrapped, h, hu]
    rfl
  have hbox {v : Widget} {k : WidgetKey} {e : Color} (h : v.unwrapped = filledBox k s e)
      (placement : Placement) :
      b.markup sheet v = .element (b.chainTag sheet ⟨v, placement⟩) [] := by
    rw [StyleBinding.markup_head ⟨v, placement⟩, Chain.element, hcontent h rfl, Chain.children, h]
    rfl
  rw [StyleBinding.markup_head ⟨w, .root⟩, Chain.element, hcontent hw rfl, Chain.children, hw]
  simp only [List.map_cons, List.map_nil, List.nil_append, Arrangement.placement]
  rw [hbox h₁ (.flex line.direction), hbox h₂ (.flex line.direction)]

/-- **Two filled boxes in a line** have one component if and only if their fills are written alike. -/
theorem exists_showsPair (hwrappers : w₁.wrappers = w₂.wrappers) (hids : key₁.id ≠ key₂.id)
    {o : ReactOptions} {package : StyledPackage} (hstyling : o.styling = .styledComponents package) :
    ∃ first second ds, ShowsPair (emit o w) first second ds ∧
      (first = second ↔ c.cssText = d.cssText) := by
  obtain ⟨-, hdeclarations, hbody⟩ := emit_styledComponents hstyling w
  obtain ⟨hnames, hshares⟩ := StyleSheet.sharesExactly_of_any w ⟨true, true⟩ (namer w)
  have hchains := chains_pair hw h₁ h₂
  have hid {v : Widget} {k : WidgetKey} {e : Color} (h : v.unwrapped = filledBox k s e)
      (placement : Placement) : Chain.id ⟨v, placement⟩ = k.id := by
    rw [Chain.id, Chain.widget, h]
    rfl
  -- An entry is that of the last chain with its id, and only the id of the frame may be that of a
  -- rectangle.
  obtain ⟨name₁, hentry₁⟩ := Namer.exists_entry_of_last (w := w) ⟨true, true⟩ (namer w)
    [⟨w, .root⟩] hchains (by simpa [hid h₁, hid h₂] using hids)
  obtain ⟨name₂, hentry₂⟩ := Namer.exists_entry_of_last (w := w) ⟨true, true⟩ (namer w)
    [⟨w, .root⟩, ⟨w₁, .flex line.direction⟩] hchains List.not_mem_nil
  obtain ⟨css₁, hcss₁⟩ := exists_css_filledBox h₁ (.flex line.direction)
  obtain ⟨css₂, hcss₂⟩ := exists_css_filledBox h₂ (.flex line.direction)
  have hown {v : Widget} {k : WidgetKey} {e : Color} (h : v.unwrapped = filledBox k s e)
      {placement : Placement} {css : Css} (hcss : v.css? placement = some css) (name : String) :
      (Chain.entry ⟨true, true⟩ ⟨v, placement⟩ name).declaration? = some ⟨name, "div", css⟩ := by
    have hcss' : Chain.css? ⟨v, placement⟩ = some css := hcss
    have htag : (Chain.element ⟨v, placement⟩).start.name = "div" := by
      rw [Chain.element, ← Widget.element_unwrapped, h]
      rfl
    rw [Chain.declaration?_entry, hcss', htag]
    rfl
  -- Each box is shown by the first declaration that is alike to its own, so the two are one exactly
  -- if their own are alike.
  obtain ⟨first, hfirst, -⟩ := hshares.first hentry₁ (hown h₁ hcss₁ name₁)
  obtain ⟨second, hsecond, -⟩ := hshares.first hentry₂ (hown h₂ hcss₂ name₂)
  refine ⟨first, second, (sheet w).uniques, ⟨hdeclarations, ?_, ?_, ?_, ?_⟩, ?_⟩
  · exact (hshares.uniques_sublist.map _).nodup hnames
  · exact hshares.mem_uniques.mpr ⟨_, hfirst⟩
  · exact hshares.mem_uniques.mpr ⟨_, hsecond⟩
  · exact ⟨_, _, _, by rw [hbody, markup_pair hw h₁ h₂],
      name_chainTag_styled hentry₁ (hown h₁ hcss₁ name₁) hfirst,
      name_chainTag_styled hentry₂ (hown h₂ hcss₂ name₂) hsecond⟩
  · have halike := hshares.shares hentry₁ (hown h₁ hcss₁ name₁) hentry₂ (hown h₂ hcss₂ name₂)
    rw [hfirst, hsecond, Option.some.injEq, StyleDeclaration.Alike,
      alike_filledBox_iff h₁ h₂ hwrappers hcss₁ hcss₂] at halike
    exact halike.trans (and_iff_right rfl)

end Pair

end React

/-! ### The law -/

/-- A pair of painted rectangles has one component if and only if their colors are written alike. -/
theorem exists_showsPair_paintedPair {b : BuildOptions} (frame base : Layer)
    (before after : List Paint) (hicons : b.skipIconDetection = true) (hflags : b.skipFlags = true)
    (hframe : frame.kind = some .frame)
    (hflex : frame.layout.mode ≠ .none) (hshown : frame.visible = true)
    (hkind : base.kind = some .rectangle) (hvisible : base.visible = true)
    (hmask : base.isMask = false) (hhidden : ∀ p ∈ before ++ after, p.visible = false) {i j : String}
    (hids : i ≠ j) (c d : Color) {o : ReactOptions} {package : StyledPackage}
    (hstyling : o.styling = .styledComponents package) :
    ∃ w first second ds,
      b.lowering.lower (paintedPair frame base before after i j c d) = .ok w ∧
      React.ShowsPair (React.emit o w) first second ds ∧
      (first = second ↔ (c.withOpacity 1).cssText = (d.withOpacity 1).cssText) := by
  obtain ⟨w, key, style, line, isRoot, x₁, y₁, x₂, y₂, hlower, hw⟩ :=
    exists_lower_paintedPair (i := i) (j := j) (c := c) (d := d) hicons hflags hframe hflex hshown
      hkind hvisible hmask hhidden
  -- Both boxes are decorated alike, so that only their fills can tell their css apart.
  obtain ⟨first, second, ds, hshows, hfirst⟩ := React.exists_showsPair hw
    (Layer.unwrapped_decorate _ _) (Layer.unwrapped_decorate _ _) (wrappers_paintedBox ..) hids
    hstyling
  exact ⟨w, first, second, ds, hlower, hshows, hfirst⟩

/-- **Fills of different shades stay different, and equal fills are shared.** In a flex frame with two
rectangles that differ in their ids and in the color of their only visible fill, the elements of the
rectangles have one styled component if the colors are of one shade, and else two. -/
theorem fills_apart {b : BuildOptions} (frame base : Layer) (before after : List Paint)
    (hicons : b.skipIconDetection = true) (hflags : b.skipFlags = true)
    (hframe : frame.kind = some .frame)
    (hflex : frame.layout.mode ≠ .none) (hshown : frame.visible = true)
    (hkind : base.kind = some .rectangle) (hvisible : base.visible = true)
    (hmask : base.isMask = false) (hhidden : ∀ p ∈ before ++ after, p.visible = false) {i j : String}
    (hids : i ≠ j) {c d : Color} (hc : c.ProperAlpha) (hd : d.ProperAlpha) {o : ReactOptions}
    {package : StyledPackage} (hstyling : o.styling = .styledComponents package) :
    ∃ w first second ds,
      b.lowering.lower (paintedPair frame base before after i j c d) = .ok w ∧
      React.ShowsPair (React.emit o w) first second ds ∧
      (first = second ↔ c.SameShade d) ∧ ((c == d) = true → first = second) := by
  obtain ⟨w, first, second, ds, hlower, hshows, hfirst⟩ := exists_showsPair_paintedPair frame
    base before after hicons hflags hframe hflex hshown hkind hvisible hmask hhidden hids c d hstyling
  -- A paint that is opaque leaves the color as it is.
  have hshade : first = second ↔ c.SameShade d := by
    rw [hfirst, hc.withOpacity_one, hd.withOpacity_one, Color.cssText_eq_iff hc hd]
  exact ⟨w, first, second, ds, hlower, hshows, hshade,
    fun heq => hshade.mpr (Color.sameShade_of_beq heq hc hd)⟩

/-- A row of swatches. -/
def swatchRow : Layer :=
  { id := "1:1", name := "swatches", kind := some .frame, width := 90, height := 40,
    layout := { mode := .horizontal } }

/-- A swatch without a color. -/
def swatch : Layer := { id := "", name := "swatch", kind := some .rectangle, width := 40, height := 40 }

/-- A translucent red and a blue have two components. -/
theorem fills_apart_redBlue : ∃ w first second ds,
    (BuildOptions.lowering { skipIconDetection := true, skipFlags := true }).lower
      (paintedPair swatchRow swatch [] [] "1:2" "1:3" ⟨1, 0, 0, 0.5⟩ ⟨0, 0, 1, 1⟩) = .ok w ∧
    React.ShowsPair (React.emit {} w) first second ds ∧ first ≠ second := by
  have hunlike : ¬ Color.SameShade ⟨1, 0, 0, 0.5⟩ ⟨0, 0, 1, 1⟩ := fun h =>
    absurd h.red (by decide +kernel)
  obtain ⟨w, first, second, ds, hlower, hshows, hshade, -⟩ :=
    fills_apart (b := { skipIconDetection := true, skipFlags := true }) swatchRow swatch [] []
      rfl rfl rfl (by decide) rfl rfl rfl rfl (fun _ h => absurd h List.not_mem_nil)
      (i := "1:2") (j := "1:3") (by decide)
      (c := ⟨1, 0, 0, 0.5⟩) (d := ⟨0, 0, 1, 1⟩)
      ⟨by decide +kernel, by decide +kernel, by decide +kernel⟩
      ⟨by decide +kernel, by decide +kernel, by decide +kernel⟩ (o := {}) rfl
  exact ⟨w, first, second, ds, hlower, hshows, fun heq => hunlike (hshade.mp heq)⟩

/-- Two reds that differ by less than a byte tells are unequal colors, and have one component. -/
theorem fills_not_apart_reds :
    ((⟨0.5, 0, 0, 1⟩ : Color) == ⟨0.502, 0, 0, 1⟩) = false ∧
    ∃ w declaration ds,
      (BuildOptions.lowering { skipIconDetection := true, skipFlags := true }).lower
        (paintedPair swatchRow swatch [] [] "1:2" "1:3" ⟨0.5, 0, 0, 1⟩ ⟨0.502, 0, 0, 1⟩) = .ok w ∧
      React.ShowsPair (React.emit {} w) declaration declaration ds := by
  refine ⟨by decide +kernel, ?_⟩
  obtain ⟨w, first, second, ds, hlower, hshows, hfirst⟩ :=
    exists_showsPair_paintedPair (b := { skipIconDetection := true, skipFlags := true }) swatchRow
      swatch [] [] rfl rfl rfl (by decide) rfl rfl rfl rfl (fun _ h => absurd h List.not_mem_nil)
      (i := "1:2") (j := "1:3") (by decide)
      ⟨0.5, 0, 0, 1⟩ ⟨0.502, 0, 0, 1⟩ (o := {}) rfl
  -- Both reds are written with the same byte.
  obtain rfl := hfirst.mpr (by decide +kernel)
  exact ⟨w, first, ds, hlower, hshows⟩

end DesignCompiler
