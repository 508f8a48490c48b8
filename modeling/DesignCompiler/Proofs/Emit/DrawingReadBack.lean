import DesignCompiler.Proofs.Emit.Embedded
import DesignCompiler.Proofs.Emit.ReadBack
import DesignCompiler.Proofs.Markup.Quotes
/-!
# Drawings are read back

The string that a drawing is put in is read as markup, and the markup as a tree. The tree is that of
the drawing if the data of its paths are on one line and have no mark of a string in them, and only
then (`Flutter.drawing_reads_back`).

That data with a mark never give the tree by chance needs two counts. An escape can be a double quote,
which ends the data in the markup; but then the markup has more quotes than the tree
(`Flutter.not_mem_of_readAll?`). Without such quotes the data in the tree are those in the string,
decoded, and these are no longer than the given ones (`Flutter.verbatim_of_seenAs`).
-/

namespace DesignCompiler

open TextReader DartReader MarkupReader

/-- The tag that is written for a tag has the names that it has. -/
theorem StartTag.Named.readable {t : StartTag} (h : t.Named) :
    StartTag.Readable ⟨t.name, t.attributes.map Attribute.plain⟩ :=
  ⟨h.1, List.forall_mem_map.mpr fun a ha => Attribute.readable_plain (h.2 a ha)⟩

namespace Flutter

section Paths

variable (fill : Option Color) (rule : Option WindingRule) (stroke : Option Border)

/-! ### What the markup is -/

/-- **A path is read with the data up to its second quote.** -/
theorem read_pathWith (p : VectorPath) {data : List Char} (h : '"' ∉ data) {nodes : List Markup}
    {outer : List (StartTag × List Markup)} :
    (MarkupReader.mk .content [] nodes outer).read (pathWith fill rule stroke p data) =
      some ⟨.content, [], nodes ++ [pathNode fill rule stroke p (markupDecoded data)], outer⟩ := by
  have hnames : IsMarkupName "path" ∧ IsMarkupName "d" := by decide
  have hopened : (MarkupReader.mk .content [] nodes outer).step '<' =
      some ⟨.opened, [], nodes, outer⟩ := rfl
  have hdata : (MarkupReader.mk (.tag ⟨"path", []⟩) [] nodes outer).read
      (' ' :: ("d".toList ++ '=' :: '"' :: (data ++ ['"']))) =
        some ⟨.tag ⟨"path", [.ofText "d" (String.ofList (markupDecoded data))]⟩, [], nodes, outer⟩ :=
    read_quoted hnames.2 h
  have hlooks : ∀ done, (MarkupReader.mk (.tag ⟨"path", done⟩) [] nodes outer).read
      (pathLooksText fill rule stroke p).toList =
        some ⟨.tag ⟨"path", done ++ pathLooks fill rule stroke p⟩, [], nodes, outer⟩ :=
    read_attributes (readable_pathLooks fill rule stroke p)
  have hend : ∀ start, (MarkupReader.mk (.tag start) [] nodes outer).read " />".toList =
      some ((MarkupReader.mk (.slash start) [] nodes outer).add (.element start [])) := fun _ => rfl
  -- The name of the tag, its data, what is behind the data, and the end of the tag.
  have hshape : pathWith fill rule stroke p data = '<' :: ("path".toList ++ ' ' ::
      ("d".toList ++ '=' :: '"' :: (data ++ ['"']) ++
        ((pathLooksText fill rule stroke p).toList ++ " />".toList))) := by
    unfold pathWith pathStart pathEnd
    generalize pathLooksText fill rule stroke p = looks
    simp
  rw [hshape, read_cons_of_eq hopened, read_name hnames.1 (by decide), ← List.cons_append,
    read_append_of_eq hdata, read_append_of_eq (hlooks _), hend, add,
    allNodes_of_isSpacing isSpacing_nil, pathNode_eq]
  rfl

/-- **Paths are read one by one,** whatever is in their data but for quotes, and are added to the
nodes before. -/
theorem read_paths {drawn : List (VectorPath × List Char)} (h : ∀ d ∈ drawn, '"' ∉ d.2)
    (nodes : List Markup) (outer : List (StartTag × List Markup)) :
    (MarkupReader.mk .content [] nodes outer).read
        (drawn.flatMap fun d => pathWith fill rule stroke d.1 d.2) =
      some ⟨.content, [], nodes ++ drawn.map
        (fun d => pathNode fill rule stroke d.1 (markupDecoded d.2)), outer⟩ := by
  -- The reader is left in front of the next path with one node more, so the nodes so far are
  -- generalised.
  induction drawn generalizing nodes with
  | nil =>
    rw [List.map_nil, List.append_nil]
    rfl
  | cons d rest ih =>
    obtain ⟨hd, hrest⟩ := List.forall_mem_cons.mp h
    rw [List.flatMap_cons, read_append_of_eq (read_pathWith fill rule stroke d.1 hd), ih hrest,
      List.map_cons, List.append_assoc, List.singleton_append]

/-- **A drawing without other quotes is the element of its tag,** with its paths. -/
theorem readAll?_drawingWith {start : StartTag} (hname : start.name = "svg") (hstart : start.Named)
    {drawn : List (VectorPath × List Char)} (h : ∀ d ∈ drawn, '"' ∉ d.2) :
    Markup.readAll? (String.ofList (drawingWith fill rule stroke start drawn)) =
      some [svgNode start
        (drawn.map fun d => pathNode fill rule stroke d.1 (markupDecoded d.2))] := by
  -- The tag begins, its paths are read, and it ends with just these in it.
  have hopen : MarkupReader.read {} ("<" ++ svgTag start ++ ">").toList =
      some ⟨.content, [], [], [(⟨start.name, start.attributes.map Attribute.plain⟩, [])]⟩ :=
    read_begin hstart.readable isSpacing_nil
  have hpaths := read_paths fill rule stroke h []
  have hclose : ∀ nodes, (MarkupReader.mk .content [] nodes
      [(⟨start.name, start.attributes.map Attribute.plain⟩, [])]).read "</svg>".toList =
        some ⟨.content, [], [svgNode start nodes], []⟩ := by
    intro nodes
    have hinside : (MarkupReader.mk .content [] nodes []).inside = nodes := by
      cases nodes <;> simp [inside, allNodes]
    have hend : ("</" ++ start.name ++ ">").toList = "</svg>".toList := by
      rw [hname]
      rfl
    rw [← hend, read_end hstart.readable.1, hinside]
    rfl
  have hread : MarkupReader.read {} (drawingWith fill rule stroke start drawn) =
      some ⟨.content, [], [svgNode start
        (drawn.map fun d => pathNode fill rule stroke d.1 (markupDecoded d.2))], []⟩ := by
    rw [drawingWith, read_append_of_eq hopen, read_append_of_eq (hpaths _), hclose, List.nil_append]
  rw [Markup.readAll?, String.toList_ofList, hread]
  simp [allNodes]

/-- A path whose own data is drawn is the node of its tag. -/
theorem pathNode_toList (p : VectorPath) :
    pathNode fill rule stroke p p.data.toList = svgNode (pathTag p fill rule stroke) [] := by
  rw [pathNode, String.ofList_toList]

/-- Different data make different nodes. -/
theorem pathNode_injective (p : VectorPath) :
    Function.Injective (pathNode fill rule stroke p) := by
  intro a b h
  rw [pathNode_eq, pathNode_eq] at h
  simpa [Attribute.ofText, String.ofList_inj] using h

/-! ### Quotes -/

/-- The quotes of paths are those of their attributes and of their data. -/
theorem count_quote_paths (drawn : List (VectorPath × List Char)) :
    (drawn.flatMap fun d => pathWith fill rule stroke d.1 d.2).count '"' =
      Markup.quotesAll (drawn.map fun d => svgNode (pathTag d.1 fill rule stroke) []) +
        (drawn.flatMap Prod.snd).count '"' := by
  have hstart : pathStart.count '"' = 1 := by decide
  have hend : " />".toList.count '"' = 0 := by decide
  -- A path is written with two quotes for each attribute, and with those in its data.
  induction drawn with
  | nil => rfl
  | cons d rest ih =>
    have hlooks : (pathEnd fill rule stroke d.1).count '"' =
        2 * (pathLooks fill rule stroke d.1).length := by
      rw [pathEnd, String.toList_append, List.count_append, hend, pathLooksText,
        count_quote_attributes (readable_pathLooks fill rule stroke d.1), Nat.add_zero]
    have hnode : (svgNode (pathTag d.1 fill rule stroke) []).quotes =
        2 * ((pathLooks fill rule stroke d.1).length + 1) := rfl
    rw [List.flatMap_cons, List.count_append, ih, List.map_cons, Markup.quotesAll_cons, hnode,
      pathWith, List.count_append, hstart, List.count_append, List.count_cons_self, hlooks,
      List.flatMap_cons, List.count_append]
    omega

/-- **A drawing that is read as one with other data** has no quote in any data. -/
theorem not_mem_of_readAll? {start : StartTag} (hstart : start.Named)
    {drawn : List (VectorPath × List Char)}
    (h : Markup.readAll? (String.ofList (drawingWith fill rule stroke start drawn)) =
      some [svgNode start (drawn.map fun d => svgNode (pathTag d.1 fill rule stroke) [])]) :
    ∀ d ∈ drawn, '"' ∉ d.2 := by
  have htag : (svgTag start).toList.count '"' = 2 * start.attributes.length := by
    rw [svgTag, hstart.readable.count_quote, List.length_map]
  have hclose : "</svg>".toList.count '"' = 0 := by decide
  have hcount := Markup.count_quote_le h
  have hnode : ∀ children, (svgNode start children).quotes =
      2 * start.attributes.length + Markup.quotesAll children := by
    intro children
    rw [svgNode, Markup.quotes, List.length_map]
  have hopen : ("<" ++ svgTag start ++ ">").toList.count '"' = 2 * start.attributes.length := by
    simp [htag]
  rw [String.toList_ofList, drawingWith, List.count_append, List.count_append, hopen, hclose,
    count_quote_paths, Markup.quotesAll_cons, hnode, Markup.quotesAll_nil] at hcount
  -- All quotes that a tree without texts can have are those around its attributes, so none is left
  -- for the data.
  have hnone : (drawn.flatMap Prod.snd).count '"' = 0 := by omega
  intro d hd hmem
  exact List.count_eq_zero.mp hnone (List.mem_flatMap.mpr ⟨d, hd, hmem⟩)

/-! ### What the string is -/

/-- **The trees that a string of several lines is markup for,** if it is such a string. -/
def embedded? (literal : String) : Option (List Markup) :=
  (readAll? blockString literal.toList).bind fun text => Markup.readAll? (String.ofList text)

/-- **A text that a string of several lines has as it is.** -/
structure Verbatim (text : String) : Prop where
  oneLine : OneLine text
  plain : BlockPlain text.toList

instance : DecidablePred Verbatim := fun text =>
  decidable_of_iff (OneLine text ∧ BlockPlain text.toList)
    ⟨fun h => ⟨h.1, h.2⟩, fun h => ⟨h.oneLine, h.plain⟩⟩

/-- Data that are seen in the string as they are were on one line, and without marks. -/
theorem verbatim_of_seenAs {data : String} {seen : List Char}
    (h : SeenAs (joinedLines data.toList) seen) (hsame : markupDecoded seen = data.toList) :
    Verbatim data := by
  obtain ⟨hsub, hfeed⟩ := joinedLines_sublist data.toList
  have hjoined : joinedLines data.toList = data.toList := by
    have hlength := h.length_le
    rw [hsame] at hlength
    exact hsub.eq_of_length_le hlength
  rw [hjoined] at h hfeed
  exact ⟨hfeed, h.plain hsame⟩

/-- The tree of a drawing: its tag, with its shapes in it. -/
def drawingTree (e : OwnElement) : Markup := svgNode e.start (e.shapes.map (svgNode · []))

/-- A drawing is read with its data on one line if these are left alone. -/
theorem embedded?_of_plain (width height : Float) {paths : List VectorPath}
    (h : ∀ p ∈ paths, BlockPlain (joinedLines p.data.toList)) :
    embedded? ("'''" ++
        svgText (svgElement width height (paths.map fun p => pathTag p fill rule stroke)) ++ "'''") =
      some [svgNode (svgElement width height []).start
        (paths.map fun p => pathNode fill rule stroke p (joinedLines p.data.toList))] := by
  have hblock := block_drawingWith fill rule stroke (safe_svgStart width height) h
  -- Escaped data have no quotes, and reading them undoes the escape.
  have hquotes : ∀ d ∈ paths.map fun p => (p, (joinedLines p.data.toList).flatMap markupEscape),
      '"' ∉ d.2 := by
    refine List.forall_mem_map.mpr fun p _ hmem => ?_
    exact (ne_of_mem_escaped hmem).2 rfl
  rw [embedded?, toList_literal, readAll?_blockString.mpr hblock, Option.bind_some,
    readAll?_drawingWith fill rule stroke rfl (named_svgElement width height []) hquotes,
    List.map_map]
  simp only [Function.comp_def, markupDecoded_escape]

/-- **A drawing is read as it is exactly if its data are verbatim.** -/
theorem embedded?_svgText (width height : Float) (paths : List VectorPath) :
    embedded? ("'''" ++
        svgText (svgElement width height (paths.map fun p => pathTag p fill rule stroke)) ++ "'''") =
      some [drawingTree (svgElement width height (paths.map fun p => pathTag p fill rule stroke))] ↔
        ∀ p ∈ paths, Verbatim p.data := by
  have htree : drawingTree
      (svgElement width height (paths.map fun p => pathTag p fill rule stroke)) =
        svgNode (svgElement width height []).start
          (paths.map fun p => svgNode (pathTag p fill rule stroke) []) :=
    congrArg (svgNode _) List.map_map
  rw [htree]
  constructor
  · intro h
    rw [embedded?, toList_literal, Option.bind_eq_some_iff] at h
    obtain ⟨value, hstring, hmarkup⟩ := h
    have hline : ∀ p : VectorPath, '\n' ∉ joinedLines p.data.toList := fun p =>
      (joinedLines_sublist p.data.toList).2
    obtain ⟨drawn, rfl, hvalue, hseen⟩ := exists_of_block_drawingWith fill rule stroke
      (safe_svgStart width height) hline (readAll?_blockString.mp hstring)
    rw [hvalue, List.map_map] at hmarkup
    -- No data have a quote, so the paths are read with the data they have in the string.
    have hquotes := not_mem_of_readAll? fill rule stroke (named_svgElement width height []) hmarkup
    rw [readAll?_drawingWith fill rule stroke rfl (named_svgElement width height []) hquotes]
      at hmarkup
    simp only [svgNode, Option.some.injEq, List.cons.injEq, Markup.element.injEq, true_and, and_true]
      at hmarkup
    rw [List.map_inj_left] at hmarkup
    rw [List.forall_mem_map]
    intro d hd
    have hsame : markupDecoded d.2 = d.1.data.toList :=
      pathNode_injective fill rule stroke d.1
        ((hmarkup d hd).trans (pathNode_toList fill rule stroke d.1).symm)
    exact verbatim_of_seenAs (hseen d hd) hsame
  · intro h
    have hjoined : ∀ p ∈ paths, joinedLines p.data.toList = p.data.toList := fun p hp =>
      joinedLines_of_not_mem (h p hp).oneLine
    have hplain : ∀ p ∈ paths, BlockPlain (joinedLines p.data.toList) := by
      intro p hp
      rw [hjoined p hp]
      exact (h p hp).plain
    have hnodes : (paths.map fun p => pathNode fill rule stroke p (joinedLines p.data.toList)) =
        paths.map fun p => svgNode (pathTag p fill rule stroke) [] :=
      List.map_congr_left fun p hp => by rw [hjoined p hp, pathNode_toList]
    rw [embedded?_of_plain fill rule stroke width height hplain, hnodes]

end Paths

/-- **The string of a drawing is its element exactly if its data are verbatim:** what the string is
read as is markup for the element, with the tags, the attributes and the values that it has. -/
theorem drawing_reads_back (parent : Option Direction) (key : WidgetKey) (style : Style)
    {content : Leaf} (h : isDrawing (.leaf key style content) = true) :
    ∃ literal, expr parent (.leaf key style content) =
        .call "SvgPicture.string" (plain (.literal literal) :: sizeArguments style) ∧
      (embedded? literal = some [drawingTree (content.element key.originName)] ↔
        ∀ data ∈ content.texts, Verbatim data) := by
  -- Both kinds of drawings are written by the same function, with their own paths.
  cases content with
  | vector content =>
    refine ⟨_, rfl, ?_⟩
    rw [Leaf.texts, List.forall_mem_map, Leaf.element, embedded?_svgText]
  | boolean content =>
    refine ⟨_, rfl, ?_⟩
    rw [Leaf.texts, List.forall_mem_map, Leaf.element, embedded?_svgText]
  | text | image | icon => cases h

/-- A mark of one path. -/
def mark (data : String) : Leaf :=
  .vector { paths := [⟨data, .nonZero⟩], fill := none, stroke := none, width := 9, height := 9 }

/-- The law at a mark of one line. -/
theorem drawing_reads_back_mark :
    isDrawing (.leaf ⟨"1:2", "mark", none⟩ {} (mark "M0 0 L9 9")) = true ∧
      ∃ literal, expr none (.leaf ⟨"1:2", "mark", none⟩ {} (mark "M0 0 L9 9")) =
          .call "SvgPicture.string" [plain (.literal literal)] ∧
        embedded? literal = some [drawingTree ((mark "M0 0 L9 9").element "mark")] := by
  have hdrawing : isDrawing (.leaf ⟨"1:2", "mark", none⟩ {} (mark "M0 0 L9 9")) = true := rfl
  obtain ⟨literal, hcall, hiff⟩ := drawing_reads_back none ⟨"1:2", "mark", none⟩ {} hdrawing
  exact ⟨hdrawing, literal, hcall, hiff.mpr (by decide)⟩

/-- **Lines of data are joined with nothing between,** so that two numbers become one. -/
theorem drawing_joins_numbers :
    ∃ literal, expr none (.leaf ⟨"1:2", "mark", none⟩ {} (mark "M0 0 L1\n2")) =
        .call "SvgPicture.string" [plain (.literal literal)] ∧
      embedded? literal = some [drawingTree ((mark "M0 0 L12").element "mark")] ∧
      embedded? literal ≠ some [drawingTree ((mark "M0 0 L1\n2").element "mark")] := by
  -- The line feed between the numbers is lost when the lines are joined.
  have hjoined : joinedLines "M0 0 L1\n2".toList = "M0 0 L12".toList := by decide
  have hplain : ∀ p ∈ [VectorPath.mk "M0 0 L1\n2" .nonZero],
      BlockPlain (joinedLines p.data.toList) := by
    decide
  have hbroken : ¬ ∀ p ∈ [VectorPath.mk "M0 0 L1\n2" .nonZero], Verbatim p.data := by
    decide
  have hread := embedded?_of_plain none none none 9 9 hplain
  simp only [List.map_cons, List.map_nil, hjoined, pathNode, String.ofList_toList] at hread
  exact ⟨_, rfl, hread, fun h => hbroken ((embedded?_svgText none none none 9 9 _).mp h)⟩

end Flutter

end DesignCompiler
