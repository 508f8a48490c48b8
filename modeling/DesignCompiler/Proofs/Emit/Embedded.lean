import DesignCompiler.Proofs.Asset.Drawings
import DesignCompiler.Proofs.Code.DartBlock
import DesignCompiler.Proofs.Emit.ReadBack
/-!
# Drawings in strings

Flutter gets a drawing as markup in a string. On its way there the data of a path are escaped for the
markup, put on one line together with the markup (`Flutter.svgText`), and read as part of a string.

All that is written for a drawing, other than the data of its paths, goes through these unchanged: it
is one line (`oneLine_svgTag_svgElement`), and means itself in a string (`Flutter.safe_svgStart`,
`Flutter.safe_pathEnd`). So a drawing is described by what stands for the data in it
(`Flutter.drawingWith`):

* in the code it is the data with their lines joined, then escaped (`Flutter.toList_svgText_eq`);
* in the string it is what that is read as, path by path (`Flutter.block_drawingWith` if it is left
  alone, `Flutter.exists_of_block_drawingWith` else).
-/

namespace DesignCompiler

/-- **Escaping for markup keeps blanks:** a blank is not escaped, and nothing else is made one. -/
theorem keepsBlanks_markupEscape : KeepsBlanks markupEscape where
  blank {c} hc := by
    -- None of the four characters that are escaped is a blank.
    unfold markupEscape
    split_ifs with hamp hlt hgt hquot
    · exact absurd (beq_iff_eq.mp hamp ▸ hc) (by decide)
    · exact absurd (beq_iff_eq.mp hlt ▸ hc) (by decide)
    · exact absurd (beq_iff_eq.mp hgt ▸ hc) (by decide)
    · exact absurd (beq_iff_eq.mp hquot ▸ hc) (by decide)
    · rfl
  other {c} hc := by
    rcases markupEscape_cases c with hsame | ⟨entity, hentity, hescape⟩
    · rw [hsame]
      exact ⟨List.cons_ne_nil _ _, List.forall_mem_singleton.mpr hc⟩
    · rw [hescape]
      have hall : ∀ e ∈ markupEntities, ('&' :: String.toList e).any isBlank = false := by decide
      exact ⟨List.cons_ne_nil _ _, fun e he =>
        Bool.eq_false_of_not_eq_true (List.any_eq_false.mp (hall entity hentity) e he)⟩

open TextReader DartReader

/-! ### Tags in a string -/

/-- Tame texts are safe. -/
theorem Tame.safe {text : String} (h : Tame text) : Safe text := by
  intro c hc
  -- The characters that have a meaning in a string are no tame ones.
  have hmarks : ['\\', '$', '\r', '\''].any isTameChar = false := by decide
  have hne : ∀ d ∈ ['\\', '$', '\r', '\''], c ≠ d := by
    rintro d hd rfl
    exact List.any_eq_false.mp hmarks c hd (h c hc)
  simp [isBlockSafe, isBlockPlain, hne]

/-- An attribute that is tame but for one text is safe if this text is. -/
theorem Attribute.TameBut.safe_plain {given : String} {a : Attribute} (h : a.TameBut given)
    (hgiven : Safe given) : Safe (a.plain.write .html) := by
  have hnames : ∀ name ∈ elementAttributes, Safe (name ++ "=") := by decide
  obtain ⟨name, hname, value, rfl, hvalue⟩ := h
  have hsafe : Safe value := hvalue.elim (fun h => h ▸ hgiven) Tame.safe
  have hquoted : Safe (inQuotes (markupEscaped value)) := by
    simp +decide [inQuotes, hsafe.markupEscaped]
  exact safe_append.mpr ⟨hnames name hname, hquoted⟩

/-- Attributes are safe together if each of them is. -/
theorem safe_attributes {attributes : List Attribute} (h : ∀ a ∈ attributes, Safe (a.write .html)) :
    Safe (String.join (attributes.map fun a => " " ++ a.write .html)) := by
  induction attributes with
  | nil => decide
  | cons a rest ih =>
    obtain ⟨ha, hrest⟩ := List.forall_mem_cons.mp h
    rw [List.map_cons, String.join_cons, safe_append, safe_append]
    exact ⟨⟨by decide, ha⟩, ih hrest⟩

namespace Flutter

/-- What is written in front of the data of a path. -/
def pathStart : List Char := "<path d=\"".toList

section Paths

variable (fill : Option Color) (rule : Option WindingRule) (stroke : Option Border)

/-- The attributes of a path behind its data. -/
def pathLooks (p : VectorPath) : List Attribute :=
  (pathTag p fill rule stroke).attributes.tail.map Attribute.plain

/-- What these are written as. -/
def pathLooksText (p : VectorPath) : String :=
  String.join ((pathLooks fill rule stroke p).map fun a => " " ++ a.write .html)

/-- What is written behind the data of a path. -/
def pathEnd (p : VectorPath) : List Char := (pathLooksText fill rule stroke p ++ " />").toList

/-- The tag of a path with some characters for its data. -/
def pathWith (p : VectorPath) (data : List Char) : List Char :=
  pathStart ++ (data ++ '"' :: pathEnd fill rule stroke p)

/-- The element of a path with some data. -/
def pathNode (p : VectorPath) (data : List Char) : Markup :=
  svgNode (pathTag ⟨String.ofList data, p.winding⟩ fill rule stroke) []

theorem pathNode_eq (p : VectorPath) (data : List Char) :
    pathNode fill rule stroke p data =
      .element ⟨"path", .ofText "d" (String.ofList data) :: pathLooks fill rule stroke p⟩ [] := rfl

/-- The looks of a path can be read. -/
theorem readable_pathLooks (p : VectorPath) :
    ∀ a ∈ pathLooks fill rule stroke p, a.Readable :=
  List.forall_mem_map.mpr fun a ha =>
    Attribute.readable_plain ((named_pathTag p fill rule stroke).2 a (List.mem_of_mem_tail ha))

/-- A drawing with some characters for the data of its paths. -/
def drawingWith (start : StartTag) (drawn : List (VectorPath × List Char)) : List Char :=
  ("<" ++ svgTag start ++ ">").toList ++
    (drawn.flatMap (fun d => pathWith fill rule stroke d.1 d.2) ++ "</svg>".toList)

/-! ### What is put in -/

/-- The tag of a path, with its data in quotes. -/
theorem svgTag_path (p : VectorPath) :
    svgTag (pathTag p fill rule stroke) =
      "path d=\"" ++ markupEscaped p.data ++ "\"" ++ pathLooksText fill rule stroke p := by
  have hattributes : (pathTag p fill rule stroke).attributes.map Attribute.plain =
      .ofText "d" p.data :: pathLooks fill rule stroke p := rfl
  have hname : (pathTag p fill rule stroke).name = "path" := rfl
  rw [svgTag, StartTag.write, hattributes, hname, List.map_cons, String.join_cons]
  simp only [Attribute.write, Attribute.ofText, Language.isScript, Bool.false_eq_true, if_false,
    inQuotes, ← String.append_assoc]
  rfl

/-- The row of a path, two spaces in. -/
theorem markupRow_path (p : VectorPath) :
    markupRow (1, svgTag (pathTag p fill rule stroke) ++ " /") =
      List.replicate 2 ' ' ++ pathWith fill rule stroke p (p.data.toList.flatMap markupEscape) := by
  rw [markupRow_eq, svgTag_path]
  unfold pathWith pathStart pathEnd
  generalize pathLooksText fill rule stroke p = looks
  simp [toList_markupEscaped]

/-- The attributes behind the data are those of the path without data. -/
theorem tameBut_pathLooks (p : VectorPath) :
    ∀ a ∈ (pathTag p fill rule stroke).attributes.tail, a.TameBut "" := fun a ha =>
  tameBut_pathTag ⟨"", p.winding⟩ fill rule stroke a (List.mem_of_mem_tail ha)

/-- The looks of a path are on one line. -/
theorem oneLine_pathLooks (p : VectorPath) :
    OneLine (pathLooksText fill rule stroke p) := by
  unfold OneLine pathLooksText
  rw [String.toList_join, List.flatMap_map, List.mem_flatMap]
  rintro ⟨look, hlook, hfeed⟩
  obtain ⟨a, ha, rfl⟩ := List.mem_map.mp hlook
  have hplain : OneLine (a.plain.write .html) :=
    oneLine_plain (tameBut_pathLooks fill rule stroke p a ha) (show OneLine "" by decide)
  exact oneLine_append.mpr ⟨(show OneLine " " by decide), hplain⟩ hfeed

/-- **Squeezing a row** joins the lines of the data and takes the indentation off. -/
theorem squeezed_path (p : VectorPath) :
    squeezed (markupRow (1, svgTag (pathTag p fill rule stroke) ++ " /")) =
      pathWith fill rule stroke p ((joinedLines p.data.toList).flatMap markupEscape) := by
  have hlooks := oneLine_pathLooks fill rule stroke p
  -- The tag is a quote in front of the data, and from the quote behind it to the last bracket.
  have hshape : ∀ data, pathWith fill rule stroke p data = '<' :: ("path d=".toList ++ '"' ::
      (data ++ '"' :: ((pathLooksText fill rule stroke p ++ " /").toList ++ ['>']))) := by
    intro data
    unfold pathWith pathStart pathEnd
    generalize pathLooksText fill rule stroke p = looks
    simp
  have hspace : ∀ e ∈ List.replicate 2 ' ', isBlank e = true := List.all_eq_true.mp (by decide)
  rw [markupRow_path, hshape, hshape]
  refine keepsBlanks_markupEscape.squeezed_middle (by decide) (by decide) ?_ hspace (by decide)
    (by decide) (by decide) _
  simp only [String.toList_append, List.mem_cons, List.mem_append, List.not_mem_nil, not_or]
  exact ⟨by decide, ⟨hlooks, by decide⟩, by decide, not_false⟩

/-- **What is put in for a drawing** has the data of its paths escaped and on one line. -/
theorem toList_svgText_eq {start : StartTag} (hname : start.name = "svg")
    (hstart : OneLine (svgTag start)) (paths : List VectorPath) :
    (svgText { start := start, shapes := paths.map fun p => pathTag p fill rule stroke }).toList =
      drawingWith fill rule stroke start
        (paths.map fun p => (p, (joinedLines p.data.toList).flatMap markupEscape)) := by
  have hshapes : ∀ t ∈ paths.map fun p => pathTag p fill rule stroke, t.name = "path" := by
    intro t ht
    obtain ⟨p, -, rfl⟩ := List.mem_map.mp ht
    rfl
  have hopen : squeezed (markupRow (0, svgTag start)) = ("<" ++ svgTag start ++ ">").toList :=
    squeezed_markupRow hstart
  have hclose : squeezed (markupRow (0, "/svg")) = "</svg>".toList := by decide
  have hpaths : (paths.flatMap fun p =>
      squeezed (markupRow (1, svgTag (pathTag p fill rule stroke) ++ " /"))) = paths.flatMap fun p =>
        pathWith fill rule stroke p ((joinedLines p.data.toList).flatMap markupEscape) :=
    List.flatMap_congr fun p _ => squeezed_path fill rule stroke p
  -- The rows are squeezed one by one: the start tag, the paths and the end tag, or both tags at
  -- once.
  rw [toList_svgText hname hshapes, svgRows, drawingWith, List.flatMap_map]
  split
  · next hempty =>
    obtain rfl : paths = [] := by simpa using hempty
    have hrow : OneLine (svgTag start ++ "></svg") := oneLine_append.mpr ⟨hstart, by decide⟩
    have hshut : squeezed (markupRow (0, svgTag start ++ "></svg")) =
        ("<" ++ (svgTag start ++ "></svg") ++ ">").toList := squeezed_markupRow hrow
    simp [hshut]
  · rw [List.cons_append, List.flatMap_cons, hopen, List.flatMap_append, List.flatMap_singleton,
      hclose, List.flatMap_map, List.flatMap_map, hpaths]

/-! ### What the string is -/

/-- What stands behind the data is safe in a block. -/
theorem safe_pathEnd (p : VectorPath) : ∀ c ∈ pathEnd fill rule stroke p, isBlockSafe c = true := by
  have hlooks : ∀ a ∈ pathLooks fill rule stroke p, Safe (a.write .html) :=
    List.forall_mem_map.mpr fun a ha =>
      (tameBut_pathLooks fill rule stroke p a ha).safe_plain (by decide)
  exact safe_append.mpr ⟨safe_attributes hlooks, by decide⟩

/-- So is the tag of a drawing. -/
theorem safe_svgStart (width height : Float) :
    Safe ("<" ++ svgTag (svgElement width height []).start ++ ">") := by
  have hattributes : ∀ a ∈ (svgElement width height []).start.attributes.map Attribute.plain,
      Safe (a.write .html) := by
    refine List.forall_mem_map.mpr fun a ha => ?_
    rcases tameBut_svgElement width height [] a ha with htame | rfl
    · exact htame.safe_plain (by decide)
    · decide +kernel
  have hname : Safe "svg" := by decide
  exact safe_append.mpr ⟨safe_append.mpr ⟨by decide,
    safe_append.mpr ⟨hname, safe_attributes hattributes⟩⟩, by decide⟩

/-- A path with escaped data is a text in quotes between two fixed ends. -/
theorem pathWith_escaped (p : VectorPath) (text rest : List Char) :
    pathWith fill rule stroke p (text.flatMap markupEscape) ++ rest =
      pathStart ++ quotedEnd text (pathEnd fill rule stroke p ++ rest) := by
  rw [← quotedEnd_append, pathWith, List.append_assoc, quotedEnd]

/-- A path whose data are left alone is read as it is written. -/
theorem block_pathWith {p : VectorPath} {text rest value : List Char} (h : BlockPlain text)
    (hrest : Block rest value) :
    Block (pathWith fill rule stroke p (text.flatMap markupEscape) ++ rest)
      (pathWith fill rule stroke p (text.flatMap markupEscape) ++ value) := by
  have hopen : ∀ c ∈ pathStart, isBlockSafe c = true := List.all_eq_true.mp (by decide)
  rw [pathWith_escaped, pathWith_escaped]
  exact (block_append hopen).mpr ⟨_, rfl, (block_quotedEnd h).mpr ⟨_, rfl,
    (block_append (safe_pathEnd fill rule stroke p)).mpr ⟨_, rfl, hrest⟩⟩⟩

/-- Any other path is read with something else for its data. -/
theorem exists_of_block_pathWith {p : VectorPath} {text rest value : List Char} (hfeed : '\n' ∉ text)
    (h : Block (pathWith fill rule stroke p (text.flatMap markupEscape) ++ rest) value) :
    ∃ seen more, value = pathWith fill rule stroke p seen ++ more ∧ SeenAs text seen ∧
      Block rest more := by
  have hopen : ∀ c ∈ pathStart, isBlockSafe c = true := List.all_eq_true.mp (by decide)
  rw [pathWith_escaped] at h
  -- The value is peeled off from the front: what opens the path, its data, then its looks.
  obtain ⟨behind, hvalue, hquoted⟩ := (block_append hopen).mp h
  obtain ⟨seen, others, hbehind, hseen, hothers⟩ := exists_of_block_quotedEnd hfeed hquoted
  obtain ⟨more, hmore, hrest⟩ := (block_append (safe_pathEnd fill rule stroke p)).mp hothers
  refine ⟨seen, more, ?_, hseen, hrest⟩
  rw [hvalue, hbehind, hmore]
  simp only [pathWith, List.append_assoc, List.cons_append]

/-- Paths whose data are left alone are read as they are written. -/
theorem block_paths {text : VectorPath → List Char} {paths : List VectorPath}
    (h : ∀ p ∈ paths, BlockPlain (text p)) {rest value : List Char} (hrest : Block rest value) :
    Block
      (paths.flatMap (fun p => pathWith fill rule stroke p ((text p).flatMap markupEscape)) ++ rest)
      (paths.flatMap (fun p => pathWith fill rule stroke p ((text p).flatMap markupEscape)) ++
        value) := by
  induction paths with
  | nil => exact hrest
  | cons p paths ih =>
    obtain ⟨hp, hpaths⟩ := List.forall_mem_cons.mp h
    rw [List.flatMap_cons, List.append_assoc, List.append_assoc]
    exact block_pathWith fill rule stroke hp (ih hpaths)

/-- Whatever their data are, they are read as paths with something for their data. -/
theorem exists_of_block_paths {text : VectorPath → List Char} (hfeed : ∀ p, '\n' ∉ text p)
    {paths : List VectorPath} {rest value : List Char}
    (h : Block (paths.flatMap
      (fun p => pathWith fill rule stroke p ((text p).flatMap markupEscape)) ++ rest) value) :
    ∃ (drawn : List (VectorPath × List Char)) (more : List Char), drawn.map Prod.fst = paths ∧
      value = drawn.flatMap (fun d => pathWith fill rule stroke d.1 d.2) ++ more ∧
      (∀ d ∈ drawn, SeenAs (text d.1) d.2) ∧ Block rest more := by
  -- What is read for a path ends with its end, so the next one begins where it was written.
  induction paths generalizing value with
  | nil => exact ⟨[], value, rfl, rfl, fun _ hd => absurd hd List.not_mem_nil, h⟩
  | cons p paths ih =>
    rw [List.flatMap_cons, List.append_assoc] at h
    obtain ⟨seen, others, hvalue, hseen, hothers⟩ :=
      exists_of_block_pathWith fill rule stroke (hfeed p) h
    obtain ⟨drawn, more, hfst, hmore, hall, hrest⟩ := ih hothers
    refine ⟨(p, seen) :: drawn, more, ?_, ?_, List.forall_mem_cons.mpr ⟨hseen, hall⟩, hrest⟩
    · rw [List.map_cons, hfst]
    · rw [hvalue, hmore, List.flatMap_cons, List.append_assoc]

/-! ### Drawings -/

theorem block_svgEnd : Block ("</svg>".toList ++ "'''".toList) "</svg>".toList :=
  (block_append (List.all_eq_true.mp (by decide))).mpr ⟨[], rfl, rfl⟩

/-- A drawing whose data are left alone is read as it is written. -/
theorem block_drawingWith {start : StartTag} (hstart : Safe ("<" ++ svgTag start ++ ">"))
    {text : VectorPath → List Char} {paths : List VectorPath} (h : ∀ p ∈ paths, BlockPlain (text p)) :
    Block (drawingWith fill rule stroke start
        (paths.map fun p => (p, (text p).flatMap markupEscape)) ++ "'''".toList)
      (drawingWith fill rule stroke start
        (paths.map fun p => (p, (text p).flatMap markupEscape))) := by
  rw [drawingWith, List.flatMap_map, List.append_assoc, List.append_assoc]
  exact (block_append hstart).mpr ⟨_, rfl, block_paths fill rule stroke h block_svgEnd⟩

/-- Whatever its data are, it is read as a drawing with something for them. -/
theorem exists_of_block_drawingWith {start : StartTag}
    (hstart : Safe ("<" ++ svgTag start ++ ">")) {text : VectorPath → List Char}
    (hfeed : ∀ p, '\n' ∉ text p) {paths : List VectorPath} {value : List Char}
    (h : Block (drawingWith fill rule stroke start
      (paths.map fun p => (p, (text p).flatMap markupEscape)) ++ "'''".toList) value) :
    ∃ drawn : List (VectorPath × List Char), drawn.map Prod.fst = paths ∧
      value = drawingWith fill rule stroke start drawn ∧ ∀ d ∈ drawn, SeenAs (text d.1) d.2 := by
  rw [drawingWith, List.flatMap_map, List.append_assoc, List.append_assoc] at h
  obtain ⟨others, hvalue, hothers⟩ := (block_append hstart).mp h
  obtain ⟨drawn, more, hfst, hmore, hall, hend⟩ :=
    exists_of_block_paths fill rule stroke hfeed hothers
  -- Behind the paths only the end tag is left, and that has one reading.
  have hclose : more = "</svg>".toList :=
    congrArg Prod.fst (Option.some.inj (hend.symm.trans block_svgEnd))
  refine ⟨drawn, hfst, ?_, hall⟩
  rw [hvalue, hmore, hclose, drawingWith]

/-- The literal of a drawing has its tags between the quotes. -/
theorem toList_literal (width height : Float) (paths : List VectorPath) :
    ("'''" ++ svgText (svgElement width height (paths.map fun p => pathTag p fill rule stroke)) ++
      "'''").toList = "'''".toList ++ (drawingWith fill rule stroke (svgElement width height []).start
        (paths.map fun p => (p, (joinedLines p.data.toList).flatMap markupEscape)) ++
          "'''".toList) := by
  have htext := toList_svgText_eq fill rule stroke rfl (oneLine_svgTag_svgElement width height [])
    paths
  rw [String.toList_append, String.toList_append, List.append_assoc, ← htext]
  rfl

end Paths

end Flutter

end DesignCompiler
