import DesignCompiler.Emit.Flutter
import DesignCompiler.Proofs.Asset.Elements
import DesignCompiler.Proofs.Text.Joined
/-!
# Drawings on one line

Flutter has a drawing as markup on one line, made from lines by leaving out the line feeds and the
spaces around them. If no text in the drawing has a line feed, the lines are the tags of the drawing,
and what is put in is just these tags (`Flutter.svgText_eq`). They have no reference in them, so such
a drawing spells no key (`Flutter.not_mem_reservedKeys_svgText`).
-/

namespace DesignCompiler

/-! ### Rows -/

/-- A row from one bracket to another, behind the space of a depth. -/
def markupRow (row : Nat × String) : List Char :=
  (indentation row.1).toList ++ '<' :: (row.2.toList ++ ['>'])

/-- A row of one line has no line feed in it. -/
theorem not_mem_markupRow {row : Nat × String} (h : OneLine row.2) : '\n' ∉ markupRow row := by
  have hspaces : '\n' ∉ (indentation row.1).toList := by
    rw [toList_indentation, List.mem_replicate]
    exact fun h => absurd h.2 (by decide)
  simp only [markupRow, List.mem_append, List.mem_cons, List.not_mem_nil, or_false, not_or]
  exact ⟨hspaces, by decide, h, by decide⟩

theorem markupRow_eq (row : Nat × String) :
    markupRow row = List.replicate (2 * row.1) ' ' ++ '<' :: (row.2.toList ++ ['>']) := by
  rw [markupRow, toList_indentation]

/-- Without the space in front, a row is its markup. -/
theorem squeezed_markupRow {row : Nat × String} (h : OneLine row.2) :
    squeezed (markupRow row) = ("<" ++ row.2 ++ ">").toList := by
  have hopen : isBlank '<' = false := by decide
  have hclose : isBlank '>' = false := by decide
  have hspace : ∀ c ∈ List.replicate (2 * row.1) ' ', isBlank c = true := by
    intro c hc
    rw [(List.mem_replicate.mp hc).2]
    decide
  -- A row is one line, and its brackets stop the trimming at both ends.
  rw [squeezed_of_not_mem (not_mem_markupRow h), markupRow_eq, trimBlanks,
    trimStart_append_of_blank hspace, trimStart_cons_of_ne hopen, ← List.cons_append,
    trimEnd_concat hclose]
  simp

/-- Rows that end in a line feed each are squeezed one by one. -/
theorem squeezed_markupRows (rows : List (Nat × String)) :
    squeezed (rows.flatMap fun row => markupRow row ++ ['\n']) =
      rows.flatMap fun row => squeezed (markupRow row) := by
  induction rows with
  | nil => rfl
  | cons row rest ih =>
    rw [List.flatMap_cons, List.append_assoc, List.singleton_append, squeezed_append, ih,
      List.flatMap_cons]

/-! ### The tags of a drawing -/

namespace Flutter

/-- A start tag as it is in a drawing, without its brackets. -/
def svgTag (t : StartTag) : String :=
  StartTag.write .html ⟨t.name, t.attributes.map Attribute.plain⟩

/-- The rows that a drawing is written in. -/
def svgRows (e : OwnElement) : List (Nat × String) :=
  if e.shapes.isEmpty then [(0, svgTag e.start ++ "></svg")]
  else (0, svgTag e.start) :: (e.shapes.map fun t => (1, svgTag t ++ " /")) ++ [(0, "/svg")]

/-- The element of a tag, as a drawing has it. -/
def svgNode (t : StartTag) (children : List Markup) : Markup :=
  .element ⟨t.name, t.attributes.map Attribute.plain⟩ children

/-- Paths are written as rows of empty tags. -/
theorem toList_writeAll_paths {shapes : List StartTag} (h : ∀ t ∈ shapes, t.name = "path") :
    (Markup.writeAll .html 1 (shapes.map (svgNode · []))).toList =
      shapes.flatMap fun t => markupRow (1, svgTag t ++ " /") ++ ['\n'] := by
  induction shapes with
  | nil => rfl
  | cons t rest ih =>
    obtain ⟨ht, hrest⟩ := List.forall_mem_cons.mp h
    have hempty : "path" ∈ emptyElements := by decide
    -- A path is an empty element, so it takes one row and closes itself.
    have hrow : ((svgNode t []).write .html 1).toList =
        markupRow (1, svgTag t ++ " /") ++ ['\n'] := by
      simp [svgNode, Markup.write, StartTag.writeEmpty, ht, hempty, markupRow, svgTag]
    rw [List.map_cons, Markup.writeAll, String.toList_append, hrow, ih hrest, List.flatMap_cons]

/-- **A drawing is written in its rows.** -/
theorem toList_write_svgMarkup {e : OwnElement} (hname : e.start.name = "svg")
    (hshapes : ∀ t ∈ e.shapes, t.name = "path") :
    ((svgMarkup e).write .html 0).toList =
      (svgRows e).flatMap fun row => markupRow row ++ ['\n'] := by
  have hempty : "svg" ∉ emptyElements := by decide
  have hmarkup : svgMarkup e = svgNode e.start (e.shapes.map (svgNode · [])) := rfl
  have hpaths := toList_writeAll_paths hshapes
  rw [hmarkup]
  -- A drawing without shapes is written as one row; otherwise its tags stand on rows around those
  -- of the shapes.
  cases hall : e.shapes with
  | nil =>
    simp [svgNode, Markup.write, StartTag.writeEmpty, Language.isScript, hname, hempty, svgRows,
      hall, markupRow, svgTag]
  | cons t rest =>
    rw [hall, List.map_cons, Markup.writeAll] at hpaths
    have hwrite : (svgNode e.start ((t :: rest).map (svgNode · []))).write .html 0 =
        indentation 0 ++ "<" ++ svgTag e.start ++ ">\n" ++
          ((svgNode t []).write .html 1 ++ Markup.writeAll .html 1 (rest.map (svgNode · []))) ++
          indentation 0 ++ "</" ++ e.start.name ++ ">\n" := by
      rw [List.map_cons, svgNode, Markup.write]
      · rfl
      · exact fun data h => by cases h
    rw [hwrite]
    simp only [String.toList_append] at hpaths ⊢
    rw [hpaths]
    simp [svgRows, hall, hname, markupRow, List.flatMap_map]

/-- **What is put in for a drawing** are its rows, squeezed. -/
theorem toList_svgText {e : OwnElement} (hname : e.start.name = "svg")
    (hshapes : ∀ t ∈ e.shapes, t.name = "path") :
    (svgText e).toList = (svgRows e).flatMap fun row => squeezed (markupRow row) := by
  rw [← squeezed_markupRows, ← toList_write_svgMarkup hname hshapes]
  exact String.toList_ofList

/-- Without line feeds these are its tags. -/
theorem svgText_eq {e : OwnElement} (hname : e.start.name = "svg")
    (hshapes : ∀ t ∈ e.shapes, t.name = "path") (hlines : ∀ row ∈ svgRows e, OneLine row.2) :
    svgText e = String.join ((svgRows e).map fun row => "<" ++ row.2 ++ ">") := by
  rw [← String.toList_inj, toList_svgText hname hshapes, String.toList_join, List.flatMap_map]
  exact List.flatMap_congr fun row hrow => squeezed_markupRow (hlines row hrow)

/-! ### Drawings without line feeds -/

/-- Escaping brings no line feed in. -/
theorem oneLine_markupEscaped {text : String} (h : OneLine text) : OneLine (markupEscaped text) := by
  have hescape : ∀ c, '\n' ∈ markupEscape c → c = '\n' := by
    intro c hc
    unfold markupEscape at hc
    -- Each escape is other characters, and else the character is the one itself.
    split_ifs at hc with hamp hless hgreater hquote
    · exact absurd hc (by decide)
    · exact absurd hc (by decide)
    · exact absurd hc (by decide)
    · exact absurd hc (by decide)
    · exact (List.mem_singleton.mp hc).symm
  unfold OneLine markupEscaped
  rw [toList_escapeWith, List.mem_flatMap]
  rintro ⟨c, hmem, hc⟩
  exact h (hescape c hc ▸ hmem)

/-- An attribute is written on one line, if the text given for it is one. -/
theorem oneLine_plain {given : String} {a : Attribute} (h : a.TameBut given)
    (hgiven : OneLine given) : OneLine (a.plain.write .html) := by
  have hnames : ∀ name ∈ elementAttributes, OneLine (name ++ "=") := by decide
  obtain ⟨name, hname, value, rfl, hvalue⟩ := h
  have hline : OneLine value := hvalue.elim (fun h => h ▸ hgiven) Tame.oneLine
  have hquoted : OneLine (inQuotes (markupEscaped value)) := by
    simp +decide [inQuotes, oneLine_markupEscaped hline]
  exact oneLine_append.mpr ⟨hnames name hname, hquoted⟩

/-- A tag is on one line with its name and its attributes. -/
theorem oneLine_svgTag {t : StartTag} (hname : OneLine t.name)
    (h : ∀ a ∈ t.attributes, OneLine (a.plain.write .html)) : OneLine (svgTag t) := by
  refine oneLine_append.mpr ⟨hname, ?_⟩
  unfold OneLine
  rw [String.toList_join, List.map_map, List.mem_flatMap]
  rintro ⟨text, htext, hfeed⟩
  obtain ⟨a, ha, rfl⟩ := List.mem_map.mp htext
  exact oneLine_append.mpr ⟨(show OneLine " " by decide), h a ha⟩ hfeed

variable {P : String → Prop}

theorem settles_svgTag {t : StartTag} (hname : ¬ HoldsPrefix t.name)
    (h : ∀ a ∈ t.attributes, a.Clean P) : Settles P (svgTag t) :=
  StartTag.Cited.settles_write ⟨hname, List.forall_mem_map.mpr fun a ha => (h a ha).leads_plain⟩

/-- A clean drawing leads, where it is put in as its tags. -/
theorem leads_svgText {e : OwnElement} (h : e.Clean P) (hname : e.start.name = "svg")
    (hshapes : ∀ t ∈ e.shapes, t.name = "path") (hlines : ∀ row ∈ svgRows e, OneLine row.2) :
    Leads P (svgText e) := by
  have hsvg : ¬ HoldsPrefix "svg" := (show Tame "svg" by decide).not_holdsPrefix
  have hpath : ¬ HoldsPrefix "path" := (show Tame "path" by decide).not_holdsPrefix
  have hopen : Leads P "<" := Inert.leads (by decide)
  have hstart := settles_svgTag (hname ▸ hsvg) h.attributes
  have hrow : ∀ {inner : String}, Leads P (inner ++ ">") → Leads P ("<" ++ inner ++ ">") := by
    intro inner hinner
    rw [String.append_assoc]
    exact hopen.append hinner
  rw [svgText_eq hname hshapes hlines]
  refine leads_join (List.forall_mem_map.mpr ?_)
  -- Each row begins with a bracket and a name that is not in the prefix, and ends with a bracket.
  unfold svgRows
  split
  · refine List.forall_mem_singleton.mpr (hrow ?_)
    rw [String.append_assoc]
    exact hstart _ (by decide) (Inert.leads (by decide))
  · rw [List.forall_mem_append, List.forall_mem_cons, List.forall_mem_map,
      List.forall_mem_singleton]
    refine ⟨⟨hrow (hstart ">" (by decide) (Inert.leads (by decide))), fun t ht => hrow ?_⟩,
      hrow (Inert.leads (by decide))⟩
    rw [String.append_assoc]
    exact settles_svgTag (hshapes t ht ▸ hpath) (h.shapes t ht) _ (by decide)
      (Inert.leads (by decide))

/-- The tag of a drawing is on one line, since its attributes are numbers and names. -/
theorem oneLine_svgTag_svgElement (width height : Float) (shapes : List StartTag) :
    OneLine (svgTag (svgElement width height shapes).start) := by
  refine oneLine_svgTag (show OneLine "svg" by decide) fun a ha => ?_
  rcases tameBut_svgElement width height _ a ha with htame | rfl
  · exact oneLine_plain htame (show OneLine svgNamespace by decide)
  · decide +kernel

/-- The rows of a drawing are on one line each if its path data are. -/
theorem oneLine_svgRows (width height : Float) {paths : List VectorPath}
    (h : ∀ path ∈ paths, OneLine path.data) (fill : Option Color) (rule : Option WindingRule)
    (stroke : Option Border) :
    ∀ row ∈ svgRows (svgElement width height (paths.map fun p => pathTag p fill rule stroke)),
      OneLine row.2 := by
  have hstart := oneLine_svgTag_svgElement width height
    (paths.map fun p => pathTag p fill rule stroke)
  have hpath : ∀ path ∈ paths, OneLine (svgTag (pathTag path fill rule stroke)) :=
    fun path hmem => oneLine_svgTag (show OneLine "path" by decide) fun a ha =>
      oneLine_plain (tameBut_pathTag path fill rule stroke a ha) (h path hmem)
  -- Only path data could break a line, and it is on one line by assumption.
  unfold svgRows
  split
  · exact List.forall_mem_singleton.mpr (oneLine_append.mpr ⟨hstart, by decide⟩)
  · rw [List.forall_mem_append, List.forall_mem_cons, List.forall_mem_map,
      List.forall_mem_singleton]
    refine ⟨⟨hstart, fun t ht => oneLine_append.mpr ⟨?_, by decide⟩⟩, by decide⟩
    obtain ⟨path, hmem, rfl⟩ := List.mem_map.mp ht
    exact hpath path hmem

/-- **A drawing without line feeds spells no key.** -/
theorem not_mem_reservedKeys_svgText (width height : Float) {paths : List VectorPath}
    (htexts : ∀ path ∈ paths, ¬ HoldsPrefix path.data)
    (hlines : ∀ path ∈ paths, OneLine path.data) (fill : Option Color)
    (rule : Option WindingRule) (stroke : Option Border) (key : String) :
    key ∉ reservedKeys
      (svgText (svgElement width height (paths.map fun p => pathTag p fill rule stroke))) := by
  have hclean : (svgElement width height
      (paths.map fun p => pathTag p fill rule stroke)).Clean fun _ => False :=
    clean_svgElement width height (List.forall_mem_map.mpr fun path hmem =>
      clean_pathTag (htexts path hmem) fill rule stroke)
  have hleads := leads_svgText hclean rfl (List.forall_mem_map.mpr fun _ _ => rfl)
    (oneLine_svgRows width height hlines fill rule stroke)
  exact cites_iff.mp hleads.cites key

end Flutter

end DesignCompiler
