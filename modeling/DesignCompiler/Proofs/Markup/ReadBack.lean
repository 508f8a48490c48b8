import DesignCompiler.Proofs.Markup.Print
import DesignCompiler.Proofs.Markup.Reader
import DesignCompiler.Proofs.Text.Replaced
import Mathlib.Tactic.SplitIfs
/-!
# Markup is read back

What is written for a tree outside a script reads as that tree (`Markup.readAll?_write`). The places
where it could be read as another one are these:

* free text could begin a tag, end a value or name another character: it is escaped by four
  replacements (`flatMap_markupEscape`), and `markupDecoded_escape` undoes that;
* the line feeds and spaces of the layout could be taken for text: they are between elements, where
  there is none, and an element with a text for its content is on one line;
* a text between elements would come back with its layout around it, and a style record has no
  markup form. `Markup.Readable` leaves these trees out.

An empty text leaves no trace in what is written, so the tree comes back without it.
-/

namespace DesignCompiler

/-! ### Escaped text -/

/-- What is no ampersand is not decoded. -/
theorem markupDecoded_cons {c : Char} (h : c ≠ '&') (rest : List Char) :
    markupDecoded (c :: rest) = c :: markupDecoded rest := by
  rw [markupDecoded]
  all_goals exact fun _ hc => absurd hc h

/-- **Decoding takes back the escape of a character,** whatever comes behind it. -/
theorem markupDecoded_escape_append (c : Char) (rest : List Char) :
    markupDecoded (markupEscape c ++ rest) = c :: markupDecoded rest := by
  unfold markupEscape
  -- The four references are decoded by name; no other character is an ampersand.
  split_ifs with hamp hlt hgt hquot
  · rw [beq_iff_eq.mp hamp]
    rfl
  · rw [beq_iff_eq.mp hlt]
    rfl
  · rw [beq_iff_eq.mp hgt]
    rfl
  · rw [beq_iff_eq.mp hquot]
    rfl
  · exact markupDecoded_cons (fun h => hamp (beq_iff_eq.mpr h)) rest

/-- Decoding takes no character apart. -/
theorem length_markupDecoded_cons_le (c : Char) (rest : List Char) :
    (markupDecoded (c :: rest)).length ≤ (markupDecoded rest).length + 1 := by
  generalize htext : c :: rest = text
  fun_cases markupDecoded text <;> cases htext <;> simp [markupDecoded]

/-- Decoding undoes escaping. -/
theorem markupDecoded_escape (text : List Char) :
    markupDecoded (text.flatMap markupEscape) = text := by
  induction text with
  | nil => rfl
  | cons c rest ih => rw [List.flatMap_cons, markupDecoded_escape_append, ih]

/-- The replacements that make a text fit for markup. The ampersand goes first, so none of the
entities is escaped again. -/
def markupReplacements : List (Char × List Char) :=
  [('&', "&amp;".toList), ('<', "&lt;".toList), ('>', "&gt;".toList), ('"', "&quot;".toList)]

/-- **Escaping is four replacements one after the other.** -/
theorem flatMap_markupEscape (text : List Char) :
    text.flatMap markupEscape = replacedAll markupReplacements text := by
  refine flatMap_eq_replacedAll (fun c => ?_) text
  -- It is enough to look at one character: the ampersand is replaced first, so those of the
  -- entities stay.
  unfold markupEscape
  simp only [beq_iff_eq]
  split_ifs with hamp hless hgreater hquote
  · rw [hamp]
    rfl
  · rw [hless]
    rfl
  · rw [hgreater]
    rfl
  · rw [hquote]
    rfl
  · simp [replacedAll, markupReplacements, replaced, hamp, hless, hgreater, hquote]

/-- The entities that characters are escaped as, behind their ampersands. -/
def markupEntities : List String := ["amp;", "lt;", "gt;", "quot;"]

/-- A character is escaped as itself, or as an entity. -/
theorem markupEscape_cases (c : Char) :
    markupEscape c = [c] ∨
      ∃ entity ∈ markupEntities, markupEscape c = '&' :: String.toList entity := by
  unfold markupEscape
  split_ifs
  · exact Or.inr ⟨"amp;", by decide, rfl⟩
  · exact Or.inr ⟨"lt;", by decide, rfl⟩
  · exact Or.inr ⟨"gt;", by decide, rfl⟩
  · exact Or.inr ⟨"quot;", by decide, rfl⟩
  · exact Or.inl rfl

/-- An escaped character has neither a bracket nor a quote in it. -/
theorem ne_of_mem_markupEscape {c d : Char} (h : d ∈ markupEscape c) : d ≠ '<' ∧ d ≠ '"' := by
  rw [markupEscape] at h
  split_ifs at h with hamp hlt hgt hquot
  case neg =>
    obtain rfl := List.mem_singleton.mp h
    exact ⟨fun heq => hlt (beq_iff_eq.mpr heq), fun heq => hquot (beq_iff_eq.mpr heq)⟩
  all_goals
    revert d
    simp

/-- Escaped text neither begins a tag nor ends a value. -/
theorem ne_of_mem_escaped {text : List Char} {d : Char} (h : d ∈ text.flatMap markupEscape) :
    d ≠ '<' ∧ d ≠ '"' := by
  obtain ⟨c, -, hd⟩ := List.mem_flatMap.mp h
  exact ne_of_mem_markupEscape hd

theorem toList_markupEscaped (text : String) :
    (markupEscaped text).toList = text.toList.flatMap markupEscape :=
  toList_escapeWith markupEscape text

/-- What is written for a value in quotes, from its text on. -/
def quotedEnd (text rest : List Char) : List Char := text.flatMap markupEscape ++ '"' :: rest

theorem quotedEnd_cons (c : Char) (text rest : List Char) :
    quotedEnd (c :: text) rest = markupEscape c ++ quotedEnd text rest := by
  rw [quotedEnd, List.flatMap_cons, List.append_assoc, quotedEnd]

theorem quotedEnd_append (text rest more : List Char) :
    quotedEnd text rest ++ more = quotedEnd text (rest ++ more) := by
  rw [quotedEnd, List.append_assoc, List.cons_append, quotedEnd]

/-! ### Readable trees -/

/-- A name that a tag or an attribute can have. -/
def IsMarkupName (name : String) : Prop :=
  name.toList ≠ [] ∧ ∀ c ∈ name.toList, isMarkupNameChar c = true

instance : DecidablePred IsMarkupName :=
  fun name => decidable_of_iff (name.toList ≠ [] ∧ name.toList.all isMarkupNameChar = true)
    (and_congr_right fun _ => List.all_eq_true)

/-- An attribute that has a text for its value. -/
def Attribute.Readable (a : Attribute) : Prop :=
  IsMarkupName a.name ∧ ∃ value, a.value = .text value

def StartTag.Readable (t : StartTag) : Prop :=
  IsMarkupName t.name ∧ ∀ a ∈ t.attributes, a.Readable

namespace Markup

/-- **A tree that can be read back:** in an element there is either one text, or elements only. -/
inductive Readable : Markup → Prop
  | line {start : StartTag} (hstart : start.Readable) (data : String) :
      Readable (.element start [.text data])
  | nested {start : StartTag} {children : List Markup} (hstart : start.Readable)
      (hchildren : ∀ m ∈ children, Readable m) : Readable (.element start children)

/-- Whether a node is a text without characters. -/
def isEmptyText : Markup → Bool
  | text data => data.isEmpty
  | element .. => false

mutual

/-- A tree without the empty texts in its elements. -/
def withoutEmptyTexts : Markup → Markup
  | text data => .text data
  | element start children => .element start (withoutEmptyTextsAll children)

/-- Some nodes without those that are empty texts. -/
def withoutEmptyTextsAll : List Markup → List Markup
  | [] => []
  | m :: rest =>
    if m.isEmptyText then withoutEmptyTextsAll rest
    else m.withoutEmptyTexts :: withoutEmptyTextsAll rest

end

theorem Readable.isEmptyText {m : Markup} (h : m.Readable) : m.isEmptyText = false := by
  cases h <;> rfl

/-- Among nodes that can be read, no text is left out. -/
theorem withoutEmptyTextsAll_of_readable {children : List Markup}
    (h : ∀ m ∈ children, m.Readable) :
    withoutEmptyTextsAll children = children.map withoutEmptyTexts := by
  induction children with
  | nil => rfl
  | cons m rest ih =>
    obtain ⟨hm, hrest⟩ := List.forall_mem_cons.mp h
    rw [withoutEmptyTextsAll, hm.isEmptyText, ih hrest]
    rfl

end Markup

/-! ### Tags -/

namespace MarkupReader

variable {text : List Char} {nodes : List Markup} {outer : List (StartTag × List Markup)}

/-- What is not in a tag is put to the text. -/
theorem read_content {data : List Char} (h : '<' ∉ data) :
    (MarkupReader.mk .content text nodes outer).read data =
      some ⟨.content, text ++ data, nodes, outer⟩ := by
  refine read_of_step (fun done => ⟨.content, done, nodes, outer⟩) data (fun done c hc => ?_) text
  have hne : ¬ c = '<' := fun heq => h (heq ▸ hc)
  simp [step, hne]

/-- A character of a name behind a tag begins an attribute. -/
theorem step_tag_of_nameChar {c : Char} (hc : isMarkupNameChar c = true) (start : StartTag) :
    (MarkupReader.mk (.tag start) text nodes outer).step c =
      some ⟨.attribute start [c], text, nodes, outer⟩ := by
  have hother : TextReader.isSpacing c = false ∧ c ≠ '/' ∧ c ≠ '>' := by
    simp [isMarkupNameChar] at hc
    grind
  simp [step, stepTag, hother, hc]

/-- The name of a tag is read up to what comes next in the tag. -/
theorem read_name {name : String} (hname : IsMarkupName name) {c : Char}
    (hc : isMarkupNameChar c = false) (rest : List Char) :
    (MarkupReader.mk .opened text nodes outer).read (name.toList ++ c :: rest) =
      (MarkupReader.mk (.tag ⟨name, []⟩) text nodes outer).read (c :: rest) := by
  obtain ⟨hne, hall⟩ := hname
  obtain ⟨first, more, hsplit⟩ := List.exists_cons_of_ne_nil hne
  rw [hsplit, List.forall_mem_cons] at hall
  obtain ⟨hfirst, hmore⟩ := hall
  have hslash : ¬ first = '/' := by
    rintro rfl
    exact absurd hfirst (by decide)
  have hbegin : (MarkupReader.mk .opened text nodes outer).step first =
      some ⟨.name [first], text, nodes, outer⟩ := by simp [step, hslash, hfirst]
  have hread := read_of_step (fun done => ⟨.name done, text, nodes, outer⟩) more
    (fun done c hc => by simp [step, hmore c hc]) [first]
  -- What comes next does the same in a tag of this name.
  have hnext : (MarkupReader.mk (.name name.toList) text nodes outer).step c =
      (MarkupReader.mk (.tag ⟨name, []⟩) text nodes outer).step c := by
    simp [step, hc, stepTag, begin, allNodes]
  rw [List.singleton_append, ← hsplit] at hread
  rw [hsplit, List.cons_append, read_cons_of_eq hbegin, read_append_of_eq hread, read_cons, hnext,
    ← read_cons]

/-- **An attribute is read up to its second quote,** with the value that its text has. -/
theorem read_quoted {start : StartTag} {name : String} (h : IsMarkupName name) {data : List Char}
    (hdata : '"' ∉ data) :
    (MarkupReader.mk (.tag start) text nodes outer).read
        (' ' :: (name.toList ++ '=' :: '"' :: (data ++ ['"']))) =
      some ⟨.tag { start with attributes :=
        start.attributes ++ [.ofText name (String.ofList (markupDecoded data))] },
        text, nodes, outer⟩ := by
  obtain ⟨hne, hall⟩ := h
  obtain ⟨first, more, hsplit⟩ := List.exists_cons_of_ne_nil hne
  rw [hsplit, List.forall_mem_cons] at hall
  obtain ⟨hfirst, hmore⟩ := hall
  -- A space, the name up to the sign of equality, and the value up to its second quote.
  have hspace : (MarkupReader.mk (.tag start) text nodes outer).step ' ' =
      some ⟨.tag start, text, nodes, outer⟩ := rfl
  have hname := read_of_step (fun done => ⟨.attribute start done, text, nodes, outer⟩) more
    (fun done c hc => by simp [step, hmore c hc]) [first]
  have hequals : (MarkupReader.mk (.attribute start name.toList) text nodes outer).step '=' =
      some ⟨.equals start name, text, nodes, outer⟩ := by
    simp [step, show isMarkupNameChar '=' = false by decide]
  have hopen : (MarkupReader.mk (.equals start name) text nodes outer).step '"' =
      some ⟨.value start name [], text, nodes, outer⟩ := rfl
  have hvalue := read_of_step (fun done => ⟨.value start name done, text, nodes, outer⟩) data
    (fun done c hc => by
      have hquote : c ≠ '"' := fun heq => hdata (heq ▸ hc)
      simp [step, hquote]) []
  have hclose : (MarkupReader.mk (.value start name data) text nodes outer).step '"' =
      some ⟨.tag { start with attributes :=
        start.attributes ++ [.ofText name (String.ofList (markupDecoded data))] },
        text, nodes, outer⟩ := rfl
  rw [List.singleton_append, ← hsplit] at hname
  rw [read_cons_of_eq hspace, hsplit, List.cons_append,
    read_cons_of_eq (step_tag_of_nameChar hfirst start), read_append_of_eq hname,
    read_cons_of_eq hequals, read_cons_of_eq hopen, read_append_of_eq hvalue, List.nil_append,
    read_cons_of_eq hclose, read_nil]

/-- An attribute is read with the text that was escaped in it. -/
theorem read_attribute {start : StartTag} {a : Attribute} (h : a.Readable) :
    (MarkupReader.mk (.tag start) text nodes outer).read (" " ++ a.write .html).toList =
      some ⟨.tag { start with attributes := start.attributes ++ [a] }, text, nodes, outer⟩ := by
  obtain ⟨name, value⟩ := a
  obtain ⟨hname, data, rfl⟩ := h
  have hquote : '"' ∉ data.toList.flatMap markupEscape := fun hmem => (ne_of_mem_escaped hmem).2 rfl
  have hwrite : (" " ++ Attribute.write .html ⟨name, .text data⟩).toList =
      ' ' :: (name.toList ++ '=' :: '"' :: (data.toList.flatMap markupEscape ++ ['"'])) := by
    simp [Attribute.write, Language.isScript, inQuotes, toList_markupEscaped]
  rw [hwrite, read_quoted hname hquote, markupDecoded_escape, String.ofList_toList]
  rfl

/-- The attributes of a tag are read in their order. -/
theorem read_attributes {name : String} {attributes : List Attribute}
    (h : ∀ a ∈ attributes, a.Readable) (done : List Attribute) :
    (MarkupReader.mk (.tag ⟨name, done⟩) text nodes outer).read
        (String.join (attributes.map fun a => " " ++ a.write .html)).toList =
      some ⟨.tag ⟨name, done ++ attributes⟩, text, nodes, outer⟩ := by
  induction attributes generalizing done with
  | nil =>
    rw [List.append_nil]
    rfl
  | cons a rest ih =>
    obtain ⟨ha, hrest⟩ := List.forall_mem_cons.mp h
    rw [List.map_cons, String.join_cons, String.toList_append, read_append_of_eq (read_attribute ha),
      ih hrest, List.append_assoc, List.singleton_append]

/-- **A start tag** is read up to its end, where it is known with all attributes. -/
theorem read_start {start : StartTag} (h : start.Readable) {c : Char}
    (hc : isMarkupNameChar c = false) (rest : List Char) :
    (MarkupReader.mk .content text nodes outer).read
        ('<' :: ((start.write .html).toList ++ c :: rest)) =
      (MarkupReader.mk (.tag start) text nodes outer).read (c :: rest) := by
  obtain ⟨name, attributes⟩ := start
  obtain ⟨hname, hattributes⟩ := h
  have hopened : (MarkupReader.mk .content text nodes outer).step '<' =
      some ⟨.opened, text, nodes, outer⟩ := rfl
  -- After the name there is the space in front of an attribute, or the end of the tag.
  obtain ⟨d, more, hd, hsplit⟩ : ∃ d more, isMarkupNameChar d = false ∧
      (String.join (attributes.map fun a => " " ++ a.write .html)).toList ++ c :: rest =
        d :: more := by
    cases attributes with
    | nil => exact ⟨c, rest, hc, rfl⟩
    | cons a as =>
      rw [List.map_cons, String.join_cons, String.append_assoc, String.toList_append]
      exact ⟨' ', _, by decide, rfl⟩
  rw [read_cons_of_eq hopened, StartTag.write, String.toList_append, List.append_assoc, hsplit,
    read_name hname hd, ← hsplit, read_append_of_eq (read_attributes hattributes [])]
  rfl

/-- An end tag ends the innermost element, which has its name. -/
theorem read_end {start : StartTag} (h : IsMarkupName start.name) {before : List Markup} :
    (MarkupReader.mk .content text nodes ((start, before) :: outer)).read
        ("</" ++ start.name ++ ">").toList =
      some ⟨.content, [],
        before ++ [.element start (MarkupReader.mk .content text nodes []).inside], outer⟩ := by
  have hwrite : ("</" ++ start.name ++ ">").toList = '<' :: '/' :: (start.name.toList ++ ['>']) := by
    simp
  have hopened : (MarkupReader.mk .content text nodes ((start, before) :: outer)).step '<' =
      some ⟨.opened, text, nodes, (start, before) :: outer⟩ := rfl
  have hslash : (MarkupReader.mk .opened text nodes ((start, before) :: outer)).step '/' =
      some ⟨.ending [], text, nodes, (start, before) :: outer⟩ := rfl
  have hname := read_of_step
    (fun done => ⟨.ending done, text, nodes, (start, before) :: outer⟩) start.name.toList (fun done c hc => by
      have hne : c ≠ '>' := by
        rintro rfl
        exact absurd (h.2 _ hc) (by decide)
      simp [step, h.2 c hc, hne]) []
  -- The name is that of the element begun last, so it ends here with what was read inside.
  have hclose : (MarkupReader.mk (.ending start.name.toList) text nodes
      ((start, before) :: outer)).step '>' = some ⟨.content, [],
        before ++ [.element start (MarkupReader.mk .content text nodes []).inside], outer⟩ := by
    simp [step, finish?, inside, allNodes]
  rw [hwrite, read_cons_of_eq hopened, read_cons_of_eq hslash, read_append_of_eq hname,
    List.nil_append, read_cons_of_eq hclose, read_nil]

/-! ### Layout -/

/-- Text that is only spacing, as the layout puts it between elements. -/
def IsSpacing (text : List Char) : Prop := ∀ c ∈ text, TextReader.isSpacing c = true

theorem IsSpacing.append {a b : List Char} (ha : IsSpacing a) (hb : IsSpacing b) :
    IsSpacing (a ++ b) :=
  fun c hc => (List.mem_append.mp hc).elim (ha c) (hb c)

theorem isSpacing_nil : IsSpacing [] := fun _ h => absurd h List.not_mem_nil

/-- A line feed is. -/
theorem isSpacing_line_feed : IsSpacing ['\n'] := by
  rintro c hc
  rw [List.mem_singleton.mp hc]
  rfl

theorem allNodes_of_isSpacing {r : MarkupReader} (h : IsSpacing r.text) : r.allNodes = r.nodes := by
  rw [allNodes, if_pos (List.all_eq_true.mpr h), List.append_nil]

/-- Where there are nodes, spacing in front of the end tag is nothing. -/
theorem inside_of_isSpacing {r : MarkupReader} (h : IsSpacing r.text) (hnodes : r.nodes ≠ []) :
    r.inside = r.nodes := by
  have hsome : (!r.nodes.isEmpty) = true := by simpa using hnodes
  rw [inside, if_pos hsome, allNodes_of_isSpacing h]

/-- Spacing is read as a text so far. -/
theorem read_of_isSpacing {space : List Char} (h : IsSpacing space) :
    (MarkupReader.mk .content text nodes outer).read space =
      some ⟨.content, text ++ space, nodes, outer⟩ :=
  read_content fun hmem => absurd (h _ hmem) (by decide)

/-- An indentation is spacing. -/
theorem isSpacing_indentation (depth : Nat) : IsSpacing (indentation depth).toList := by
  intro c hc
  rw [toList_indentation] at hc
  obtain ⟨-, rfl⟩ := List.mem_replicate.mp hc
  rfl

/-- Behind spacing, a start tag begins its element. -/
theorem read_begin {start : StartTag} (h : start.Readable) (htext : IsSpacing text) :
    (MarkupReader.mk .content text nodes outer).read ("<" ++ start.write .html ++ ">").toList =
      some ⟨.content, [], [], (start, nodes) :: outer⟩ := by
  have hwrite : ("<" ++ start.write .html ++ ">").toList =
      '<' :: ((start.write .html).toList ++ ['>']) := by simp
  have hend : (MarkupReader.mk (.tag start) text nodes outer).step '>' =
      some ((MarkupReader.mk (.tag start) text nodes outer).begin start) := rfl
  rw [hwrite, read_start h (by decide), read_cons_of_eq hend, read_nil, begin,
    allNodes_of_isSpacing htext]

/-- A tag that ends in a slash is an element with nothing in it. -/
theorem read_slash {start : StartTag} (h : start.Readable) (htext : IsSpacing text) :
    (MarkupReader.mk .content text nodes outer).read ("<" ++ start.write .html ++ " />").toList =
      some ⟨.content, [], nodes ++ [.element start []], outer⟩ := by
  have hwrite : ("<" ++ start.write .html ++ " />").toList =
      '<' :: ((start.write .html).toList ++ [' ', '/', '>']) := by simp
  have hend : (MarkupReader.mk (.tag start) text nodes outer).read [' ', '/', '>'] =
      some ((MarkupReader.mk (.slash start) text nodes outer).add (.element start [])) := rfl
  rw [hwrite, read_start h (by decide), hend, add, allNodes_of_isSpacing htext]

/-- An element with nothing in it, either way. -/
theorem read_empty {start : StartTag} (h : start.Readable) (htext : IsSpacing text) :
    (MarkupReader.mk .content text nodes outer).read (start.writeEmpty .html).toList =
      some ⟨.content, [], nodes ++ [.element start []], outer⟩ := by
  unfold StartTag.writeEmpty
  split
  · exact read_slash h htext
  · have hwrite : ("<" ++ start.write .html ++ "></" ++ start.name ++ ">").toList =
        ("<" ++ start.write .html ++ ">").toList ++ ("</" ++ start.name ++ ">").toList := by simp
    rw [hwrite, read_append_of_eq (read_begin h htext), read_end h.1]
    rfl

end MarkupReader

/-! ### Trees -/

namespace Markup

open MarkupReader

variable {text : List Char} {nodes : List Markup} {outer : List (StartTag × List Markup)}

/-- An element with a text in it has that text, unless it is empty. -/
theorem read_line {start : StartTag} (h : start.Readable) (data : String) (depth : Nat)
    (htext : IsSpacing text) :
    (MarkupReader.mk .content text nodes outer).read
        (write .html depth (.element start [.text data])).toList =
      some ⟨.content, ['\n'],
        nodes ++ [(Markup.element start [.text data]).withoutEmptyTexts], outer⟩ := by
  have hwrite : (write .html depth (.element start [.text data])).toList =
      (indentation depth).toList ++ (("<" ++ start.write .html ++ ">").toList ++
        (data.toList.flatMap markupEscape ++ (("</" ++ start.name ++ ">").toList ++ ['\n']))) := by
    simp [write, writeText, Language.isScript, toList_markupEscaped]
  have hdata : '<' ∉ data.toList.flatMap markupEscape := fun hmem => (ne_of_mem_escaped hmem).1 rfl
  -- All that is between the two tags is the text.
  have hinside : (MarkupReader.mk .content (data.toList.flatMap markupEscape) [] []).inside =
      withoutEmptyTextsAll [.text data] := by
    by_cases hempty : data = ""
    · rw [hempty]
      rfl
    · have hescaped : ¬ data.toList.flatMap markupEscape = [] := by
        intro hnil
        have hback := markupDecoded_escape data.toList
        rw [hnil] at hback
        exact hempty (String.toList_eq_nil_iff.mp hback.symm)
      simp [inside, hescaped, markupDecoded_escape, withoutEmptyTextsAll, isEmptyText,
        withoutEmptyTexts, hempty]
  rw [hwrite, read_append_of_eq (read_of_isSpacing (isSpacing_indentation depth)),
    read_append_of_eq (read_begin h (htext.append (isSpacing_indentation depth))),
    read_append_of_eq (read_content hdata), List.nil_append, read_append_of_eq (read_end h.1),
    read_of_isSpacing isSpacing_line_feed, hinside]
  rfl

/-- What is read back of each of some nodes is read back of all of them. -/
theorem read_writeAll {children : List Markup} {depth : Nat}
    (h : ∀ m ∈ children, ∀ {text nodes outer}, IsSpacing text →
      (MarkupReader.mk .content text nodes outer).read (m.write .html depth).toList =
        some ⟨.content, ['\n'], nodes ++ [m.withoutEmptyTexts], outer⟩) :
    ∀ text nodes outer, IsSpacing text → ∃ space, IsSpacing space ∧
      (MarkupReader.mk .content text nodes outer).read (writeAll .html depth children).toList =
        some ⟨.content, space, nodes ++ children.map withoutEmptyTexts, outer⟩ := by
  -- Each node leaves the line feed behind it as the text so far, which is spacing for the next one.
  induction children with
  | nil =>
    intro text nodes outer htext
    exact ⟨text, htext, by rw [List.map_nil, List.append_nil]; rfl⟩
  | cons m rest ih =>
    intro text nodes outer htext
    obtain ⟨hm, hrest⟩ := List.forall_mem_cons.mp h
    obtain ⟨space, hspace, hread⟩ := ih hrest ['\n'] (nodes ++ [m.withoutEmptyTexts]) outer
      isSpacing_line_feed
    refine ⟨space, hspace, ?_⟩
    rw [writeAll, String.toList_append, read_append_of_eq (hm htext), hread, List.map_cons,
      List.append_assoc, List.singleton_append]

/-- Elements in an element stand on lines of their own, and the spacing between them is nothing. -/
theorem read_nested {start : StartTag} (h : start.Readable) {child : Markup} {rest : List Markup}
    (hchild : child.Readable) (depth : Nat) {space : List Char} (hspace : IsSpacing space)
    (hall : (MarkupReader.mk .content ['\n'] [] ((start, nodes) :: outer)).read
      (writeAll .html (depth + 1) (child :: rest)).toList =
        some ⟨.content, space, (child :: rest).map withoutEmptyTexts, (start, nodes) :: outer⟩)
    (htext : IsSpacing text) :
    (MarkupReader.mk .content text nodes outer).read
        (write .html depth (.element start (child :: rest))).toList =
      some ⟨.content, ['\n'],
        nodes ++ [.element start ((child :: rest).map withoutEmptyTexts)], outer⟩ := by
  have hwrite : (write .html depth (.element start (child :: rest))).toList =
      (indentation depth).toList ++ (("<" ++ start.write .html ++ ">").toList ++ (['\n'] ++
        ((writeAll .html (depth + 1) (child :: rest)).toList ++ ((indentation depth).toList ++
          (("</" ++ start.name ++ ">").toList ++ ['\n']))))) := by
    rw [write, ← writeAll]
    · simp
    · rintro data rfl -
      cases hchild
  have hindented := isSpacing_indentation depth
  -- What was read inside ends in the line feed and the indentation of the end tag, and so in
  -- spacing.
  have hinside : (MarkupReader.mk .content (space ++ (indentation depth).toList)
      ((child :: rest).map withoutEmptyTexts) []).inside = (child :: rest).map withoutEmptyTexts :=
    inside_of_isSpacing (hspace.append hindented) (List.cons_ne_nil _ _)
  rw [hwrite, read_append_of_eq (read_of_isSpacing hindented),
    read_append_of_eq (read_begin h (htext.append hindented)),
    read_append_of_eq (read_of_isSpacing isSpacing_line_feed), List.nil_append,
    read_append_of_eq hall, read_append_of_eq (read_of_isSpacing hindented),
    read_append_of_eq (read_end h.1), read_of_isSpacing isSpacing_line_feed, hinside,
    List.nil_append]

/-- **A tree that is written among others** is read as the next node. -/
theorem read_write {m : Markup} (h : m.Readable) :
    ∀ depth {text nodes outer}, IsSpacing text →
      (MarkupReader.mk .content text nodes outer).read (m.write .html depth).toList =
        some ⟨.content, ['\n'], nodes ++ [m.withoutEmptyTexts], outer⟩ := by
  -- A line is read at once; the nodes of a nested element are read by induction, and spacing around
  -- them is dropped.
  induction h with
  | line hstart data => exact fun depth _ _ _ htext => read_line hstart data depth htext
  | @nested start children hstart hchildren ih =>
    intro depth text nodes outer htext
    rw [withoutEmptyTexts, withoutEmptyTextsAll_of_readable hchildren]
    cases children with
    | nil =>
      have hindented := isSpacing_indentation depth
      rw [write, String.toList_append, String.toList_append, List.append_assoc,
        read_append_of_eq (read_of_isSpacing hindented),
        read_append_of_eq (read_empty hstart (htext.append hindented))]
      exact read_of_isSpacing isSpacing_line_feed
    | cons child rest =>
      obtain ⟨space, hspace, hall⟩ := read_writeAll (fun m hm => ih m hm (depth + 1)) ['\n'] []
        ((start, nodes) :: outer) isSpacing_line_feed
      exact read_nested hstart (hchildren child List.mem_cons_self) depth hspace hall htext

/-- **What is written for a tree is read as the tree,** without its empty texts. -/
theorem readAll?_write {m : Markup} (h : m.Readable) (depth : Nat) :
    Markup.readAll? (m.write .html depth) = some [m.withoutEmptyTexts] := by
  have hread : MarkupReader.read {} (m.write .html depth).toList =
      some ⟨.content, ['\n'], [] ++ [m.withoutEmptyTexts], []⟩ := read_write h depth isSpacing_nil
  rw [readAll?, hread]
  rfl

end Markup

end DesignCompiler
