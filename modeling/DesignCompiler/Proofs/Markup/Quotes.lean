import DesignCompiler.Proofs.Markup.ReadBack
/-!
# Quotes in markup

A double quote in markup is never lost: it begins or ends the value of an attribute, or it is in a
text. So a tree that markup is read as has two quotes for each attribute and those of its texts, and
the markup has no more of them (`Markup.count_quote_le`). For a tree without texts, markup that has
the quotes of its attributes has no others: whatever stands between them is a value up to its end.

The count of a reader is the same sum for what has been read so far, with one more quote in a value
that has begun. Each step keeps up with the quotes that it takes in (`MarkupReader.quotes_step`).
-/

namespace DesignCompiler

namespace Markup

mutual

/-- The quotes that a tree has: two for each attribute, and those in its texts. -/
def quotes : Markup → Nat
  | text data => data.toList.count '"'
  | element start children => 2 * start.attributes.length + quotesAll children

/-- The quotes of several nodes. -/
def quotesAll : List Markup → Nat
  | [] => 0
  | m :: rest => m.quotes + quotesAll rest

end

@[simp] theorem quotesAll_nil : quotesAll [] = 0 := rfl

@[simp] theorem quotesAll_cons (m : Markup) (rest : List Markup) :
    quotesAll (m :: rest) = m.quotes + quotesAll rest := rfl

/-- The quotes of two lists add up. -/
@[simp] theorem quotesAll_append (a b : List Markup) :
    quotesAll (a ++ b) = quotesAll a + quotesAll b := by
  induction a with
  | nil => simp
  | cons m rest ih => simp [ih, Nat.add_assoc]

end Markup

open Markup

/-- Decoding a text leaves its quotes where they are. -/
theorem count_quote_le_markupDecoded (text : List Char) :
    text.count '"' ≤ (markupDecoded text).count '"' := by
  fun_induction markupDecoded text with
  | case1 rest ih => simpa using ih
  | case2 rest ih => simpa using ih
  | case3 rest ih => simpa using ih
  | case4 rest ih => simpa using Nat.le_succ_of_le ih
  | case5 c rest hamp hlt hgt hquot ih =>
    rw [List.count_cons, List.count_cons]
    omega
  | case6 => exact Nat.le_refl _

namespace MarkupReader

/-- The quotes of the place that a reader is at. -/
def placeQuotes : MarkupPlace → Nat
  | .content | .opened | .name _ | .ending _ => 0
  | .tag start | .attribute start _ | .equals start _ | .slash start => 2 * start.attributes.length
  | .value start _ _ => 2 * start.attributes.length + 1

/-- The quotes of the elements that have begun. -/
def outerQuotes : List (StartTag × List Markup) → Nat
  | [] => 0
  | (start, before) :: outer => 2 * start.attributes.length + quotesAll before + outerQuotes outer

/-- **The quotes of what has been read so far.** -/
def quotes (r : MarkupReader) : Nat :=
  placeQuotes r.place + r.text.count '"' + quotesAll r.nodes + outerQuotes r.outer

theorem count_quote_eq_zero_of_isSpacing {text : List Char}
    (h : text.all TextReader.isSpacing = true) : text.count '"' = 0 :=
  List.count_eq_zero.mpr fun hmem => absurd (List.all_eq_true.mp h _ hmem) (by decide)

/-- The text since the last tag is a node, or it is spacing. -/
theorem le_quotesAll_allNodes (r : MarkupReader) :
    r.text.count '"' + quotesAll r.nodes ≤ quotesAll r.allNodes := by
  have hdecoded := count_quote_le_markupDecoded r.text
  unfold allNodes
  split
  · next hspace => simp [count_quote_eq_zero_of_isSpacing hspace]
  · simp [Markup.quotes]
    omega

/-- The same for what is inside an element, which may be a single text. -/
theorem le_quotesAll_inside (r : MarkupReader) :
    r.text.count '"' + quotesAll r.nodes ≤ quotesAll r.inside := by
  have hdecoded := count_quote_le_markupDecoded r.text
  unfold inside
  split
  · exact le_quotesAll_allNodes r
  · next hnodes =>
    have hnone : r.nodes = [] := by simpa using hnodes
    split
    · next hempty => simp [hnone, List.isEmpty_iff.mp hempty]
    · simpa [hnone, Markup.quotes] using hdecoded

/-- A tag that begins keeps what has been read in front of it. -/
theorem quotes_begin (r : MarkupReader) (start : StartTag) :
    2 * start.attributes.length + r.text.count '"' + quotesAll r.nodes + outerQuotes r.outer ≤
      (r.begin start).quotes := by
  have hnodes := le_quotesAll_allNodes r
  simp [begin, quotes, placeQuotes, outerQuotes]
  omega

/-- A node that is added brings its quotes with it. -/
theorem quotes_add (r : MarkupReader) (m : Markup) :
    r.text.count '"' + quotesAll r.nodes + outerQuotes r.outer + m.quotes ≤ (r.add m).quotes := by
  have hnodes := le_quotesAll_allNodes r
  simp [add, quotes, placeQuotes]
  omega

/-- An element that ends keeps what has been read inside. -/
theorem quotes_finish {r s : MarkupReader} {name : String} (h : r.finish? name = some s) :
    r.text.count '"' + quotesAll r.nodes + outerQuotes r.outer ≤ s.quotes := by
  have hinside := le_quotesAll_inside r
  unfold finish? at h
  -- There must be an element to close, and it must have the name that was read.
  split at h
  · cases h
  · next start before outer houter =>
    split at h
    · cases h
      simp [quotes, placeQuotes, outerQuotes, houter, Markup.quotes]
      omega
    · cases h

/-- No name has a quote in it. -/
theorem ne_quote_of_isMarkupNameChar {c : Char} (h : isMarkupNameChar c = true) : c ≠ '"' := by
  rintro rfl
  exact absurd h (by decide)

/-- In a start tag a quote is only taken in for a value. -/
theorem quotes_stepTag {r s : MarkupReader} {start : StartTag} {c : Char}
    (h : r.stepTag start c = some s) :
    2 * start.attributes.length + r.text.count '"' + quotesAll r.nodes + outerQuotes r.outer ≤
      s.quotes ∧ c ≠ '"' := by
  -- Only spacing, the slash, the bracket and the characters of a name may stand here.
  unfold stepTag at h
  split at h
  · next hspace =>
    cases h
    refine ⟨by simp [quotes, placeQuotes], ?_⟩
    rintro rfl
    exact absurd hspace (by decide)
  split at h
  · next hslash =>
    cases h
    exact ⟨by simp [quotes, placeQuotes], by simp [beq_iff_eq.mp hslash]⟩
  split at h
  · next hend =>
    cases h
    exact ⟨quotes_begin r start, by simp [beq_iff_eq.mp hend]⟩
  split at h
  · next hname =>
    cases h
    exact ⟨by simp [quotes, placeQuotes], ne_quote_of_isMarkupNameChar hname⟩
  · cases h

section Step

variable {s : MarkupReader} {text : List Char} {nodes : List Markup}
  {outer : List (StartTag × List Markup)} {c : Char}

/-- In content a quote is a character of the text. -/
theorem quotes_step_content (h : step ⟨.content, text, nodes, outer⟩ c = some s) :
    quotes ⟨.content, text, nodes, outer⟩ + [c].count '"' ≤ s.quotes := by
  simp only [step] at h
  split at h
  · next hopen =>
    cases h
    simp [quotes, placeQuotes, beq_iff_eq.mp hopen]
  · cases h
    simp [quotes, placeQuotes]
    omega

/-- Behind the bracket of a tag there is no quote. -/
theorem quotes_step_opened (h : step ⟨.opened, text, nodes, outer⟩ c = some s) :
    quotes ⟨.opened, text, nodes, outer⟩ + [c].count '"' ≤ s.quotes := by
  simp only [step] at h
  split at h
  · next hslash =>
    cases h
    simp [quotes, placeQuotes, beq_iff_eq.mp hslash]
  split at h
  · next hname =>
    cases h
    simp [quotes, placeQuotes, ne_quote_of_isMarkupNameChar hname]
  · cases h

/-- There is none in the name of a tag, and behind the name the start tag has begun. -/
theorem quotes_step_name {read : List Char}
    (h : step ⟨.name read, text, nodes, outer⟩ c = some s) :
    quotes ⟨.name read, text, nodes, outer⟩ + [c].count '"' ≤ s.quotes := by
  simp only [step] at h
  split at h
  · next hname =>
    cases h
    simp [quotes, placeQuotes, ne_quote_of_isMarkupNameChar hname]
  · obtain ⟨hquotes, hne⟩ := quotes_stepTag h
    simpa [quotes, placeQuotes, hne] using hquotes

/-- There is none in the name of an attribute. -/
theorem quotes_step_attribute {start : StartTag} {read : List Char}
    (h : step ⟨.attribute start read, text, nodes, outer⟩ c = some s) :
    quotes ⟨.attribute start read, text, nodes, outer⟩ + [c].count '"' ≤ s.quotes := by
  simp only [step] at h
  split at h
  · next hname =>
    cases h
    simp [quotes, placeQuotes, ne_quote_of_isMarkupNameChar hname]
  split at h
  · next hequals =>
    cases h
    simp [quotes, placeQuotes, beq_iff_eq.mp hequals]
  · cases h

/-- The quote that begins a value is the first of the two of its attribute. -/
theorem quotes_step_equals {start : StartTag} {name : String}
    (h : step ⟨.equals start name, text, nodes, outer⟩ c = some s) :
    quotes ⟨.equals start name, text, nodes, outer⟩ + [c].count '"' ≤ s.quotes := by
  simp only [step] at h
  split at h
  · next hquote =>
    cases h
    simp only [quotes, placeQuotes, beq_iff_eq.mp hquote, List.count_singleton_self]
    omega
  · cases h

/-- The quote that ends a value is the second, with which the tag has one attribute more. -/
theorem quotes_step_value {start : StartTag} {name : String} {read : List Char}
    (h : step ⟨.value start name read, text, nodes, outer⟩ c = some s) :
    quotes ⟨.value start name read, text, nodes, outer⟩ + [c].count '"' ≤ s.quotes := by
  simp only [step] at h
  split at h
  · next hquote =>
    cases h
    simp [quotes, placeQuotes, beq_iff_eq.mp hquote]
    omega
  · next hother =>
    cases h
    have hne : c ≠ '"' := by simpa using hother
    simp [quotes, placeQuotes, hne]

/-- An element that ends in its start tag keeps the quotes of its attributes. -/
theorem quotes_step_slash {start : StartTag}
    (h : step ⟨.slash start, text, nodes, outer⟩ c = some s) :
    quotes ⟨.slash start, text, nodes, outer⟩ + [c].count '"' ≤ s.quotes := by
  simp only [step] at h
  split at h
  · next hend =>
    cases h
    have hadd := quotes_add ⟨.slash start, text, nodes, outer⟩ (.element start [])
    simp [quotes, placeQuotes, Markup.quotes, beq_iff_eq.mp hend] at hadd ⊢
    omega
  · cases h

/-- There is none in an end tag, and the element that it ends keeps its own. -/
theorem quotes_step_ending {read : List Char}
    (h : step ⟨.ending read, text, nodes, outer⟩ c = some s) :
    quotes ⟨.ending read, text, nodes, outer⟩ + [c].count '"' ≤ s.quotes := by
  simp only [step] at h
  split at h
  · next hend =>
    have hfinish := quotes_finish h
    simpa [quotes, placeQuotes, beq_iff_eq.mp hend] using hfinish
  split at h
  · next hname =>
    cases h
    simp [quotes, placeQuotes, ne_quote_of_isMarkupNameChar hname]
  · cases h

end Step

/-- **A step keeps up with the quote that it takes in.** -/
theorem quotes_step {r s : MarkupReader} {c : Char} (h : r.step c = some s) :
    r.quotes + [c].count '"' ≤ s.quotes := by
  obtain ⟨place, text, nodes, outer⟩ := r
  -- One case for each place of the reader, whose lemma says what the quotes of that place are.
  match place, h with
  | .content, h => exact quotes_step_content h
  | .opened, h => exact quotes_step_opened h
  | .name _, h => exact quotes_step_name h
  | .tag start, h =>
    obtain ⟨hquotes, hne⟩ := quotes_stepTag (show stepTag _ start c = some s from h)
    simpa [quotes, placeQuotes, hne] using hquotes
  | .attribute _ _, h => exact quotes_step_attribute h
  | .equals _ _, h => exact quotes_step_equals h
  | .value _ _ _, h => exact quotes_step_value h
  | .slash _, h => exact quotes_step_slash h
  | .ending _, h => exact quotes_step_ending h

/-- **Along a text, the quotes keep up** with those that are read. -/
theorem quotes_read {r s : MarkupReader} {text : List Char} (h : r.read text = some s) :
    r.quotes + text.count '"' ≤ s.quotes := by
  induction text generalizing r with
  | nil =>
    cases h
    simp
  | cons c rest ih =>
    rw [read_cons, Option.bind_eq_some_iff] at h
    obtain ⟨next, hstep, hread⟩ := h
    have hfirst := quotes_step hstep
    have hrest := ih hread
    -- One step accounts for the first character, the induction hypothesis for the others.
    rw [← List.singleton_append, List.count_append]
    omega

end MarkupReader

/-- **No quote of markup is lost** in the trees that it is read as. -/
theorem Markup.count_quote_le {text : String} {trees : List Markup}
    (h : Markup.readAll? text = some trees) : text.toList.count '"' ≤ quotesAll trees := by
  unfold Markup.readAll? at h
  split at h
  · next r hread =>
    split at h
    · next hend =>
      cases h
      rw [Bool.and_eq_true, decide_eq_true_eq, List.isEmpty_iff] at hend
      -- At the end no element is open, so what is left is the text behind the last tag and the
      -- nodes.
      have hcount := MarkupReader.quotes_read hread
      have hnodes := r.le_quotesAll_allNodes
      simp [MarkupReader.quotes, hend, MarkupReader.placeQuotes, MarkupReader.outerQuotes] at hcount
      omega
    · cases h
  · cases h

/-! ### What is written -/

theorem IsMarkupName.count_quote {name : String} (h : IsMarkupName name) :
    name.toList.count '"' = 0 :=
  List.count_eq_zero.mpr fun hmem => absurd (h.2 _ hmem) (by decide)

theorem count_quote_escaped (text : List Char) : (text.flatMap markupEscape).count '"' = 0 :=
  List.count_eq_zero.mpr fun hmem => (ne_of_mem_escaped hmem).2 rfl

/-- An attribute is written with the two quotes around its value. -/
theorem Attribute.Readable.count_quote {a : Attribute} (h : a.Readable) :
    (a.write .html).toList.count '"' = 2 := by
  obtain ⟨name, value⟩ := a
  obtain ⟨hname, data, rfl⟩ := h
  have hwrite : (Attribute.write .html ⟨name, .text data⟩).toList =
      name.toList ++ '=' :: '"' :: (data.toList.flatMap markupEscape ++ ['"']) := by
    simp [Attribute.write, Language.isScript, inQuotes, toList_markupEscaped]
  have hnone := hname.count_quote
  simp only at hnone
  rw [hwrite, List.count_append, hnone]
  simp [count_quote_escaped]

/-- Attributes are written with two quotes each. -/
theorem count_quote_attributes {attributes : List Attribute} (h : ∀ a ∈ attributes, a.Readable) :
    (String.join (attributes.map fun a => " " ++ a.write .html)).toList.count '"' =
      2 * attributes.length := by
  induction attributes with
  | nil => rfl
  | cons a rest ih =>
    obtain ⟨ha, hrest⟩ := List.forall_mem_cons.mp h
    rw [List.map_cons, String.join_cons, String.toList_append, List.count_append,
      String.toList_append, List.count_append, ha.count_quote, ih hrest, List.length_cons]
    simp
    omega

/-- So a start tag has two for each of its attributes. -/
theorem StartTag.Readable.count_quote {t : StartTag} (h : t.Readable) :
    (t.write .html).toList.count '"' = 2 * t.attributes.length := by
  rw [StartTag.write, String.toList_append, List.count_append, h.1.count_quote,
    count_quote_attributes h.2, Nat.zero_add]

end DesignCompiler
