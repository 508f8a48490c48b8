import DesignCompiler.Proofs.Style.Identifier
import DesignCompiler.Proofs.Text.Split
import DesignCompiler.Proofs.Text.Tame
/-!
# Identifiers in lower case

A class is named by an identifier written in lower case, with a hyphen between its words. Two
identifiers have one class exactly when they have the same words in lower case
(`kebabCase_eq_iff`), so the capitals of an identifier are lost as far as they do not begin a word.
`AB` is one word and `Ab` is too.

Nothing is lost of an identifier that has a capital at the beginnings of its words only, which is
what it has when writing it in that way again gives it back (`eq_of_lowerWords_eq`).
-/

namespace DesignCompiler

/-- The words of a name in lower case. -/
def lowerWords (name : String) : List (List Char) := (words name.toList).map lowerText

/-! ### The words of an identifier -/

/-- **Cutting a text into words** keeps its characters in order, all but the separators. -/
theorem flatten_wordPieces (text : List Char) :
    (wordPieces text).flatten = text.filter (!isWordSeparator ·) := by
  induction text with
  | nil => rfl
  | cons c rest ih =>
    obtain ⟨piece, pieces, hrest⟩ := List.exists_cons_of_ne_nil (wordPieces_ne_nil rest)
    rw [hrest, List.flatten_cons] at ih
    rw [wordPieces, hrest]
    -- A separator begins a new piece, and so does the end of a word.
    by_cases hseparator : isWordSeparator c = true
    · simp [hseparator, ← ih]
    · by_cases hends : endsWord c rest = true
      · simp [hseparator, hends, ← ih]
      · simp [hseparator, hends, ← ih]

/-- A letter or digit is no separator. -/
theorem not_isWordSeparator {c : Char} (h : c.isAlphanum = true) : isWordSeparator c = false := by
  rw [Bool.eq_false_iff]
  intro hseparator
  simp only [isWordSeparator, Letter.cluster, Bool.or_eq_true, beq_iff_eq,
    List.cons.injEq, and_true] at hseparator
  rcases hseparator with (rfl | rfl) | rfl <;> exact absurd h (by decide)

theorem IsIdentifier.alphanum_words {name : String} (h : IsIdentifier name) :
    ∀ word ∈ words name.toList, word ≠ [] ∧ ∀ c ∈ word, c.isAlphanum = true :=
  alphanum_of_mem_words fun c hc => Or.inl (h.alphanum c hc)

/-- The words of an identifier are all of it. -/
theorem flatten_words {name : String} (h : ∀ c ∈ name.toList, c.isAlphanum = true) :
    (words name.toList).flatten = name.toList := by
  have hall : name.toList.filter (!isWordSeparator ·) = name.toList :=
    List.filter_eq_self.mpr fun c hc => by rw [not_isWordSeparator (h c hc)]; rfl
  rw [words_of_spaced fun c hc => Or.inl (h c hc), List.flatten_filter_not_isEmpty, flatten_wordPieces, hall]

/-! ### Lower case -/

/-- Letters and digits are lowered one by one; only a sigma looks at what stands around it. -/
theorem lowerAfter_alphanum {text : List Char} (h : ∀ c ∈ text, c.isAlphanum = true) :
    ∀ before, lowerAfter before text = text.map Char.toLower := by
  induction text with
  | nil => exact fun _ => rfl
  | cons c rest ih =>
    intro before
    obtain ⟨hsmall, -, -⟩ := alphanum_facts (h c List.mem_cons_self)
    -- A final sigma is no ASCII letter.
    have hsigma : (c == 'Σ') = false := by
      rw [beq_eq_false_iff_ne]
      rintro rfl
      exact absurd hsmall (by decide)
    rw [lowerAfter, hsigma, lowerChar, if_pos hsmall,
      ih fun d hd => h d (List.mem_cons_of_mem _ hd)]
    rfl

/-- On letters and digits of ASCII, lower case is character by character. -/
theorem lowerText_alphanum {text : List Char} (h : ∀ c ∈ text, c.isAlphanum = true) :
    lowerText text = text.map Char.toLower := lowerAfter_alphanum h []

theorem toLower_facts {c : Char} (h : c.isAlphanum = true) :
    c.toLower.toUpper = c.toUpper ∧ c.toLower.toLower = c.toLower :=
  forall_alphanum (P := fun c => c.toLower.toUpper = c.toUpper ∧ c.toLower.toLower = c.toLower)
    (by decide +kernel) h

/-- A word is capitalized alike in lower case. -/
theorem capitalize_lowerText {word : List Char} (h : ∀ c ∈ word, c.isAlphanum = true) :
    capitalize (lowerText word) = capitalize word := by
  cases word with
  | nil => rfl
  | cons c rest =>
    obtain ⟨hc, hrest⟩ := List.forall_mem_cons.mp h
    have hlower : ∀ d ∈ rest.map Char.toLower, d.isAlphanum = true := by
      intro d hd
      obtain ⟨e, he, rfl⟩ := List.mem_map.mp hd
      exact (alphanum_facts (hrest e he)).2.2
    have hagain : (rest.map Char.toLower).map Char.toLower = rest.map Char.toLower := by
      rw [List.map_map]
      exact List.map_congr_left fun d hd => (toLower_facts (hrest d hd)).2
    -- Raised after lowering is raised at once, and the others are lowered twice.
    rw [lowerText_alphanum h, List.map_cons, capitalize_cons h,
      capitalize_cons (List.forall_mem_cons.mpr ⟨(alphanum_facts hc).2.2, hlower⟩),
      (toLower_facts hc).1, lowerText_alphanum hlower, lowerText_alphanum hrest, hagain]

/-! ### Classes -/

/-- A class name is the lowered words, joined by hyphens. -/
theorem toList_kebabCase (name : String) :
    (kebabCase name).toList = ['-'].intercalate (lowerWords name) := by
  rw [kebabCase, String.toList_ofList]
  rfl

/-- A class is named without any marks but hyphens. -/
theorem tame_kebabCase {name : String} (h : IsIdentifier name) : Tame (kebabCase name) := by
  have hjoined : ∀ pieces : List (List Char), (∀ piece ∈ pieces, ∀ c ∈ piece, c.isAlphanum = true) →
      ∀ c ∈ ['-'].intercalate pieces, isTameChar c = true := by
    intro pieces hpieces
    induction pieces with
    | nil => exact fun _ hc => absurd hc List.not_mem_nil
    | cons piece rest ih =>
      obtain ⟨hpiece, hrest⟩ := List.forall_mem_cons.mp hpieces
      have htame : ∀ c ∈ piece, isTameChar c = true := fun c hc => by
        rw [isTameChar, hpiece c hc, Bool.true_or]
      cases rest with
      | nil => rwa [List.intercalate_singleton]
      | cons next others =>
        rw [List.intercalate_cons_cons]
        exact List.forall_mem_append.mpr
          ⟨List.forall_mem_append.mpr ⟨htame, List.forall_mem_singleton.mpr (by decide)⟩, ih hrest⟩
  -- The words are letters and digits, and a hyphen is tame.
  rw [Tame, toList_kebabCase]
  refine hjoined _ fun piece hpiece => ?_
  obtain ⟨word, hword, rfl⟩ := List.mem_map.mp hpiece
  exact alphanum_lowerAfter (h.alphanum_words word hword).2 []

/-- **Two identifiers have one class** exactly when they have the same words in lower case. -/
theorem kebabCase_eq_iff {a b : String} (ha : IsIdentifier a) (hb : IsIdentifier b) :
    kebabCase a = kebabCase b ↔ lowerWords a = lowerWords b := by
  have hcut : ∀ name, IsIdentifier name →
      splitOnChar '-' (kebabCase name).toList = lowerWords name := by
    intro name hname
    have hwords := hname.alphanum_words
    rw [toList_kebabCase]
    refine splitOnChar_intercalate ?_ fun word hword => ?_
    · -- An identifier has characters, so it has words.
      intro hnone
      have hflatten := flatten_words hname.alphanum
      rw [List.map_eq_nil_iff.mp hnone] at hflatten
      obtain ⟨first, rest, hfirst, -⟩ := hname
      rw [hfirst] at hflatten
      cases hflatten
    · obtain ⟨word, hmem, rfl⟩ := List.mem_map.mp hword
      intro hhyphen
      exact absurd (alphanum_lowerAfter (hwords word hmem).2 [] _ hhyphen) (by decide)
  constructor
  · intro h
    rw [← hcut a ha, ← hcut b hb, h]
  · intro h
    rw [← String.toList_inj, toList_kebabCase, toList_kebabCase, h]

/-- **Identifiers with capitals only at the beginnings of words** differ in lower case if they
differ at all. -/
theorem eq_of_lowerWords_eq {a b : String} (ha : IsIdentifier a) (hb : IsIdentifier b)
    (hpa : pascalCase a = a) (hpb : pascalCase b = b) (h : lowerWords a = lowerWords b) :
    a = b := by
  have hcapitals : ∀ name, IsIdentifier name →
      (words name.toList).map capitalize = (lowerWords name).map capitalize := by
    intro name hname
    rw [lowerWords, List.map_map]
    exact List.map_congr_left fun word hword =>
      (capitalize_lowerText (hname.alphanum_words word hword).2).symm
  rw [← hpa, ← hpb, pascalCase, pascalCase, hcapitals a ha, hcapitals b hb, h]

end DesignCompiler
