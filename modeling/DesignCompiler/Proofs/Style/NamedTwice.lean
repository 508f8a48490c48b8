import Mathlib.Data.List.Chain
import DesignCompiler.Proofs.Style.ClassName
/-!
# Names that are identifiers already

The topmost element of an output is named twice: its name is made an identifier, and a namer is
asked for a name by this identifier. So it matters whether an identifier is the identifier of
itself. Mostly it is, but where its words begin is not written in an identifier. It is found again
from capitals and digits, and two words that are single letters, `A` and `B`, are found again as one
word `AB`, which has one capital.

* `recased` writes an identifier on the way through a text (`flatten_capitalize_eq_recased`);
* the words of a name are numbers or runs of letters (`isWord_of_mem_identifierWords`), and where
  one begins in the identifier is found again unless it is a letter behind a letter
  (`recased_flatten_iff`);
* `legalIdentifier_again_iff` is what follows for identifiers and for namers.
-/

namespace DesignCompiler

/-! ### Letters and digits -/

section Classes

variable {c d : Char} {rest : List Char}

theorem isAlpha_of_isUpper (h : c.isUpper = true) : c.isAlpha = true :=
  Bool.or_eq_true_iff.mpr (Or.inl h)

theorem isAlpha_of_isLower (h : c.isLower = true) : c.isAlpha = true :=
  Bool.or_eq_true_iff.mpr (Or.inr h)

theorem isAlphanum_of_isAlpha (h : c.isAlpha = true) : c.isAlphanum = true :=
  Bool.or_eq_true_iff.mpr (Or.inl h)

theorem isAlphanum_of_isDigit (h : c.isDigit = true) : c.isAlphanum = true :=
  Bool.or_eq_true_iff.mpr (Or.inr h)

/-- A digit has no case. -/
theorem digit_facts (h : c.isDigit = true) :
    letterClass c = .digit ∧ c.toUpper = c ∧ c.toLower = c :=
  forall_alphanum (P := fun c => c.isDigit = true →
    letterClass c = .digit ∧ c.toUpper = c ∧ c.toLower = c) (by decide +kernel)
    (isAlphanum_of_isDigit h) h

/-- A capital is its own upper case and not its lower case. -/
theorem upper_facts (h : c.isUpper = true) :
    letterClass c = .upper ∧ c.toUpper = c ∧ c.toLower ≠ c :=
  forall_alphanum (P := fun c => c.isUpper = true →
    letterClass c = .upper ∧ c.toUpper = c ∧ c.toLower ≠ c) (by decide +kernel)
    (isAlphanum_of_isAlpha (isAlpha_of_isUpper h)) h

/-- A small letter is its own lower case. -/
theorem lower_facts (h : c.isLower = true) : letterClass c = .lower ∧ c.toLower = c :=
  forall_alphanum (P := fun c => c.isLower = true →
    letterClass c = .lower ∧ c.toLower = c) (by decide +kernel)
    (isAlphanum_of_isAlpha (isAlpha_of_isLower h)) h

/-- A letter has a capital and a form in lower case. -/
theorem alpha_facts (h : c.isAlpha = true) :
    c.toUpper.isUpper = true ∧ c.toLower.isLower = true :=
  forall_alphanum (P := fun c => c.isAlpha = true →
    c.toUpper.isUpper = true ∧ c.toLower.isLower = true) (by decide +kernel)
    (isAlphanum_of_isAlpha h) h

/-! ### Where words end -/

/-- A text that begins with a capital or a digit, if it begins at all. -/
def Begins (text : List Char) : Prop := ∀ c ∈ text.head?, c.isUpper = true ∨ c.isDigit = true

theorem begins_nil : Begins [] := fun _ h => nomatch h

theorem begins_cons : Begins (c :: rest) ↔ c.isUpper = true ∨ c.isDigit = true := by
  simp [Begins]

/-- **A word ends behind lower case** in front of a capital or a digit. -/
theorem endsWord_of_isLower (hc : c.isLower = true) (h : Begins (d :: rest)) :
    endsWord c (d :: rest) = true := by
  rcases begins_cons.mp h with hd | hd
  · simp [endsWord, (lower_facts hc).1, (upper_facts hd).1]
  · simp [endsWord, (lower_facts hc).1, (digit_facts hd).1]

/-- A letter behind a digit starts a new word. -/
theorem endsWord_digit_alpha (hc : c.isDigit = true) (hd : d.isAlpha = true) :
    endsWord c (d :: rest) = true := by
  rcases Bool.or_eq_true_iff.mp hd with hd | hd
  · simp [endsWord, (digit_facts hc).1, (upper_facts hd).1]
  · simp [endsWord, (digit_facts hc).1, (lower_facts hd).1]

/-- A digit behind a letter starts a new word. -/
theorem endsWord_alpha_digit (hc : c.isAlpha = true) (hd : d.isDigit = true) :
    endsWord c (d :: rest) = true := by
  rcases Bool.or_eq_true_iff.mp hc with hc | hc
  · simp [endsWord, (upper_facts hc).1, (digit_facts hd).1]
  · simp [endsWord, (lower_facts hc).1, (digit_facts hd).1]

theorem endsWord_upper_lower (hc : c.isUpper = true) (hd : d.isLower = true) :
    endsWord c (d :: rest) = false := by
  simp [endsWord, (upper_facts hc).1, (lower_facts hd).1]

/-- Between two capitals a word ends if it is the next word that goes on in lower case. -/
theorem endsWord_upper_upper (hc : c.isUpper = true) (hd : d.isUpper = true) :
    endsWord c (d :: rest) = rest.head?.any (letterClass · == .lower) := by
  cases rest <;> simp [endsWord, (upper_facts hc).1, (upper_facts hd).1]

end Classes

/-! ### Case by case -/

/-- **The identifier of a text, written on the way:** each character has the case that it has where
a word begins or goes on with it, and separators are left out. -/
def recased (begins : Bool) : List Char → List Char
  | [] => []
  | c :: rest =>
    if isWordSeparator c then recased true rest
    else (if begins then c.toUpper else c.toLower) :: recased (endsWord c rest) rest

/-- What is left of a text is written in the middle of a word or at its beginning. -/
theorem recased_eq {text piece : List Char} {pieces : List (List Char)} (h : IsSpaced text)
    (hpieces : wordPieces text = piece :: pieces) (begins : Bool) :
    recased begins text =
      (if begins then capitalize piece else lowerText piece) ++
        (pieces.map capitalize).flatten := by
  induction text generalizing piece pieces begins with
  | nil =>
    cases hpieces
    cases begins <;> rfl
  | cons c rest ih =>
    obtain ⟨hc, hrest⟩ := List.forall_mem_cons.mp h
    obtain ⟨next, others, hnext⟩ := List.exists_cons_of_ne_nil (wordPieces_ne_nil rest)
    have hwords : ∀ d ∈ next, d.isAlphanum = true := fun d hd => by
      obtain ⟨hmem, hseparator⟩ := mem_wordPieces (hnext ▸ List.mem_cons_self) d hd
      exact (hrest d hmem).resolve_right (by simp [hseparator])
    rw [wordPieces, hnext] at hpieces
    rw [recased]
    -- A separator opens an empty piece, the end of a word opens one with the character in it,
    -- and any other character joins the piece that follows.
    by_cases hseparator : isWordSeparator c = true
    · simp only [hseparator, if_true] at hpieces ⊢
      cases hpieces
      rw [ih hrest hnext true]
      cases begins <;> rfl
    · have halphanum := hc.resolve_right hseparator
      by_cases hends : endsWord c rest = true
      · have hword : ∀ d ∈ [c], d.isAlphanum = true := List.forall_mem_singleton.mpr halphanum
        simp only [hseparator, hends, if_true, if_false, Bool.false_eq_true] at hpieces ⊢
        cases hpieces
        rw [ih hrest hnext true, lowerText_alphanum hword, capitalize_cons hword]
        cases begins <;> rfl
      · have hword : ∀ d ∈ c :: next, d.isAlphanum = true :=
          List.forall_mem_cons.mpr ⟨halphanum, hwords⟩
        have hlower : lowerText (c :: next) = c.toLower :: lowerText next := by
          rw [lowerText_alphanum hword, lowerText_alphanum hwords, List.map_cons]
        simp only [hseparator, hends, if_false, Bool.false_eq_true] at hpieces ⊢
        cases hpieces
        rw [ih hrest hnext false, hlower, capitalize_cons hword]
        cases begins <;> rfl

/-- The words of a text, capitalized and joined, are written on the way through it. -/
theorem flatten_capitalize_eq_recased {text : List Char} (h : IsSpaced text) :
    ((words text).map capitalize).flatten = recased true text := by
  obtain ⟨piece, pieces, hpieces⟩ := List.exists_cons_of_ne_nil (wordPieces_ne_nil text)
  have hempty : ∀ ws : List (List Char),
      ((ws.filter (!·.isEmpty)).map capitalize).flatten = (ws.map capitalize).flatten := by
    -- Empty words are dropped and would have added nothing.
    intro ws
    induction ws with
    | nil => rfl
    | cons w ws ih =>
      cases w with
      | nil => simp [ih, capitalize, clusters]
      | cons c w => simp [ih]
  rw [words_of_spaced h, hempty, hpieces, recased_eq h hpieces true, if_pos rfl]
  rfl

/-- Casing a name anew keeps its length. -/
theorem length_recased {text : List Char} (h : ∀ c ∈ text, c.isAlphanum = true) (begins : Bool) :
    (recased begins text).length = text.length := by
  induction text generalizing begins with
  | nil => rfl
  | cons c rest ih =>
    obtain ⟨hc, hrest⟩ := List.forall_mem_cons.mp h
    rw [recased, not_isWordSeparator hc, if_neg Bool.false_ne_true, List.length_cons,
      ih hrest, List.length_cons]

/-! ### Words written again -/

/-- **A word of a name:** a number or a run of letters. -/
inductive IsWord : List Char → Prop
  | number {w : List Char} (hne : w ≠ []) (h : ∀ c ∈ w, c.isDigit = true) : IsWord w
  | letters {c : Char} {w : List Char} (hc : c.isAlpha = true) (h : ∀ d ∈ w, d.isAlpha = true) :
      IsWord (c :: w)

/-- A word that is a single letter. -/
def IsLetter (w : List Char) : Prop := ∃ c, c.isAlpha = true ∧ w = [c]

/-- **Letters stand apart:** no two words next to each other are single letters. -/
def LettersApart (ws : List (List Char)) : Prop := ws.IsChain fun v w => ¬(IsLetter v ∧ IsLetter w)

theorem not_isLetter_number {w : List Char} (h : ∀ c ∈ w, c.isDigit = true) : ¬IsLetter w := by
  rintro ⟨c, hc, rfl⟩
  -- A digit has no capital.
  obtain ⟨hclass, hupper, -⟩ := digit_facts (h c List.mem_cons_self)
  have hcapital := (alpha_facts hc).1
  rw [hupper] at hcapital
  rw [(upper_facts hcapital).1] at hclass
  cases hclass

theorem not_isLetter_cons (c d : Char) (w : List Char) : ¬IsLetter (c :: d :: w) := by
  rintro ⟨e, -, heq⟩
  cases heq

/-- A word is letters and digits, and has some. -/
theorem isAlphanum_of_isWord {w : List Char} (h : IsWord w) :
    w ≠ [] ∧ ∀ c ∈ w, c.isAlphanum = true := by
  cases h with
  | number hne h =>
    exact ⟨hne, fun c hc => isAlphanum_of_isDigit (h c hc)⟩
  | letters hc h =>
    exact ⟨List.cons_ne_nil _ _, List.forall_mem_cons.mpr
      ⟨isAlphanum_of_isAlpha hc, fun d hd => isAlphanum_of_isAlpha (h d hd)⟩⟩

/-- Words that are capitalized and joined begin with a capital or a digit. -/
theorem begins_flatten {ws : List (List Char)} (h : ∀ w ∈ ws, IsWord w) :
    Begins (ws.map capitalize).flatten := by
  rcases flatten_capitalize (fun w hw => (isAlphanum_of_isWord (h w hw)).1)
    (fun w hw => (isAlphanum_of_isWord (h w hw)).2) with hnil | ⟨c, rest, heq, hc, -⟩
  · rw [hnil]
    exact begins_nil
  · rw [heq, begins_cons]
    simpa using hc

/-- A digit is written alike everywhere. -/
theorem recased_digit {c : Char} (hc : c.isDigit = true) (begins : Bool) (rest : List Char) :
    recased begins (c :: rest) = c :: recased (endsWord c rest) rest := by
  rw [recased, not_isWordSeparator (isAlphanum_of_isDigit hc), (digit_facts hc).2.1,
    (digit_facts hc).2.2, ite_self, if_neg Bool.false_ne_true]

/-- A letter is raised where a word starts and lowered elsewhere. -/
theorem recased_alpha {c : Char} (hc : c.isAlpha = true) (begins : Bool) (rest : List Char) :
    recased begins (c :: rest) =
      (if begins then c.toUpper else c.toLower) :: recased (endsWord c rest) rest := by
  rw [recased, not_isWordSeparator (isAlphanum_of_isAlpha hc), if_neg Bool.false_ne_true]

/-- A number is written as it is, and a word begins behind it. -/
theorem recased_number {w rest : List Char} (hne : w ≠ []) (h : ∀ c ∈ w, c.isDigit = true)
    (hrest : Begins rest) (begins : Bool) :
    recased begins (w ++ rest) = w ++ recased true rest := by
  induction w generalizing begins with
  | nil => exact absurd rfl hne
  | cons c w ih =>
    obtain ⟨hc, hw⟩ := List.forall_mem_cons.mp h
    rw [List.cons_append, recased_digit hc, List.cons_append]
    congr 1
    cases w with
    | cons d w => exact ih (List.cons_ne_nil _ _) hw _
    | nil =>
      cases rest with
      | nil => rfl
      | cons d rest =>
        rcases begins_cons.mp hrest with hd | hd
        · rw [List.nil_append, endsWord_digit_alpha hc (isAlpha_of_isUpper hd)]
          rfl
        · -- Two numbers are one, which makes no difference.
          rw [List.nil_append, recased_digit hd, List.nil_append, recased_digit hd]

/-- What goes on in lower case is written as it is, and a word begins behind it. -/
theorem recased_lower {w rest : List Char} (hne : w ≠ []) (h : ∀ c ∈ w, c.isLower = true)
    (hrest : Begins rest) : recased false (w ++ rest) = w ++ recased true rest := by
  induction w with
  | nil => exact absurd rfl hne
  | cons c w ih =>
    obtain ⟨hc, hw⟩ := List.forall_mem_cons.mp h
    rw [List.cons_append, recased_alpha (isAlpha_of_isLower hc), if_neg Bool.false_ne_true,
      (lower_facts hc).2, List.cons_append]
    congr 1
    -- Behind the last small letter a word begins, so the rest is raised.
    cases w with
    | cons d w =>
      have hd := (List.forall_mem_cons.mp hw).1
      have hgoes : endsWord c ((d :: w) ++ rest) = false := by
        simp [endsWord, (lower_facts hc).1, (lower_facts hd).1]
      rw [hgoes, ih (List.cons_ne_nil _ _) hw]
    | nil =>
      cases rest with
      | nil => rfl
      | cons d rest =>
        rw [List.nil_append, endsWord_of_isLower hc hrest]
        rfl

/-- A capitalized word of letters: a capital, then lower case. -/
theorem capitalize_letters {c : Char} {w : List Char} (hc : c.isAlpha = true)
    (h : ∀ d ∈ w, d.isAlpha = true) :
    capitalize (c :: w) = c.toUpper :: w.map Char.toLower ∧
      ∀ d ∈ w.map Char.toLower, d.isLower = true := by
  constructor
  · have hletters := fun d hd => isAlphanum_of_isAlpha (h d hd)
    rw [capitalize_cons (List.forall_mem_cons.mpr ⟨isAlphanum_of_isAlpha hc, hletters⟩),
      lowerText_alphanum hletters]
  · intro d hd
    obtain ⟨e, he, rfl⟩ := List.mem_map.mp hd
    exact (alpha_facts (h e he)).2

/-- A number has nothing to raise. -/
theorem capitalize_number {w : List Char} (h : ∀ c ∈ w, c.isDigit = true) : capitalize w = w := by
  cases w with
  | nil => rfl
  | cons c w =>
    obtain ⟨hc, hw⟩ := List.forall_mem_cons.mp h
    have hsame : w.map Char.toLower = w :=
      (List.map_congr_left fun d hd => (digit_facts (hw d hd)).2.2).trans (List.map_id w)
    rw [capitalize_cons fun d hd => isAlphanum_of_isDigit (h d hd), (digit_facts hc).2.1,
      lowerText_alphanum fun d hd => isAlphanum_of_isDigit (hw d hd), hsame]

/-- **A single capital is found again as a word** in front of any word but another single letter. -/
theorem endsWord_flatten {c : Char} (hc : c.isUpper = true) {v : List Char} {vs : List (List Char)}
    (h : ∀ w ∈ v :: vs, IsWord w) :
    endsWord c ((v :: vs).map capitalize).flatten = true ↔ ¬IsLetter v := by
  obtain ⟨hv, hvs⟩ := List.forall_mem_cons.mp h
  rw [List.map_cons, List.flatten_cons]
  cases hv with
  | number hne hdigits =>
    obtain ⟨d, w, rfl⟩ := List.exists_cons_of_ne_nil hne
    have hd := hdigits d List.mem_cons_self
    rw [capitalize_number hdigits, List.cons_append,
      endsWord_alpha_digit (isAlpha_of_isUpper hc) hd]
    exact iff_of_true rfl (not_isLetter_number hdigits)
  | @letters d w hd hletters =>
    obtain ⟨hcapital, hlower⟩ := capitalize_letters hd hletters
    rw [hcapital, List.cons_append, endsWord_upper_upper hc (alpha_facts hd).1]
    cases w with
    | cons e w =>
      have he : (letterClass e.toLower == .lower) = true := by
        rw [(lower_facts (hlower _ List.mem_cons_self)).1]
        rfl
      exact iff_of_true he (not_isLetter_cons _ _ _)
    | nil =>
      refine iff_of_false ?_ (not_not_intro ⟨d, hd, rfl⟩)
      -- What stands behind the letter is the beginning of a word.
      intro hany
      obtain ⟨e, he, hclass⟩ := (Option.any_eq_true _ _).mp hany
      rcases begins_flatten hvs e he with hupper | hdigit
      · simp [(upper_facts hupper).1] at hclass
      · simp [(digit_facts hdigit).1] at hclass

/-- **A word that is no single letter is written as it is,** and a word begins behind it. -/
theorem recased_word {w rest : List Char} (h : IsWord w) (hletter : ¬IsLetter w)
    (hrest : Begins rest) :
    recased true (capitalize w ++ rest) = capitalize w ++ recased true rest := by
  cases h with
  | number hne hdigits => rw [capitalize_number hdigits, recased_number hne hdigits hrest]
  | @letters c w hc hletters =>
    obtain ⟨hcapital, hlower⟩ := capitalize_letters hc hletters
    have hupper := (alpha_facts hc).1
    rw [hcapital, List.cons_append, recased_alpha (isAlpha_of_isUpper hupper), if_pos rfl,
      (upper_facts hupper).2.1, List.cons_append]
    -- A lone letter would run into the next word; a longer one ends in small letters.
    cases w with
    | nil => exact absurd ⟨c, hc, rfl⟩ hletter
    | cons d w =>
      have hgoes : endsWord c.toUpper ((d :: w).map Char.toLower ++ rest) = false :=
        endsWord_upper_lower hupper (hlower _ List.mem_cons_self)
      have hne : (d :: w).map Char.toLower ≠ [] := List.cons_ne_nil _ _
      rw [hgoes, recased_lower hne hlower hrest]

/-- A capital in front of words that are joined is written as a word of its own exactly if the next
word is no single letter: the capital of a letter is taken for one inside a word, and lost. -/
theorem recased_letter_iff {c : Char} (hc : c.isUpper = true) {ws : List (List Char)}
    (h : ∀ w ∈ ws, IsWord w) :
    recased true (c :: (ws.map capitalize).flatten) = c :: (ws.map capitalize).flatten ↔
      (∀ v ∈ ws.head?, ¬IsLetter v) ∧
        recased true (ws.map capitalize).flatten = (ws.map capitalize).flatten := by
  rw [recased_alpha (isAlpha_of_isUpper hc), if_pos rfl, (upper_facts hc).2.1,
    List.cons_inj_right]
  cases ws with
  | nil => exact iff_of_true rfl ⟨nofun, rfl⟩
  | cons v vs =>
    simp only [List.head?_cons, Option.mem_some_iff, forall_eq']
    -- A letter behind a letter is read as one word with it and lowered; anything else stands.
    by_cases hv : IsLetter v
    · obtain ⟨d, hd, rfl⟩ := id hv
      have hgoes : endsWord c (([d] :: vs).map capitalize).flatten = false :=
        Bool.eq_false_iff.mpr fun hends => (endsWord_flatten hc h).mp hends hv
      have hd' := (alpha_facts hd).1
      refine iff_of_false ?_ fun hboth => hboth.1 hv
      rw [hgoes, List.map_cons, List.flatten_cons,
        (capitalize_letters hd (List.forall_mem_nil _)).1, List.cons_append,
        recased_alpha (isAlpha_of_isUpper hd'), if_neg Bool.false_ne_true]
      exact fun heq => (upper_facts hd').2.2 (List.cons.inj heq).1
    · rw [(endsWord_flatten hc h).mpr hv]
      exact (and_iff_right hv).symm

/-- **Joined words are found again exactly if letters stand apart.** -/
theorem recased_flatten_iff {ws : List (List Char)} (h : ∀ w ∈ ws, IsWord w) :
    recased true (ws.map capitalize).flatten = (ws.map capitalize).flatten ↔ LettersApart ws := by
  induction ws with
  | nil => exact iff_of_true rfl .nil
  | cons w ws ih =>
    obtain ⟨hw, hws⟩ := List.forall_mem_cons.mp h
    rw [List.map_cons, List.flatten_cons, LettersApart, List.isChain_cons, ← LettersApart,
      ← ih hws]
    -- Only a lone letter minds what follows it.
    by_cases hletter : IsLetter w
    · obtain ⟨c, hc, rfl⟩ := id hletter
      obtain ⟨hcapital, -⟩ := capitalize_letters hc (List.forall_mem_nil _)
      rw [hcapital, List.map_nil, List.cons_append, List.nil_append,
        recased_letter_iff (alpha_facts hc).1 hws]
      simp only [hletter, true_and]
    · rw [recased_word hw hletter (begins_flatten hws), List.append_right_inj]
      exact (and_iff_right fun v _ hboth => hletter hboth.1).symm

/-! ### Words of a name -/

/-- The words that the identifier of a name is made of. -/
def identifierWords (name : String) : List (List Char) :=
  words (name.toList.map fun c => if isIdentifierChar c then c else ' ')

/-- The first piece starts the text. -/
theorem head_of_wordPieces {text piece : List Char} {pieces : List (List Char)} {c : Char}
    (h : wordPieces text = (c :: piece) :: pieces) : ∃ rest, text = c :: rest := by
  cases text with
  | nil => cases h
  | cons d rest =>
    obtain ⟨next, others, hnext⟩ := List.exists_cons_of_ne_nil (wordPieces_ne_nil rest)
    rw [wordPieces, hnext] at h
    simp only at h
    refine ⟨rest, ?_⟩
    split at h
    · cases h
    · split at h <;> cases h <;> rfl

/-- **A piece between word boundaries is a number or made of letters.** -/
theorem digits_or_letters {text piece : List Char} (h : IsSpaced text)
    (hpiece : piece ∈ wordPieces text) :
    (∀ c ∈ piece, c.isDigit = true) ∨ ∀ c ∈ piece, c.isAlpha = true := by
  induction text generalizing piece with
  | nil =>
    rw [wordPieces, List.mem_singleton] at hpiece
    rw [hpiece]
    exact Or.inl (List.forall_mem_nil _)
  | cons c rest ih =>
    obtain ⟨hc, hrest⟩ := List.forall_mem_cons.mp h
    obtain ⟨next, others, hnext⟩ := List.exists_cons_of_ne_nil (wordPieces_ne_nil rest)
    have hlater : ∀ p ∈ next :: others,
        (∀ c ∈ p, c.isDigit = true) ∨ ∀ c ∈ p, c.isAlpha = true :=
      fun p hp => ih hrest (hnext ▸ hp)
    obtain ⟨hfirst, hothers⟩ := List.forall_mem_cons.mp hlater
    rw [wordPieces, hnext] at hpiece
    simp only at hpiece
    by_cases hseparator : isWordSeparator c = true
    · rw [if_pos hseparator] at hpiece
      rcases List.mem_cons.mp hpiece with rfl | hpiece
      · exact Or.inl (List.forall_mem_nil _)
      · exact hlater piece hpiece
    have hkind : c.isAlpha = true ∨ c.isDigit = true := by
      exact Bool.or_eq_true_iff.mp (hc.resolve_right hseparator)
    rw [if_neg hseparator] at hpiece
    split at hpiece
    · rcases List.mem_cons.mp hpiece with rfl | hpiece
      · simpa [or_comm] using hkind
      · exact hlater piece hpiece
    · next hgoes =>
      rcases List.mem_cons.mp hpiece with rfl | hpiece
      · cases next with
        | nil => simpa [or_comm] using hkind
        | cons d w =>
          -- A word goes on from digit to digit and from letter to letter.
          obtain ⟨more, rfl⟩ := head_of_wordPieces hnext
          rcases hkind with hc | hc <;> rcases hfirst with hdigits | hletters
          · exact absurd (endsWord_alpha_digit hc (hdigits d List.mem_cons_self)) hgoes
          · exact Or.inr (List.forall_mem_cons.mpr ⟨hc, hletters⟩)
          · exact Or.inl (List.forall_mem_cons.mpr ⟨hc, hdigits⟩)
          · exact absurd (endsWord_digit_alpha hc (hletters d List.mem_cons_self)) hgoes
      · exact hothers piece hpiece

/-- The words of an identifier are numbers and runs of letters. -/
theorem isWord_of_mem_identifierWords {name : String} :
    ∀ w ∈ identifierWords name, IsWord w := by
  intro w hw
  have hspaced := isSpaced_cleaned name
  rw [identifierWords, words_of_spaced hspaced] at hw
  obtain ⟨hpiece, hne⟩ := List.mem_filter.mp hw
  cases w with
  | nil => simp at hne
  | cons c w =>
    -- A word ends between digits and letters, so it is of one kind.
    rcases digits_or_letters hspaced hpiece with hdigits | hletters
    · exact .number (List.cons_ne_nil _ _) hdigits
    · obtain ⟨hc, hletters⟩ := List.forall_mem_cons.mp hletters
      exact .letters hc hletters

/-! ### Identifiers of identifiers -/

/-- **The identifier of a name** is its words, with an `N` in front of a digit. -/
theorem toList_legalIdentifier (name : String) :
    (legalIdentifier name).toList =
      match ((identifierWords name).map capitalize).flatten with
      | [] => "Wrapper".toList
      | c :: rest => if c.isDigit then 'N' :: c :: rest else c :: rest := by
  unfold legalIdentifier identifierWords
  simp only [pascalCase, String.toList_ofList]
  -- What the words are does not matter here, only what they start with.
  generalize (List.map capitalize _).flatten = text
  cases text with
  | nil => rfl
  | cons c rest =>
    simp only
    split <;> simp

/-- The identifier of an identifier is what is written on the way through it. -/
theorem toList_legalIdentifier_of_isIdentifier {name : String} (h : IsIdentifier name) :
    (legalIdentifier name).toList = recased true name.toList := by
  have hsame : (name.toList.map fun c => if isIdentifierChar c then c else ' ') = name.toList := by
    refine (List.map_congr_left fun c hc => ?_).trans (List.map_id _)
    rw [isIdentifierChar, h.alphanum c hc, if_pos rfl]
    rfl
  rw [toList_legalIdentifier, identifierWords, hsame,
    flatten_capitalize_eq_recased fun c hc => Or.inl (h.alphanum c hc)]
  obtain ⟨first, rest, hname, hfirst, -⟩ := h
  -- An identifier starts with a capital, so no letter is put in front.
  have hdigit : first.isDigit = false := by
    rw [Bool.eq_false_iff]
    intro hdigit
    cases (upper_facts hfirst).1.symm.trans (digit_facts hdigit).1
  rw [hname, recased_alpha (isAlpha_of_isUpper hfirst), if_pos rfl, (upper_facts hfirst).2.1]
  simp only [hdigit, Bool.false_eq_true, if_false]

/-- **An identifier is its own identifier** exactly if no single letters are next to each other
among the words of the name. -/
theorem legalIdentifier_eq_self_iff (name : String) :
    legalIdentifier (legalIdentifier name) = legalIdentifier name ↔
      LettersApart (identifierWords name) := by
  rw [← String.toList_inj,
    toList_legalIdentifier_of_isIdentifier (isIdentifier_legalIdentifier name),
    ← recased_flatten_iff isWord_of_mem_identifierWords, toList_legalIdentifier]
  cases htext : ((identifierWords name).map capitalize).flatten with
  | nil => exact iff_of_true (by decide) rfl
  | cons c rest =>
    simp only
    split
    · next hdigit =>
      -- A word ends in front of the digit, so the `N` makes no difference.
      have hupper : 'N'.isUpper = true := by decide
      rw [recased_alpha (isAlpha_of_isUpper hupper), if_pos rfl,
        endsWord_alpha_digit (isAlpha_of_isUpper hupper) hdigit, (upper_facts hupper).2.1,
        List.cons_inj_right]
    · exact Iff.rfl

/-! ### Namers -/

/-- **A namer hands an identifier out as it is** exactly if it is free and its own identifier. -/
theorem Namer.nameIt_eq_self_iff (n : Namer) {name : String} (h : IsIdentifier name) :
    (n.nameIt name).1 = name ↔ n.isFree name = true ∧ legalIdentifier name = name := by
  constructor
  · intro hname
    have hfree := n.isFree_nameIt name
    rw [hname] at hfree
    refine ⟨hfree, ?_⟩
    by_cases hbase : n.isFree (legalIdentifier name) = true
    · simpa only [nameIt, hbase, if_true] using hname
    · -- What has a number behind it is longer than the identifier that is asked for.
      simp only [nameIt, hbase, Bool.false_eq_true, if_false] at hname
      have hlength := congrArg (fun text : String => text.toList.length) hname
      simp only [String.toList_append, List.length_append,
        toList_legalIdentifier_of_isIdentifier h, length_recased h.alphanum] at hlength
      simp at hlength
  · rintro ⟨hfree, hsame⟩
    simp only [nameIt, hsame, hfree, if_true]

/-- **What is its own identifier.** The identifier of a name is so exactly if no single letters are
next to each other among the words of the name, and exactly then a namer that is asked for a name by
it hands it out, as long as it is free. -/
theorem legalIdentifier_again_iff (name : String) :
    (legalIdentifier (legalIdentifier name) = legalIdentifier name ↔
      LettersApart (identifierWords name)) ∧
    ∀ n : Namer, (n.nameIt (legalIdentifier name)).1 = legalIdentifier name ↔
      n.isFree (legalIdentifier name) = true ∧ LettersApart (identifierWords name) := by
  refine ⟨legalIdentifier_eq_self_iff name, fun n => ?_⟩
  rw [n.nameIt_eq_self_iff (isIdentifier_legalIdentifier name), legalIdentifier_eq_self_iff]

/-- Two letters are one word the second time, and the root of an output is named by it. -/
theorem legalIdentifier_twoLetters :
    legalIdentifier "a b" = "AB" ∧ legalIdentifier (legalIdentifier "a b") = "Ab" ∧
      Namer.isFree ⟨"1:1", .react, [], {}⟩ (legalIdentifier "root wrapper a b") = true ∧
      (Namer.nameIt ⟨"1:1", .react, [], {}⟩ (legalIdentifier "root wrapper a b")).1 ≠
        legalIdentifier "root wrapper a b" := by
  decide

end DesignCompiler
