import DesignCompiler.Proofs.Style.Namer
import DesignCompiler.Proofs.Text.Clusters
/-!
# What identifiers look like

Whatever a name is made of, its identifier is a capital followed by letters and digits, all of ASCII
(`isIdentifier_legalIdentifier`), and so is everything that a namer hands out. Hence no declaration
is named like an element, whose names are in lower case.

On ASCII the tables are out of the way: `upperChar` and `lowerChar` map a character to one, letters
and digits to letters and digits (`alphanum_facts`), and each character is a cluster by itself, so
words are cut between characters (`words_of_spaced`).
-/

namespace DesignCompiler

/-- **A capital, followed by letters and digits.** -/
def IsIdentifier (name : String) : Prop :=
  ∃ first rest, name.toList = first :: rest ∧ first.isUpper = true ∧
    ∀ c ∈ rest, c.isAlphanum = true

/-- An identifier stays one with letters and digits behind it. -/
theorem IsIdentifier.append {name : String} (h : IsIdentifier name) {behind : String}
    (hbehind : ∀ c ∈ behind.toList, c.isAlphanum = true) : IsIdentifier (name ++ behind) := by
  obtain ⟨first, rest, hname, hfirst, hrest⟩ := h
  refine ⟨first, rest ++ behind.toList, by simp [hname], hfirst, fun c hc => ?_⟩
  exact (List.mem_append.mp hc).elim (hrest c) (hbehind c)

/-- A name without a capital in front is none. -/
theorem not_isIdentifier {name : String} (h : name.toList.head?.all (!·.isUpper) = true) :
    ¬ IsIdentifier name := by
  rintro ⟨first, rest, hname, hfirst, -⟩
  simp [hname, hfirst] at h

/-! ### Letters and digits of ASCII -/

/-- The letters and digits are among the first 128 characters; in upper case they are capitals or
digits, and in lower case still letters and digits. -/
theorem alphanum_facts {c : Char} (h : c.isAlphanum = true) :
    c.toNat < 128 ∧ (c.toUpper.isUpper || c.toUpper.isDigit) = true ∧
      c.toLower.isAlphanum = true := by
  have hsmall : c.toNat < 128 := by
    unfold Char.isAlphanum Char.isAlpha Char.isUpper Char.isLower Char.isDigit at h
    simp only [Bool.or_eq_true, Bool.and_eq_true, decide_eq_true_eq, UInt32.le_iff_toNat_le] at h
    have hupper : 'Z'.val.toNat = 90 := rfl
    have hlower : 'z'.val.toNat = 122 := rfl
    have hdigit : '9'.val.toNat = 57 := rfl
    show c.val.toNat < 128
    omega
  -- The facts themselves are looked up for the first 128 characters.
  have hall : ∀ n : Fin 128, (Char.ofNat n).isAlphanum = true →
      ((Char.ofNat n).toUpper.isUpper || (Char.ofNat n).toUpper.isDigit) = true ∧
        (Char.ofNat n).toLower.isAlphanum = true := by decide +kernel
  have hc := hall ⟨c.toNat, hsmall⟩
  simp only [Char.ofNat_toNat] at hc
  exact ⟨hsmall, hc h⟩

/-- What holds of each letter and digit of ASCII holds of all. -/
theorem forall_alphanum {P : Char → Prop}
    (h : ∀ n : Fin 128, (Char.ofNat n).isAlphanum = true → P (Char.ofNat n)) {c : Char}
    (hc : c.isAlphanum = true) : P c := by
  have hp := h ⟨c.toNat, (alphanum_facts hc).1⟩
  simp only [Char.ofNat_toNat] at hp
  exact hp hc

theorem upperChar_alphanum {c : Char} (h : c.isAlphanum = true) : upperChar c = [c.toUpper] := by
  rw [upperChar, if_pos (alphanum_facts h).1]

/-- Lowering keeps letters and digits. -/
theorem alphanum_lowerAfter {text : List Char} (h : ∀ c ∈ text, c.isAlphanum = true) :
    ∀ before, ∀ c ∈ lowerAfter before text, c.isAlphanum = true := by
  induction text with
  | nil => exact fun _ _ hc => absurd hc List.not_mem_nil
  | cons d rest ih =>
    intro before c hc
    obtain ⟨hsmall, -, hlower⟩ := alphanum_facts (h d List.mem_cons_self)
    -- The letter with forms of its own at the end of a word is not of ASCII.
    have hsigma : (d == 'Σ') = false := by
      rw [beq_eq_false_iff_ne]
      rintro rfl
      exact absurd hsmall (by decide)
    rw [lowerAfter, hsigma, lowerChar, if_pos hsmall] at hc
    rcases List.mem_append.mp hc with hc | hc
    · rw [if_neg Bool.false_ne_true, List.mem_singleton] at hc
      rw [hc]
      exact hlower
    · exact ih (fun e he => h e (List.mem_cons_of_mem _ he)) _ c hc

/-- A letter or digit is an ordinary character. -/
theorem clusterClass_alphanum {c : Char} (h : c.isAlphanum = true) : clusterClass c = .other :=
  forall_alphanum (P := fun c => clusterClass c = .other) (by decide +kernel) h

/-! ### Words -/

/-- A text for identifiers: letters, digits and separators. -/
def IsSpaced (text : List Char) : Prop :=
  ∀ c ∈ text, c.isAlphanum = true ∨ isWordSeparator c = true

/-- Separators are ordinary characters too. -/
theorem IsSpaced.clusterClass_eq {text : List Char} (h : IsSpaced text) :
    ∀ c ∈ text, clusterClass c = .other := by
  intro c hc
  rcases h c hc with hc | hc
  · exact clusterClass_alphanum hc
  · simp only [isWordSeparator, Letter.cluster, Bool.or_eq_true, beq_iff_eq,
      List.cons.injEq, and_true] at hc
    rcases hc with (rfl | rfl) | rfl <;> rfl

/-- **Words are cut between characters** in a text of letters, digits and separators. -/
theorem words_of_spaced {text : List Char} (h : IsSpaced text) :
    words text = (wordPieces text).filter (!·.isEmpty) := words_of_other h.clusterClass_eq

/-- A word of letters and digits is capitalized by its first character. -/
theorem capitalize_cons {c : Char} {word : List Char} (h : ∀ d ∈ c :: word, d.isAlphanum = true) :
    capitalize (c :: word) = c.toUpper :: lowerText word := by
  rw [capitalize_of_other fun d hd => clusterClass_alphanum (h d hd),
    upperChar_alphanum (h c List.mem_cons_self), List.singleton_append]

/-- Even an empty text has a piece, the empty one. -/
theorem wordPieces_ne_nil (text : List Char) : wordPieces text ≠ [] := by
  cases text with
  | nil => simp [wordPieces]
  | cons c rest =>
    rw [wordPieces]
    split
    · simp
    · split
      · simp
      · split <;> simp

/-- The words of a text are made of its characters, without the separators. -/
theorem mem_wordPieces {text piece : List Char} (h : piece ∈ wordPieces text) :
    ∀ c ∈ piece, c ∈ text ∧ isWordSeparator c = false := by
  induction text generalizing piece with
  | nil =>
    rw [wordPieces, List.mem_singleton] at h
    rw [h]
    exact fun c hc => absurd hc List.not_mem_nil
  | cons d rest ih =>
    have hlater : ∀ p ∈ wordPieces rest, ∀ c ∈ p, c ∈ d :: rest ∧ isWordSeparator c = false :=
      fun p hp c hc => ⟨List.mem_cons_of_mem _ (ih hp c hc).1, (ih hp c hc).2⟩
    rw [wordPieces] at h
    cases hpieces : wordPieces rest with
    | nil =>
      exact absurd hpieces (wordPieces_ne_nil rest)
    | cons first others =>
      rw [hpieces] at h hlater
      simp only at h
      -- A separator starts an empty piece; any other character starts one or joins the first.
      by_cases hseparator : isWordSeparator d = true
      · rw [if_pos hseparator] at h
        rcases List.mem_cons.mp h with rfl | h
        · exact fun c hc => absurd hc List.not_mem_nil
        · exact hlater piece h
      · have hd : d ∈ d :: rest ∧ isWordSeparator d = false :=
          ⟨List.mem_cons_self, by simpa using hseparator⟩
        rw [if_neg hseparator] at h
        split at h
        · rcases List.mem_cons.mp h with rfl | h
          · intro c hc
            rw [List.mem_singleton.mp hc]
            exact hd
          · exact hlater piece h
        · rcases List.mem_cons.mp h with rfl | h
          · intro c hc
            rcases List.mem_cons.mp hc with rfl | hc
            · exact hd
            · exact hlater first List.mem_cons_self c hc
          · exact hlater piece (List.mem_cons_of_mem _ h)

/-- A capitalized word starts with a capital or a digit. -/
theorem capitalize_alphanum {word : List Char} (hword : word ≠ [])
    (h : ∀ c ∈ word, c.isAlphanum = true) :
    ∃ first rest, capitalize word = first :: rest ∧ (first.isUpper || first.isDigit) = true ∧
      ∀ c ∈ rest, c.isAlphanum = true := by
  cases word with
  | nil => exact absurd rfl hword
  | cons c word =>
    have hc := h c List.mem_cons_self
    refine ⟨c.toUpper, lowerText word, ?_, (alphanum_facts hc).2.1, ?_⟩
    · exact capitalize_cons h
    · exact alphanum_lowerAfter (fun d hd => h d (List.mem_cons_of_mem _ hd)) []

theorem isAlphanum_of_upper_or_digit {c : Char} (h : (c.isUpper || c.isDigit) = true) :
    c.isAlphanum = true := by
  unfold Char.isAlphanum Char.isAlpha
  revert h
  cases c.isUpper <;> cases c.isDigit <;> simp

/-- An identifier is letters and digits. -/
theorem IsIdentifier.alphanum {name : String} (h : IsIdentifier name) :
    ∀ c ∈ name.toList, c.isAlphanum = true := by
  obtain ⟨first, rest, hname, hfirst, hrest⟩ := h
  rw [hname, List.forall_mem_cons]
  exact ⟨isAlphanum_of_upper_or_digit (by rw [hfirst, Bool.true_or]), hrest⟩

/-- Words of letters and digits, capitalized and joined: nothing, or a capital or a digit followed by
letters and digits. -/
theorem flatten_capitalize {words : List (List Char)} (hwords : ∀ word ∈ words, word ≠ [])
    (h : ∀ word ∈ words, ∀ c ∈ word, c.isAlphanum = true) :
    (words.map capitalize).flatten = [] ∨
      ∃ first rest, (words.map capitalize).flatten = first :: rest ∧
        (first.isUpper || first.isDigit) = true ∧ ∀ c ∈ rest, c.isAlphanum = true := by
  induction words with
  | nil => exact Or.inl rfl
  | cons word words ih =>
    obtain ⟨first, rest, hword, hfirst, hrest⟩ :=
      capitalize_alphanum (hwords word List.mem_cons_self) (h word List.mem_cons_self)
    refine Or.inr ⟨first, rest ++ (words.map capitalize).flatten, ?_, hfirst, fun c hc => ?_⟩
    · rw [List.map_cons, List.flatten_cons, hword]
      rfl
    · -- Behind the first word follow the others, and a capital or digit in front of them is one
      -- as well.
      rcases List.mem_append.mp hc with hc | hc
      · exact hrest c hc
      · rcases ih (fun w hw => hwords w (List.mem_cons_of_mem _ hw))
          (fun w hw => h w (List.mem_cons_of_mem _ hw)) with
          hnone | ⟨next, more, heq, hnext, hmore⟩
        · rw [hnone] at hc
          exact absurd hc List.not_mem_nil
        · rw [heq] at hc
          rcases List.mem_cons.mp hc with rfl | hc
          · exact isAlphanum_of_upper_or_digit hnext
          · exact hmore c hc

/-- **The words of a name** are made of letters and digits if nothing in it but the separators is
anything else. -/
theorem alphanum_of_mem_words {text : List Char} (h : IsSpaced text) :
    ∀ word ∈ words text, word ≠ [] ∧ ∀ c ∈ word, c.isAlphanum = true := by
  intro word hword
  rw [words_of_spaced h] at hword
  obtain ⟨hpiece, hnonempty⟩ := List.mem_filter.mp hword
  refine ⟨by rintro rfl; simp at hnonempty, fun c hc => ?_⟩
  obtain ⟨hmem, hseparator⟩ := mem_wordPieces hpiece c hc
  exact (h c hmem).resolve_right (by rw [hseparator]; exact Bool.false_ne_true)

/-- A name in camel case has no separators. -/
theorem alphanum_camelCase {name : String} (h : IsSpaced name.toList) :
    ∀ c ∈ (camelCase name).toList, c.isAlphanum = true := by
  have hwords := alphanum_of_mem_words h
  rw [camelCase, String.toList_ofList]
  cases hcut : words name.toList with
  | nil => exact fun _ hc => absurd hc List.not_mem_nil
  | cons word others =>
    rw [hcut, List.forall_mem_cons] at hwords
    obtain ⟨hword, hothers⟩ := hwords
    refine List.forall_mem_append.mpr ⟨alphanum_lowerAfter hword.2 [], fun c hc => ?_⟩
    -- The first word is lowered, the others are capitalized.
    obtain ⟨piece, hpiece, hc⟩ := List.mem_flatten.mp hc
    obtain ⟨other, hother, rfl⟩ := List.mem_map.mp hpiece
    obtain ⟨hne, halphanum⟩ := hothers other hother
    obtain ⟨first, rest, heq, hfirst, hrest⟩ := capitalize_alphanum hne halphanum
    rw [heq] at hc
    rcases List.mem_cons.mp hc with rfl | hc
    · exact isAlphanum_of_upper_or_digit hfirst
    · exact hrest c hc

/-! ### Identifiers -/

/-- What an identifier is made from: a space stands for all but letters and digits. -/
theorem isSpaced_cleaned (name : String) :
    IsSpaced (name.toList.map fun c => if isIdentifierChar c then c else ' ') := by
  intro c hc
  obtain ⟨d, -, rfl⟩ := List.mem_map.mp hc
  by_cases hd : isIdentifierChar d = true
  · rw [if_pos hd]
    exact Or.inl hd
  · rw [if_neg hd]
    exact Or.inr rfl

/-- **The identifier of a name is one,** whatever the name is. -/
theorem isIdentifier_legalIdentifier (name : String) : IsIdentifier (legalIdentifier name) := by
  have hwords := alphanum_of_mem_words (isSpaced_cleaned name)
  have hflatten :=
    flatten_capitalize (fun word h => (hwords word h).1) fun word h => (hwords word h).2
  unfold legalIdentifier
  simp only [pascalCase, String.toList_ofList]
  rcases hflatten with hnone | ⟨first, rest, heq, hfirst, hrest⟩
  · rw [hnone]
    exact ⟨'W', ['r', 'a', 'p', 'p', 'e', 'r'], by decide, by decide,
      List.all_eq_true.mp (by decide)⟩
  · rw [heq]
    simp only
    -- A digit in front gets a letter before it.
    by_cases hdigit : first.isDigit = true
    · rw [if_pos hdigit]
      refine ⟨'N', first :: rest, by simp, by decide, ?_⟩
      rw [List.forall_mem_cons]
      exact ⟨isAlphanum_of_upper_or_digit hfirst, hrest⟩
    · rw [if_neg hdigit]
      refine ⟨first, rest, by simp, ?_, hrest⟩
      simpa [hdigit] using hfirst

/-- The digits of a number. -/
theorem isAlphanum_digits (n : Nat) : ∀ c ∈ (toString n).toList, c.isAlphanum = true := by
  intro c hc
  have hdigit : c.isDigit = true := by
    have hdigits : (toString n).toList = Nat.toDigits 10 n := by simp
    rw [hdigits] at hc
    exact Nat.isDigit_of_mem_toDigits (by decide) (by decide) hc
  rw [Char.isAlphanum, hdigit, Bool.or_true]

/-- **What a namer hands out** is an identifier. -/
theorem Namer.isIdentifier_nameIt (n : Namer) (name : String) : IsIdentifier (n.nameIt name).1 := by
  have hbase := isIdentifier_legalIdentifier name
  by_cases hfree : n.isFree (legalIdentifier name) = true
  · simp only [nameIt, hfree, if_true]
    exact hbase
  · simp only [nameIt, hfree, Bool.false_eq_true, if_false]
    exact hbase.append (isAlphanum_digits _)

end DesignCompiler
