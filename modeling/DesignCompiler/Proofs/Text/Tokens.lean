import Mathlib.Data.List.TakeWhile
import DesignCompiler.Proofs.Text.Split
/-!
# Words and pieces

There are two ways to count the words of a text. `tokens` are the runs without a blank, whatever
blanks stand around them. The pieces between single spaces are one more than the spaces
(`length_splitOnChar`), wherever these stand. So a text can be of one word and of several pieces.

`length_tokens_le_one_iff` says which texts are of one word at most: those that are a run without a
blank, in a frame of blanks (`FramesWord`). Tokens joined by spaces are the tokens of what they are
joined to (`tokens_joinTokens`).
-/

namespace DesignCompiler

/-! ### Pieces -/

/-- **There is one piece more** than there are separators. -/
theorem length_splitOnChar (separator : Char) (text : List Char) :
    (splitOnChar separator text).length = text.count separator + 1 := by
  induction text with
  | nil => rfl
  | cons c rest ih =>
    obtain ⟨piece, pieces, hrest⟩ := List.exists_cons_of_ne_nil (splitOnChar_ne_nil separator rest)
    rw [hrest, List.length_cons] at ih
    rw [splitOnChar, hrest, List.count_cons, ← Nat.succ.inj ih]
    by_cases hc : (c == separator) = true <;> simp [hc]

/-! ### Words -/

/-- A word that has begun comes to an end. -/
theorem tokensFrom_ne_nil {word : List Char} (hword : word ≠ []) (text : List Char) :
    tokensFrom word text ≠ [] := by
  induction text generalizing word with
  | nil => simp [tokensFrom, hword]
  | cons c rest ih =>
    rw [tokensFrom]
    split
    · simp [hword]
    · exact ih (by simp)

/-- A text is without words exactly if it is blank. -/
theorem tokens_eq_nil_iff {text : List Char} :
    tokens text = [] ↔ ∀ c ∈ text, isBlank c = true := by
  induction text with
  | nil => simp
  | cons c rest ih =>
    rw [List.forall_mem_cons]
    by_cases hc : isBlank c = true
    · rw [tokens_cons_blank hc, ih]
      exact (and_iff_right hc).symm
    · rw [tokens, tokensFrom, if_neg hc]
      exact iff_of_false (tokensFrom_ne_nil (List.cons_ne_nil _ _) rest) fun h => hc h.1

/-- A text without blanks is one token. -/
theorem tokens_of_not_any {text : List Char} (hne : text ≠ []) (h : text.any isBlank = false) :
    tokens text = [text] := by
  -- The induction is on what is still to be read, behind a word that has begun.
  have hword : ∀ word, word ++ text ≠ [] → tokensFrom word text = [word ++ text] := by
    clear hne
    induction text with
    | nil =>
      intro word hword
      rw [List.append_nil] at hword ⊢
      rw [tokensFrom, if_neg (by simpa using hword)]
    | cons c rest ih =>
      obtain ⟨hc, hrest⟩ := Bool.or_eq_false_iff.mp h
      intro word _
      rw [tokensFrom, if_neg (by simp [hc]), ih hrest (word ++ [c]) (by simp)]
      simp
  exact hword [] hne

/-- **A token** is not empty and holds no blank. -/
theorem of_mem_tokens {text token : List Char} (h : token ∈ tokens text) :
    token ≠ [] ∧ token.any isBlank = false := by
  -- The induction is on what is still to be read, behind a word that has begun without a blank.
  have hfrom : ∀ word, word.any isBlank = false → token ∈ tokensFrom word text →
      token ≠ [] ∧ token.any isBlank = false := by
    clear h
    induction text with
    | nil =>
      intro word hword hmem
      by_cases hempty : word = []
      · simp [tokensFrom, hempty] at hmem
      · obtain rfl : token = word := by simpa [tokensFrom, hempty] using hmem
        exact ⟨hempty, hword⟩
    | cons c rest ih =>
      intro word hword hmem
      rw [tokensFrom] at hmem
      split at hmem
      · split at hmem
        · exact ih [] rfl hmem
        · next hempty =>
          rcases List.mem_cons.mp hmem with rfl | hmem
          · exact ⟨fun hnil => hempty (by rw [hnil]; rfl), hword⟩
          · exact ih [] rfl hmem
      · next hc => exact ih (word ++ [c]) (by simp [hword, hc]) hmem
  exact hfrom [] rfl h

/-- **Joining undoes cutting:** what is joined by spaces is cut into the tokens again. -/
theorem tokens_joinTokens {parts : List (List Char)}
    (h : ∀ part ∈ parts, part ≠ [] ∧ part.any isBlank = false) :
    tokens (joinTokens parts) = parts := by
  induction parts with
  | nil => rfl
  | cons part rest ih =>
    obtain ⟨⟨hne, hblank⟩, hrest⟩ := List.forall_mem_cons.mp h
    have hpart : tokens part = [part] := tokens_of_not_any hne hblank
    cases rest with
    | nil => rw [joinTokens, List.intercalate_singleton, hpart]
    | cons next others =>
      have hspace : isBlank ' ' = true := by decide
      -- The space behind a part ends its token, and the others follow by induction.
      have hjoin : joinTokens (part :: next :: others) =
          part ++ ' ' :: joinTokens (next :: others) := by
        rw [joinTokens, List.intercalate_cons_cons, List.append_assoc]
        rfl
      rw [hjoin, tokens_append_blank hspace, hpart, ih hrest]
      rfl

/-- Blanks in front separate nothing. -/
theorem tokens_blanks_append {blanks : List Char} (h : ∀ c ∈ blanks, isBlank c = true)
    (text : List Char) : tokens (blanks ++ text) = tokens text := by
  induction blanks with
  | nil => rfl
  | cons c blanks ih =>
    obtain ⟨hc, hblanks⟩ := List.forall_mem_cons.mp h
    rw [List.cons_append, tokens_cons_blank hc, ih hblanks]

/-- **A text of one word,** or of none: blanks, characters that are no blanks, and blanks. -/
structure FramesWord (text before word after : List Char) : Prop where
  eq : text = before ++ word ++ after
  before_blank : ∀ c ∈ before, isBlank c = true
  word_solid : ∀ c ∈ word, isBlank c = false
  after_blank : ∀ c ∈ after, isBlank c = true

namespace FramesWord

variable {text before word after : List Char} (h : FramesWord text before word after)

include h

/-- A word or nothing has at most one token. -/
theorem length_tokens_le_one : (tokens text).length ≤ 1 := by
  -- The word is one token, or none when it is empty.
  have hword : (tokens word).length ≤ 1 := by
    rcases eq_or_ne word [] with rfl | hne
    · exact Nat.zero_le 1
    · rw [tokens_of_not_any hne (List.any_eq_false.mpr fun c hc => by simp [h.word_solid c hc])]
      exact Nat.le_refl 1
  rw [h.eq, List.append_assoc, tokens_blanks_append h.before_blank]
  cases hafter : after with
  | nil => rwa [List.append_nil]
  | cons c rest =>
    obtain ⟨hc, hrest⟩ := List.forall_mem_cons.mp (hafter ▸ h.after_blank)
    rwa [tokens_append_blank hc, tokens_eq_nil_iff.mpr hrest, List.append_nil]

/-- A space of the text is one of the frame. -/
theorem space_mem_iff : ' ' ∈ text ↔ ' ' ∈ before ++ after := by
  have hword : ' ' ∉ word := fun hmem => absurd (h.word_solid _ hmem) (by decide)
  rw [h.eq, List.mem_append, List.mem_append, List.mem_append, or_iff_left hword]

end FramesWord

/-- **The texts of one word at most** are those that frame one. -/
theorem length_tokens_le_one_iff {text : List Char} :
    (tokens text).length ≤ 1 ↔ ∃ before word after, FramesWord text before word after := by
  refine ⟨fun h => ?_, fun ⟨_, _, _, hframes⟩ => hframes.length_tokens_le_one⟩
  -- The word begins behind the first blanks and ends in front of the next one.
  obtain ⟨rest, hrest⟩ : ∃ rest, text.dropWhile isBlank = rest := ⟨_, rfl⟩
  have htext : text = text.takeWhile isBlank ++ rest := by
    rw [← hrest, List.takeWhile_append_dropWhile]
  have hbefore : ∀ c ∈ text.takeWhile isBlank, isBlank c = true := fun _ => List.mem_takeWhile_imp
  have hword : ∀ c ∈ rest.takeWhile (!isBlank ·), isBlank c = false := fun c hc => by
    simpa using List.mem_takeWhile_imp hc
  have hends : rest = rest.takeWhile (!isBlank ·) ++ rest.dropWhile (!isBlank ·) :=
    List.takeWhile_append_dropWhile.symm
  refine ⟨text.takeWhile isBlank, rest.takeWhile (!isBlank ·), rest.dropWhile (!isBlank ·),
    by rw [List.append_assoc, ← hends, ← htext], hbefore, hword, ?_⟩
  rw [htext, tokens_blanks_append hbefore] at h
  cases hafter : rest.dropWhile (!isBlank ·) with
  | nil => exact List.forall_mem_nil _
  | cons c more =>
    have hc : isBlank c = true := by
      have hne : rest.dropWhile (!isBlank ·) ≠ [] := by simp [hafter]
      simpa [hafter] using List.head_dropWhile_not (!isBlank ·) hne
    have hne : rest.takeWhile (!isBlank ·) ≠ [] := by
      intro hnil
      rw [hnil, hafter, List.nil_append] at hends
      have hbegins : text.dropWhile isBlank ≠ [] := by simp [hrest, hends]
      have hhead := List.head_dropWhile_not isBlank hbegins
      simp [hrest, hends, hc] at hhead
    -- The word is the one token that there may be, so there is none behind it.
    have hone : tokens (rest.takeWhile (!isBlank ·)) = [rest.takeWhile (!isBlank ·)] :=
      tokens_of_not_any hne (List.any_eq_false.mpr fun c hc => by simp [hword c hc])
    rw [hends, hafter, tokens_append_blank hc, hone, List.length_append, List.length_singleton] at h
    have hmore : tokens more = [] := List.length_eq_zero_iff.mp (by omega)
    exact List.forall_mem_cons.mpr ⟨hc, tokens_eq_nil_iff.mp hmore⟩

end DesignCompiler
