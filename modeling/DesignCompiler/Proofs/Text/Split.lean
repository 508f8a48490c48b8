import DesignCompiler.Text.Blank
/-!
# Cutting and joining texts

`splitOnChar_append` is the equation that all facts about cutting follow from: a separator cuts what
is in front of it and what is behind it on their own. So what has been joined by a separator is cut
into the same pieces again, if no piece has it (`splitOnChar_intercalate`).
-/

namespace DesignCompiler

/-- What two texts hand on to the text of both with a joiner in between, some texts hand on to what is
joined of them. -/
theorem intercalate_of_joined {P : String → Prop} {joiner : String}
    (hjoined : ∀ {a b}, P a → P b → P (a ++ joiner ++ b)) {texts : List String} (hne : texts ≠ [])
    (h : ∀ text ∈ texts, P text) : P (joiner.intercalate texts) := by
  induction texts with
  | nil => exact absurd rfl hne
  | cons text rest ih =>
    obtain ⟨htext, hrest⟩ := List.forall_mem_cons.mp h
    by_cases hnil : rest = []
    · rw [hnil, String.intercalate_singleton]
      exact htext
    · rw [String.intercalate_cons_of_ne_nil hnil]
      exact hjoined htext (ih hnil hrest)

/-- What two texts hand on to the text of both is handed on to any number of joined texts. -/
theorem intercalate_of_append {P : String → Prop} (hempty : P "")
    (happend : ∀ {a b}, P a → P b → P (a ++ b)) {joiner : String} (hjoiner : P joiner)
    {texts : List String} (h : ∀ text ∈ texts, P text) : P (joiner.intercalate texts) := by
  cases texts with
  | nil =>
    rw [String.intercalate_nil]
    exact hempty
  | cons text rest =>
    exact intercalate_of_joined (fun ha hb => happend (happend ha hjoiner) hb)
      (List.cons_ne_nil _ _) h

/-! ### Cutting -/

variable {separator : Char}

/-- There is always a piece, if only an empty one. -/
theorem splitOnChar_ne_nil (separator : Char) (text : List Char) :
    splitOnChar separator text ≠ [] := by
  cases text with
  | nil => simp [splitOnChar]
  | cons c rest =>
    rw [splitOnChar]
    split
    · simp
    · split <;> simp

/-- **Cutting at a separator** cuts what is in front of it and what is behind it. -/
theorem splitOnChar_append (before after : List Char) :
    splitOnChar separator (before ++ separator :: after) =
      splitOnChar separator before ++ splitOnChar separator after := by
  induction before with
  | nil =>
    obtain ⟨piece, pieces, hafter⟩ := List.exists_cons_of_ne_nil
      (splitOnChar_ne_nil separator after)
    simp [splitOnChar, hafter]
  | cons c before ih =>
    obtain ⟨piece, pieces, hbefore⟩ := List.exists_cons_of_ne_nil
      (splitOnChar_ne_nil separator before)
    rw [List.cons_append, splitOnChar, splitOnChar, ih, hbefore]
    -- A separator opens a piece, any other character joins the first one.
    by_cases hc : (c == separator) = true
    · simp [hc]
    · simp [hc]

/-- A text without the separator is one piece. -/
theorem splitOnChar_of_not_mem {text : List Char} (h : separator ∉ text) :
    splitOnChar separator text = [text] := by
  induction text with
  | nil => rfl
  | cons c rest ih =>
    have hc : c ≠ separator := fun hc => h (by simp [hc])
    have hrest : separator ∉ rest := fun hmem => h (List.mem_cons_of_mem _ hmem)
    simp [splitOnChar, ih hrest, hc]

/-- No piece has the separator in it. -/
theorem not_mem_of_mem_splitOnChar {text piece : List Char}
    (h : piece ∈ splitOnChar separator text) : separator ∉ piece := by
  induction text generalizing piece with
  | nil =>
    obtain rfl : piece = [] := by simpa [splitOnChar] using h
    exact List.not_mem_nil
  | cons c rest ih =>
    obtain ⟨next, others, hrest⟩ := List.exists_cons_of_ne_nil (splitOnChar_ne_nil separator rest)
    have hlater : ∀ p ∈ next :: others, separator ∉ p := fun p hp => ih (hrest ▸ hp)
    rw [splitOnChar, hrest] at h
    simp only at h
    -- A separator opens an empty piece; any other character joins the first one.
    split at h
    · rcases List.mem_cons.mp h with rfl | h
      · exact List.not_mem_nil
      · exact hlater piece h
    · next hc =>
      rcases List.mem_cons.mp h with rfl | h
      · rw [List.mem_cons, not_or]
        exact ⟨fun hsame => hc (beq_iff_eq.mpr hsame.symm), hlater next List.mem_cons_self⟩
      · exact hlater piece (List.mem_cons_of_mem _ h)

/-- The first piece begins the text, and every other one begins right behind a separator. -/
theorem exists_of_splitOnChar {text first : List Char} {pieces : List (List Char)}
    (h : splitOnChar separator text = first :: pieces) :
    (∃ after, text = first ++ after) ∧
      ∀ piece ∈ pieces, ∃ before after, text = before ++ separator :: (piece ++ after) := by
  induction text generalizing first pieces with
  | nil =>
    obtain ⟨rfl, rfl⟩ : first = [] ∧ pieces = [] := by simpa [splitOnChar, eq_comm] using h
    exact ⟨⟨[], rfl⟩, fun _ h => absurd h List.not_mem_nil⟩
  | cons c rest ih =>
    obtain ⟨next, others, hrest⟩ := List.exists_cons_of_ne_nil
      (splitOnChar_ne_nil separator rest)
    obtain ⟨⟨after, hnext⟩, hothers⟩ := ih hrest
    have hlater : ∀ piece ∈ others, ∃ before after,
        c :: rest = before ++ separator :: (piece ++ after) := by
      intro piece hpiece
      obtain ⟨before, after, rfl⟩ := hothers piece hpiece
      exact ⟨c :: before, after, rfl⟩
    rw [splitOnChar, hrest] at h
    -- Behind a separator the first piece of the rest becomes a later one.
    by_cases hc : (c == separator) = true
    · obtain ⟨rfl, rfl⟩ : first = [] ∧ pieces = next :: others := by
        simpa [hc, eq_comm] using h
      refine ⟨⟨c :: rest, rfl⟩, List.forall_mem_cons.mpr ⟨⟨[], after, ?_⟩, hlater⟩⟩
      rw [hnext, beq_iff_eq.mp hc, List.nil_append]
    · obtain ⟨rfl, rfl⟩ : first = c :: next ∧ pieces = others := by
        simpa [hc, eq_comm] using h
      exact ⟨⟨after, by rw [hnext, List.cons_append]⟩, hlater⟩

/-- **The pieces make the text,** each but the first one behind a separator. -/
theorem eq_of_splitOnChar {text first : List Char} {pieces : List (List Char)}
    (h : splitOnChar separator text = first :: pieces) :
    text = first ++ pieces.flatMap (separator :: ·) := by
  induction text generalizing first pieces with
  | nil =>
    obtain ⟨rfl, rfl⟩ : first = [] ∧ pieces = [] := by simpa [splitOnChar, eq_comm] using h
    rfl
  | cons c rest ih =>
    obtain ⟨next, others, hrest⟩ := List.exists_cons_of_ne_nil
      (splitOnChar_ne_nil separator rest)
    rw [splitOnChar, hrest] at h
    -- A separator leaves an empty first piece; any other character belongs to it.
    by_cases hc : (c == separator) = true
    · obtain ⟨rfl, rfl⟩ : first = [] ∧ pieces = next :: others := by
        simpa [hc, eq_comm] using h
      rw [ih hrest, List.flatMap_cons, beq_iff_eq.mp hc]
      rfl
    · obtain ⟨rfl, rfl⟩ : first = c :: next ∧ pieces = others := by
        simpa [hc, eq_comm] using h
      rw [ih hrest, List.cons_append]

/-- What has no separator in it goes to the first piece. -/
theorem splitOnChar_append_of_not_mem {before after first : List Char}
    {pieces : List (List Char)} (hbefore : separator ∉ before)
    (h : splitOnChar separator after = first :: pieces) :
    splitOnChar separator (before ++ after) = (before ++ first) :: pieces := by
  induction before with
  | nil => exact h
  | cons c before ih =>
    rw [List.mem_cons, not_or] at hbefore
    have hc : ¬(c == separator) = true := fun hc => hbefore.1 (beq_iff_eq.mp hc).symm
    rw [List.cons_append, splitOnChar, ih hbefore.2]
    simp [hc]

/-- **What is joined by a separator** is cut into its pieces again. -/
theorem splitOnChar_intercalate {pieces : List (List Char)} (hpieces : pieces ≠ [])
    (h : ∀ piece ∈ pieces, separator ∉ piece) :
    splitOnChar separator ([separator].intercalate pieces) = pieces := by
  induction pieces with
  | nil => exact absurd rfl hpieces
  | cons piece rest ih =>
    obtain ⟨hpiece, hrest⟩ := List.forall_mem_cons.mp h
    cases rest with
    | nil => rw [List.intercalate_singleton, splitOnChar_of_not_mem hpiece]
    | cons next others =>
      -- The separator put in is the first one there, as the piece holds none.
      rw [List.intercalate_cons_cons, List.append_assoc, List.singleton_append, splitOnChar_append,
        splitOnChar_of_not_mem hpiece, ih (List.cons_ne_nil _ _) hrest]
      rfl

/-! ### Lines -/

/-- The lines of a text are on one line each. -/
theorem line_feed_not_mem_line {text line : List Char} (h : line ∈ lines text) : '\n' ∉ line := by
  simp only [lines, List.mem_append, List.mem_map] at h
  -- A line is a piece without its carriage return, or the last piece as it is.
  rcases h with ⟨piece, hpiece, rfl⟩ | h
  · have hnone := not_mem_of_mem_splitOnChar ((List.dropLast_sublist _).mem hpiece)
    unfold dropReturn
    split
    · exact fun hmem => hnone ((List.dropLast_sublist _).mem hmem)
    · exact hnone
  · split at h
    · exact absurd h List.not_mem_nil
    · rw [List.mem_singleton.mp h]
      cases hlast : (splitOnChar '\n' text).getLast? with
      | none => exact List.not_mem_nil
      | some last => exact not_mem_of_mem_splitOnChar (List.mem_of_getLast? hlast)

end DesignCompiler
