import DesignCompiler.Proofs.Text.Split
/-!
# Lines trimmed and joined

A text can be put on one line by trimming its lines and joining them with nothing between
(`squeezed`). In the middle of a text this leaves out the line feeds, with the blanks around them,
and nothing else: `joinedLines` is what becomes of a part of a text between two characters that are
no blanks. It is the part itself exactly if there is no line feed in it. An escape that keeps blanks
and adds none changes nothing about that (`KeepsBlanks`).
-/

namespace DesignCompiler

/-! ### Blanks at an end -/

theorem trimStart_append_of_blank {space : List Char} (h : ∀ c ∈ space, isBlank c = true)
    (text : List Char) : trimStart (space ++ text) = trimStart text :=
  List.dropWhile_append_of_pos h

theorem trimStart_cons_of_ne {c : Char} (h : isBlank c = false) (text : List Char) :
    trimStart (c :: text) = c :: text := by
  rw [trimStart, List.dropWhile_cons, if_neg (by simp [h])]

/-- What begins with a character that is no blank is kept, whatever is in front of it. -/
theorem trimStart_append_cons {c : Char} (h : isBlank c = false) (before after : List Char) :
    trimStart (before ++ c :: after) = trimStart before ++ c :: after := by
  induction before with
  | nil => exact trimStart_cons_of_ne h after
  | cons d before ih =>
    cases hd : isBlank d with
    | false => rw [List.cons_append, trimStart_cons_of_ne hd, trimStart_cons_of_ne hd,
        List.cons_append]
    | true => simpa [trimStart, hd] using ih

theorem trimEnd_eq (text : List Char) : trimEnd text = (trimStart text.reverse).reverse := rfl

/-- What ends with a character that is no blank is kept, whatever is behind it. -/
theorem trimEnd_append_cons {c : Char} (h : isBlank c = false) (before after : List Char) :
    trimEnd (before ++ c :: after) = before ++ c :: trimEnd after := by
  simp [trimEnd_eq, trimStart_append_cons h]

theorem trimEnd_concat {c : Char} (h : isBlank c = false) (before : List Char) :
    trimEnd (before ++ [c]) = before ++ [c] :=
  trimEnd_append_cons h before []

theorem trimStart_sublist (text : List Char) : (trimStart text).Sublist text :=
  List.dropWhile_sublist _

theorem trimEnd_sublist (text : List Char) : (trimEnd text).Sublist text := by
  have h := (trimStart_sublist text.reverse).reverse
  rwa [List.reverse_reverse] at h

theorem trimBlanks_sublist (text : List Char) : (trimBlanks text).Sublist text :=
  (trimEnd_sublist _).trans (trimStart_sublist _)

/-! ### Lines -/

/-- A text with its lines trimmed and joined. -/
def squeezed (text : List Char) : List Char := ((lines text).map trimBlanks).flatten

/-- A blank at the end is left out anyway. -/
theorem trimBlanks_concat {c : Char} (h : isBlank c = true) (text : List Char) :
    trimBlanks (text ++ [c]) = trimBlanks text := by
  rw [trimBlanks, trimBlanks, trimStart, trimStart, List.dropWhile_append]
  split
  · next hempty => simp [List.isEmpty_iff.mp hempty, h]
  · simp [trimEnd, h]

/-- A carriage return at the end of a line is a blank and trimmed with the others. -/
theorem trimBlanks_dropReturn (line : List Char) :
    trimBlanks (dropReturn line) = trimBlanks line := by
  unfold dropReturn
  split
  · next hlast =>
    obtain ⟨text, rfl⟩ := List.getLast?_eq_some_iff.mp (beq_iff_eq.mp hlast)
    rw [List.dropLast_concat, trimBlanks_concat (by decide)]
  · rfl

/-- A squeezed text is its lines, trimmed and run together. -/
theorem squeezed_eq (text : List Char) :
    squeezed text = (splitOnChar '\n' text).flatMap trimBlanks := by
  obtain ⟨pieces, last, hpieces⟩ : ∃ pieces last, splitOnChar '\n' text = pieces ++ [last] :=
    ⟨_, _, (List.dropLast_concat_getLast (splitOnChar_ne_nil '\n' text)).symm⟩
  have hlines : lines text = pieces.map dropReturn ++ if last.isEmpty then [] else [last] := by
    simp only [lines, hpieces, List.dropLast_concat, List.getLast?_concat, Option.getD_some]
  -- An empty last line is no line, but trimming it would have given nothing either.
  have hlast : ((if last.isEmpty then [] else [last]).map trimBlanks).flatten = trimBlanks last := by
    split
    · next hempty =>
      rw [List.isEmpty_iff.mp hempty]
      rfl
    · simp
  rw [squeezed, hlines, hpieces, List.map_append, List.flatten_append, hlast, List.flatMap_append,
    List.flatMap_singleton, List.map_map, List.flatMap_def]
  congr 2
  exact List.map_congr_left fun line _ => trimBlanks_dropReturn line

/-- **A line feed** is left out, and each side of it is on its own. -/
theorem squeezed_append (before after : List Char) :
    squeezed (before ++ '\n' :: after) = squeezed before ++ squeezed after := by
  rw [squeezed_eq, splitOnChar_append, List.flatMap_append, ← squeezed_eq, ← squeezed_eq]

theorem squeezed_of_not_mem {text : List Char} (h : '\n' ∉ text) :
    squeezed text = trimBlanks text := by
  rw [squeezed_eq, splitOnChar_of_not_mem h, List.flatMap_singleton]

/-- What holds of a line, and of a line with a text behind it that it holds of, holds of all texts. -/
theorem lines_induction {P : List Char → Prop} (line : ∀ text, '\n' ∉ text → P text)
    (more : ∀ before after, '\n' ∉ before → P after → P (before ++ '\n' :: after))
    (text : List Char) : P text := by
  induction hlength : text.length using Nat.strongRecOn generalizing text with
  | ind n ih =>
  by_cases hmem : '\n' ∈ text
  · obtain ⟨before, after, rfl, hbefore⟩ := List.eq_append_cons_of_mem hmem
    refine more before after hbefore (ih after.length ?_ after rfl)
    rw [← hlength, List.length_append, List.length_cons]
    omega
  · exact line text hmem

/-! ### The middle of a text -/

/-- What becomes of the end of a text, behind a line feed, in front of a character that is no
blank. -/
def joinedEnd : List (List Char) → List Char
  | [] => []
  | [line] => trimStart line
  | line :: rest => trimBlanks line ++ joinedEnd rest

/-- **What becomes of a text** between two characters that are no blanks. -/
def joinedLines (text : List Char) : List Char :=
  match splitOnChar '\n' text with
  | [] => []
  | [line] => line
  | line :: rest => trimEnd line ++ joinedEnd rest

theorem joinedEnd_of_not_mem {text : List Char} (h : '\n' ∉ text) :
    joinedEnd (splitOnChar '\n' text) = trimStart text := by
  rw [splitOnChar_of_not_mem h, joinedEnd]

/-- A line between others loses the blanks at both ends. -/
theorem joinedEnd_append {before : List Char} (h : '\n' ∉ before) (after : List Char) :
    joinedEnd (splitOnChar '\n' (before ++ '\n' :: after)) =
      trimBlanks before ++ joinedEnd (splitOnChar '\n' after) := by
  obtain ⟨line, rest, hafter⟩ := List.exists_cons_of_ne_nil (splitOnChar_ne_nil '\n' after)
  rw [splitOnChar_append, splitOnChar_of_not_mem h, hafter]
  rfl

theorem joinedLines_of_not_mem {text : List Char} (h : '\n' ∉ text) : joinedLines text = text := by
  rw [joinedLines, splitOnChar_of_not_mem h]

/-- The first line loses the blanks at its end. -/
theorem joinedLines_append {before : List Char} (h : '\n' ∉ before) (after : List Char) :
    joinedLines (before ++ '\n' :: after) =
      trimEnd before ++ joinedEnd (splitOnChar '\n' after) := by
  obtain ⟨line, rest, hafter⟩ := List.exists_cons_of_ne_nil (splitOnChar_ne_nil '\n' after)
  rw [joinedLines, splitOnChar_append, splitOnChar_of_not_mem h, hafter]
  rfl

/-- Characters are left out, and line feeds are. -/
theorem joinedEnd_sublist (text : List Char) :
    (joinedEnd (splitOnChar '\n' text)).Sublist text ∧
      '\n' ∉ joinedEnd (splitOnChar '\n' text) := by
  induction text using lines_induction with
  | line text h =>
    rw [joinedEnd_of_not_mem h]
    exact ⟨trimStart_sublist text, fun hmem => h ((trimStart_sublist text).mem hmem)⟩
  | more before after h ih =>
    rw [joinedEnd_append h, List.mem_append, not_or]
    exact ⟨(trimBlanks_sublist before).append (ih.1.trans (List.sublist_cons_self _ _)),
      fun hmem => h ((trimBlanks_sublist before).mem hmem), ih.2⟩

/-- Joining only drops, line feeds among the rest. -/
theorem joinedLines_sublist (text : List Char) :
    (joinedLines text).Sublist text ∧ '\n' ∉ joinedLines text := by
  induction text using lines_induction with
  | line text h =>
    rw [joinedLines_of_not_mem h]
    exact ⟨List.Sublist.refl _, h⟩
  | more before after h _ =>
    have hafter := joinedEnd_sublist after
    rw [joinedLines_append h, List.mem_append, not_or]
    exact ⟨(trimEnd_sublist before).append (hafter.1.trans (List.sublist_cons_self _ _)),
      fun hmem => h ((trimEnd_sublist before).mem hmem), hafter.2⟩

/-! ### Escapes -/

/-- **An escape that keeps blanks** as they are, and adds none. -/
structure KeepsBlanks (escape : Char → List Char) : Prop where
  blank : ∀ {c}, isBlank c = true → escape c = [c]
  other : ∀ {c}, isBlank c = false → escape c ≠ [] ∧ ∀ d ∈ escape c, isBlank d = false

namespace KeepsBlanks

variable {escape : Char → List Char}

/-- Trimming in front commutes with an escape that keeps blanks. -/
theorem trimStart_flatMap (h : KeepsBlanks escape) (text : List Char) :
    trimStart (text.flatMap escape) = (trimStart text).flatMap escape := by
  induction text with
  | nil => rfl
  | cons c text ih =>
    cases hc : isBlank c with
    | true =>
      have hdrop : trimStart (c :: text) = trimStart text :=
        trimStart_append_of_blank (List.forall_mem_singleton.mpr hc) text
      rw [List.flatMap_cons, h.blank hc, hdrop, ← ih]
      exact trimStart_append_of_blank (List.forall_mem_singleton.mpr hc) _
    | false =>
      -- What is no blank is escaped to at least one character, and to no blank.
      obtain ⟨hne, hall⟩ := h.other hc
      obtain ⟨d, more, hsplit⟩ := List.exists_cons_of_ne_nil hne
      have hd : isBlank d = false := hall d (hsplit ▸ List.mem_cons_self)
      rw [trimStart_cons_of_ne hc, List.flatMap_cons, hsplit, List.cons_append,
        trimStart_cons_of_ne hd]

/-- Read backwards, it is such an escape too. -/
theorem reverse (h : KeepsBlanks escape) : KeepsBlanks fun c => (escape c).reverse where
  blank hc := by rw [h.blank hc, List.reverse_singleton]
  other hc := by simpa using h.other hc

/-- So does trimming at the end. -/
theorem trimEnd_flatMap (h : KeepsBlanks escape) (text : List Char) :
    trimEnd (text.flatMap escape) = (trimEnd text).flatMap escape := by
  calc trimEnd (text.flatMap escape)
    _ = (trimStart (text.reverse.flatMap fun c => (escape c).reverse)).reverse := by
        rw [trimEnd_eq, List.reverse_flatMap]
        rfl
    _ = ((trimStart text.reverse).flatMap fun c => (escape c).reverse).reverse := by
        rw [h.reverse.trimStart_flatMap]
    _ = (trimEnd text).flatMap escape := by
        rw [trimEnd_eq, List.flatMap_reverse]
        rfl

theorem trimBlanks_flatMap (h : KeepsBlanks escape) (text : List Char) :
    trimBlanks (text.flatMap escape) = (trimBlanks text).flatMap escape := by
  rw [trimBlanks, h.trimStart_flatMap, h.trimEnd_flatMap, trimBlanks]

/-- An escape that keeps blanks writes no line feed of its own. -/
theorem not_mem_flatMap (h : KeepsBlanks escape) {text : List Char} (hmem : '\n' ∉ text) :
    '\n' ∉ text.flatMap escape := by
  rw [List.mem_flatMap]
  rintro ⟨c, hc, hfeed⟩
  cases hblank : isBlank c with
  | true =>
    rw [h.blank hblank] at hfeed
    exact hmem (List.mem_singleton.mp hfeed ▸ hc)
  | false => exact absurd ((h.other hblank).2 _ hfeed) (by decide)

/-- Such an escape keeps the lines apart. -/
theorem flatMap_append_feed (h : KeepsBlanks escape) (before after : List Char) :
    (before ++ '\n' :: after).flatMap escape =
      before.flatMap escape ++ '\n' :: after.flatMap escape := by
  rw [List.flatMap_append, List.flatMap_cons, h.blank (by decide), List.singleton_append]

section Squeezed

variable (h : KeepsBlanks escape) {c d : Char} (hc : isBlank c = false) (hd : isBlank d = false)
  {tail : List Char} (htail : '\n' ∉ c :: (tail ++ [d]))
include h hc hd htail

/-- The end of a text, with what is behind it on its last line. -/
theorem squeezed_end (text : List Char) :
    squeezed (text.flatMap escape ++ c :: (tail ++ [d])) =
      (joinedEnd (splitOnChar '\n' text)).flatMap escape ++ c :: (tail ++ [d]) := by
  induction text using lines_induction with
  | line text hline =>
    have hfeed : '\n' ∉ text.flatMap escape ++ c :: (tail ++ [d]) := by
      rw [List.mem_append, not_or]
      exact ⟨h.not_mem_flatMap hline, htail⟩
    rw [squeezed_of_not_mem hfeed, joinedEnd_of_not_mem hline, trimBlanks,
      trimStart_append_cons hc, h.trimStart_flatMap, trimEnd_append_cons hc, trimEnd_concat hd]
  | more before after hbefore ih =>
    -- The first line is trimmed on its own; the induction hypothesis is about what follows.
    rw [h.flatMap_append_feed, List.append_assoc, List.cons_append, squeezed_append, ih,
      squeezed_of_not_mem (h.not_mem_flatMap hbefore), h.trimBlanks_flatMap,
      joinedEnd_append hbefore, List.flatMap_append, List.append_assoc]

/-- **A text in the middle of a line,** behind a character that is no blank and in front of
another one. -/
theorem squeezed_middle {space front : List Char} {a b : Char}
    (hspace : ∀ e ∈ space, isBlank e = true) (ha : isBlank a = false) (hb : isBlank b = false)
    (hfront : '\n' ∉ space ++ a :: (front ++ [b])) (text : List Char) :
    squeezed (space ++ a :: (front ++ b :: (text.flatMap escape ++ c :: (tail ++ [d])))) =
      a :: (front ++ b :: ((joinedLines text).flatMap escape ++ c :: (tail ++ [d]))) := by
  -- The line that the text begins on.
  have hline : ∀ line, '\n' ∉ line →
      squeezed (space ++ a :: (front ++ b :: line)) = a :: (front ++ b :: trimEnd line) := by
    intro line hfeed
    have hnone : '\n' ∉ space ++ a :: (front ++ b :: line) := by
      simp only [List.mem_append, List.mem_cons, List.not_mem_nil, or_false, not_or] at hfront ⊢
      exact ⟨hfront.1, hfront.2.1, hfront.2.2.1, hfront.2.2.2, hfeed⟩
    rw [squeezed_of_not_mem hnone, trimBlanks, trimStart_append_of_blank hspace,
      trimStart_cons_of_ne ha, ← List.cons_append, trimEnd_append_cons hb, List.cons_append]
  by_cases hmem : '\n' ∈ text
  · obtain ⟨before, after, rfl, hbefore⟩ := List.eq_append_cons_of_mem hmem
    have hsplit : space ++ a :: (front ++ b :: ((before ++ '\n' :: after).flatMap escape ++
        c :: (tail ++ [d]))) = (space ++ a :: (front ++ b :: before.flatMap escape)) ++
          '\n' :: (after.flatMap escape ++ c :: (tail ++ [d])) := by
      simp [h.flatMap_append_feed]
    rw [hsplit, squeezed_append, hline _ (h.not_mem_flatMap hbefore), h.trimEnd_flatMap,
      h.squeezed_end hc hd htail, joinedLines_append hbefore]
    simp
  · have hfeed : '\n' ∉ text.flatMap escape ++ c :: (tail ++ [d]) := by
      rw [List.mem_append, not_or]
      exact ⟨h.not_mem_flatMap hmem, htail⟩
    rw [hline _ hfeed, trimEnd_append_cons hc, trimEnd_concat hd, joinedLines_of_not_mem hmem]

end Squeezed

end KeepsBlanks

end DesignCompiler
