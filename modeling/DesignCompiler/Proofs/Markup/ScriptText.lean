import DesignCompiler.Markup.Print
import DesignCompiler.Proofs.Markup.ScriptReader
import DesignCompiler.Proofs.Related
import DesignCompiler.Proofs.Text.Reader
import DesignCompiler.Proofs.Text.Split
import Mathlib.Algebra.Order.BigOperators.Group.List
import Mathlib.Tactic.IntervalCases
/-!
# What texts in a script mean

A text of an element and a value of an attribute are each written in one of two notations: as a
string in braces, or as they are. The first one is always read back
(`ScriptReader.container_inBraces`). The second one is read by its rules, which may change it: the
characters that choose the notation are not all of those that the rules have a meaning for.

No step of reading a plain text makes it longer. A reference makes it shorter
(`ScriptRules.length_decoded_lt`), and no end of a line survives
(`ScriptRules.not_isLineEnd_onOneLine`), so a plain text is read as itself exactly if it has neither
(`ScriptRules.plain_eq_self_iff`). From this it follows for which texts the notation is the right one
(`ScriptRules.means_written`).
-/

namespace DesignCompiler

/-! ### Strings -/

namespace ScriptReader

open TextReader JsonReader

/-- The control characters that are escaped by their code. -/
theorem stringChar_code {n : Nat} (h : n < 32) (rest : List Char) :
    stringChar '"' (['\\', 'u', '0', '0'] ++ hexPair n ++ rest) = some ([Char.ofNat n], rest) := by
  interval_cases n <;> rfl

/-- **An escaped character is read back,** whatever comes behind it. -/
theorem stringChar_escape (c : Char) (rest : List Char) :
    stringChar '"' (scriptEscape c ++ rest) = some ([c], rest) := by
  have hcode : ∀ {n : Nat}, c.toNat = n → c = Char.ofNat n := by
    rintro _ rfl
    exact (Char.ofNat_toNat c).symm
  unfold scriptEscape
  split
  · next h =>
    rw [beq_iff_eq.mp h]
    rfl
  next hquote =>
  split
  · next h =>
    rw [beq_iff_eq.mp h]
    rfl
  next hbackslash =>
  -- The letters first, then what has no letter.
  iterate 5
    split
    · next h =>
      rw [hcode h]
      rfl
  split
  · next h =>
    rw [stringChar_code h, Char.ofNat_toNat]
  · next h =>
    have hplain : (c != '"' && c != '\\' && c != '\n' && c != '\r') = true := by
      have hcontrol : ∀ d : Char, d.toNat < 32 → c ≠ d := by
        rintro d hd rfl
        exact h hd
      simp only [bne_iff_ne, Bool.and_eq_true]
      exact ⟨⟨⟨fun hc => hquote (beq_iff_eq.mpr hc), fun hc => hbackslash (beq_iff_eq.mpr hc)⟩,
        hcontrol _ (by decide)⟩, hcontrol _ (by decide)⟩
    exact orElse_of_eq (map_of_eq (char_of_pos hplain rest))

/-- **A string is read back** from its quoted form. -/
theorem stringText_quoted (text : String) (rest : List Char) :
    stringText ((scriptQuoted text).toList ++ rest) = some (text.toList, rest) := by
  -- Each character is read back from its escape, up to the quote at the end.
  have hchars : many (stringChar '"') (text.toList.flatMap scriptEscape ++ '"' :: rest) =
      some (text.toList.map List.singleton, '"' :: rest) := by
    refine many_flatMap (fun c _ more => stringChar_escape c more) (fun c _ => ?_) rfl
    intro hnil
    have hread := stringChar_escape c []
    rw [hnil] at hread
    cases hread
  have hwritten : (scriptQuoted text).toList ++ rest =
      '"' :: (text.toList.flatMap scriptEscape ++ '"' :: rest) := by
    simp [scriptQuoted, inQuotes]
  have hflatten : (text.toList.map List.singleton).flatten = text.toList := by
    induction text.toList with
    | nil => rfl
    | cons c cs ih =>
      rw [List.map_cons, List.flatten_cons, ih]
      rfl
  refine orElse_of_eq ?_
  rw [hwritten, stringIn, bind_of_eq (char_of_pos (by decide) _), bind_of_eq hchars,
    bind_of_eq (char_of_pos (by decide) _), hflatten]
  rfl

/-- **A string in braces is read back.** -/
theorem container_inBraces (text : String) (rest : List Char) :
    container ((inBraces (scriptQuoted text)).toList ++ rest) = some (text.toList, rest) := by
  have hwritten : (inBraces (scriptQuoted text)).toList ++ rest =
      "\x7b".toList ++ ((scriptQuoted text).toList ++ '\x7d' :: rest) := by
    simp [inBraces]
  -- There is no spacing in front of the quote, and none behind it.
  have hbegin : ∃ more, (scriptQuoted text).toList ++ '\x7d' :: rest = '"' :: more :=
    ⟨_, by simp [scriptQuoted, inQuotes]; rfl⟩
  have hspacing : spacing ((scriptQuoted text).toList ++ '\x7d' :: rest) =
      some ((), (scriptQuoted text).toList ++ '\x7d' :: rest) := by
    obtain ⟨more, hmore⟩ := hbegin
    rw [hmore]
    rfl
  rw [hwritten, container, bind_of_eq (word_append "\x7b" _), bind_of_eq hspacing,
    bind_of_eq (stringText_quoted text _)]
  rfl

end ScriptReader

/-! ### References -/

namespace ScriptRules

variable {r : ScriptRules} {text : List Char}

/-- **A text with a reference in it.** -/
def HasReference (r : ScriptRules) (text : List Char) : Prop :=
  ∃ before body after, text = before ++ '&' :: (body ++ ';' :: after) ∧
    (r.reference? body).isSome = true

/-- What ends a reference or begins another one is in none. -/
theorem not_mem_of_reference? {body : List Char} {c : Char}
    (hdigits : JsonReader.isHexDigit c = false ∧ isDecimalDigit c = false)
    (hname : isReferenceChar c = false) (hhash : c ≠ '#')
    (h : (r.reference? body).isSome = true) : c ∉ body := by
  have hall : ∀ {p : Char → Bool} {cs : List Char}, p c = false → cs.all p = true → c ∉ cs := by
    intro p cs hp hcs hmem
    rw [List.all_eq_true.mp hcs c hmem] at hp
    cases hp
  have hx : c ≠ 'x' := by
    rintro rfl
    exact absurd hname (by decide)
  -- A reference is a number in one of two systems, or a name.
  unfold reference? at h
  split at h
  · next digits =>
    split at h
    · next hdigit =>
      rw [Bool.and_eq_true] at hdigit
      simp [hhash, hx, hall hdigits.1 hdigit.2]
    · cases h
  · next digits _ =>
    split at h
    · next hdigit =>
      rw [Bool.and_eq_true] at hdigit
      simp [hhash, hall hdigits.2 hdigit.2]
    · cases h
  · split at h
    · next hchars => exact hall hname hchars
    · cases h

/-- A reference goes up to its semicolon. -/
theorem takeReference?_append {body : List Char} (h : ';' ∉ body) (rest : List Char) :
    r.takeReference? (body ++ ';' :: rest) = (r.reference? body).map fun c => (c, rest) := by
  have hbody : ∀ c ∈ body, (c != ';') = true := by
    intro c hc
    rw [bne_iff_ne]
    rintro rfl
    exact h hc
  rw [takeReference?, List.takeWhile_append_of_pos hbody, List.dropWhile_append_of_pos hbody]
  simp

/-- What is taken for a reference is its body and a semicolon. -/
theorem exists_of_takeReference? {piece rest : List Char} {c : Char}
    (h : r.takeReference? piece = some (c, rest)) :
    ∃ body, piece = body ++ ';' :: rest ∧ r.reference? body = some c := by
  have hpiece := List.takeWhile_append_dropWhile (p := (· != ';')) (l := piece)
  have hhead := List.head?_dropWhile_not (· != ';') piece
  -- The body is all that stands in front of the first semicolon, so there has to be one.
  unfold takeReference? at h
  split at h
  · cases h
  · next d more hdrop =>
    rw [hdrop] at hpiece hhead
    obtain ⟨e, he, hmap⟩ := Option.map_eq_some_iff.mp h
    cases hmap
    obtain rfl : d = ';' := by simpa using hhead
    exact ⟨_, hpiece.symm, he⟩

/-- **References are at the beginning of pieces** between ampersands. -/
theorem hasReference_iff {first : List Char} {pieces : List (List Char)}
    (h : splitOnChar '&' text = first :: pieces) :
    r.HasReference text ↔ ∃ piece ∈ pieces, (r.takeReference? piece).isSome = true := by
  constructor
  · rintro ⟨before, body, after, rfl, hbody⟩
    have hamp := not_mem_of_reference? (c := '&') (by decide) (by decide) (by decide) hbody
    have hend := not_mem_of_reference? (c := ';') (by decide) (by decide) (by decide) hbody
    -- The piece with the reference begins behind the ampersand, and ends somewhere later.
    obtain ⟨next, others, hafter⟩ := List.exists_cons_of_ne_nil (splitOnChar_ne_nil '&' after)
    have hrest : splitOnChar '&' ([';'] ++ after) = ([';'] ++ next) :: others :=
      splitOnChar_append_of_not_mem (by decide) hafter
    have hpiece : splitOnChar '&' (body ++ ';' :: after) = (body ++ ';' :: next) :: others :=
      splitOnChar_append_of_not_mem hamp hrest
    rw [splitOnChar_append, hpiece] at h
    obtain ⟨front, fronts, hbefore⟩ := List.exists_cons_of_ne_nil (splitOnChar_ne_nil '&' before)
    rw [hbefore, List.cons_append, List.cons.injEq] at h
    refine ⟨body ++ ';' :: next, ?_, ?_⟩
    · rw [← h.2]
      simp
    · rw [takeReference?_append hend, Option.isSome_map]
      exact hbody
  · rintro ⟨piece, hpiece, hsome⟩
    obtain ⟨⟨c, rest⟩, hc⟩ := Option.isSome_iff_exists.mp hsome
    obtain ⟨body, rfl, hbody⟩ := exists_of_takeReference? hc
    obtain ⟨before, after, rfl⟩ := (exists_of_splitOnChar h).2 _ hpiece
    refine ⟨before, body, rest ++ after, by simp, ?_⟩
    rw [hbody]
    rfl

/-- A reference is longer than its character. -/
theorem length_decodedPiece_lt {piece : List Char}
    (h : (r.takeReference? piece).isSome = true) :
    (r.decodedPiece piece).length < ('&' :: piece).length := by
  obtain ⟨⟨c, rest⟩, hc⟩ := Option.isSome_iff_exists.mp h
  obtain ⟨body, rfl, -⟩ := exists_of_takeReference? hc
  simp only [decodedPiece, hc, List.length_cons, List.length_append]
  omega

/-- Where no reference is, the ampersand stands for itself. -/
theorem decodedPiece_of_none {piece : List Char} (h : ¬(r.takeReference? piece).isSome = true) :
    r.decodedPiece piece = '&' :: piece := by
  rw [decodedPiece, Option.not_isSome_iff_eq_none.mp h]

/-- Decoding makes nothing longer. -/
theorem length_decodedPiece_le (piece : List Char) :
    (r.decodedPiece piece).length ≤ ('&' :: piece).length := by
  by_cases h : (r.takeReference? piece).isSome = true
  · exact (length_decodedPiece_lt h).le
  · rw [decodedPiece_of_none h]

/-- Decoding makes nothing longer. -/
theorem length_decoded_le (text : List Char) : (r.decoded text).length ≤ text.length := by
  obtain ⟨first, pieces, h⟩ := List.exists_cons_of_ne_nil (splitOnChar_ne_nil '&' text)
  rw [decoded, h, eq_of_splitOnChar h]
  simp only [List.length_append, List.length_flatMap]
  exact Nat.add_le_add_left (List.sum_le_sum fun piece _ => length_decodedPiece_le piece) _

/-- **Decoding makes a text with a reference shorter.** -/
theorem length_decoded_lt (href : r.HasReference text) :
    (r.decoded text).length < text.length := by
  obtain ⟨first, pieces, h⟩ := List.exists_cons_of_ne_nil (splitOnChar_ne_nil '&' text)
  obtain ⟨piece, hpiece, hsome⟩ := (hasReference_iff h).mp href
  rw [decoded, h, eq_of_splitOnChar h]
  simp only [List.length_append, List.length_flatMap]
  exact Nat.add_lt_add_left (List.sum_lt_sum _ _ (fun piece _ => length_decodedPiece_le piece)
    ⟨piece, hpiece, length_decodedPiece_lt hsome⟩) _

/-- **Decoding leaves the texts without a reference,** and no others. -/
theorem decoded_eq_self_iff : r.decoded text = text ↔ ¬r.HasReference text := by
  constructor
  · -- A reference would make it shorter, which the text itself is not.
    intro h href
    have hshorter := length_decoded_lt href
    rw [h] at hshorter
    exact lt_irrefl _ hshorter
  · intro hnone
    obtain ⟨first, pieces, h⟩ := List.exists_cons_of_ne_nil (splitOnChar_ne_nil '&' text)
    rw [hasReference_iff h] at hnone
    conv_rhs => rw [eq_of_splitOnChar h]
    rw [decoded, h]
    exact congrArg _ (List.flatMap_congr fun piece hpiece =>
      decodedPiece_of_none fun hsome => hnone ⟨piece, hpiece, hsome⟩)

/-! ### Lines -/

/-- The lengths of some texts, with one more for what stands behind each. -/
def weight (lines : List (List Char)) : Nat := (lines.map (·.length + 1)).sum

@[simp] theorem weight_nil : weight [] = 0 := rfl

@[simp] theorem weight_cons (line : List Char) (lines : List (List Char)) :
    weight (line :: lines) = line.length + 1 + weight lines := by
  simp [weight]

/-- Lines are as long as their text, with the ends of lines. -/
theorem weight_splitOnP (p : Char → Bool) (text : List Char) :
    weight (text.splitOnP p) = text.length + 1 := by
  -- A character either ends an empty line in front of the others or joins the first of them.
  induction text with
  | nil => simp
  | cons c rest ih =>
    rw [List.splitOnP_cons_eq_if_modifyHead]
    split
    · rw [weight_cons, ih, List.length_cons, List.length_nil]
      omega
    · obtain ⟨first, others, hrest⟩ := List.exists_cons_of_ne_nil (List.splitOnP_ne_nil p rest)
      rw [hrest] at ih ⊢
      rw [weight_cons] at ih
      rw [List.modifyHead_cons, weight_cons, List.length_cons, List.length_cons]
      omega

/-- No line has a character in it that lines are split at. -/
theorem not_mem_of_mem_splitOnP {p : Char → Bool} {line : List Char} {c : Char}
    (hline : line ∈ text.splitOnP p) (hc : c ∈ line) : p c = false := by
  -- A character goes to the first line, unless it ends that.
  induction text generalizing line with
  | nil =>
    rw [List.splitOnP_nil, List.mem_singleton] at hline
    rw [hline] at hc
    exact absurd hc List.not_mem_nil
  | cons d rest ih =>
    obtain ⟨first, others, hrest⟩ := List.exists_cons_of_ne_nil (List.splitOnP_ne_nil p rest)
    rw [List.splitOnP_cons_eq_if_modifyHead, hrest] at hline
    rw [hrest] at ih
    split at hline
    · rcases List.mem_cons.mp hline with rfl | hline
      · exact absurd hc List.not_mem_nil
      · exact ih hline hc
    · next hd =>
      rcases List.mem_cons.mp hline with rfl | hline
      · rcases List.mem_cons.mp hc with rfl | hc
        · simpa using hd
        · exact ih List.mem_cons_self hc
      · exact ih (List.mem_cons_of_mem _ hline) hc

/-- Joined lines are as long as they weigh, but for the end of the last one. -/
theorem length_intercalate (separator : Char) {lines : List (List Char)} (h : lines ≠ []) :
    ([separator].intercalate lines).length + 1 = weight lines := by
  induction lines with
  | nil => exact absurd rfl h
  | cons line rest ih =>
    cases rest with
    | nil => simp
    | cons next others =>
      have hrest := ih (List.cons_ne_nil _ _)
      rw [List.intercalate_cons_cons, weight_cons, ← hrest]
      simp
      omega

/-- What is in joined lines is in a line, or joins them. -/
theorem mem_intercalate {separator c : Char} {lines : List (List Char)}
    (h : c ∈ [separator].intercalate lines) : c = separator ∨ ∃ line ∈ lines, c ∈ line := by
  induction lines with
  | nil => exact absurd h List.not_mem_nil
  | cons line rest ih =>
    -- The separator stands behind a line if there is another one.
    cases rest with
    | nil =>
      rw [List.intercalate_singleton] at h
      exact Or.inr ⟨line, List.mem_cons_self, h⟩
    | cons next others =>
      rw [List.intercalate_cons_cons, List.append_assoc, List.mem_append, List.mem_append,
        List.mem_singleton] at h
      rcases h with h | h | h
      · exact Or.inr ⟨line, List.mem_cons_self, h⟩
      · exact Or.inl h
      · refine (ih h).imp_right ?_
        rintro ⟨other, hother, hc⟩
        exact ⟨other, List.mem_cons_of_mem _ hother, hc⟩

/-- Trimmed lines are sublists of the lines, one for one. -/
theorem forall₂_trimmedLines (r : ScriptRules) (lines : List (List Char)) :
    List.Forall₂ List.Sublist (r.trimmedLines lines) lines := by
  induction lines with
  | nil => exact .nil
  | cons line rest ih =>
    have hstart : (line.dropWhile r.isSpace).Sublist line := List.dropWhile_sublist _
    cases rest with
    | nil => exact .cons hstart .nil
    | cons next others =>
      exact .cons ((List.rdropWhile_prefix _ _).sublist.trans hstart) ih

/-- Leaving lines out leaves a part of them. -/
theorem sublistForall₂_filter {lines lines' : List (List Char)} (p : List Char → Bool)
    (h : List.Forall₂ List.Sublist lines lines') :
    List.SublistForall₂ List.Sublist (lines.filter p) lines' := by
  induction h with
  | nil => exact .nil
  | cons hline _ ih =>
    rw [List.filter_cons]
    split
    · exact .cons hline ih
    · exact .cons_right ih

/-- **The lines that are kept are lines of the text,** some of them and cut shorter. -/
theorem sublistForall₂_keptLines (r : ScriptRules) (text : List Char) :
    -- Without a line there is nothing; a single line is kept; of several, all are trimmed and the
    -- empty ones left out.
    List.SublistForall₂ List.Sublist (r.keptLines text) (text.splitOnP isLineEnd) := by
  unfold keptLines
  split
  · next h =>
    rw [h]
    exact .nil
  · next line h =>
    rw [h]
    exact .cons (List.Sublist.refl _) .nil
  · next first rest _ h =>
    rw [h]
    exact sublistForall₂_filter _
      (.cons (List.rdropWhile_prefix _ _).sublist (forall₂_trimmedLines r rest))

/-- A part of some lines weighs no more than they do. -/
theorem weight_le_of_sublistForall₂ {lines lines' : List (List Char)}
    (h : List.SublistForall₂ List.Sublist lines lines') : weight lines ≤ weight lines' := by
  induction h with
  | nil => exact Nat.zero_le _
  | cons hline _ ih =>
    have hlength := hline.length_le
    rw [weight_cons, weight_cons]
    omega
  | cons_right _ ih =>
    rw [weight_cons]
    omega

/-- **Joining the lines makes nothing longer.** -/
theorem length_onOneLine_le (r : ScriptRules) (text : List Char) :
    (r.onOneLine text).length ≤ text.length := by
  have hweight := weight_le_of_sublistForall₂ (sublistForall₂_keptLines r text)
  rw [weight_splitOnP] at hweight
  by_cases hnil : r.keptLines text = []
  · rw [onOneLine, hnil]
    exact Nat.zero_le _
  · have hlength := length_intercalate ' ' hnil
    rw [onOneLine]
    omega

/-- No line ends in what has been put on one line. -/
theorem not_isLineEnd_onOneLine {c : Char} (h : c ∈ r.onOneLine text) : isLineEnd c = false := by
  rcases mem_intercalate h with rfl | ⟨line, hline, hc⟩
  · decide
  · obtain ⟨lines, hlines, hsub⟩ := List.sublistForall₂_iff.mp (sublistForall₂_keptLines r text)
    obtain ⟨whole, hwhole, hcut⟩ := exists_mem_of_forall₂ hlines hline
    exact not_mem_of_mem_splitOnP (hsub.subset hwhole) (hcut.subset hc)

/-- A text on one line stays as it is. -/
theorem onOneLine_of_no_line_end (h : ∀ c ∈ text, isLineEnd c = false) :
    r.onOneLine text = text := by
  rw [onOneLine, keptLines, List.splitOnP_eq_singleton h]
  exact List.intercalate_singleton ..

/-- **A plain text is read as it is written** if and only if no reference and no end of a line is in
it. -/
theorem plain_eq_self_iff : r.decoded (r.onOneLine text) = text ↔
    ¬r.HasReference text ∧ ∀ c ∈ text, isLineEnd c = false := by
  constructor
  · intro h
    -- Nothing gets longer on the way, so both steps leave the text as it is.
    have hdecoded := length_decoded_le (r := r) (r.onOneLine text)
    have hline := length_onOneLine_le r text
    have hlength : (r.decoded (r.onOneLine text)).length = text.length := congrArg _ h
    have hnone : ¬r.HasReference (r.onOneLine text) := by
      intro href
      have hshorter := length_decoded_lt href
      omega
    have hsame : r.onOneLine text = text := (decoded_eq_self_iff.mpr hnone).symm.trans h
    refine ⟨hsame ▸ hnone, fun c hc => ?_⟩
    rw [← hsame] at hc
    exact not_isLineEnd_onOneLine hc
  · rintro ⟨hnone, hlines⟩
    rw [onOneLine_of_no_line_end hlines, decoded_eq_self_iff]
    exact hnone

/-! ### Written texts and values -/

open TextReader

/-- A plain text begins no expression. -/
theorem container_of_isPlainChar {c : Char} (h : isPlainChar c = true) (rest : List Char) :
    ScriptReader.container (c :: rest) = none := by
  have hbrace : ¬"\x7b".toList.isPrefixOf (c :: rest) = true := by
    intro hprefix
    obtain ⟨more, hmore⟩ := List.isPrefixOf_iff_prefix.mp hprefix
    obtain rfl : '\x7b' = c := by simpa using congrArg List.head? hmore
    exact absurd h (by decide)
  refine bind_of_none ?_
  rw [word, if_neg hbrace]

/-- **A quoted text in braces is read as the text,** under all rules. -/
theorem contentOf?_inBraces (r : ScriptRules) (text : String) :
    r.contentOf? (inBraces (scriptQuoted text)) = some text := by
  have hread := ScriptReader.container_inBraces text []
  rw [List.append_nil] at hread
  have hcontent : r.content (inBraces (scriptQuoted text)).toList = some (text.toList, []) := by
    rw [content, bind_of_eq (many_of_eq (orElse_of_eq hread) rfl)]
    simp
    rfl
  rw [contentOf?, readAll?_eq_some_iff.mpr hcontent, Option.map_some, String.ofList_toList]

/-- **A plain text is read by the rules,** as a whole. -/
theorem contentOf?_plain {text : String} (h : ∀ c ∈ text.toList, isPlainChar c = true) :
    r.contentOf? text = some (String.ofList (r.decoded (r.onOneLine text.toList))) := by
  have hcontent : r.content text.toList = some (r.decoded (r.onOneLine text.toList), []) := by
    cases htext : text.toList with
    | nil => rfl
    | cons c rest =>
      rw [htext] at h
      have hplain : r.plainText (c :: rest) = some (r.decoded (r.onOneLine (c :: rest)), []) := by
        rw [plainText, bind_of_eq (run1_of_forall h)]
        rfl
      -- Plain characters do not open braces, so the text is read as one piece.
      have hbrace := container_of_isPlainChar (h c List.mem_cons_self) rest
      rw [content, bind_of_eq (many_of_eq ((orElse_of_none hbrace).trans hplain) rfl)]
      simp
      rfl
  rw [contentOf?, readAll?_eq_some_iff.mpr hcontent, Option.map_some]

/-- What does not break a text is plain. -/
theorem isPlainChar_of_not_breaks {c : Char} (h : ¬breaksScriptText c = true) :
    isPlainChar c = true := by
  simp only [breaksScriptText, Bool.or_eq_true, beq_iff_eq, not_or] at h
  obtain ⟨⟨⟨⟨hopen, hclose⟩, hless⟩, hgreater⟩, -⟩ := h
  have hcontains : "\x7b\x7d<>".toList.contains c = false := by
    simp [hopen, hclose, hless, hgreater]
  rw [isPlainChar, hcontains]
  rfl

/-- What is behind the name of an attribute decides its value. -/
theorem valueOf?_append {name written text : String}
    (h : (ScriptReader.container <|> r.quotedValue) written.toList = some (text.toList, [])) :
    r.valueOf? name (name ++ "=" ++ written) = some text := by
  have hread : r.attributeOf name (name ++ "=" ++ written).toList = some (text.toList, []) := by
    have hwritten : (name ++ "=" ++ written).toList =
        name.toList ++ ("=".toList ++ written.toList) := by
      simp
    rw [hwritten, attributeOf, bind_of_eq (word_append name _), bind_of_eq (word_append "=" _)]
    exact h
  rw [valueOf?, readAll?_eq_some_iff.mpr hread, Option.map_some, String.ofList_toList]

/-- So is a value in braces. -/
theorem valueOf?_inBraces (r : ScriptRules) (name text : String) :
    r.valueOf? name (name ++ "=" ++ inBraces (scriptQuoted text)) = some text := by
  have hread := ScriptReader.container_inBraces text []
  rw [List.append_nil] at hread
  exact valueOf?_append (orElse_of_eq hread)

/-- A value between quotes is read by its references. -/
theorem valueOf?_inQuotes (name : String) {text : String} (h : '"' ∉ text.toList) :
    r.valueOf? name (name ++ "=" ++ inQuotes text) =
      some (String.ofList (r.decoded text.toList)) := by
  refine valueOf?_append ?_
  have hwritten : (inQuotes text).toList = "\"".toList ++ (text.toList ++ "\"".toList) := by
    simp [inQuotes]
  have htext : ∀ c ∈ text.toList, (c != '"') = true := by
    intro c hc
    rw [bne_iff_ne]
    rintro rfl
    exact h hc
  have hrun : run (· != '"') (text.toList ++ "\"".toList) = some (text.toList, "\"".toList) :=
    run_append htext (by simp)
  -- The value goes up to the second quote, and is decoded as it stands.
  have hquoted : r.quotedValue (inQuotes text).toList = some (r.decoded text.toList, []) := by
    rw [hwritten, quotedValue, bind_of_eq (word_append "\"" _), bind_of_eq hrun]
    rfl
  rw [String.toList_ofList]
  refine (orElse_of_none ?_).trans hquoted
  rw [hwritten]
  rfl

/-! ### The law -/

/-- **What the texts of a script mean:** the text of an element and the value of an attribute, each
by what has been written for it. -/
structure Means (r : ScriptRules) (language : Language) (name text : String) : Prop where
  /-- An element has a text, and it is the one that was given if that is put in braces, or if
  nothing in it is read as anything else. -/
  content : ∃ found, r.contentOf? (writeText language text) = some found ∧
    (found = text ↔ text.toList.any breaksScriptText = true ∨
      ¬r.HasReference text.toList ∧ ∀ c ∈ text.toList, isLineEnd c = false)
  value : ∃ found, r.valueOf? name ((Attribute.ofText name text).write language) = some found ∧
    (found = text ↔ '"' ∈ text.toList ∨ ¬r.HasReference text.toList)

/-- **A text means itself** in a script, and so does a value, if and only if it is put in braces or
is free of what plain texts are read by: references, and in a text the ends of lines. -/
theorem means_written {language : Language} (h : language.isScript = true) (r : ScriptRules)
    (name text : String) : r.Means language name text where
  content := by
    rw [writeText, if_pos h]
    by_cases hbreaks : text.toList.any breaksScriptText = true
    · rw [if_pos hbreaks]
      exact ⟨text, r.contentOf?_inBraces text, iff_of_true rfl (Or.inl hbreaks)⟩
    · -- Otherwise it is written as it is, and nothing in it begins a tag or an expression.
      rw [if_neg hbreaks]
      have hplain : ∀ c ∈ text.toList, isPlainChar c = true := fun c hc =>
        isPlainChar_of_not_breaks fun hbreak => hbreaks (List.any_eq_true.mpr ⟨c, hc, hbreak⟩)
      refine ⟨_, contentOf?_plain hplain, ?_⟩
      rw [← String.toList_inj, String.toList_ofList, plain_eq_self_iff]
      simp only [hbreaks, Bool.false_eq_true, false_or]
  value := by
    show ∃ found, r.valueOf? name (name ++ "=" ++ _) = some found ∧ _
    rw [Attribute.ofText]
    dsimp only
    rw [if_pos h]
    by_cases hquote : '"' ∈ text.toList
    · rw [if_pos (List.contains_iff_mem.mpr hquote)]
      exact ⟨text, r.valueOf?_inBraces name text, iff_of_true rfl (Or.inl hquote)⟩
    · -- Without a quote the value ends where it should, so only references are left to it.
      rw [if_neg fun hcontains => hquote (List.contains_iff_mem.mp hcontains)]
      refine ⟨_, valueOf?_inQuotes name hquote, ?_⟩
      rw [← String.toList_inj, String.toList_ofList, decoded_eq_self_iff]
      simp only [hquote, false_or]

/-- A text with brackets and a value with a quote. -/
theorem means_comparison :
    Language.tsx.isScript = true ∧ basic.Means .tsx "alt" "a < \"b\" &amp; c" :=
  ⟨rfl, means_written rfl basic "alt" "a < \"b\" &amp; c"⟩

/-- **A reference that was meant as a text is decoded,** and the end of a line that is not a line feed
becomes a space. -/
theorem reference_decoded :
    basic.contentOf? (writeText .tsx "a &amp; b") = some "a & b" ∧
    basic.valueOf? "alt" ((Attribute.ofText "alt" "a &amp; b").write .tsx) = some "a & b" ∧
    basic.contentOf? (writeText .tsx "a\rb") = some "a b" := by
  refine ⟨?_, ?_, ?_⟩ <;> decide +kernel

end ScriptRules

end DesignCompiler
