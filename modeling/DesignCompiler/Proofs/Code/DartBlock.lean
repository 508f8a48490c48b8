import DesignCompiler.Proofs.Code.DartString
import DesignCompiler.Proofs.Markup.ReadBack
/-!
# Markup in strings of several lines

Markup is put between the quotes of a string of several lines as it is. There three things have a
meaning that they do not have in markup: a backslash, a dollar sign, and three single quotes. A
carriage return has one as well, since it is an end of a line.

* A text with none of these is left alone, in whatever markup it is put (`DartReader.block_append` for
  the markup around it, `DartReader.block_quotedEnd` for the text itself, escaped as a value).
* A text with one of them is either no string at all, or is read with something else in its place, up
  to the double quote behind it (`DartReader.exists_of_block_quotedEnd`). What is read is then not an
  escape of the text: this is kept as `DartReader.SeenAs` while the text is read.

That it is something else needs an argument, since an escape might stand for the very characters that
it is written with. It does not: decoded, a text that is read has at most as many characters as the
text that is written, and one with an escape has fewer.
-/

namespace DesignCompiler

namespace DartReader

open TextReader JsonReader

/-! ### Escapes -/

/-- The characters of a code behind a backslash, and the backslash. -/
def isCodeChar (c : Char) : Bool := isHexDigit c || "\\ux\x7b\x7d".toList.contains c

theorem isCodeChar_of_isHexDigit (c : Char) (h : isHexDigit c = true) : isCodeChar c = true := by
  rw [isCodeChar, h, Bool.true_or]

theorem takes_codeWord {expected : String} (h : expected.toList.all isCodeChar = true) :
    Takes expected.length (isCodeChar · = true) (word expected) :=
  takes_word (List.all_eq_true.mp h)

/-- A code in braces takes the backslash, its letter and more of its own characters. -/
theorem takes_bracedChar : Takes 2 (isCodeChar · = true) bracedChar := by
  have hdigits := takes_run1 isCodeChar_of_isHexDigit
  refine Takes.mono ((takes_codeWord (by decide)).bind fun _ => hdigits.bind fun digits =>
    (takes_codeWord (by decide)).bind fun _ => (?_ : Takes 0 _ _)) (by decide)
  split
  · exact takes_pure _
  · exact takes_failure

/-- So does a code of two digits. -/
theorem takes_byteChar : Takes 2 (isCodeChar · = true) byteChar := by
  have hdigit := takes_char isCodeChar_of_isHexDigit
  exact Takes.mono ((takes_codeWord (by decide)).bind fun _ => hdigit.bind fun _ =>
    hdigit.bind fun _ => takes_pure _) (by decide)

/-- So does a code of four digits, or a pair of them for one character. -/
theorem takes_codedChar : Takes 2 (isCodeChar · = true) codedChar := by
  have hdigit := takes_char isCodeChar_of_isHexDigit
  have hunit : Takes 2 (isCodeChar · = true) codeUnit :=
    Takes.mono ((takes_codeWord (by decide)).bind fun _ => hdigit.bind fun _ => hdigit.bind fun _ =>
      hdigit.bind fun _ => hdigit.bind fun _ => takes_pure _) (by decide)
  -- Behind the first unit may come a second one, if the two make a pair.
  refine Takes.mono (hunit.bind fun unit => (?_ : Takes 0 _ _)) (by decide)
  split
  · refine (hunit.bind fun low => (?_ : Takes 0 _ _)).mono (by decide)
    split
    · exact takes_pure _
    · exact takes_failure
  · split
    · exact takes_failure
    · exact takes_pure _

/-- An escape by a letter takes one character behind the backslash, whatever it is. -/
theorem escapedChar_eq_some {text rest : List Char} {x : Char}
    (h : escapedChar ('\\' :: text) = some (x, rest)) :
    ∃ c, text = c :: rest ∧ x = (ScriptReader.letterEscapes.lookup c).getD c := by
  have hword : word "\\" ('\\' :: text) = some ((), text) := word_append "\\" text
  rw [escapedChar, bind_of_eq hword] at h
  -- The character behind the backslash may be anything but the letter of a code.
  cases text with
  | nil => cases h
  | cons c text =>
    by_cases hc : (!isLineBreak c && c != 'x' && c != 'u') = true
    · rw [bind_of_eq (char_of_pos hc text)] at h
      cases h
      exact ⟨c, rfl, rfl⟩
    · rw [bind_of_none (by rw [char, if_neg hc])] at h
      cases h

/-- **What a backslash begins** is a code of several characters, or one character. -/
theorem escape_eq_some {text rest : List Char} {x : Char}
    (h : escape ('\\' :: text) = some (x, rest)) :
    (∃ code, text = code ++ rest ∧ code ≠ [] ∧ ∀ c ∈ code, isCodeChar c = true) ∨
      ∃ c, text = c :: rest ∧ x = (ScriptReader.letterEscapes.lookup c).getD c := by
  have hcode : ∀ {reader : TextReader Char}, Takes 2 (isCodeChar · = true) reader →
      reader ('\\' :: text) = some (x, rest) →
        ∃ code, text = code ++ rest ∧ code ≠ [] ∧ ∀ c ∈ code, isCodeChar c = true := by
    intro reader htakes hread
    obtain ⟨taken, htext, hlength, hall⟩ := htakes _ _ _ hread
    match taken, hlength with
    | backslash :: c :: code, _ =>
      cases htext
      exact ⟨c :: code, rfl, List.cons_ne_nil _ _, (List.forall_mem_cons.mp hall).2⟩
  -- The readers of codes are tried first, and the letter last.
  rcases orElse_eq_some h with h | h
  · exact Or.inl (hcode takes_bracedChar h)
  rcases orElse_eq_some h with h | h
  · exact Or.inl (hcode takes_codedChar h)
  rcases orElse_eq_some h with h | h
  · exact Or.inl (hcode takes_byteChar h)
  · exact Or.inr (escapedChar_eq_some h)

/-! ### Characters of a string -/

/-- A text in which a string of several lines goes on to its end, read as a value. -/
def Block (text value : List Char) : Prop := many blockChar text = some (value, "'''".toList)

/-- **A character of a block takes something of the text,** so reading a block ends. -/
theorem takes_blockChar : Takes 1 (fun _ => True) blockChar := by
  have hall : ∀ {n m} {reader : TextReader Char}, Takes n (isCodeChar · = true) reader → m ≤ n →
      Takes m (fun _ => True) reader := by
    intro n m reader h hle text value rest hread
    obtain ⟨taken, htext, hlength, -⟩ := h text value rest hread
    exact ⟨taken, htext, Nat.le_trans hle hlength, fun _ _ => trivial⟩
  have hescaped : Takes 1 (fun _ => True) escapedChar :=
    Takes.mono ((takes_word fun _ _ => trivial).bind fun _ =>
      (takes_char fun _ _ => trivial).bind fun _ => takes_pure _) (by decide)
  have hbreak : Takes 1 (fun _ => True) lineBreak :=
    Takes.mono ((takes_word fun _ _ => trivial).bind fun _ =>
      (takes_attempt (takes_word fun _ _ => trivial)).bind fun _ => takes_pure _) (by decide)
  -- Each alternative takes a character at least; only the look ahead takes none.
  refine Takes.mono ((takes_notNext _).bind fun _ => Takes.orElse (takes_char fun _ _ => trivial)
    (hbreak.orElse ?_)) (by decide)
  exact (hall takes_bracedChar (by decide)).orElse ((hall takes_codedChar (by decide)).orElse
    ((hall takes_byteChar (by decide)).orElse hescaped))

/-- A block whose first character is read goes on behind it. -/
theorem block_of_eq {text rest value : List Char} {c : Char}
    (h : blockChar text = some (c, rest)) :
    Block text value ↔ ∃ more, value = c :: more ∧ Block rest more := by
  unfold Block
  rw [takes_blockChar.many_eq h]
  cases many blockChar rest with
  | none => simp
  | some found => simp [Prod.ext_iff, eq_comm]

/-- A block without a character to read is at its three quotes. -/
theorem block_of_none {text value : List Char} (h : blockChar text = none) :
    Block text value ↔ value = [] ∧ text = "'''".toList := by
  unfold Block
  rw [many_of_none h]
  simp [eq_comm]

/-- **What a block string is read as** is what its text spells behind the opening quotes. -/
theorem readAll?_blockString {text value : List Char} :
    readAll? blockString ("'''".toList ++ text) = some value ↔ Block text value := by
  rw [readAll?_eq_some_iff, blockString, bind_of_eq (word_append "'''" text), bind_eq_some_iff]
  constructor
  · rintro ⟨found, rest, hmany, hrest⟩
    obtain ⟨_, between, hword, hend⟩ := bind_eq_some_iff.mp hrest
    cases hend
    rwa [word_eq_some_iff.mp hword] at hmany
  · intro h
    exact ⟨value, _, h, rfl⟩

/-- Three quotes end a string unless one of them is escaped. -/
example : readAll? blockString "'''''\r\n\\''''".toList = some "''\n'".toList := by
  decide +kernel

/-! ### One character -/

/-- A character that means itself in a string of several lines, unless it ends the string. -/
def isBlockPlain (c : Char) : Bool := c != '\\' && c != '$' && c != '\r'

/-- A plain character stands for itself, unless the closing quotes begin with it. -/
theorem blockChar_of_plain {c : Char} {rest : List Char} (hc : isBlockPlain c = true)
    (hquotes : ¬ "'''".toList <+: c :: rest) : blockChar (c :: rest) = some (c, rest) := by
  have hnext : notNext (word "'''") (c :: rest) = some ((), c :: rest) := by
    have hfirst : ¬ "'''".toList.isPrefixOf (c :: rest) = true :=
      fun h => hquotes (List.isPrefixOf_iff_prefix.mp h)
    rw [notNext, word, if_neg hfirst]
    rfl
  rw [blockChar, bind_of_eq hnext]
  exact orElse_of_eq (char_of_pos hc rest)

/-- At three quotes there is no character of the block. -/
theorem blockChar_of_quotes {text : List Char} (h : "'''".toList <+: text) :
    blockChar text = none := by
  obtain ⟨rest, rfl⟩ := h
  rfl

theorem blockChar_dollar (rest : List Char) : blockChar ('$' :: rest) = none := rfl

theorem blockChar_backslash (rest : List Char) :
    blockChar ('\\' :: rest) = escape ('\\' :: rest) := rfl

/-- A carriage return by itself is read as a line feed. -/
theorem blockChar_return {rest : List Char} (h : rest.head? ≠ some '\n') :
    blockChar ('\r' :: rest) = some ('\n', rest) := by
  -- Only a line feed behind it would be read along with the carriage return.
  have hfeed : word "\n" rest = none := by
    by_contra hsome
    obtain ⟨⟨_, more⟩, hword⟩ := Option.ne_none_iff_exists'.mp hsome
    exact h (word_eq_some_iff.mp hword ▸ rfl)
  have hbreak : lineBreak ('\r' :: rest) = some ('\n', rest) := by
    have hword : word "\r" ('\r' :: rest) = some ((), rest) := word_append "\r" rest
    rw [lineBreak, bind_of_eq hword, bind_of_eq (attempt_of_none hfeed)]
    rfl
  have hnext : notNext (word "'''") ('\r' :: rest) = some ((), '\r' :: rest) := rfl
  rw [blockChar, bind_of_eq hnext]
  exact (orElse_of_none rfl).trans (orElse_of_eq hbreak)

/-! ### Escaped text -/

/-- A character that means itself wherever it is in a string of several lines. -/
def isBlockSafe (c : Char) : Bool := isBlockPlain c && c != '\''

/-- **A text that means itself wherever it is.** -/
def Safe (text : String) : Prop := ∀ c ∈ text.toList, isBlockSafe c = true

instance : DecidablePred Safe :=
  fun text => decidable_of_iff (text.toList.all isBlockSafe = true) List.all_eq_true

@[simp] theorem safe_append {a b : String} : Safe (a ++ b) ↔ Safe a ∧ Safe b := by
  simp only [Safe, String.toList_append, List.forall_mem_append]

/-- Three quotes begin with a quote. -/
theorem not_quotes_first {c : Char} (h : c ≠ '\'') (rest : List Char) :
    ¬ "'''".toList <+: c :: rest := by
  rintro ⟨more, hmore⟩
  exact h (List.cons.inj hmore).1.symm

/-- **Safe characters are read as they are.** -/
theorem block_append {text rest value : List Char} (h : ∀ c ∈ text, isBlockSafe c = true) :
    Block (text ++ rest) value ↔ ∃ more, value = text ++ more ∧ Block rest more := by
  induction text generalizing value with
  | nil => simp
  | cons c text ih =>
    obtain ⟨hc, htext⟩ := List.forall_mem_cons.mp h
    simp only [isBlockSafe, Bool.and_eq_true, bne_iff_ne, ne_eq] at hc
    have hchar : blockChar (c :: (text ++ rest)) = some (c, text ++ rest) :=
      blockChar_of_plain hc.1 (not_quotes_first hc.2 _)
    rw [List.cons_append, block_of_eq hchar]
    simp [ih htext]

/-- **A text that a string of several lines leaves alone.** -/
structure BlockPlain (text : List Char) : Prop where
  plain : ∀ c ∈ text, isBlockPlain c = true
  quotes : ¬ "'''".toList <:+: text

theorem BlockPlain.nil : BlockPlain [] where
  plain _ h := absurd h List.not_mem_nil
  quotes h := by simp at h

/-- A text is plain if its first character is and does not begin three quotes, and the rest is
plain. -/
theorem blockPlain_cons {c : Char} {text : List Char} :
    BlockPlain (c :: text) ↔
      (isBlockPlain c = true ∧ ¬ "'''".toList <+: c :: text) ∧ BlockPlain text := by
  constructor
  · rintro ⟨hplain, hquotes⟩
    -- Three quotes in the text start at its first character or behind it.
    rw [List.infix_cons_iff, not_or] at hquotes
    obtain ⟨hc, htext⟩ := List.forall_mem_cons.mp hplain
    exact ⟨⟨hc, hquotes.1⟩, htext, hquotes.2⟩
  · rintro ⟨⟨hc, hfirst⟩, hplain, hquotes⟩
    refine ⟨List.forall_mem_cons.mpr ⟨hc, hplain⟩, ?_⟩
    rw [List.infix_cons_iff, not_or]
    exact ⟨hfirst, hquotes⟩

instance decidableBlockPlain : DecidablePred BlockPlain
  | [] => isTrue .nil
  | c :: text =>
    have : Decidable (BlockPlain text) := decidableBlockPlain text
    decidable_of_iff ((isBlockPlain c = true ∧ ¬ "'''".toList.isPrefixOf (c :: text) = true) ∧
      BlockPlain text) (by rw [blockPlain_cons, List.isPrefixOf_iff_prefix])

/-- Single quotes are in front of what is written if they are in front of the text. -/
theorem replicate_prefix_quotedEnd (n : Nat) {text rest : List Char} :
    List.replicate n '\'' <+: quotedEnd text rest ↔ List.replicate n '\'' <+: text := by
  induction n generalizing text with
  | zero => simp
  | succ n ih =>
    rw [List.replicate_succ]
    cases text with
    | nil => simp [quotedEnd]
    | cons c text =>
      rw [quotedEnd_cons, List.cons_prefix_cons]
      -- A single quote is not escaped in markup, and no entity begins with one.
      rcases markupEscape_cases c with hsame | ⟨entity, -, hescape⟩
      · rw [hsame, List.singleton_append, List.cons_prefix_cons, ih]
      · have hne : '\'' ≠ c := by
          rintro rfl
          cases hescape
        simp [hescape, hne]

/-- The double quote is safe in a block. -/
theorem block_quote : ∀ c ∈ ['"'], isBlockSafe c = true := List.all_eq_true.mp (by decide)

/-- So are entities of markup. -/
theorem block_entity {entity : String} (h : entity ∈ markupEntities) :
    ∀ c ∈ '&' :: entity.toList, isBlockSafe c = true := by
  have hall : ∀ e ∈ markupEntities, ('&' :: String.toList e).all isBlockSafe = true := by decide
  exact List.all_eq_true.mp (hall entity h)

/-- Escaping for markup keeps a text safe. -/
theorem Safe.markupEscaped {text : String} (h : Safe text) : Safe (markupEscaped text) := by
  intro c hc
  rw [toList_markupEscaped, List.mem_flatMap] at hc
  obtain ⟨d, hd, hc⟩ := hc
  rcases markupEscape_cases d with hsame | ⟨entity, hentity, hescape⟩
  · rw [hsame] at hc
    exact List.mem_singleton.mp hc ▸ h d hd
  · rw [hescape] at hc
    exact block_entity hentity c hc

/-- A character that is no mark of the string is read as it is written. -/
theorem block_markupEscape {c : Char} {text rest value : List Char} (hc : isBlockPlain c = true)
    (hquotes : ¬ "'''".toList <+: c :: text) :
    Block (quotedEnd (c :: text) rest) value ↔
      ∃ more, value = markupEscape c ++ more ∧ Block (quotedEnd text rest) more := by
  rcases markupEscape_cases c with hsame | ⟨entity, hentity, hescape⟩
  · have hwritten : ¬ "'''".toList <+: quotedEnd (c :: text) rest :=
      fun h => hquotes ((replicate_prefix_quotedEnd 3).mp h)
    rw [quotedEnd_cons, hsame] at hwritten ⊢
    exact block_of_eq (blockChar_of_plain hc hwritten)
  · rw [quotedEnd_cons, hescape]
    exact block_append (block_entity hentity)

/-- **A text that is left alone** is read as it is written, up to the quote behind it. -/
theorem block_quotedEnd {text rest value : List Char} (h : BlockPlain text) :
    Block (quotedEnd text rest) value ↔
      ∃ more, value = quotedEnd text more ∧ Block rest more := by
  induction text generalizing value with
  | nil => exact block_append block_quote
  | cons c text ih =>
    obtain ⟨⟨hc, hquotes⟩, htext⟩ := blockPlain_cons.mp h
    rw [block_markupEscape hc hquotes]
    simp [ih htext, quotedEnd_cons]

/-- **A code does not go beyond what was escaped:** its characters come from the text as they are,
since the ampersand and the quote at the end are none of them. -/
theorem exists_of_append_eq_quotedEnd {code text rest more : List Char}
    (h : quotedEnd text rest = code ++ more) (hcode : ∀ c ∈ code, isCodeChar c = true) :
    ∃ others, text = code ++ others ∧ more = quotedEnd others rest := by
  -- Character by character; an escaped one begins with the ampersand, which no code has.
  induction code generalizing text with
  | nil => exact ⟨text, rfl, h.symm⟩
  | cons c code ih =>
    obtain ⟨hc, hrest⟩ := List.forall_mem_cons.mp hcode
    cases text with
    | nil =>
      cases h
      exact absurd hc (by decide)
    | cons d text =>
      rw [quotedEnd_cons] at h
      rcases markupEscape_cases d with hsame | ⟨entity, -, hescape⟩
      · rw [hsame] at h
        obtain ⟨rfl, htext⟩ := List.cons.inj h
        obtain ⟨others, rfl, hmore⟩ := ih htext hrest
        exact ⟨others, rfl, hmore⟩
      · rw [hescape] at h
        obtain ⟨rfl, -⟩ := List.cons.inj h
        exact absurd hc (by decide)

/-- **What a text in quotes can be read as:** decoded it has no more characters than the text, and it
is the text only if that is left alone. -/
structure SeenAs (text seen : List Char) : Prop where
  length_le : (markupDecoded seen).length ≤ text.length
  plain : markupDecoded seen = text → BlockPlain text

namespace SeenAs

variable {text seen : List Char}

theorem nil : SeenAs [] [] where
  length_le := Nat.le_refl _
  plain _ := .nil

/-- A character that is left alone is seen as its escape. -/
theorem cons (h : SeenAs text seen) {c : Char} (hc : isBlockPlain c = true)
    (hquotes : ¬ "'''".toList <+: c :: text) : SeenAs (c :: text) (markupEscape c ++ seen) where
  length_le := by
    rw [markupDecoded_escape_append, List.length_cons, List.length_cons]
    exact Nat.succ_le_succ h.length_le
  plain hsame := by
    rw [markupDecoded_escape_append] at hsame
    exact blockPlain_cons.mpr ⟨⟨hc, hquotes⟩, h.plain (List.cons.inj hsame).2⟩

/-- A carriage return becomes a line feed. -/
theorem lineEnd (h : SeenAs text seen) : SeenAs ('\r' :: text) ('\n' :: seen) where
  length_le := by
    rw [markupDecoded_cons (by decide), List.length_cons, List.length_cons]
    exact Nat.succ_le_succ h.length_le
  plain hsame := by
    rw [markupDecoded_cons (by decide)] at hsame
    cases hsame

/-- An escape is shorter as what it stands for. -/
theorem shorter {longer : List Char} (h : (markupDecoded seen).length < longer.length) :
    SeenAs longer seen where
  length_le := Nat.le_of_lt h
  plain hsame := absurd (congrArg List.length hsame) (Nat.ne_of_lt h)

end SeenAs

/-- A block does not end within a value, which has a quote of its own behind it. -/
theorem not_block_quotedEnd {text rest value : List Char}
    (h : blockChar (quotedEnd text rest) = none) : ¬ Block (quotedEnd text rest) value := by
  intro hblock
  have hmem : '"' ∈ quotedEnd text rest := List.mem_append_right _ List.mem_cons_self
  rw [((block_of_none h).mp hblock).2] at hmem
  exact absurd hmem (by decide)

/-- What is written for a text without a line feed does not begin with one. -/
theorem head?_quotedEnd_ne {text : List Char} (h : '\n' ∉ text) (rest : List Char) :
    (quotedEnd text rest).head? ≠ some '\n' := by
  cases text with
  | nil => simp [quotedEnd]
  | cons c text =>
    have hc : c ≠ '\n' := fun heq => h (heq ▸ List.mem_cons_self)
    rw [quotedEnd_cons]
    rcases markupEscape_cases c with hsame | ⟨entity, -, hescape⟩
    · simpa [hsame] using hc
    · simp [hescape]

/-- **Behind a backslash** there is a code, the beginning of what is written for a character, or
the quote that would be the second one. -/
theorem exists_of_block_backslash {text rest value : List Char}
    (h : Block (quotedEnd ('\\' :: text) rest) value) :
    (∃ code others x more, text = code ++ others ∧ code ≠ [] ∧ value = x :: more ∧
      Block (quotedEnd others rest) more) ∨
    (∃ c others more, text = c :: others ∧ value = markupEscape c ++ more ∧
      Block (quotedEnd others rest) more) ∨
    (text = [] ∧ ∃ more, value = '"' :: more ∧ Block rest more) := by
  have hwritten : quotedEnd ('\\' :: text) rest = '\\' :: quotedEnd text rest :=
    quotedEnd_cons _ _ _
  cases hescape : escape ('\\' :: quotedEnd text rest) with
  | none =>
    rw [← blockChar_backslash, ← hwritten] at hescape
    exact absurd h (not_block_quotedEnd hescape)
  | some found =>
    obtain ⟨x, left⟩ := found
    rw [hwritten, block_of_eq ((blockChar_backslash _).trans hescape)] at h
    obtain ⟨more, rfl, hblock⟩ := h
    -- A code is made of characters of the text; a letter behind the backslash may be one of the
    -- text, the ampersand of an entity, or the quote behind the value.
    rcases escape_eq_some hescape with ⟨code, htext, hne, hcode⟩ | ⟨c, htext, rfl⟩
    · obtain ⟨others, rfl, rfl⟩ := exists_of_append_eq_quotedEnd htext hcode
      exact Or.inl ⟨code, others, x, more, rfl, hne, rfl, hblock⟩
    cases text with
    | nil =>
      cases htext
      exact Or.inr (Or.inr ⟨rfl, more, rfl, hblock⟩)
    | cons d others =>
      rw [quotedEnd_cons] at htext
      rcases markupEscape_cases d with hsame | ⟨entity, hentity, hescaped⟩
      · rw [hsame] at htext
        obtain ⟨-, rfl⟩ := List.cons.inj htext
        exact Or.inl ⟨[d], others, _, more, rfl, List.cons_ne_nil _ _, rfl, hblock⟩
      · -- Only the ampersand is taken, and the rest of the entity is read by itself.
        rw [hescaped] at htext
        cases htext
        have hsafe := (List.forall_mem_cons.mp (block_entity hentity)).2
        obtain ⟨more, rfl, hothers⟩ := (block_append hsafe).mp hblock
        exact Or.inr (Or.inl ⟨d, others, more, rfl, by rw [hescaped]; rfl, hothers⟩)

/-- **Whatever is in quotes is read up to the second quote.** -/
theorem exists_of_block_quotedEnd {text rest value : List Char} (hfeed : '\n' ∉ text)
    (h : Block (quotedEnd text rest) value) :
    ∃ seen more, value = seen ++ '"' :: more ∧ SeenAs text seen ∧ Block rest more := by
  -- On the length of the text, since an escape takes several characters of it.
  induction hlength : text.length using Nat.strong_induction_on generalizing text value with
  | h n ih =>
  subst hlength
  cases text with
  | nil =>
    obtain ⟨more, rfl, hrest⟩ := (block_append block_quote).mp h
    exact ⟨[], more, rfl, .nil, hrest⟩
  | cons c text =>
  have hnext : '\n' ∉ text := fun hmem => hfeed (List.mem_cons_of_mem _ hmem)
  by_cases hc : isBlockPlain c = true
  · by_cases hquotes : "'''".toList <+: c :: text
    · exact absurd h (not_block_quotedEnd
        (blockChar_of_quotes ((replicate_prefix_quotedEnd 3).mpr hquotes)))
    obtain ⟨value, rfl, hblock⟩ := (block_markupEscape hc hquotes).mp h
    obtain ⟨seen, more, rfl, hseen, hrest⟩ := ih _ (Nat.lt_succ_self _) hnext hblock rfl
    exact ⟨_, more, (List.append_assoc _ _ _).symm, hseen.cons hc hquotes, hrest⟩
  have hmark : c = '\\' ∨ c = '$' ∨ c = '\r' := by
    simp only [isBlockPlain, Bool.and_eq_true, bne_iff_ne, ne_eq] at hc
    tauto
  rcases hmark with rfl | rfl | rfl
  · rcases exists_of_block_backslash h with ⟨code, others, x, value, rfl, hne, rfl, hblock⟩ |
      ⟨c, others, value, rfl, rfl, hblock⟩ | ⟨rfl, more, rfl, hrest⟩
    · have hcode := List.length_pos_iff.mpr hne
      have hothers : '\n' ∉ others := fun hmem => hnext (List.mem_append_right _ hmem)
      have hshorter : others.length < ('\\' :: (code ++ others)).length := by
        rw [List.length_cons, List.length_append]
        omega
      obtain ⟨seen, more, rfl, hseen, hrest⟩ := ih others.length hshorter hothers hblock rfl
      refine ⟨x :: seen, more, rfl, .shorter ?_, hrest⟩
      have hone := length_markupDecoded_cons_le x seen
      have hle := hseen.length_le
      simp
      omega
    · have hothers : '\n' ∉ others := fun hmem => hnext (List.mem_cons_of_mem _ hmem)
      have hshorter : others.length < ('\\' :: c :: others).length :=
        Nat.lt_succ_of_lt (Nat.lt_succ_self _)
      obtain ⟨seen, more, rfl, hseen, hrest⟩ := ih others.length hshorter hothers hblock rfl
      refine ⟨_, more, (List.append_assoc _ _ _).symm, .shorter ?_, hrest⟩
      have hle := hseen.length_le
      rw [markupDecoded_escape_append]
      simp
      omega
    · exact ⟨[], more, rfl, .shorter (Nat.succ_pos _), hrest⟩
  · exact absurd h (not_block_quotedEnd (blockChar_dollar _))
  · have hchar : blockChar (quotedEnd ('\r' :: text) rest) = some ('\n', quotedEnd text rest) :=
      blockChar_return (head?_quotedEnd_ne hnext rest)
    obtain ⟨value, rfl, hblock⟩ := (block_of_eq hchar).mp h
    obtain ⟨seen, more, rfl, hseen, hrest⟩ := ih _ (Nat.lt_succ_self _) hnext hblock rfl
    exact ⟨_, more, rfl, hseen.lineEnd, hrest⟩

end DartReader

end DesignCompiler
