/-!
# Blanks and lines

A blank is a character with the Unicode property White_Space. Here are the ways in which a text is
cut at blanks: `tokens` are the maximal runs without one, `trimBlanks` drops those at both ends.
`lines` cuts at line feeds; a carriage return right before one goes with it, and a text that ends
in a line feed has no empty line after it.

`tokens_append_blank` is the equation that everything about the cutting follows from; the joining of
tokens by single spaces is `joinTokens`.
-/

namespace DesignCompiler

/-- The ranges of the property White_Space. -/
def blankRanges : List (Nat × Nat) :=
  [(0x9, 0xD), (0x20, 0x20), (0x85, 0x85), (0xA0, 0xA0), (0x1680, 0x1680), (0x2000, 0x200A),
   (0x2028, 0x2029), (0x202F, 0x202F), (0x205F, 0x205F), (0x3000, 0x3000)]

/-- Whether a character is a blank. -/
def isBlank (c : Char) : Bool := blankRanges.any fun (low, high) => low ≤ c.toNat && c.toNat ≤ high

/-- **The tokens of a text,** read with `word` as the token that has already begun. -/
def tokensFrom (word : List Char) : List Char → List (List Char)
  | [] => if word.isEmpty then [] else [word]
  | c :: rest =>
    if isBlank c then
      if word.isEmpty then tokensFrom [] rest else word :: tokensFrom [] rest
    else tokensFrom (word ++ [c]) rest

/-- The maximal runs of a text without a blank. -/
def tokens (text : List Char) : List (List Char) := tokensFrom [] text

@[simp] theorem tokens_nil : tokens [] = [] := rfl

@[simp] theorem tokens_cons_blank {c : Char} (h : isBlank c = true) (rest : List Char) :
    tokens (c :: rest) = tokens rest := by
  simp [tokens, tokensFrom, h]

/-- A blank ends the token before it. -/
theorem tokensFrom_append_blank {c : Char} (h : isBlank c = true) (word before after : List Char) :
    tokensFrom word (before ++ c :: after) = tokensFrom word before ++ tokens after := by
  induction before generalizing word with
  | nil =>
    rw [List.nil_append]
    by_cases hw : word.isEmpty = true <;> simp [tokensFrom, tokens, h, hw]
  | cons d before ih =>
    rw [List.cons_append]
    by_cases hd : isBlank d = true <;> by_cases hw : word.isEmpty = true <;>
      simp [tokensFrom, hd, hw, ih]

/-- **Tokens end at a blank,** so those of a text are those before it and those after it. -/
theorem tokens_append_blank {c : Char} (h : isBlank c = true) (before after : List Char) :
    tokens (before ++ c :: after) = tokens before ++ tokens after :=
  tokensFrom_append_blank h [] before after

/-- Tokens written with one space between two of them. -/
def joinTokens (parts : List (List Char)) : List Char := [' '].intercalate parts

/-- A text without the blanks at its start. -/
def trimStart (text : List Char) : List Char := text.dropWhile isBlank

/-- A text without the blanks at its end. -/
def trimEnd (text : List Char) : List Char := (text.reverse.dropWhile isBlank).reverse

/-- A text without the blanks at both ends. -/
def trimBlanks (text : List Char) : List Char := trimEnd (trimStart text)

/-- The pieces of a text between the occurrences of a character; always at least one. -/
def splitOnChar (separator : Char) : List Char → List (List Char)
  | [] => [[]]
  | c :: rest =>
    match splitOnChar separator rest with
    | [] => [[c]]
    | piece :: pieces => if c == separator then [] :: piece :: pieces else (c :: piece) :: pieces

/-- A line without the carriage return that ends it. -/
def dropReturn (line : List Char) : List Char :=
  if line.getLast? == some '\r' then line.dropLast else line

/-- **The lines of a text.** Only a carriage return before a line feed is dropped, so the last piece
keeps one; when it is empty it is no line. -/
def lines (text : List Char) : List (List Char) :=
  let pieces := splitOnChar '\n' text
  let last := pieces.getLast?.getD []
  pieces.dropLast.map dropReturn ++ (if last.isEmpty then [] else [last])

/-- The lines of a string. -/
def String.textLines (text : String) : List String := (lines text.toList).map String.ofList

end DesignCompiler
