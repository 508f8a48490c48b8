import DesignCompiler.Text.CaseTable
/-!
# Upper and lower case

`upperChar` and `lowerChar` map one character, to several where the mapping says so. `upperText` maps
a text character by character. `lowerText` does too, but it writes a capital sigma that ends a word
with the final form: one with a cased letter before it and none after it, where characters that case
rules skip do not count.
-/

namespace DesignCompiler

/-- The code point that a table of runs maps `c` to, if it has an entry. -/
def shiftCase? (runs : List CaseRun) (c : Nat) : Option Nat :=
  (runs.find? (·.contains c)).map fun r => ((c : Int) + r.shift).toNat

/-- The lower-case form of a character. -/
def lowerChar (c : Char) : List Char :=
  if c.toNat < 128 then [c.toLower]
  else if c.toNat = 0x130 then ['i', Char.ofNat 0x307]
  else ((shiftCase? lowerRuns c.toNat).map Char.ofNat).toList.headD c :: []

/-- The upper-case form of a character. -/
def upperChar (c : Char) : List Char :=
  if c.toNat < 128 then [c.toUpper]
  else
    match upperExpansions.lookup c.toNat with
    | some points => points.map Char.ofNat
    | none => ((shiftCase? upperRuns c.toNat).map Char.ofNat).toList.headD c :: []

/-- Whether the first character that case rules do not skip is a cased letter. -/
def startsCased (text : List Char) : Bool :=
  match text.dropWhile fun c => inRanges caseIgnorableRanges c.toNat with
  | c :: _ => inRanges casedRanges c.toNat
  | [] => false

/-- Lower case from a place in a text on; `before` is what stands before it, nearest first. -/
def lowerAfter (before : List Char) : List Char → List Char
  | [] => []
  | c :: rest =>
    -- A capital sigma is final when a word stands before it and none goes on after it.
    (if c == 'Σ' then [if startsCased before && !startsCased rest then 'ς' else 'σ']
     else lowerChar c) ++ lowerAfter (c :: before) rest

/-- The upper-case form of a text. -/
def upperText (text : List Char) : List Char := text.flatMap upperChar

/-- The lower-case form of a text. -/
def lowerText (text : List Char) : List Char := lowerAfter [] text

end DesignCompiler
