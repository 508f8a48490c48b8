import DesignCompiler.Text.CaseTable
import DesignCompiler.Text.ClusterTable
/-!
# Clusters of characters

`clusters` cuts a text into what a reader takes for one character each, by the rules of Unicode for
extended grapheme clusters. Each character has a class (`clusterClass`), and whether a cluster goes
on with a character depends on the classes it has so far and on the next one
(`ClusterClass.goesOn`). No rule looks behind the beginning of the cluster.
-/

namespace DesignCompiler

/-- The classes of characters that cluster boundaries are drawn between. -/
inductive ClusterClass where
  | carriageReturn
  | lineFeed
  | control
  /-- An accent or another mark that belongs to what stands before it. -/
  | extending
  /-- A mark that links a consonant to the next one. -/
  | linker
  /-- The mark that joins pictures, and the one that keeps letters apart. -/
  | joiner
  | nonJoiner
  | spacing
  | prepended
  /-- One of the two letters that write a flag. -/
  | regional
  /-- The parts of a Korean syllable, and syllables without and with a final consonant. -/
  | leading
  | vowel
  | trailing
  | openSyllable
  | closedSyllable
  | pictograph
  | consonant
  | other
deriving DecidableEq, Repr

/-- The class of a character. -/
def clusterClass (c : Char) : ClusterClass :=
  let n := c.toNat
  if n = 0x0D then .carriageReturn
  else if n = 0x0A then .lineFeed
  else if inRanges controlRanges n then .control
  -- Nothing else among the first characters of all is in a table.
  else if n < 0xA9 then .other
  else if n = 0x200C then .nonJoiner
  else if n = 0x200D then .joiner
  else if inRanges extendingRanges n then .extending
  else if inRanges linkerRanges n then .linker
  else if inRanges spacingRanges n then .spacing
  else if inRanges prependedRanges n then .prepended
  else if inRanges [(0x1F1E6, 0x1F1FF)] n then .regional
  else if inRanges [(0x1100, 0x115F), (0xA960, 0xA97C)] n then .leading
  else if inRanges [(0x1160, 0x11A7), (0xD7B0, 0xD7C6), (0x16D63, 0x16D63), (0x16D67, 0x16D6A)] n then
    .vowel
  else if inRanges [(0x11A8, 0x11FF), (0xD7CB, 0xD7FB)] n then .trailing
  else if inRanges [(0xAC00, 0xD7A3)] n then
    if (n - 0xAC00) % 28 = 0 then .openSyllable else .closedSyllable
  else if inRanges pictographRanges n then .pictograph
  else if inRanges consonantRanges n then .consonant
  else .other

namespace ClusterClass

/-- A character that ends a line or is not written at all. -/
def isControl : ClusterClass → Bool
  | carriageReturn | lineFeed | control => true
  | _ => false

/-- A mark that belongs to what stands before it and takes no room. -/
def isExtending : ClusterClass → Bool
  | extending | linker | nonJoiner => true
  | _ => false

/-- A mark that may stand between a consonant and the one it is linked to. -/
def isConjoining : ClusterClass → Bool
  | extending | linker | joiner => true
  | _ => false

/-- **Whether a cluster goes on with a character,** by the classes of what it has so far, the last one
first. -/
def goesOn (before : List ClusterClass) (next : ClusterClass) : Bool :=
  match before with
  | [] => true
  | last :: earlier =>
    if last.isControl || next.isControl then last == carriageReturn && next == lineFeed
    else if next.isExtending || next == joiner || next == spacing || last == prepended then true
    else
      match last, next with
      | leading, leading | leading, vowel | leading, openSyllable | leading, closedSyllable
      | openSyllable, vowel | vowel, vowel | openSyllable, trailing | vowel, trailing
      | closedSyllable, trailing | trailing, trailing => true
      -- A picture is joined to another, marks left out of account.
      | joiner, pictograph => (earlier.dropWhile isExtending).head? == some pictograph
      | _, consonant =>
        (before.takeWhile isConjoining).contains linker &&
          (before.dropWhile isConjoining).head? == some consonant
      -- Letters of flags go in pairs.
      | regional, regional => (before.takeWhile (· == regional)).length % 2 == 1
      | _, _ => false

end ClusterClass

/-- The clusters of a text behind the characters of the cluster that it begins in, the last one
first. -/
def clustersFrom (cluster : List Char) : List Char → List (List Char)
  | [] => [cluster.reverse]
  | c :: rest =>
    if ClusterClass.goesOn (cluster.map clusterClass) (clusterClass c) then
      clustersFrom (c :: cluster) rest
    else cluster.reverse :: clustersFrom [c] rest

/-- **The clusters of a text.** -/
def clusters : List Char → List (List Char)
  | [] => []
  | c :: rest => clustersFrom [c] rest

end DesignCompiler
