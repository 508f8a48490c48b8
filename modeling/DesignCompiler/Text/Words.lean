import DesignCompiler.Text.Case
import DesignCompiler.Text.Cluster
/-!
# Words in identifiers

A name is cut into words at `_`, `-` and spaces, between lower and upper case, at both sides of a
run of digits, and before the last capital of a run of capitals that goes on in lower case
(`HTMLPage` is `HTML`, `Page`). What is told apart there are the clusters of the name and not its
characters, so an accent that is written behind its letter stays with it. The words are then written
in one of four ways: `pascalCase`, `camelCase`, `snakeCase`, `kebabCase`.
-/

namespace DesignCompiler

/-- The classes of letters that word boundaries are drawn between. -/
inductive LetterClass where
  | upper
  | lower
  | digit
  | other
deriving DecidableEq, Repr

/-- What words are made of: clusters, or characters that are clusters by themselves. -/
class Letter (α : Type) where
  cluster : α → List Char

instance : Letter (List Char) := ⟨id⟩

instance : Letter Char := ⟨fun c => [c]⟩

section Words

variable {α : Type} [Letter α]

/-- The class of a letter: it has a case when its two forms differ and it is one of them; digits are
the ten of ASCII. -/
def letterClass (a : α) : LetterClass :=
  let cluster := Letter.cluster a
  if cluster.all fun c => '0' ≤ c && c ≤ '9' then .digit
  else if upperText cluster == lowerText cluster then .other
  else if upperText cluster == cluster then .upper
  else if lowerText cluster == cluster then .lower
  else .other

/-- Whether a letter separates words and belongs to none. -/
def isWordSeparator (a : α) : Bool :=
  Letter.cluster a == ['_'] || Letter.cluster a == ['-'] || Letter.cluster a == [' ']

/-- **Whether a word ends after `a`,** when `rest` follows. -/
def endsWord (a : α) (rest : List α) : Bool :=
  match rest with
  | [] => false
  | b :: more =>
    match letterClass a, letterClass b with
    | .lower, .upper | .upper, .digit | .digit, .upper | .digit, .lower | .lower, .digit => true
    | .upper, .upper =>
      match more with
      | c :: _ => letterClass c == .lower
      | [] => false
    | _, _ => false

/-- The pieces between word boundaries; two separators in a row leave an empty one. -/
def wordPieces : List α → List (List α)
  | [] => [[]]
  | a :: rest =>
    match wordPieces rest with
    | [] => [[a]]
    | piece :: pieces =>
      if isWordSeparator a then [] :: piece :: pieces
      else if endsWord a rest then [a] :: piece :: pieces
      else (a :: piece) :: pieces

end Words

/-- The words of a name. -/
def words (name : List Char) : List (List Char) :=
  ((wordPieces (clusters name)).map List.flatten).filter (!·.isEmpty)

/-- The first cluster in upper case, the others in lower case. -/
def capitalize (word : List Char) : List Char :=
  match clusters word with
  | [] => []
  | first :: others => upperText first ++ lowerText others.flatten

/-- The words capitalized and joined. -/
def pascalCase (name : String) : String :=
  String.ofList ((words name.toList).map capitalize).flatten

/-- The first word in lower case, the others capitalized, all joined. -/
def camelCase (name : String) : String :=
  String.ofList <|
    match words name.toList with
    | [] => []
    | first :: others => lowerText first ++ (others.map capitalize).flatten

/-- The words in lower case with `_` between them. -/
def snakeCase (name : String) : String :=
  String.ofList (['_'].intercalate ((words name.toList).map lowerText))

/-- The words in lower case with `-` between them. -/
def kebabCase (name : String) : String :=
  String.ofList (['-'].intercalate ((words name.toList).map lowerText))

end DesignCompiler
