/-!
# Replacements one after the other

Free text is escaped by replacing characters, one kind after the other, in the whole text
(`replacedAll`). What a later replacement does to the text of an earlier one depends on the order.
Still each character is escaped by itself: what becomes of it does not depend on its neighbours
(`replacedAll_eq_flatMap`). So an escape that is written character by character is the same as a
list of replacements as soon as the two agree on single characters.
-/

namespace DesignCompiler

/-- A text with something else for each occurrence of a character. -/
def replaced (c : Char) (other : List Char) (text : List Char) : List Char :=
  text.flatMap fun d => if d = c then other else [d]

/-- A text after several replacements, the first of the list first. -/
def replacedAll (replacements : List (Char × List Char)) (text : List Char) : List Char :=
  replacements.foldl (fun text (c, other) => replaced c other text) text

/-- A replacement after an escape is made in what the escape writes. -/
theorem replaced_flatMap (c : Char) (other : List Char) (escape : Char → List Char)
    (text : List Char) : replaced c other (text.flatMap escape) =
      text.flatMap fun d => replaced c other (escape d) :=
  List.flatMap_assoc

/-- Replacements behind an escape act on what is written for each character. -/
theorem replacedAll_flatMap (replacements : List (Char × List Char)) (escape : Char → List Char)
    (text : List Char) : replacedAll replacements (text.flatMap escape) =
      text.flatMap fun d => replacedAll replacements (escape d) := by
  induction replacements generalizing escape with
  | nil => rfl
  | cons first others ih =>
    have hfirst : replacedAll (first :: others) (text.flatMap escape) =
        replacedAll others (replaced first.1 first.2 (text.flatMap escape)) := rfl
    rw [hfirst, replaced_flatMap, ih]
    rfl

/-- **Each character is replaced by itself,** whatever its neighbours are. -/
theorem replacedAll_eq_flatMap (replacements : List (Char × List Char)) (text : List Char) :
    replacedAll replacements text = text.flatMap fun d => replacedAll replacements [d] := by
  rw [← replacedAll_flatMap, List.flatMap_singleton']

/-- An escape that does to each character what the replacements do is all of them. -/
theorem flatMap_eq_replacedAll {replacements : List (Char × List Char)} {escape : Char → List Char}
    (h : ∀ c, escape c = replacedAll replacements [c]) (text : List Char) :
    text.flatMap escape = replacedAll replacements text := by
  rw [replacedAll_eq_flatMap, funext h]

end DesignCompiler
