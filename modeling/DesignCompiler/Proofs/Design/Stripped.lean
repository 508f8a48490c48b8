import DesignCompiler.Proofs.Design.UnknownFlags
import DesignCompiler.Proofs.Text.Tokens
/-!
# Names without their flags

A name is made of tokens, and the two hyphens in front tell which of them are flags. Two readers
part a name along this line: `stripFlags` keeps the words and `parseFlags` looks at the flags alone.
`stripFlags_parts` says that neither takes anything from the other one.

What is kept is written with single spaces, and cutting it again gives the same words
(`tokens_stripFlags`), none of which is a flag. Everything else follows from this.
-/

namespace DesignCompiler

/-- The words of a name: its tokens that are no flags. -/
def nameWords (name : String) : List (List Char) :=
  (tokens name.toList).filter (!isFlagToken ·)

/-- The tokens of a name that are meant as flags, known or unknown. -/
def nameFlags (name : String) : List (List Char) := (tokens name.toList).filter isFlagToken

/-- **A name without its flags has the same words,** and no other tokens. -/
theorem tokens_stripFlags (name : String) : tokens (stripFlags name).toList = nameWords name := by
  rw [stripFlags, String.toList_ofList]
  exact tokens_joinTokens fun word hword => of_mem_tokens (List.mem_filter.mp hword).1

theorem nameWords_stripFlags (name : String) : nameWords (stripFlags name) = nameWords name := by
  rw [nameWords, tokens_stripFlags, nameWords, List.filter_filter]
  simp only [Bool.and_self]

theorem nameFlags_stripFlags (name : String) : nameFlags (stripFlags name) = [] := by
  rw [nameFlags, tokens_stripFlags, nameWords, List.filter_filter]
  simp

/-- **Flags are read from the tokens that are meant as flags.** -/
theorem parseFlags_eq_nameFlags (name : String) : parseFlags name = readTokens (nameFlags name) :=
  (readTokens_filter (fun token h => by rw [readToken, h, if_neg Bool.false_ne_true]) _).symm

/-- **A name is parted into its words and its flags.** Without its flags it has its words for
tokens, in their order; taking the flags off again changes nothing, and there are none to be read.
And two names with the same flags in the same order are read alike, whatever their words are. -/
theorem stripFlags_parts (name : String) :
    tokens (stripFlags name).toList = nameWords name ∧
      stripFlags (stripFlags name) = stripFlags name ∧
      parseFlags (stripFlags name) = .ok [] ∧
      ∀ other, nameFlags other = nameFlags name → parseFlags other = parseFlags name := by
  refine ⟨tokens_stripFlags name, ?_, ?_, fun other h => ?_⟩
  · rw [stripFlags, ← nameWords, nameWords_stripFlags, stripFlags, ← nameWords]
  · rw [parseFlags_eq_nameFlags, nameFlags_stripFlags, readTokens]
  · rw [parseFlags_eq_nameFlags, parseFlags_eq_nameFlags, h]

/-- The law at two names of a heading, with the same flags among other words. -/
theorem stripFlags_parts_hero :
    nameFlags "--as-h1 Title  --pin" = nameFlags "Hero  title --as-h1\u3000--pin" ∧
      stripFlags "Hero  title --as-h1\u3000--pin" = "Hero title" ∧
      parseFlags "--as-h1 Title  --pin" = parseFlags "Hero  title --as-h1\u3000--pin" := by
  have hflags : nameFlags "--as-h1 Title  --pin" = nameFlags "Hero  title --as-h1\u3000--pin" := by
    decide
  exact ⟨hflags, by decide, (stripFlags_parts _).2.2.2 _ hflags⟩

end DesignCompiler
