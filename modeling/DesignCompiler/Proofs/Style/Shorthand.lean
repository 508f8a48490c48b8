import DesignCompiler.Proofs.Number.Arithmetic
import DesignCompiler.Proofs.Style.Neat
import DesignCompiler.Proofs.Text.Tokens
/-!
# Shorthands of four values

`insetsValue` and `cornersValue` write four lengths as one, two or four values, depending on which
of them agree. A reader of CSS has the opposite rule: it goes by the number of values alone
(`fourValues?`). `fourValues_shorthands` says that the reader comes to the four lengths.

Lengths agree as numbers, which is not to be the same. Zero agrees with its negative, and both are
written alike (`px_eq_of_beq`). What is not a number agrees with nothing, itself included, so a
shorthand with such a length is written out in full.
-/

namespace DesignCompiler

/-! ### Reading a shorthand -/

/-- The values in a value of a property, which stand between white space. -/
def components (value : String) : List String := (tokens value.toList).map String.ofList

/-- **What the values of a shorthand stand for:** four values, clockwise from the top or from the
top left. A value that is left out is that of the opposite side, and a single one is for all sides.
-/
def expandValues? : List String → Option (String × String × String × String)
  | [all] => some (all, all, all, all)
  | [vertical, horizontal] => some (vertical, horizontal, vertical, horizontal)
  | [top, horizontal, bottom] => some (top, horizontal, bottom, horizontal)
  | [first, second, third, fourth] => some (first, second, third, fourth)
  | _ => none

/-- The four values that a shorthand stands for. -/
def fourValues? (value : String) : Option (String × String × String × String) :=
  expandValues? (components value)

/-! ### Lengths -/

/-- A length is written without blanks. -/
theorem px_solid (x : Float) : (px x).toList ≠ [] ∧ (px x).toList.any isBlank = false := by
  have hspace : ' ' ∉ (cssNumber x).toList := (isNumeral_cssNumber x).not_mem (by decide)
  have hnumber : (cssNumber x).toList.any isBlank = false := by
    rw [List.any_eq_false]
    intro c hc
    rw [isBlank_of_tame (tame_cssNumber x c hc) fun heq => hspace (heq ▸ hc)]
    exact Bool.false_ne_true
  have hunit : "px".toList.any isBlank = false := by decide
  constructor
  · simp [px]
  · rw [px, String.toList_append, List.any_append, hnumber, hunit, Bool.or_self]

/-- **Lengths that agree as numbers are written alike,** the two zeros included. -/
theorem px_eq_of_beq {x y : Float} (h : (x == y) = true) : px x = px y := by
  have hzero : px 0 = px (-0) := by decide +kernel
  obtain ⟨-, -, rfl | ⟨rfl, rfl⟩ | ⟨rfl, rfl⟩⟩ := Float.beq_iff_ne_nan_and_eq.mp h
  · rfl
  · exact hzero
  · exact hzero.symm

/-- Lengths with spaces between them are read as these lengths. -/
theorem components_px (lengths : List Float) :
    components (" ".intercalate (lengths.map px)) = lengths.map px := by
  have hparts : ∀ part ∈ (lengths.map px).map String.toList,
      part ≠ [] ∧ part.any isBlank = false := by
    simp only [List.map_map, List.forall_mem_map]
    exact fun x _ => px_solid x
  have htokens := tokens_joinTokens hparts
  rw [components, String.toList_intercalate]
  change (tokens (joinTokens _)).map String.ofList = _
  rw [htokens, List.map_map]
  simp [Function.comp_def]

/-- **A shorthand stands for its four lengths.** Whatever the insets are and whichever of them
agree, reading the written value gives them side by side, and so it is for the radii of the corners.
-/
theorem fourValues_shorthands :
    (∀ i : Insets,
      fourValues? (insetsValue i) = some (px i.top, px i.right, px i.bottom, px i.left)) ∧
    ∀ c : Corners,
      fourValues? (cornersValue c) =
        some (px c.topLeft, px c.topRight, px c.bottomRight, px c.bottomLeft) := by
  have hread : ∀ {value : String} (lengths : List Float),
      value = " ".intercalate (lengths.map px) →
        fourValues? value = expandValues? (lengths.map px) := by
    rintro _ lengths rfl
    rw [fourValues?, components_px]
  constructor
  · intro i
    unfold insetsValue
    -- The shorter forms are chosen when values compare as equal, and then they are written
    -- alike.
    split
    · next hopposite =>
      obtain ⟨hvertical, hhorizontal⟩ := Bool.and_eq_true_iff.mp hopposite
      rw [← px_eq_of_beq hvertical, ← px_eq_of_beq hhorizontal]
      split
      · next hall =>
        rw [← px_eq_of_beq hall]
        exact hread [i.top] rfl
      · exact hread [i.top, i.left] rfl
    · exact hread [i.top, i.right, i.bottom, i.left] rfl
  · intro c
    unfold cornersValue
    split
    · next huniform =>
      obtain ⟨⟨htop, hright⟩, hbottom⟩ : ((c.topLeft == c.topRight) = true ∧
          (c.topRight == c.bottomRight) = true) ∧ (c.bottomRight == c.bottomLeft) = true := by
        simpa only [Corners.isUniform, Bool.and_eq_true] using huniform
      rw [← px_eq_of_beq hbottom, ← px_eq_of_beq hright, ← px_eq_of_beq htop]
      exact hread [c.topLeft] rfl
    · exact hread [c.topLeft, c.topRight, c.bottomRight, c.bottomLeft] rfl

/-- The right and the left do not agree here, though they are written alike. -/
example : insetsValue ⟨0, 0 / 0, -0, 0 / 0⟩ = "0px NaNpx 0px NaNpx" := by decide +kernel

end DesignCompiler
