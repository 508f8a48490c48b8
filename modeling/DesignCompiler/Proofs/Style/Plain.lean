import DesignCompiler.Proofs.Style.Identifier
import DesignCompiler.Proofs.Text.Tame
import DesignCompiler.Style.Computed
/-!
# Values that hold no semicolon

A record of declarations is compared by a text in which semicolons stand between the pairs. A value
is *plain* if it holds none (`Plain`). What the library writes by itself is made from numbers and a
few words, so it is tame and hence plain. Texts that come with a design need not be.
-/

namespace DesignCompiler

/-- **A value without a semicolon.** -/
def Plain (value : String) : Prop := ';' ∉ value.toList

instance : DecidablePred Plain := fun value => inferInstanceAs (Decidable (';' ∉ value.toList))

theorem Tame.plain {value : String} (h : Tame value) : Plain value := h.not_mem (by decide)

/-! ### Colors -/

/-- A color is written in pairs of hexadecimal digits. -/
theorem alphanum_upperHex (bytes : List UInt8) :
    ∀ c ∈ (Color.upperHex bytes).toList, c.isAlphanum = true := by
  intro c hc
  rw [Color.upperHex, String.toList_ofList] at hc
  obtain ⟨d, hd, rfl⟩ := List.mem_map.mp hc
  have hcapital := (alphanum_facts (isAlphanum_byteDigits bytes d hd)).2.1
  unfold Char.isAlphanum Char.isAlpha
  rw [Bool.or_eq_true] at hcapital
  rcases hcapital with hupper | hdigit
  · rw [hupper, Bool.true_or, Bool.true_or]
  · rw [hdigit, Bool.or_true]

@[simp] theorem tame_cssText (c : Color) : Tame c.cssText := by
  simp only [Color.cssText]
  split
  · exact tame_append.mpr ⟨by decide, tame_of_alphanum (alphanum_upperHex _)⟩
  · simp +decide

end DesignCompiler
