import DesignCompiler.Proofs.Number.Numeral
import DesignCompiler.Proofs.Text.Split
/-!
# Texts without marks of syntax

Much of generated code is written by the program itself: numbers, colors, the words of the languages.
Such a text is *tame*: there is nothing in it but letters and digits of ASCII, spaces and a few marks.
What ends a line or a declaration, begins a tag or leads to an address is none of these, so it is in
no tame text (`Tame.not_mem`).
-/

namespace DesignCompiler

/-- The letters and digits, and the marks of numbers, colors and lists. -/
def isTameChar (c : Char) : Bool := c.isAlphanum || " #%(),-.[]_".toList.contains c

/-- **A text of letters, digits and a few marks.** -/
def Tame (text : String) : Prop := ∀ c ∈ text.toList, isTameChar c = true

instance : DecidablePred Tame :=
  fun text => decidable_of_iff (text.toList.all isTameChar = true) List.all_eq_true

/-- What is not tame does not stand in a tame text. -/
theorem Tame.not_mem {text : String} (h : Tame text) {c : Char} (hc : isTameChar c = false) :
    c ∉ text.toList := by
  intro hmem
  rw [h c hmem] at hc
  cases hc

/-! ### Texts -/

@[simp] theorem tame_append {a b : String} : Tame (a ++ b) ↔ Tame a ∧ Tame b := by
  simp only [Tame, String.toList_append, List.forall_mem_append]

@[simp] theorem tame_toString {text : String} : Tame (toString text) ↔ Tame text := Iff.rfl

theorem tame_intercalate {joiner : String} (hjoiner : Tame joiner) {texts : List String}
    (h : ∀ text ∈ texts, Tame text) : Tame (joiner.intercalate texts) :=
  intercalate_of_append (by decide) (fun ha hb => tame_append.mpr ⟨ha, hb⟩) hjoiner h

/-- What is listed is tame if each character of it is. -/
theorem tame_of_mem {texts : List String}
    (h : (texts.all fun text => text.toList.all isTameChar) = true) : ∀ text ∈ texts, Tame text :=
  fun text hmem => List.all_eq_true.mp (List.all_eq_true.mp h text hmem)

/-- Letters and digits are tame. -/
theorem tame_of_alphanum {text : String} (h : ∀ c ∈ text.toList, c.isAlphanum = true) :
    Tame text := by
  intro c hc
  rw [isTameChar, h c hc, Bool.true_or]

/-! ### Numbers -/

/-- Numerals are tame. -/
theorem tame_of_isNumeral {text : String} (h : IsNumeral text.toList) : Tame text := by
  intro c hc
  have hmarks : ['.', '-', 'N', 'a', 'i', 'n', 'f'].all isTameChar = true := by decide
  have hnumeral := h c hc
  rw [isNumeralChar, Bool.or_eq_true, List.contains_iff_mem] at hnumeral
  rcases hnumeral with hdigit | hmark
  · rw [isTameChar, Char.isAlphanum, hdigit, Bool.or_true, Bool.true_or]
  · exact List.all_eq_true.mp hmarks c hmark

@[simp] theorem tame_repr (n : Nat) : Tame n.repr := tame_of_isNumeral (isNumeral_nat n)

@[simp] theorem tame_text (x : Float) : Tame (Float.text x) := tame_of_isNumeral (isNumeral_text x)

@[simp] theorem tame_text32 (x : Float32) : Tame (Float32.text x) :=
  tame_of_isNumeral (isNumeral_text32 x)

@[simp] theorem tame_cssNumber (value : Float) : Tame (cssNumber value) :=
  tame_of_isNumeral (isNumeral_cssNumber value)

end DesignCompiler
