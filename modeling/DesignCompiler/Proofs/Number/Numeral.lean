import DesignCompiler.Style.Value
/-!
# What numbers are written with

Whichever way a number is written, it is a *numeral*: nothing is in it but digits, a point, a sign
and the letters of the words for infinity and for not a number. So a character that means something
to a reader of generated code, such as a semicolon or the end of a line, is in no number.
-/

namespace DesignCompiler

/-- The characters that numbers are written with. -/
def isNumeralChar (c : Char) : Bool := c.isDigit || ['.', '-', 'N', 'a', 'i', 'n', 'f'].contains c

/-- **A text that has nothing but characters of numbers in it.** -/
def IsNumeral (text : List Char) : Prop := ∀ c ∈ text, isNumeralChar c = true

instance : DecidablePred IsNumeral :=
  fun text => decidable_of_iff (text.all isNumeralChar = true) List.all_eq_true

/-- No character but those of a number stands in one. -/
theorem IsNumeral.not_mem {text : List Char} (h : IsNumeral text) {c : Char}
    (hc : isNumeralChar c = false) : c ∉ text := by
  intro hmem
  rw [h c hmem] at hc
  cases hc

theorem IsNumeral.append {a b : List Char} (ha : IsNumeral a) (hb : IsNumeral b) :
    IsNumeral (a ++ b) := List.forall_mem_append.mpr ⟨ha, hb⟩

theorem IsNumeral.of_subset {a b : List Char} (h : IsNumeral b) (hsub : a ⊆ b) : IsNumeral a :=
  fun c hc => h c (hsub hc)

/-! ### Digits -/

theorem isNumeral_toDigits (n : Nat) : IsNumeral (Nat.toDigits 10 n) := by
  intro c hc
  rw [isNumeralChar, Nat.isDigit_of_mem_toDigits (by decide) (by decide) hc, Bool.true_or]

theorem isNumeral_nat (n : Nat) : IsNumeral (toString n).toList := by
  have hdigits : (toString n).toList = Nat.toDigits 10 n := by simp
  rw [hdigits]
  exact isNumeral_toDigits n

/-- An integer is written with a sign and digits. -/
theorem isNumeral_int (i : Int) : IsNumeral (toString i).toList := by
  cases i with
  | ofNat n => exact isNumeral_nat n
  | negSucc n =>
    show IsNumeral ("-" ++ toString (n + 1)).toList
    rw [String.toList_append]
    exact IsNumeral.append (by decide) (isNumeral_nat _)

/-- Digits stay digits wherever the point goes. -/
theorem isNumeral_positional {digits : List Char} (h : IsNumeral digits) (e : Int) :
    IsNumeral (positional digits e).toList := by
  have hzeros : ∀ n, IsNumeral (List.replicate n '0') := by
    intro n c hc
    rw [(List.mem_replicate.mp hc).2]
    decide
  unfold positional
  split
  · rw [String.toList_ofList]
    exact h.append (hzeros _)
  · -- The digits in front of the point and behind it come from the padded ones.
    have hpadded : ∀ n, IsNumeral (List.replicate n '0' ++ digits) := fun n => (hzeros n).append h
    simp only [String.toList_ofList]
    refine IsNumeral.append ((hpadded _).of_subset (List.take_subset _ _)) ?_
    refine List.forall_mem_cons.mpr ⟨by decide, ?_⟩
    exact (hpadded _).of_subset (List.drop_subset _ _)

theorem isNumeral_signText (negative : Bool) : IsNumeral (signText negative).toList := by
  cases negative <;> decide

/-! ### Floats -/

theorem isNumeral_dropTrailing {c : Char} {text : List Char} (h : IsNumeral text) :
    IsNumeral (dropTrailing c text) := by
  refine h.of_subset fun d hd => ?_
  rw [dropTrailing, List.mem_reverse] at hd
  exact List.mem_reverse.mp ((List.dropWhile_sublist _).mem hd)

/-- A number with a fixed count of places is a numeral, NaN and the infinities included. -/
theorem isNumeral_fixed (places : Nat) (x : Float) : IsNumeral (Float.fixed places x).toList := by
  unfold Float.fixed BinaryParts.fixed
  split
  · decide
  · rw [String.toList_append]
    exact (isNumeral_signText _).append (by decide)
  · rw [String.toList_append]
    exact (isNumeral_signText _).append (isNumeral_positional (isNumeral_toDigits _) _)

/-- The shortest text of a number is a numeral, whatever its format. -/
theorem isNumeral_parts (f : BinaryFormat) (parts : BinaryParts) :
    IsNumeral (parts.text f).toList := by
  -- Dropping zeros at the end leaves digits.
  have hdigits : ∀ d, IsNumeral (dropTrailingZeros (Nat.toDigits 10 d)).1 :=
    fun d => (isNumeral_toDigits d).of_subset (List.take_subset _ _)
  unfold BinaryParts.text
  split
  · decide
  · rw [String.toList_append]
    exact (isNumeral_signText _).append (by decide)
  · split
    · rw [String.toList_append]
      exact (isNumeral_signText _).append (by decide)
    · simp only [String.toList_append]
      exact (isNumeral_signText _).append (isNumeral_positional (hdigits _) _)

theorem isNumeral_text (x : Float) : IsNumeral (Float.text x).toList :=
  isNumeral_parts _ _

theorem isNumeral_text32 (x : Float32) : IsNumeral (Float32.text x).toList :=
  isNumeral_parts _ _

/-- **A number of a style is a numeral.** -/
theorem isNumeral_cssNumber (value : Float) : IsNumeral (cssNumber value).toList := by
  simp only [cssNumber]
  split
  · exact isNumeral_int _
  · rw [String.toList_ofList]
    exact isNumeral_dropTrailing (isNumeral_fixed 2 _)

/-- An angle is written with one of the two suffixes the numerals have. -/
theorem isNumeral_radians (angle : Float) : IsNumeral (radians angle).toList := by
  simp only [radians]
  split
  · decide
  · rw [String.toList_ofList]
    exact isNumeral_dropTrailing (isNumeral_dropTrailing (isNumeral_fixed 4 _))

/-! ### Hexadecimal digits -/

/-- Hex digits are letters and digits. -/
theorem isAlphanum_byteDigits (bytes : List UInt8) :
    ∀ c ∈ bytes.flatMap Color.byteDigits, c.isAlphanum = true := by
  have hdigit : ∀ n < 16, (Nat.digitChar n).isAlphanum = true := by decide
  intro c hc
  obtain ⟨byte, -, hc⟩ := List.mem_flatMap.mp hc
  have hbyte : byte.toNat < 256 := byte.toNat_lt
  rcases List.mem_cons.mp hc with rfl | hc
  · exact hdigit _ (by omega)
  · rw [List.mem_singleton.mp hc]
    exact hdigit _ (by omega)

end DesignCompiler
