import DesignCompiler.Number.Binary
import Mathlib.Tactic.Ring
/-!
# Bit patterns and what they stand for

A number has many forms `m · 2 ^ q`, and a format holds one of them: the one with a leading bit, or
with the least exponent where the number is too small for one (`BinaryFormat.Canonical`). Reading and
writing are inverse to each other on these forms.

* `decode_encode`, `encode_of_decode` — what is written is read, and what is read is written;
* `encode_scale` — what is written depends on the number and not on its form;
* `encode_shiftRound` — writing a number is writing the aligned number that it is rounded to;
* `exists_canonical_le` — rounding does not take a number past a whole number.
-/

namespace DesignCompiler

namespace BinaryFormat

variable {f : BinaryFormat} {m : Nat} {q : Int} {negative : Bool}

/-- **A mantissa and an exponent as a format holds them,** but for the size of the exponent: the
leading bit is set, or the exponent is the least one. -/
structure Aligned (f : BinaryFormat) (m : Nat) (q : Int) : Prop where
  lt : m < 2 * 2 ^ f.mantissaBits
  min_le : f.minExponent ≤ q
  leading : 2 ^ f.mantissaBits ≤ m ∨ q = f.minExponent

/-- A mantissa and an exponent that the format holds. -/
structure Canonical (f : BinaryFormat) (m : Nat) (q : Int) : Prop extends f.Aligned m q where
  le_max : q + 3 ≤ f.minExponent + (2 ^ f.exponentBits : Nat)

/-- What a sign adds to a bit pattern. -/
def signBits (f : BinaryFormat) (negative : Bool) : Nat :=
  if negative then 2 ^ f.mantissaBits * 2 ^ f.exponentBits else 0

/-- The bit pattern of an aligned number without its sign. -/
def sizeBits (f : BinaryFormat) (m : Nat) (q : Int) : Nat :=
  (q - f.minExponent).toNat * 2 ^ f.mantissaBits + m

/-- The exponent of the last bit that the format keeps of a number. -/
def lastPlace (f : BinaryFormat) (m : Nat) (q : Int) : Int :=
  max (m.log2 + q - f.mantissaBits) f.minExponent

/-- The bits of an infinity are its sign and the largest exponent field over an empty mantissa. -/
theorem infinityBits_eq (f : BinaryFormat) (negative : Bool) :
    f.infinityBits negative =
      f.signBits negative + (2 ^ f.exponentBits - 1) * 2 ^ f.mantissaBits := by
  rw [infinityBits, maxField, signBits, Nat.pow_eq, Nat.pow_eq, Nat.add_mul]
  split_ifs <;> ring

/-- Writing in two steps: the bits that are kept, then the pattern. -/
theorem encode_eq (f : BinaryFormat) (negative : Bool) (hm : m ≠ 0) (q : Int) :
    f.encode negative m q =
      let place := f.lastPlace m q
      let bits := f.sizeBits
        (if q ≤ place then shiftRound m (place - q).toNat else m * 2 ^ (q - place).toNat) place
      if f.infinityBits false ≤ bits then f.infinityBits negative else f.signBits negative + bits := by
  have hsign : (if negative then Nat.pow 2 (f.mantissaBits + f.exponentBits) else 0) =
      f.signBits negative := by
    rw [signBits, Nat.pow_eq, pow_add]
  simp only [encode, if_neg hm, hsign]
  rfl

theorem encode_zero (f : BinaryFormat) (negative : Bool) (q : Int) :
    f.encode negative 0 q = f.signBits negative := by
  simp [encode, signBits, pow_add]

/-! ### Aligned and canonical numbers -/

/-- Without a shift nothing is rounded. -/
theorem shiftRound_zero (m : Nat) : shiftRound m 0 = m := by
  simp [shiftRound, Nat.mod_one]

/-- In an aligned number the last bit is where the format cuts. -/
theorem Aligned.lastPlace_eq (h : f.Aligned m q) (hm : m ≠ 0) : f.lastPlace m q = q := by
  have hupper : m.log2 < f.mantissaBits + 1 :=
    (Nat.log2_lt hm).mpr (by rw [pow_succ, mul_comm]; exact h.lt)
  have hmin := h.min_le
  unfold lastPlace
  rcases h.leading with hleading | hleast
  · have hlower : f.mantissaBits ≤ m.log2 := (Nat.le_log2 hm).mpr hleading
    omega
  · omega

/-- An aligned number is written as it stands: its size under its sign, or an infinity when the size
does not fit. -/
theorem encode_of_aligned (h : f.Aligned m q) (hm : m ≠ 0) :
    f.encode negative m q =
      if f.infinityBits false ≤ f.sizeBits m q then f.infinityBits negative
      else f.signBits negative + f.sizeBits m q := by
  simp only [encode_eq f negative hm, h.lastPlace_eq hm, Int.le_refl, if_true, Int.sub_self,
    Int.toNat_zero, shiftRound_zero]

/-- The bits of a canonical number, sign apart, are below those of the infinity. -/
theorem Canonical.sizeBits_lt (h : f.Canonical m q) :
    f.sizeBits m q < (2 ^ f.exponentBits - 1) * 2 ^ f.mantissaBits := by
  obtain ⟨⟨hlt, hmin, -⟩, hmax⟩ := h
  have hfield : (q - f.minExponent).toNat + 3 ≤ 2 ^ f.exponentBits := by omega
  calc f.sizeBits m q
      < (q - f.minExponent).toNat * 2 ^ f.mantissaBits + 2 * 2 ^ f.mantissaBits := by
        rw [sizeBits]
        omega
    _ = ((q - f.minExponent).toNat + 2) * 2 ^ f.mantissaBits := by ring
    _ ≤ (2 ^ f.exponentBits - 1) * 2 ^ f.mantissaBits :=
        Nat.mul_le_mul_right _ (by omega)

/-- **How a canonical number is written.** -/
theorem encode_of_canonical (h : f.Canonical m q) :
    f.encode negative m q = f.signBits negative + f.sizeBits m q := by
  by_cases hm : m = 0
  · -- Without a leading bit, the exponent is the least one.
    have hq : q = f.minExponent := by
      refine h.leading.resolve_left fun hleading => ?_
      have := Nat.two_pow_pos f.mantissaBits
      omega
    subst hm
    rw [encode_zero, hq, sizeBits, Int.sub_self, Int.toNat_zero, Nat.zero_mul, Nat.add_zero]
  · have hbits := h.sizeBits_lt
    rw [encode_of_aligned h.toAligned hm, if_neg]
    rw [infinityBits_eq, signBits, if_neg (by decide)]
    omega

/-! ### Reading what is written -/

/-- What three fields of a bit pattern stand for. -/
theorem decode_fields (f : BinaryFormat) (negative : Bool) {field mantissa : Nat}
    (hfield : field < 2 ^ f.exponentBits) (hmantissa : mantissa < 2 ^ f.mantissaBits) :
    f.decode (f.signBits negative + (field * 2 ^ f.mantissaBits + mantissa)) =
      if field = f.maxField then if mantissa = 0 then .infinite negative else .nan
      else if field = 0 then .finite negative mantissa f.minExponent
      else .finite negative (2 ^ f.mantissaBits + mantissa) (f.minExponent + field - 1) := by
  have hsum : f.signBits negative + (field * 2 ^ f.mantissaBits + mantissa) =
      2 ^ f.mantissaBits * (2 ^ f.exponentBits * negative.toNat + field) + mantissa := by
    cases negative <;> simp only [signBits, Bool.toNat_false, Bool.toNat_true, Bool.false_eq_true,
      if_false, if_true] <;> ring
  -- The three fields come off the sum by division, the lowest one first.
  have hlow : (2 ^ f.mantissaBits * (2 ^ f.exponentBits * negative.toNat + field) + mantissa) %
      2 ^ f.mantissaBits = mantissa := by
    rw [Nat.mul_add_mod, Nat.mod_eq_of_lt hmantissa]
  have hhigh : (2 ^ f.mantissaBits * (2 ^ f.exponentBits * negative.toNat + field) + mantissa) /
      2 ^ f.mantissaBits = 2 ^ f.exponentBits * negative.toNat + field := by
    rw [Nat.mul_add_div (Nat.two_pow_pos _), Nat.div_eq_of_lt hmantissa, Nat.add_zero]
  have hmiddle : (2 ^ f.exponentBits * negative.toNat + field) % 2 ^ f.exponentBits = field := by
    rw [Nat.mul_add_mod, Nat.mod_eq_of_lt hfield]
  have hsign : ((2 ^ f.exponentBits * negative.toNat + field) / 2 ^ f.exponentBits % 2 == 1) =
      negative := by
    rw [Nat.mul_add_div (Nat.two_pow_pos _), Nat.div_eq_of_lt hfield, Nat.add_zero]
    cases negative <;> rfl
  rw [hsum]
  simp only [decode, Nat.pow_eq, pow_add, ← Nat.div_div_eq_div_mul, hlow, hhigh, hmiddle, hsign]

/-- Every bit pattern has the three fields. -/
theorem exists_fields (f : BinaryFormat) {bits : Nat}
    (h : bits < 2 * (2 ^ f.mantissaBits * 2 ^ f.exponentBits)) :
    ∃ negative field mantissa, field < 2 ^ f.exponentBits ∧ mantissa < 2 ^ f.mantissaBits ∧
      bits = f.signBits negative + (field * 2 ^ f.mantissaBits + mantissa) := by
  have hp := Nat.two_pow_pos f.mantissaBits
  have hq := Nat.two_pow_pos f.exponentBits
  refine ⟨bits / 2 ^ f.mantissaBits / 2 ^ f.exponentBits == 1,
    bits / 2 ^ f.mantissaBits % 2 ^ f.exponentBits, bits % 2 ^ f.mantissaBits,
    Nat.mod_lt _ hq, Nat.mod_lt _ hp, ?_⟩
  have hsign : bits / 2 ^ f.mantissaBits / 2 ^ f.exponentBits < 2 := by
    rw [Nat.div_div_eq_div_mul, Nat.div_lt_iff_lt_mul (Nat.mul_pos hp hq)]
    exact h
  have hlow := Nat.div_add_mod bits (2 ^ f.mantissaBits)
  have hhigh := Nat.div_add_mod (bits / 2 ^ f.mantissaBits) (2 ^ f.exponentBits)
  generalize bits / 2 ^ f.mantissaBits / 2 ^ f.exponentBits = sign at hsign hhigh ⊢
  -- The sign is one bit.
  obtain rfl | rfl : sign = 0 ∨ sign = 1 := by omega
  · rw [Nat.mul_zero, Nat.zero_add] at hhigh
    rw [hhigh, signBits, if_neg (by decide), Nat.zero_add, mul_comm, hlow]
  · rw [signBits, if_pos (by decide)]
    calc bits = 2 ^ f.mantissaBits * (2 ^ f.exponentBits * 1 +
          bits / 2 ^ f.mantissaBits % 2 ^ f.exponentBits) + bits % 2 ^ f.mantissaBits := by
          rw [hhigh, hlow]
      _ = _ := by ring

/-- **A canonical number is read as it was written.** -/
theorem decode_encode (h : f.Canonical m q) :
    f.decode (f.encode negative m q) = .finite negative m q := by
  rw [encode_of_canonical h, sizeBits]
  have hmax := h.le_max
  have hmin := h.min_le
  rcases Nat.lt_or_ge m (2 ^ f.mantissaBits) with hlt | hge
  · -- Without a leading bit the field of the exponent is zero.
    have hq : q = f.minExponent := h.leading.resolve_left (Nat.not_le.mpr hlt)
    have hfield : f.maxField ≠ 0 := by
      rw [maxField, Nat.pow_eq]
      omega
    rw [hq, Int.sub_self, Int.toNat_zero, decode_fields f negative (Nat.two_pow_pos _) hlt,
      if_neg hfield.symm, if_pos rfl]
  · have hfield : (q - f.minExponent).toNat + 1 < 2 ^ f.exponentBits - 1 := by omega
    have hmantissa : m - 2 ^ f.mantissaBits < 2 ^ f.mantissaBits := by
      have := h.lt
      omega
    have hbits : (q - f.minExponent).toNat * 2 ^ f.mantissaBits + m =
        ((q - f.minExponent).toNat + 1) * 2 ^ f.mantissaBits + (m - 2 ^ f.mantissaBits) := by
      rw [Nat.add_mul, Nat.one_mul]
      omega
    have hneither : (q - f.minExponent).toNat + 1 ≠ f.maxField := by
      rw [maxField, Nat.pow_eq]
      omega
    rw [hbits, decode_fields f negative (by omega) hmantissa, if_neg hneither,
      if_neg (Nat.succ_ne_zero _)]
    congr 1 <;> omega

/-- **What is finite is read in canonical form,** and is written as it was. -/
theorem encode_of_decode (hexponent : 2 ≤ f.exponentBits) {bits : Nat}
    (hbits : bits < 2 * (2 ^ f.mantissaBits * 2 ^ f.exponentBits))
    (h : f.decode bits = .finite negative m q) :
    f.Canonical m q ∧ f.encode negative m q = bits := by
  have hlarge : 4 ≤ 2 ^ f.exponentBits := Nat.pow_le_pow_right Nat.two_pos hexponent
  obtain ⟨sign, field, mantissa, hfield, hmantissa, rfl⟩ := f.exists_fields hbits
  rw [decode_fields f sign hfield hmantissa, maxField, Nat.pow_eq] at h
  split_ifs at h with hmax hzero hleast
  · -- A subnormal number: no leading bit, so the size is the mantissa itself.
    obtain ⟨rfl, rfl, rfl⟩ := BinaryParts.finite.inj h
    have hcanonical : f.Canonical mantissa f.minExponent :=
      ⟨⟨by omega, Int.le_refl _, Or.inr rfl⟩, by omega⟩
    refine ⟨hcanonical, ?_⟩
    rw [encode_of_canonical hcanonical, sizeBits, hleast, Int.sub_self, Int.toNat_zero]
  · obtain ⟨rfl, rfl, rfl⟩ := BinaryParts.finite.inj h
    have hcanonical : f.Canonical (2 ^ f.mantissaBits + mantissa) (f.minExponent + field - 1) :=
      ⟨⟨by omega, by omega, Or.inl (Nat.le_add_right _ _)⟩, by omega⟩
    have hexp : (f.minExponent + field - 1 - f.minExponent).toNat + 1 = field := by omega
    refine ⟨hcanonical, ?_⟩
    rw [encode_of_canonical hcanonical, sizeBits]
    conv_rhs => rw [← hexp]
    ring

/-! ### Values -/

/-- Rounding sees how far a number is from its neighbours, which scaling does not change. -/
theorem shiftRound_scale (m shift k : Nat) :
    shiftRound (m * 2 ^ k) (shift + k) = shiftRound m shift := by
  have hk := Nat.two_pow_pos k
  have hquotient : m * 2 ^ k / 2 ^ (shift + k) = m / 2 ^ shift := by
    rw [pow_add, Nat.mul_div_mul_right _ _ hk]
  have hrest : m * 2 ^ k % 2 ^ (shift + k) = m % 2 ^ shift * 2 ^ k := by
    rw [pow_add, Nat.mul_mod_mul_right]
  -- The rest compares with half a unit as it did before both were scaled.
  have hless : 2 ^ (shift + k) < 2 * (m % 2 ^ shift * 2 ^ k) ↔ 2 ^ shift < 2 * (m % 2 ^ shift) := by
    rw [pow_add, ← Nat.mul_assoc, Nat.mul_lt_mul_right hk]
  have hhalf : 2 ^ (shift + k) = 2 * (m % 2 ^ shift * 2 ^ k) ↔ 2 ^ shift = 2 * (m % 2 ^ shift) := by
    rw [pow_add, ← Nat.mul_assoc, Nat.mul_left_inj hk.ne']
  simp only [shiftRound, Nat.pow_eq, hquotient, hrest, hless, hhalf]

/-- Zeros appended add to the length. -/
theorem log2_scale (hm : m ≠ 0) (k : Nat) : (m * 2 ^ k).log2 = m.log2 + k := by
  have hk := Nat.two_pow_pos k
  rw [Nat.log2_eq_iff (Nat.mul_ne_zero hm hk.ne'), Nat.add_right_comm, pow_add, pow_add _ _ k]
  exact ⟨Nat.mul_le_mul_right _ (Nat.log2_self_le hm),
    Nat.mul_lt_mul_of_pos_right (Nat.lt_log2_self) hk⟩

/-- **What is written depends on the number alone,** and not on how it is split into a mantissa and
an exponent. -/
theorem encode_scale (f : BinaryFormat) (negative : Bool) (m k : Nat) (q : Int) :
    f.encode negative (m * 2 ^ k) (q - k) = f.encode negative m q := by
  by_cases hm : m = 0
  · simp [hm, encode]
  · have hplace : f.lastPlace (m * 2 ^ k) (q - k) = f.lastPlace m q := by
      unfold lastPlace
      rw [log2_scale hm]
      omega
    have hscaled : m * 2 ^ k ≠ 0 := Nat.mul_ne_zero hm (Nat.two_pow_pos k).ne'
    simp only [encode_eq f negative hm, encode_eq f negative hscaled, hplace]
    generalize f.lastPlace m q = place
    suffices hkept : (if q - k ≤ place then shiftRound (m * 2 ^ k) (place - (q - k)).toNat
        else m * 2 ^ k * 2 ^ (q - k - place).toNat) =
          if q ≤ place then shiftRound m (place - q).toNat else m * 2 ^ (q - place).toNat by
      rw [hkept]
    by_cases hq : q ≤ place
    · have hshift : (place - (q - k)).toNat = (place - q).toNat + k := by omega
      rw [if_pos hq, if_pos (by omega), hshift, shiftRound_scale]
    · rw [if_neg hq]
      by_cases hless : q - k ≤ place
      · -- What the format cuts off are zeros of the scaling.
        obtain ⟨d, hd⟩ : ∃ d : Nat, k = (q - place).toNat + d :=
          ⟨k - (q - place).toNat, by omega⟩
        have hshift : (place - (q - k)).toNat = 0 + d := by omega
        rw [if_pos hless, hshift, hd, pow_add, ← Nat.mul_assoc, shiftRound_scale, shiftRound_zero]
      · have hexp : (q - place).toNat = k + (q - k - place).toNat := by omega
        rw [if_neg hless, hexp, pow_add, Nat.mul_assoc]

/-! ### Rounding -/

/-- Rounding stays between whole numbers. -/
theorem shiftRound_le {m shift bound : Nat} (h : m ≤ bound * 2 ^ shift) :
    shiftRound m shift ≤ bound := by
  have hpos := Nat.two_pow_pos shift
  have hquotient : m / 2 ^ shift ≤ bound := (Nat.div_le_iff_le_mul_add_pred hpos).mpr (by
    rw [mul_comm] at h
    omega)
  have hsplit := Nat.div_add_mod m (2 ^ shift)
  simp only [shiftRound, Nat.pow_eq]
  split_ifs with hup
  · -- A quotient at the bound leaves nothing to round up for.
    rcases Nat.lt_or_eq_of_le hquotient with hlt | heq
    · exact hlt
    · rw [heq, mul_comm] at hsplit
      omega
  · exact hquotient

/-- Rounding does not go below a bound that is met exactly. -/
theorem le_shiftRound {m shift bound : Nat} (h : bound * 2 ^ shift ≤ m) :
    bound ≤ shiftRound m shift := by
  have hquotient : bound ≤ m / 2 ^ shift := (Nat.le_div_iff_mul_le (Nat.two_pow_pos shift)).mpr h
  simp only [shiftRound, Nat.pow_eq]
  split_ifs
  · exact Nat.le_succ_of_le hquotient
  · exact hquotient

/-- **What is kept of a number is aligned,** unless it is rounded up to the next power of two. -/
theorem aligned_shiftRound (hm : m ≠ 0) (hq : q ≤ f.lastPlace m q) :
    f.Aligned (shiftRound m (f.lastPlace m q - q).toNat) (f.lastPlace m q) ∨
      shiftRound m (f.lastPlace m q - q).toNat = 2 * 2 ^ f.mantissaBits := by
  have hupper : m < 2 ^ (m.log2 + 1) := Nat.lt_log2_self
  have hlower : 2 ^ m.log2 ≤ m := Nat.log2_self_le hm
  have hmin : f.minExponent ≤ f.lastPlace m q := le_max_right _ _
  have hlog : (m.log2 : Int) + q - f.mantissaBits ≤ f.lastPlace m q := le_max_left _ _
  have hle : shiftRound m (f.lastPlace m q - q).toNat ≤ 2 * 2 ^ f.mantissaBits := by
    refine shiftRound_le (hupper.le.trans ?_)
    rw [← pow_succ', ← pow_add]
    exact Nat.pow_le_pow_right Nat.two_pos (by omega)
  rcases Nat.lt_or_eq_of_le hle with hlt | heq
  · refine Or.inl ⟨hlt, hmin, ?_⟩
    -- At the least exponent no leading bit is asked for; above it the leading bit of `m` is
    -- kept.
    rcases eq_or_lt_of_le hmin with hleast | hmore
    · exact Or.inr hleast.symm
    · have hplace : f.lastPlace m q = m.log2 + q - f.mantissaBits := by
        unfold lastPlace at hmore ⊢
        omega
      refine Or.inl (le_shiftRound (le_trans ?_ hlower))
      rw [← pow_add]
      exact Nat.pow_le_pow_right Nat.two_pos (by omega)
  · exact Or.inr heq

/-- A power of two that is one bit too long, in aligned form. -/
theorem aligned_carry (hmin : f.minExponent ≤ q) : f.Aligned (2 ^ f.mantissaBits) (q + 1) :=
  ⟨by have := Nat.two_pow_pos f.mantissaBits; omega, by omega, Or.inl (Nat.le_refl _)⟩

/-- **Writing a rounded number writes the number.** -/
theorem encode_shiftRound (hexponent : 2 ≤ f.exponentBits) (negative : Bool) (hm : m ≠ 0)
    (hq : q ≤ f.lastPlace m q) :
    f.encode negative (shiftRound m (f.lastPlace m q - q).toNat) (f.lastPlace m q) =
      f.encode negative m q := by
  have hmin : f.minExponent ≤ f.lastPlace m q := le_max_right _ _
  rw [encode_eq f negative hm]
  simp only [if_pos hq]
  rcases aligned_shiftRound hm hq with haligned | hcarry
  · generalize shiftRound m (f.lastPlace m q - q).toNat = kept at haligned ⊢
    by_cases hkept : kept = 0
    · -- A number too small for the format is written as zero.
      have hleast : f.lastPlace m q = f.minExponent := by
        refine haligned.leading.resolve_left fun hleading => ?_
        have := Nat.two_pow_pos f.mantissaBits
        omega
      have hlarge : 4 ≤ 2 ^ f.exponentBits := Nat.pow_le_pow_right Nat.two_pos hexponent
      have hcanonical : f.Canonical 0 f.minExponent :=
        ⟨⟨by have := Nat.two_pow_pos f.mantissaBits; omega, Int.le_refl _, Or.inr rfl⟩, by omega⟩
      rw [hkept, hleast, encode_of_canonical hcanonical, if_neg]
      have hbits := hcanonical.sizeBits_lt
      rw [infinityBits_eq, signBits, if_neg (by decide)]
      omega
    · rw [encode_of_aligned haligned hkept]
  · have hcarried : f.encode negative (2 * 2 ^ f.mantissaBits) (f.lastPlace m q) =
        f.encode negative (2 ^ f.mantissaBits) (f.lastPlace m q + 1) := by
      rw [← encode_scale f negative (2 ^ f.mantissaBits) 1 (f.lastPlace m q + 1)]
      congr 1 <;> omega
    have hbits : f.sizeBits (2 ^ f.mantissaBits) (f.lastPlace m q + 1) =
        f.sizeBits (2 * 2 ^ f.mantissaBits) (f.lastPlace m q) := by
      have hnext : (f.lastPlace m q + 1 - f.minExponent).toNat =
          (f.lastPlace m q - f.minExponent).toNat + 1 := by omega
      rw [sizeBits, sizeBits, hnext]
      ring
    rw [hcarry, hcarried, encode_of_aligned (aligned_carry hmin) (Nat.two_pow_pos _).ne', hbits]

/-- **Rounding stays below a whole number** that the number is below. -/
theorem exists_canonical_le (hexponent : 2 ≤ f.exponentBits) {bound : Nat} (hm : m ≠ 0)
    (hq : q ≤ f.lastPlace m q) (hfraction : f.lastPlace m q < 0)
    (hlarge : 3 < f.minExponent + (2 ^ f.exponentBits : Nat)) (h : m ≤ bound * 2 ^ (-q).toNat) :
    ∃ r t, f.Canonical r t ∧ (∀ negative, f.encode negative m q = f.encode negative r t) ∧
      t ≤ 0 ∧ r ≤ bound * 2 ^ (-t).toNat := by
  have hmin : f.minExponent ≤ f.lastPlace m q := le_max_right _ _
  have hwritten := fun negative => (encode_shiftRound hexponent negative hm hq).symm
  have hkept : shiftRound m (f.lastPlace m q - q).toNat ≤ bound * 2 ^ (-f.lastPlace m q).toNat := by
    refine shiftRound_le (h.trans (Nat.le_of_eq ?_))
    rw [Nat.mul_assoc, ← pow_add]
    congr 2
    omega
  have hround := aligned_shiftRound hm hq
  generalize shiftRound m _ = kept at hround hkept hwritten
  generalize f.lastPlace m q = place at *
  rcases hround with haligned | rfl
  · exact ⟨kept, place, ⟨haligned, by omega⟩, hwritten, hfraction.le, hkept⟩
  · -- Rounding carried into a new bit: half the mantissa at the next exponent is the same
    -- number.
    refine ⟨2 ^ f.mantissaBits, place + 1, ⟨aligned_carry hmin, by omega⟩, fun negative => ?_,
      hfraction, ?_⟩
    · rw [hwritten, ← encode_scale f negative (2 ^ f.mantissaBits) 1 (place + 1)]
      congr 1 <;> omega
    · have hpower : 2 ^ (-place).toNat = 2 * 2 ^ (-(place + 1)).toNat := by
        rw [← pow_succ']
        congr 1
        omega
      rw [hpower, Nat.mul_left_comm] at hkept
      exact Nat.le_of_mul_le_mul_left hkept Nat.two_pos

end BinaryFormat

end DesignCompiler
