import DesignCompiler.Proofs.Number.Machine
/-!
# Products and comparisons of floats

What is known about machine floats (`DesignCompiler.Proofs.Number.Machine`), said of the two widths
in use. A product is the float nearest to the exact product (`Float.mul_eq_ofFinite`,
`Float32.mul_eq_ofFinite`), and a comparison looks at the numbers (`Float32.parts_of_unit`). Two
facts that opacities need follow:

* `Float32.narrow_widen_mul_one` — multiplying by one in double precision changes nothing;
* `Float32.exists_hundredths` — what is rounded to two places is a whole number of hundredths.
-/

namespace DesignCompiler

open Float.Model (UnpackedFloat)
open Float.Model.UnpackedFloat

/-! ### Bits -/

/-- Bits that are not those of a NaN are kept as they are; only NaNs are brought to one pattern. -/
theorem Float32.toBits_ofBits {bits : UInt32}
    (h : BinaryFormat.binary32.decode bits.toNat ≠ .nan) : (Float32.ofBits bits).toBits = bits := by
  have h := pack_unpack_of_ne_nan .binary32 (by decide) (b := bits.toBitVec) h
  simp [Float32.ofBits, Float32.toBits, Float32.Model.ofBits, Float32.Model.pack, h]

/-- The same for double precision. -/
theorem Float.toBits_ofBits {bits : UInt64}
    (h : BinaryFormat.binary64.decode bits.toNat ≠ .nan) : (Float.ofBits bits).toBits = bits := by
  have h := pack_unpack_of_ne_nan .binary64 (by decide) (b := bits.toBitVec) h
  simp [Float.ofBits, Float.toBits, Float.Model.ofBits, Float.Model.pack, h]

/-! ### Reading and writing -/

section Read

variable {negative : Bool} {m : Nat} {q : Int}

/-- **A float is the float of its number.** -/
theorem Float32.ofFinite_of_parts {x : Float32} (h : Float32.parts x = .finite negative m q) :
    BinaryFormat.binary32.Canonical m q ∧ Float32.ofFinite negative m q = x := by
  obtain ⟨hcanonical, hbits⟩ :=
    BinaryFormat.encode_of_decode (f := .binary32) (by decide) x.toBits.toNat_lt h
  refine ⟨hcanonical, ?_⟩
  rw [Float32.ofFinite, hbits, Nat.toUInt32, UInt32.ofNat_toNat, Float32.ofBits_toBits]

/-- A finite number is canonical in its parts, and its parts give it back. -/
theorem Float.ofFinite_of_parts {x : Float} (h : Float.parts x = .finite negative m q) :
    BinaryFormat.binary64.Canonical m q ∧ Float.ofFinite negative m q = x := by
  obtain ⟨hcanonical, hbits⟩ :=
    BinaryFormat.encode_of_decode (f := .binary64) (by decide) x.toBits.toNat_lt h
  refine ⟨hcanonical, ?_⟩
  rw [Float.ofFinite, hbits, Nat.toUInt64, UInt64.ofNat_toNat, Float.ofBits_toBits]

/-- A canonical number takes no more bits than its format has. -/
theorem BinaryFormat.Canonical.encode_lt {f : BinaryFormat} (h : f.Canonical m q) :
    f.encode negative m q < 2 * (2 ^ f.mantissaBits * 2 ^ f.exponentBits) := by
  have hsize := h.sizeBits_lt
  have hsub : (2 ^ f.exponentBits - 1) * 2 ^ f.mantissaBits ≤
      2 ^ f.mantissaBits * 2 ^ f.exponentBits := by
    rw [mul_comm]
    exact Nat.mul_le_mul_left _ (Nat.sub_le _ _)
  rw [encode_of_canonical h, signBits]
  split_ifs <;> omega

/-- Canonical parts are read back from the number they make. -/
theorem Float32.parts_ofFinite (h : BinaryFormat.binary32.Canonical m q) :
    Float32.parts (Float32.ofFinite negative m q) = .finite negative m q := by
  have hbits : (BinaryFormat.binary32.encode negative m q).toUInt32.toNat =
      BinaryFormat.binary32.encode negative m q := UInt32.toNat_ofNat_of_lt' h.encode_lt
  have hdecode : BinaryFormat.binary32.decode (BinaryFormat.binary32.encode negative m q) =
      .finite negative m q := BinaryFormat.decode_encode h
  rw [Float32.parts, Float32.ofFinite, Float32.toBits_ofBits, hbits, hdecode]
  rw [hbits, hdecode]
  exact BinaryParts.noConfusion

/-- The same for double precision. -/
theorem Float.parts_ofFinite (h : BinaryFormat.binary64.Canonical m q) :
    Float.parts (Float.ofFinite negative m q) = .finite negative m q := by
  have hbits : (BinaryFormat.binary64.encode negative m q).toUInt64.toNat =
      BinaryFormat.binary64.encode negative m q := UInt64.toNat_ofNat_of_lt' h.encode_lt
  have hdecode : BinaryFormat.binary64.decode (BinaryFormat.binary64.encode negative m q) =
      .finite negative m q := BinaryFormat.decode_encode h
  rw [Float.parts, Float.ofFinite, Float.toBits_ofBits, hbits, hdecode]
  rw [hbits, hdecode]
  exact BinaryParts.noConfusion

/-- A mantissa with zeros appended, at an exponent as much lower, makes the same number. -/
theorem Float32.ofFinite_scale (negative : Bool) (m k : Nat) (q : Int) :
    Float32.ofFinite negative (m * 2 ^ k) (q - k) = Float32.ofFinite negative m q := by
  rw [Float32.ofFinite, BinaryFormat.encode_scale, Float32.ofFinite]

theorem Float.ofFinite_scale (negative : Bool) (m k : Nat) (q : Int) :
    Float.ofFinite negative (m * 2 ^ k) (q - k) = Float.ofFinite negative m q := by
  rw [Float.ofFinite, BinaryFormat.encode_scale, Float.ofFinite]

end Read

/-! ### Products -/

section Multiply

variable {n₁ n₂ : Bool} {m₁ m₂ : Nat} {q₁ q₂ : Int}

theorem Float32.unpack_eq (x : Float32) : x.toModel.unpack = (Float32.parts x).unpacked :=
  DesignCompiler.unpack_eq .binary32 x.toBits.toBitVec

theorem Float.unpack_eq (x : Float) : x.toModel.unpack = (Float.parts x).unpacked :=
  DesignCompiler.unpack_eq .binary64 x.toBits.toBitVec

/-- **A product is the float nearest to the product of the numbers.** -/
theorem Float32.mul_eq_ofFinite {x y : Float32} (hx : Float32.parts x = .finite n₁ m₁ q₁)
    (hy : Float32.parts y = .finite n₂ m₂ q₂) :
    x * y = Float32.ofFinite (n₁ != n₂) (m₁ * m₂) (q₁ + q₂) := by
  have hbits : (x * y).toBits.toNat =
      BinaryFormat.binary32.encode (n₁ != n₂) (m₁ * m₂) (q₁ + q₂) := by
    have h := toNat_pack_mul .binary32 (by decide) (by decide)
      (Float32.ofFinite_of_parts hx).1 (Float32.ofFinite_of_parts hy).1 n₁ n₂
    rwa [← hx, ← hy, ← Float32.unpack_eq, ← Float32.unpack_eq] at h
  rw [Float32.ofFinite, ← hbits, Nat.toUInt32, UInt32.ofNat_toNat, Float32.ofBits_toBits]

/-- A product of finite numbers is the rounded product of their parts. -/
theorem Float.mul_eq_ofFinite {x y : Float} (hx : Float.parts x = .finite n₁ m₁ q₁)
    (hy : Float.parts y = .finite n₂ m₂ q₂) :
    x * y = Float.ofFinite (n₁ != n₂) (m₁ * m₂) (q₁ + q₂) := by
  have hbits : (x * y).toBits.toNat =
      BinaryFormat.binary64.encode (n₁ != n₂) (m₁ * m₂) (q₁ + q₂) := by
    have h := toNat_pack_mul .binary64 (by decide) (by decide)
      (Float.ofFinite_of_parts hx).1 (Float.ofFinite_of_parts hy).1 n₁ n₂
    rwa [← hx, ← hy, ← Float.unpack_eq, ← Float.unpack_eq] at h
  rw [Float.ofFinite, ← hbits, Nat.toUInt64, UInt64.ofNat_toNat, Float.ofBits_toBits]

/-- One is neutral: the parts of a number are not rounded again. -/
theorem Float.mul_one {x : Float} {negative : Bool} {m : Nat} {q : Int}
    (hx : Float.parts x = .finite negative m q) : x * 1 = x := by
  have hone : Float.parts 1 = .finite false (1 * 2 ^ 52) (-52) := by decide +kernel
  rw [Float.mul_eq_ofFinite hx hone, Bool.bne_false, Nat.one_mul]
  exact (Float.ofFinite_scale negative m 52 q).trans (Float.ofFinite_of_parts hx).2

end Multiply

/-! ### Widths -/

/-- A number that fits the narrow format is held by the wide one once its leading bit is where that
format has it. -/
theorem canonical_widened {m : Nat} {q : Int} (h : BinaryFormat.binary32.Canonical m q) :
    ∃ k : Nat, BinaryFormat.binary64.Canonical (m * 2 ^ k) (q - k) := by
  obtain ⟨⟨hlt, hmin, hleading⟩, hmax⟩ := h
  have hsingle : BinaryFormat.binary32.minExponent = -149 := by decide
  have hdouble : BinaryFormat.binary64.minExponent = -1074 := by decide
  change m < 2 * 2 ^ 23 at hlt
  change 2 ^ 23 ≤ m ∨ _ at hleading
  change q + 3 ≤ _ + ((2 ^ 8 : Nat) : Int) at hmax
  rw [hsingle] at hmin hleading hmax
  by_cases hm : m = 0
  · -- Zero has the least exponent of either width.
    subst hm
    have hleast : q - (925 : Nat) = BinaryFormat.binary64.minExponent := by omega
    refine ⟨925, ⟨?_, hleast.ge, Or.inr hleast⟩, ?_⟩
    · rw [Nat.zero_mul]
      decide
    · rw [hleast]
      decide
  · -- Any other number is scaled until it has the 53 bits of the wide format.
    have hlog : m.log2 < 24 := (Nat.log2_lt hm).mpr hlt
    have hupper : m < 2 ^ (m.log2 + 1) := Nat.lt_log2_self
    have hlower : 2 ^ m.log2 ≤ m := Nat.log2_self_le hm
    refine ⟨52 - m.log2, ⟨?_, by omega, Or.inl ?_⟩, ?_⟩
    · calc m * 2 ^ (52 - m.log2) < 2 ^ (m.log2 + 1) * 2 ^ (52 - m.log2) :=
            Nat.mul_lt_mul_of_pos_right hupper (Nat.two_pow_pos _)
        _ = 2 * 2 ^ 52 := by
            rw [← pow_add, ← pow_succ']
            congr 1
            omega
    · calc 2 ^ 52 = 2 ^ m.log2 * 2 ^ (52 - m.log2) := by
            rw [← pow_add]
            congr 1
            omega
        _ ≤ m * 2 ^ (52 - m.log2) := Nat.mul_le_mul_right _ hlower
    · change _ + 3 ≤ BinaryFormat.binary64.minExponent + ((2 ^ 11 : Nat) : Int)
      omega

/-- **Every single-precision number is a double-precision number.** -/
theorem Float32.parts_widen {x : Float32} {negative : Bool} {m : Nat} {q : Int}
    (hx : Float32.parts x = .finite negative m q) :
    ∃ k : Nat, Float.parts (Float32.widen x) = .finite negative (m * 2 ^ k) (q - k) := by
  obtain ⟨k, hcanonical⟩ := canonical_widened (Float32.ofFinite_of_parts hx).1
  refine ⟨k, ?_⟩
  rw [Float32.widen, hx, Float.ofParts, ← Float.ofFinite_scale negative m k,
    Float.parts_ofFinite hcanonical]

/-- **Multiplying by one in double precision changes nothing.** -/
theorem Float32.narrow_widen_mul_one {x : Float32} {negative : Bool} {m : Nat} {q : Int}
    (hx : Float32.parts x = .finite negative m q) : Float.narrow (Float32.widen x * 1) = x := by
  obtain ⟨k, hk⟩ := Float32.parts_widen hx
  rw [Float.mul_one hk, Float.narrow, hk, Float32.ofParts, Float32.ofFinite_scale]
  exact (Float32.ofFinite_of_parts hx).2

/-! ### Comparisons -/

/-- The order of numbers is that of their unpacked parts. -/
theorem Float32.le_iff (x y : Float32) :
    x ≤ y ↔ ((Float32.parts x).unpacked.le (Float32.parts y).unpacked) = true := by
  rw [← Float32.unpack_eq, ← Float32.unpack_eq]
  change Float32.le x y = true ↔ _
  rw [Float32.le, decide_eq_true_iff]
  rfl

/-- The strict order of numbers is that of their unpacked parts. -/
theorem Float32.lt_iff (x y : Float32) :
    x < y ↔ ((Float32.parts x).unpacked.lt (Float32.parts y).unpacked) = true := by
  rw [← Float32.unpack_eq, ← Float32.unpack_eq]
  change Float32.lt x y = true ↔ _
  rw [Float32.lt, decide_eq_true_iff]
  rfl

theorem Float32.parts_zero : Float32.parts 0 = .finite false 0 (-149) := by decide +kernel

theorem Float32.parts_one : Float32.parts 1 = .finite false (2 ^ 23) (-23) := by decide +kernel

/-- **A number between zero and one,** with its sign. -/
theorem Float32.parts_of_unit {x : Float32} (hzero : 0 ≤ x) (hone : x ≤ 1) :
    ∃ negative m q, Float32.parts x = .finite negative m q ∧ (negative = true → m = 0) ∧
      q ≤ -23 ∧ m ≤ 2 ^ (-q).toNat := by
  rw [Float32.le_iff, Float32.parts_zero] at hzero
  rw [Float32.le_iff, Float32.parts_one] at hone
  have hunit : (BinaryParts.finite false (2 ^ 23) (-23)).unpacked =
      .finite .positive (2 ^ 23) (-23) (by decide) := rfl
  have hnone : (BinaryParts.finite false 0 (-149)).unpacked = .zero .positive := rfl
  rw [hnone] at hzero
  rw [hunit] at hone
  rcases hparts : Float32.parts x with _ | negative | ⟨negative, m, q⟩
  all_goals rw [hparts] at hzero hone
  · -- A NaN is not at least zero; an infinity is above one or below zero.
    exact absurd hzero (by decide)
  · cases negative
    · exact absurd hone (by decide)
    · exact absurd hzero (by decide)
  · obtain ⟨⟨⟨hlt, hmin, hleading⟩, hmax⟩, -⟩ := Float32.ofFinite_of_parts hparts
    change m < 2 * 2 ^ 23 at hlt
    refine ⟨negative, m, q, rfl, ?_⟩
    -- A zero is the only number that may carry a minus sign here; it stands at the least
    -- exponent.
    by_cases hm : m = 0
    · have hq : q = -149 := hleading.resolve_left (by rw [hm]; decide)
      exact ⟨fun _ => hm, by omega, hm ▸ Nat.zero_le _⟩
    · rw [BinaryParts.unpacked, dif_neg hm] at hzero hone
      cases negative
      · refine ⟨fun h => absurd h (by decide), ?_⟩
        simp only [UnpackedFloat.le, UnpackedFloat.compare, machineSign, Bool.false_eq_true,
          if_false, Option.any_some, Ordering.isLE_then_iff_or, compare_lt_iff_lt,
          compare_eq_iff_eq, Nat.isLE_compare] at hone
        -- At most one: the exponent is below that of one, or equal with at most its mantissa.
        rcases hone with hless | ⟨rfl, hle⟩
        · refine ⟨by omega, (Nat.le_of_lt hlt).trans ?_⟩
          rw [← pow_succ']
          exact Nat.pow_le_pow_right Nat.two_pos (by omega)
        · exact ⟨le_refl _, hle⟩
      · exact Bool.noConfusion hzero

/-- Comparing the other way round turns the answer about; a NaN gives none either way. -/
theorem compare_swap (x y : UnpackedFloat) :
    (x.compare y).map Ordering.swap = y.compare x := by
  rcases x with s | _ | s | ⟨s, m, q, hm⟩ <;> rcases y with t | _ | t | ⟨t, n, r, hn⟩ <;>
    try cases s
  all_goals try cases t
  all_goals first
    | rfl
    | simp [UnpackedFloat.compare, Ordering.swap_then, Nat.compare_swap, Int.compare_swap]

/-- A number at most another one is not above it. The converse fails at NaN. -/
theorem Float32.not_lt_of_le {x y : Float32} (h : x ≤ y) : ¬ y < x := by
  rw [Float32.le_iff, UnpackedFloat.le] at h
  rw [Float32.lt_iff, UnpackedFloat.lt, ← compare_swap]
  generalize UnpackedFloat.compare _ _ = order at h ⊢
  rcases order with _ | _ | _ | _
  · exact Bool.noConfusion h
  · decide
  · decide
  · exact Bool.noConfusion h

/-- What lies in a range is not stopped at its ends. -/
theorem Float32.clamp_of_mem {low high x : Float32} (hlow : low ≤ x) (hhigh : x ≤ high) :
    Float32.clamp low high x = x := by
  rw [Float32.clamp, if_neg (Float32.not_lt_of_le hlow), if_neg (Float32.not_lt_of_le hhigh)]

/-! ### Hundredths -/

theorem Float32.parts_hundred : Float32.parts 100 = .finite false 13107200 (-17) := by
  decide +kernel

/-- Of a zero there are no hundredths. -/
theorem Float32.round_hundredths_zero {x : Float32} {negative : Bool} {q : Int}
    (hparts : Float32.parts x = .finite negative 0 q) (hsign : x ≠ -0) :
    Float32.round (x * 100) = Float32.ofFinite false 0 0 := by
  obtain ⟨hcanonical, hx⟩ := Float32.ofFinite_of_parts hparts
  obtain rfl : q = -149 := hcanonical.leading.resolve_left (by decide)
  cases negative
  · rw [← hx]
    decide +kernel
  · exact absurd (hx.symm.trans (by decide +kernel)) hsign

/-- **A hundred times a number that is at most one** has no more than a hundred units. -/
theorem Float32.exists_parts_mul_hundred {x : Float32} {m : Nat} {q : Int} (hm : m ≠ 0)
    (hparts : Float32.parts x = .finite false m q) (hq : q ≤ -23) (hle : m ≤ 2 ^ (-q).toNat) :
    ∃ r t, Float32.parts (x * 100) = .finite false r t ∧ t ≤ 0 ∧ r ≤ 100 * 2 ^ (-t).toNat := by
  have hcanonical := (Float32.ofFinite_of_parts hparts).1
  have hproduct : m * 13107200 ≠ 0 := by omega
  -- The product has more bits than are kept, and the last one that is kept is a fraction.
  have hplace : q + -17 ≤ BinaryFormat.binary32.lastPlace (m * 13107200) (q + -17) := by
    have hlog : 23 ≤ (m * 13107200).log2 := (Nat.le_log2 hproduct).mpr (by omega)
    change _ ≤ max (_ - ((23 : Nat) : Int)) _
    omega
  have hfraction : BinaryFormat.binary32.lastPlace (m * 13107200) (q + -17) < 0 := by
    have hlt : m < 2 * 2 ^ 23 := hcanonical.lt
    have hlog : (m * 13107200).log2 < 48 := (Nat.log2_lt hproduct).mpr (by omega)
    change max (_ - ((23 : Nat) : Int)) (-149) < 0
    omega
  have hbound : m * 13107200 ≤ 100 * 2 ^ (-(q + -17)).toNat := by
    have hshift : (-(q + -17)).toNat = (-q).toNat + 17 := by omega
    rw [hshift, pow_add]
    omega
  obtain ⟨r, t, hrounded, hencode, ht, hr⟩ := BinaryFormat.exists_canonical_le (by decide)
    hproduct hplace hfraction (by decide) hbound
  refine ⟨r, t, ?_, ht, hr⟩
  rw [Float32.mul_eq_ofFinite hparts Float32.parts_hundred, Bool.bne_false, Float32.ofFinite,
    hencode, ← Float32.ofFinite, Float32.parts_ofFinite hrounded]

/-- Rounding stays below a whole number that the number is below. -/
theorem BinaryParts.exists_round_le {bound r : Nat} {t : Int} (ht : t ≤ 0)
    (hr : r ≤ bound * 2 ^ (-t).toNat) (negative : Bool) :
    ∃ k ≤ bound, (BinaryParts.finite negative r t).round = .finite negative k 0 := by
  have hpos := Nat.two_pow_pos (-t).toNat
  rw [BinaryParts.round]
  -- A whole number is kept; a fraction rounds down half a unit above it.
  split_ifs with hwhole
  · obtain rfl : t = 0 := by omega
    exact ⟨r, by simpa using hr, rfl⟩
  · refine ⟨_, ?_, rfl⟩
    rw [Nat.pow_eq, Nat.div_le_iff_le_mul_add_pred (by omega)]
    have hdouble : 2 * 2 ^ (-t).toNat * bound = 2 * (bound * 2 ^ (-t).toNat) := by
      rw [mul_assoc, mul_comm bound]
    omega

/-- **A number between zero and one is a whole number of hundredths** once it is rounded to two places. -/
theorem Float32.exists_hundredths {x : Float32} (hzero : 0 ≤ x) (hone : x ≤ 1) (hsign : x ≠ -0) :
    ∃ k ≤ 100, Float32.round (x * 100) = Float32.ofFinite false k 0 := by
  obtain ⟨negative, m, q, hparts, hnegative, hq, hm⟩ := Float32.parts_of_unit hzero hone
  by_cases hnone : m = 0
  · subst hnone
    exact ⟨0, Nat.zero_le _, Float32.round_hundredths_zero hparts hsign⟩
  · obtain rfl : negative = false := Bool.eq_false_iff.mpr fun h => hnone (hnegative h)
    obtain ⟨r, t, hproduct, ht, hr⟩ := Float32.exists_parts_mul_hundred hnone hparts hq hm
    obtain ⟨k, hk, hround⟩ := BinaryParts.exists_round_le ht hr false
    refine ⟨k, hk, ?_⟩
    rw [Float32.round, hproduct, hround, Float32.ofParts]

end DesignCompiler
