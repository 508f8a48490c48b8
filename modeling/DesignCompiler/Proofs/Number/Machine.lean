import Mathlib
import DesignCompiler.Proofs.Number.Binary
import DesignCompiler.Number.Rounding
/-!
# Machine floats

Arithmetic on floats unpacks the bit patterns, computes with the unpacked numbers, rounds them, and
packs what comes out. Here each of these steps is put in terms of `BinaryFormat`:

* `unpack_eq` — unpacking is reading;
* `toNat_pack_finite` — packing is writing;
* `toNat_pack_round` — rounding before packing changes nothing, since writing rounds by itself;
* `toNat_pack_mul` — so a product is what is written of the exact product.

All of it is for any widths of the fields, as long as the exponent has two bits. That packing undoes
unpacking is a lemma of Batteries, whose lemmas on floats come with the whole of Mathlib only.
-/

namespace DesignCompiler

open Float.Model (UnpackedFloat Format)
open Float.Model.UnpackedFloat

/-- A format of machine floats, by the widths of its fields. -/
def BinaryFormat.ofMachine (spec : Float.Model.Format) : BinaryFormat :=
  ⟨spec.mantissaBitsWithoutImplicit, spec.exponentBits⟩

/-- The sign of a machine float. -/
def machineSign (negative : Bool) : Sign := if negative then .negative else .positive

/-- A number taken apart, as machine arithmetic has it: zeros are on their own. -/
def BinaryParts.unpacked : BinaryParts → UnpackedFloat
  | .nan => .notANumber
  | .infinite negative => .infinity (machineSign negative)
  | .finite negative m q =>
    if h : m = 0 then .zero (machineSign negative)
    else .finite (machineSign negative) m q (Nat.pos_of_ne_zero h)

variable {spec : Float.Model.Format}

/-! ### Fields -/

/-- The mantissa of the machine is the lowest field of the bits. -/
theorem toNat_unpackMantissa (b : BitVec spec.numBits) :
    (unpackMantissa b).toNat = b.toNat % 2 ^ spec.mantissaBitsWithoutImplicit := by
  have hbits : spec.mantissaBitsWithoutImplicit - 1 + 1 = spec.mantissaBitsWithoutImplicit :=
    Nat.sub_add_cancel spec.hm
  simp [unpackMantissa, hbits]

/-- The exponent of the machine is the middle field of the bits. -/
theorem toNat_unpackExponent (b : BitVec spec.numBits) :
    (unpackExponent b).toNat =
      b.toNat / 2 ^ spec.mantissaBitsWithoutImplicit % 2 ^ spec.exponentBits := by
  have hbits : spec.mantissaBitsWithoutImplicit + spec.exponentBits - 1 -
      spec.mantissaBitsWithoutImplicit + 1 = spec.exponentBits := by
    have := spec.he
    omega
  simp [unpackExponent, hbits, Nat.shiftRight_eq_div_pow]

/-- The sign of the machine is the highest bit. -/
theorem toNat_unpackSign (b : BitVec spec.numBits) :
    (unpackSign b).toNat =
      b.toNat / 2 ^ (spec.mantissaBitsWithoutImplicit + spec.exponentBits) % 2 := by
  simp [unpackSign, Nat.shiftRight_eq_div_pow]

theorem ofBitVec_eq (b : BitVec 1) : Sign.ofBitVec b = machineSign (b.toNat == 1) := by
  obtain rfl | rfl := BitVec.eq_zero_or_eq_one b <;> rfl

theorem toNat_toBitVec (negative : Bool) : (machineSign negative).toBitVec.toNat = negative.toNat := by
  cases negative <;> rfl

theorem toNat_leading {width : Nat} (b : BitVec width) : (1#1 ++ b).toNat = 2 ^ width + b.toNat := by
  rw [BitVec.toNat_append, ← Nat.shiftLeft_add_eq_or_of_lt b.isLt]
  simp [Nat.shiftLeft_eq]

theorem exponentBias_eq (spec : Format) :
    (spec.exponentBias : Int) = 2 ^ (spec.exponentBits - 1) - 1 := by
  rw [Format.exponentBias]
  push_cast [Nat.cast_sub (Nat.two_pow_pos (spec.exponentBits - 1))]
  rfl

/-- The machine reads a bit pattern as it is read here. -/
theorem unpack_eq (spec : Format) (b : BitVec spec.numBits) :
    unpack spec b = ((BinaryFormat.ofMachine spec).decode b.toNat).unpacked := by
  have hmantissa : unpackMantissa b = 0#_ ↔
      b.toNat % 2 ^ spec.mantissaBitsWithoutImplicit = 0 := by
    rw [← toNat_unpackMantissa, ← BitVec.toNat_inj, BitVec.toNat_zero]
  have hzero : unpackExponent b = 0#_ ↔
      b.toNat / 2 ^ spec.mantissaBitsWithoutImplicit % 2 ^ spec.exponentBits = 0 := by
    rw [← toNat_unpackExponent, ← BitVec.toNat_inj, BitVec.toNat_zero]
  have hmax : unpackExponent b = -1#_ ↔
      b.toNat / 2 ^ spec.mantissaBitsWithoutImplicit % 2 ^ spec.exponentBits =
        2 ^ spec.exponentBits - 1 := by
    rw [← toNat_unpackExponent, ← BitVec.toNat_inj, BitVec.neg_one_eq_allOnes, BitVec.toNat_allOnes]
  have hbias := exponentBias_eq spec
  unfold unpack BinaryFormat.decode BinaryFormat.ofMachine
  simp only [BinaryFormat.maxField, BinaryFormat.minExponent, Nat.pow_eq, hmantissa, hzero, hmax,
    ofBitVec_eq, toNat_unpackSign, toNat_unpackMantissa, toNat_unpackExponent, toNat_leading]
  generalize b.toNat / 2 ^ spec.mantissaBitsWithoutImplicit % 2 ^ spec.exponentBits = field
  -- The cases of the machine: infinity, NaN, zero, subnormal and normal number.
  split_ifs with h1 h2 h3 h4
  · rfl
  · rfl
  · simp [BinaryParts.unpacked, h4]
  · simp only [BinaryParts.unpacked, dif_neg h4, UnpackedFloat.finite.injEq, true_and, h3]
    push_cast
    omega
  · have hpos := Nat.two_pow_pos spec.mantissaBitsWithoutImplicit
    rw [BinaryParts.unpacked, dif_neg (by omega)]
    simp only [UnpackedFloat.finite.injEq, true_and]
    push_cast
    omega

/-! ### Packing -/

/-- Packing three fields puts them one above the other. -/
theorem toNat_packComponents (negative : Bool) (field : BitVec spec.exponentBits)
    (mantissa : BitVec spec.mantissaBitsWithoutImplicit) :
    (packComponents spec (machineSign negative) field mantissa).toNat =
      (BinaryFormat.ofMachine spec).signBits negative +
        (field.toNat * 2 ^ spec.mantissaBitsWithoutImplicit + mantissa.toNat) := by
  have hjoin {width width' : Nat} (high : BitVec width) (low : BitVec width') :
      (high ++ low).toNat = high.toNat * 2 ^ width' + low.toNat := by
    rw [BitVec.toNat_append, ← Nat.shiftLeft_add_eq_or_of_lt low.isLt, Nat.shiftLeft_eq]
  rw [packComponents, hjoin, hjoin, toNat_toBitVec, BinaryFormat.signBits]
  cases negative <;> simp [BinaryFormat.ofMachine]
  ring

/-- A zero is packed as the bits the format writes for it. -/
theorem toNat_pack_zero (negative : Bool) (q : Int) :
    (pack spec (.zero (machineSign negative))).toNat =
      (BinaryFormat.ofMachine spec).encode negative 0 q := by
  rw [BinaryFormat.encode_zero, pack, packedZero, toNat_packComponents]
  simp

/-- An infinity is packed as the bits the format writes for it. -/
theorem toNat_pack_infinity (negative : Bool) :
    (pack spec (.infinity (machineSign negative))).toNat =
      (BinaryFormat.ofMachine spec).infinityBits negative := by
  rw [BinaryFormat.infinityBits_eq, pack, packedInfinity, toNat_packComponents,
    BitVec.neg_one_eq_allOnes, BitVec.toNat_allOnes]
  simp [BinaryFormat.ofMachine]

/-- An aligned number whose exponent does not fit its field is written as the infinity or beyond. -/
theorem infinityBits_le_sizeBits (hexponent : 2 ≤ spec.exponentBits) {m : Nat} {q : Int}
    (h : (BinaryFormat.ofMachine spec).Aligned m q)
    (hoverflow : 2 ^ spec.exponentBits ≤
      (q - (BinaryFormat.ofMachine spec).minExponent).toNat + 1 + 1) :
    (BinaryFormat.ofMachine spec).infinityBits false ≤
      (BinaryFormat.ofMachine spec).sizeBits m q := by
  have hlarge : 4 ≤ 2 ^ spec.exponentBits := Nat.pow_le_pow_right Nat.two_pos hexponent
  -- The least exponent fits, so this is a larger one and the mantissa has its leading bit.
  have hge : 2 ^ spec.mantissaBitsWithoutImplicit ≤ m := by
    refine h.leading.resolve_right fun hq => ?_
    rw [hq, Int.sub_self] at hoverflow
    omega
  rw [BinaryFormat.infinityBits_eq, BinaryFormat.signBits, if_neg (by decide)]
  calc 0 + (2 ^ spec.exponentBits - 1) * 2 ^ spec.mantissaBitsWithoutImplicit
      ≤ ((q - (BinaryFormat.ofMachine spec).minExponent).toNat + 1) *
          2 ^ spec.mantissaBitsWithoutImplicit := by
        rw [Nat.zero_add]
        exact Nat.mul_le_mul_right _ (by omega)
    _ = (q - (BinaryFormat.ofMachine spec).minExponent).toNat *
          2 ^ spec.mantissaBitsWithoutImplicit + 2 ^ spec.mantissaBitsWithoutImplicit := by
        rw [Nat.add_mul, Nat.one_mul]
    _ ≤ (BinaryFormat.ofMachine spec).sizeBits m q := Nat.add_le_add_left hge _

/-- A mantissa has all of its bits exactly if it has the leading one. -/
theorem log2_add_one_eq_iff {m : Nat} (hm : 0 < m)
    (hlt : m < 2 * 2 ^ spec.mantissaBitsWithoutImplicit) :
    m.log2 + 1 = spec.mantissaBits ↔ 2 ^ spec.mantissaBitsWithoutImplicit ≤ m := by
  have hupper : m.log2 < spec.mantissaBitsWithoutImplicit + 1 :=
    (Nat.log2_lt hm.ne').mpr (by rw [pow_succ, mul_comm]; exact hlt)
  rw [← Nat.le_log2 hm.ne', Format.mantissaBits]
  omega

/-- The machine adds a bias to an exponent, which is to count from the least one. -/
theorem biasedExponent_eq {q : Int} (hmin : (BinaryFormat.ofMachine spec).minExponent ≤ q) :
    (q + spec.exponentBias + spec.mantissaBitsWithoutImplicit).toNat =
      (q - (BinaryFormat.ofMachine spec).minExponent).toNat + 1 := by
  have hbias := exponentBias_eq spec
  have hleast : (BinaryFormat.ofMachine spec).minExponent =
      3 - 2 ^ (spec.exponentBits - 1) - (spec.mantissaBitsWithoutImplicit + 1) := by
    simp [BinaryFormat.minExponent, BinaryFormat.ofMachine]
  omega

/-- A leading bit is not stored, and the exponent field counts one more for it. -/
theorem toNat_packComponents_leading {m field : Nat} (negative : Bool)
    (hlt : m < 2 * 2 ^ spec.mantissaBitsWithoutImplicit)
    (hge : 2 ^ spec.mantissaBitsWithoutImplicit ≤ m) (hfield : field + 1 < 2 ^ spec.exponentBits) :
    (packComponents spec (machineSign negative) (BitVec.ofNat _ (field + 1))
        (BitVec.ofNat _ m)).toNat =
      (BinaryFormat.ofMachine spec).signBits negative +
        (field * 2 ^ spec.mantissaBitsWithoutImplicit + m) := by
  -- The leading bit is not stored; it is the unit the exponent field is one higher by.
  have hstored : m % 2 ^ spec.mantissaBitsWithoutImplicit =
      m - 2 ^ spec.mantissaBitsWithoutImplicit := by
    rw [Nat.mod_eq_sub_mod hge, Nat.mod_eq_of_lt (by omega)]
  rw [toNat_packComponents, BitVec.toNat_ofNat, BitVec.toNat_ofNat, hstored,
    Nat.mod_eq_of_lt hfield, Nat.add_mul, Nat.one_mul]
  omega

/-- **The machine writes an aligned number as it is written here.** -/
theorem toNat_pack_finite (hexponent : 2 ≤ spec.exponentBits) {m : Nat} {q : Int}
    (h : (BinaryFormat.ofMachine spec).Aligned m q) (negative : Bool) (hm : 0 < m) :
    (pack spec (.finite (machineSign negative) m q hm)).toNat =
      (BinaryFormat.ofMachine spec).encode negative m q := by
  have hlt : m < 2 * 2 ^ spec.mantissaBitsWithoutImplicit := h.lt
  unfold pack
  simp only [biasedExponent_eq h.min_le]
  by_cases hoverflow : 2 ^ spec.exponentBits ≤
      (q - (BinaryFormat.ofMachine spec).minExponent).toNat + 1 + 1
  · -- Beyond the largest number both write the infinity.
    rw [if_pos hoverflow, BinaryFormat.encode_of_aligned h hm.ne',
      if_pos (infinityBits_le_sizeBits hexponent h hoverflow)]
    exact toNat_pack_infinity negative
  · have hmin := h.min_le
    have hcanonical : (BinaryFormat.ofMachine spec).Canonical m q := ⟨h, by
      change q + 3 ≤ _ + ((2 ^ spec.exponentBits : Nat) : Int)
      omega⟩
    rw [if_neg hoverflow, BinaryFormat.encode_of_canonical hcanonical, BinaryFormat.sizeBits]
    simp only [log2_add_one_eq_iff hm hlt]
    split_ifs with hge
    · exact toNat_packComponents_leading negative hlt hge (by omega)
    · -- Without a leading bit the exponent is the least one, whose field is zero.
      have hleast := h.leading.resolve_left hge
      rw [toNat_packComponents, BitVec.toNat_ofNat, BitVec.toNat_ofNat,
        Nat.mod_eq_of_lt (Nat.not_le.mp hge), hleast, Int.sub_self]
      simp [BinaryFormat.ofMachine]

/-- Aligned parts are packed as the bits the format writes for them, an infinity when they are too
large. -/
theorem toNat_pack_unpacked (hexponent : 2 ≤ spec.exponentBits) {m : Nat} {q : Int}
    (h : (BinaryFormat.ofMachine spec).Aligned m q) (negative : Bool) :
    (pack spec (BinaryParts.finite negative m q).unpacked).toNat =
      (BinaryFormat.ofMachine spec).encode negative m q := by
  rw [BinaryParts.unpacked]
  split_ifs with hm
  · subst hm
    rw [toNat_pack_zero]
  · rw [toNat_pack_finite hexponent h]

/-- Only what is not a number is unpacked to that. -/
theorem BinaryParts.eq_nan_of_unpacked {parts : BinaryParts} (h : parts.unpacked = .notANumber) :
    parts = .nan := by
  cases parts with
  | nan => rfl
  | infinite negative => cases h
  | finite negative m q =>
    rw [unpacked] at h
    split at h <;> cases h

/-- Packing undoes unpacking, but for what is not a number: that comes in several patterns, of which
one is written. -/
theorem pack_unpack_of_ne_nan (spec : Format) (hexponent : 2 ≤ spec.exponentBits)
    {b : BitVec spec.numBits} (h : (BinaryFormat.ofMachine spec).decode b.toNat ≠ .nan) :
    pack spec (unpack spec b) = b := by
  have hnumber : ¬isNaNBits b = true := by
    intro hbits
    obtain ⟨hmax, hmantissa⟩ := of_decide_eq_true hbits
    refine h (BinaryParts.eq_nan_of_unpacked ?_)
    rw [← unpack_eq, unpack, if_pos hmax, if_neg hmantissa]
  rw [pack_unpack b hexponent, if_neg hnumber]

/-! ### Rounding -/

/-- What the bits of a shifted mantissa say about the bits shifted out of it. -/
structure Shifted (em : ExtendedMantissa) (m shift : Nat) : Prop where
  mantissa : em.mantissa = m / 2 ^ shift
  roundBit : em.roundBit = true ↔ 2 ^ shift ≤ 2 * (m % 2 ^ shift)
  stickyBit : em.stickyBit = true ↔ m % 2 ^ shift ≠ 0 ∧ 2 * (m % 2 ^ shift) ≠ 2 ^ shift

/-- One more bit shifted out: the bit goes to the round bit, and what was there joins the sticky
one. -/
theorem Shifted.succ {em : ExtendedMantissa} {m shift : Nat} (h : Shifted em m shift) :
    Shifted em.shiftRightOne m (shift + 1) := by
  obtain ⟨hmantissa, hround, hsticky⟩ := h
  have hpos := Nat.two_pow_pos shift
  have hrest : m % 2 ^ shift < 2 ^ shift := Nat.mod_lt _ hpos
  have hunit : 2 ^ (shift + 1) = 2 * 2 ^ shift := by rw [pow_succ, mul_comm]
  have hnext : m % (2 * 2 ^ shift) = m % 2 ^ shift + 2 ^ shift * (m / 2 ^ shift % 2) := by
    rw [mul_comm, Nat.mod_mul]
  refine ⟨?_, ?_, ?_⟩
  · rw [ExtendedMantissa.shiftRightOne, hmantissa, Nat.div_div_eq_div_mul, ← pow_succ]
  · simp only [ExtendedMantissa.shiftRightOne, hmantissa, hunit, hnext, bne_iff_ne]
    -- The new round bit is the last bit of the quotient so far.
    obtain hbit | hbit := Nat.mod_two_eq_zero_or_one (m / 2 ^ shift)
    all_goals
      rw [hbit]
      omega
  · simp only [ExtendedMantissa.shiftRightOne, Bool.or_eq_true, hround, hsticky, hunit, hnext]
    obtain hbit | hbit := Nat.mod_two_eq_zero_or_one (m / 2 ^ shift)
    all_goals
      rw [hbit]
      omega

/-- A shift keeps the quotient, the first bit of the rest and whether anything follows it. -/
theorem shifted_shiftRight (m shift : Nat) :
    Shifted (ExtendedMantissa.ofMantissaAndAccuracy m .exact >>> shift) m shift := by
  induction shift with
  | zero =>
    change Shifted ⟨m, false, false⟩ m 0
    constructor <;> simp [Nat.mod_one]
  | succ shift ih => exact ih.succ

/-- **The machine rounds as it is rounded here.** -/
theorem Shifted.roundedMantissa_eq {em : ExtendedMantissa} {m shift : Nat} (h : Shifted em m shift) :
    em.roundedMantissa = BinaryFormat.shiftRound m shift := by
  obtain ⟨mantissa, roundBit, stickyBit⟩ := em
  obtain ⟨hmantissa, hround, hsticky⟩ := h
  simp only at hmantissa hround hsticky
  have hpos := Nat.two_pow_pos shift
  simp only [BinaryFormat.shiftRound, Nat.pow_eq, hmantissa]
  -- The two bits say whether the rest is none, below half, half or above it.
  cases roundBit <;> cases stickyBit <;>
    simp only [Bool.false_eq_true, false_iff, true_iff] at hround hsticky <;>
    simp only [ExtendedMantissa.roundedMantissa, ExtendedMantissa.accuracy,
      Accuracy.roundToNearestEven] <;>
    split_ifs <;> omega

/-- Shifting to the last place that the format keeps. -/
theorem shiftToTargetExponent_eq (m : Nat) (q : Int) :
    shiftToTargetExponent spec m q .exact =
      (ExtendedMantissa.ofMantissaAndAccuracy m .exact >>>
          ((BinaryFormat.ofMachine spec).lastPlace m q - q).toNat,
        q + ((BinaryFormat.ofMachine spec).lastPlace m q - q).toNat) := by
  have hplace : spec.targetExponent (Float.Model.totalExponent m q) =
      (BinaryFormat.ofMachine spec).lastPlace m q := by
    simp only [Format.targetExponent, Float.Model.totalExponent, BinaryFormat.lastPlace,
      BinaryFormat.ofMachine, Format.minExponent, BinaryFormat.minExponent, Format.mantissaBits,
      Nat.pow_eq]
    push_cast
    omega
  rw [shiftToTargetExponent, hplace, shiftToExponent]

/-- The machine shifts twice: to the last place kept of the number, and once more where rounding made
the mantissa longer. -/
theorem roundWithAccuracy_eq (negative : Bool) (m : Nat) {q : Int}
    (hq : q ≤ (BinaryFormat.ofMachine spec).lastPlace m q) :
    roundWithAccuracy spec (machineSign negative) m q .exact =
      let place := (BinaryFormat.ofMachine spec).lastPlace m q
      let kept := BinaryFormat.shiftRound m (place - q).toNat
      let carried := ((BinaryFormat.ofMachine spec).lastPlace kept place - place).toNat
      (BinaryParts.finite negative (kept / 2 ^ carried) (place + carried)).unpacked := by
  have hplace : q + (((BinaryFormat.ofMachine spec).lastPlace m q - q).toNat : Int) =
      (BinaryFormat.ofMachine spec).lastPlace m q := by omega
  simp only [roundWithAccuracy, shiftToTargetExponent_eq, hplace, BinaryParts.unpacked,
    (shifted_shiftRight _ _).roundedMantissa_eq, (shifted_shiftRight _ _).mantissa]

/-- **Rounding and packing write the nearest number,** where nothing has to be filled in. -/
theorem toNat_pack_round (hexponent : 2 ≤ spec.exponentBits) (negative : Bool) {m : Nat} {q : Int}
    (hm : m ≠ 0) (hq : q ≤ (BinaryFormat.ofMachine spec).lastPlace m q) :
    (pack spec (roundWithAccuracy spec (machineSign negative) m q .exact)).toNat =
      (BinaryFormat.ofMachine spec).encode negative m q := by
  have hmin : (BinaryFormat.ofMachine spec).minExponent ≤
      (BinaryFormat.ofMachine spec).lastPlace m q := le_max_right _ _
  rw [roundWithAccuracy_eq negative m hq, ← BinaryFormat.encode_shiftRound hexponent negative hm hq]
  have hround := BinaryFormat.aligned_shiftRound hm hq
  dsimp only
  generalize BinaryFormat.shiftRound m _ = kept at hround ⊢
  generalize (BinaryFormat.ofMachine spec).lastPlace m q = place at hround hmin ⊢
  -- The machine rounds, then aligns once more: it moves only when rounding carried into a new
  -- bit.
  rcases hround with haligned | rfl
  · have hcarried : ((BinaryFormat.ofMachine spec).lastPlace kept place - place).toNat = 0 := by
      by_cases hkept : kept = 0
      · unfold BinaryFormat.lastPlace
        rw [hkept, Nat.log2_zero]
        omega
      · rw [haligned.lastPlace_eq hkept]
        omega
    rw [hcarried, pow_zero, Nat.div_one, Nat.cast_zero, Int.add_zero,
      toNat_pack_unpacked hexponent haligned]
  · have hcarried : ((BinaryFormat.ofMachine spec).lastPlace
        (2 * 2 ^ (BinaryFormat.ofMachine spec).mantissaBits) place - place).toNat = 1 := by
      unfold BinaryFormat.lastPlace
      rw [← pow_succ', Nat.log2_two_pow]
      omega
    rw [hcarried, pow_one, Nat.mul_div_cancel_left _ Nat.two_pos, Nat.cast_one,
      toNat_pack_unpacked hexponent (BinaryFormat.aligned_carry hmin),
      ← BinaryFormat.encode_scale _ negative _ 1]
    congr 1 <;> omega

/-! ### Multiplication -/

theorem machineSign_mul (negative negative' : Bool) :
    machineSign negative * machineSign negative' = machineSign (negative != negative') := by
  cases negative <;> cases negative' <;> rfl

/-- The exact product of two numbers has bits enough: none has to be filled in. -/
theorem BinaryFormat.Canonical.le_lastPlace_mul {f : BinaryFormat} {m₁ m₂ : Nat} {q₁ q₂ : Int}
    (hmin : f.minExponent ≤ 0) (h₁ : f.Canonical m₁ q₁) (h₂ : f.Canonical m₂ q₂)
    (hm₁ : m₁ ≠ 0) (hm₂ : m₂ ≠ 0) : q₁ + q₂ ≤ f.lastPlace (m₁ * m₂) (q₁ + q₂) := by
  have hleading : 2 ^ f.mantissaBits ≤ m₁ * m₂ →
      q₁ + q₂ ≤ f.lastPlace (m₁ * m₂) (q₁ + q₂) := fun h => by
    have hlog := (Nat.le_log2 (Nat.mul_ne_zero hm₁ hm₂)).mpr h
    unfold lastPlace
    omega
  -- One leading bit is enough; without any, both stand at the least exponent, whose double is
  -- below it.
  rcases h₁.leading with h | hq₁
  · exact hleading (h.trans (Nat.le_mul_of_pos_right _ (Nat.pos_of_ne_zero hm₂)))
  · rcases h₂.leading with h | hq₂
    · exact hleading (h.trans (Nat.le_mul_of_pos_left _ (Nat.pos_of_ne_zero hm₁)))
    · unfold lastPlace
      omega

/-- **The machine product of two numbers is the number nearest to their product.** -/
theorem toNat_pack_mul (spec : Format) (hexponent : 2 ≤ spec.exponentBits)
    (hmin : (BinaryFormat.ofMachine spec).minExponent ≤ 0) {m₁ m₂ : Nat} {q₁ q₂ : Int}
    (h₁ : (BinaryFormat.ofMachine spec).Canonical m₁ q₁)
    (h₂ : (BinaryFormat.ofMachine spec).Canonical m₂ q₂) (n₁ n₂ : Bool) :
    (pack spec (UnpackedFloat.mul spec (BinaryParts.finite n₁ m₁ q₁).unpacked
        (BinaryParts.finite n₂ m₂ q₂).unpacked)).toNat =
      (BinaryFormat.ofMachine spec).encode (n₁ != n₂) (m₁ * m₂) (q₁ + q₂) := by
  -- The machine takes zeros out before it multiplies.
  by_cases hzero : m₁ = 0 ∨ m₂ = 0
  · have hmul : UnpackedFloat.mul spec (BinaryParts.finite n₁ m₁ q₁).unpacked
        (BinaryParts.finite n₂ m₂ q₂).unpacked = .zero (machineSign (n₁ != n₂)) := by
      rw [← machineSign_mul]
      simp only [BinaryParts.unpacked]
      split_ifs <;> simp_all [UnpackedFloat.mul]
    rw [hmul, toNat_pack_zero _ (q₁ + q₂), Nat.mul_eq_zero.mpr hzero]
  · obtain ⟨hm₁, hm₂⟩ := not_or.mp hzero
    simp only [BinaryParts.unpacked, dif_neg hm₁, dif_neg hm₂, UnpackedFloat.mul, machineSign_mul]
    exact toNat_pack_round hexponent _ (Nat.mul_ne_zero hm₁ hm₂)
      (h₁.le_lastPlace_mul hmin h₂ hm₁ hm₂)

end DesignCompiler
