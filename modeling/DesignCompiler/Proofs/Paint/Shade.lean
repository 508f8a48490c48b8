import DesignCompiler.Paint.Color
import DesignCompiler.Proofs.Number.Arithmetic
import DesignCompiler.Proofs.Number.Numeral
import DesignCompiler.Proofs.Style.CanonicalKey
/-!
# Colors that are written alike

CSS notation keeps a byte of red, green and blue and, of an alpha that is not opaque, two places. So
colors that agree in these are written alike, and no others are: `Color.cssText_eq_iff`, where the
relation is `Color.SameShade`. Each part of a text is read back: bytes from their hex digits or
between commas, hundredths from their decimal.

An alpha is taken to lie between zero and one. The negative zero is left out, which agrees with zero
as a number and is written with its sign.
-/

namespace DesignCompiler

namespace Color

/-- The alpha in whole hundredths. -/
def hundredths (c : Color) : Nat :=
  Float32.toNatSaturating 100 (Float32.round (Float32.clamp 0 1 c.a * 100))

/-- **Colors of one shade:** the bytes of red, green and blue agree, and either both colors are opaque
or neither is, and then the hundredths of the alphas agree. -/
structure SameShade (c d : Color) : Prop where
  red : quantize c.r = quantize d.r
  green : quantize c.g = quantize d.g
  blue : quantize c.b = quantize d.b
  isOpaque : quantize c.a = 255 ↔ quantize d.a = 255
  hundredths : quantize c.a ≠ 255 → c.hundredths = d.hundredths

variable {c d : Color}

/-- **An alpha that a color is meant to have:** between zero and one, and not the negative zero. -/
structure ProperAlpha (c : Color) : Prop where
  nonneg : 0 ≤ c.a
  le_one : c.a ≤ 1
  unsigned : c.a ≠ -0

/-- Full opacity leaves a color as it is. -/
theorem ProperAlpha.withOpacity_one (h : c.ProperAlpha) : c.withOpacity 1 = c := by
  obtain ⟨negative, m, q, hparts, -⟩ := Float32.parts_of_unit h.nonneg h.le_one
  rw [withOpacity, Float32.narrow_widen_mul_one hparts]

/-! ### Texts of bytes and hundredths -/

/-- The number of hundredths that a decimal writes. -/
def hundredthsOf? (text : String) : Option Nat :=
  (readDecimal? text.toList).map fun (d, e) => d * 10 ^ (2 + e).toNat

/-- Hundredths are read back from how they are written: all hundred and one of them are tried. -/
theorem hundredthsOf?_text : ∀ k < 101,
    hundredthsOf? (Float32.text (Float32.ofFinite false k 0 / 100)) = some k := by
  decide +kernel

theorem toNatSaturating_ofFinite : ∀ k < 101,
    Float32.toNatSaturating 100 (Float32.ofFinite false k 0) = k := by
  decide +kernel

theorem hexByte?_byteDigits : ∀ n < 256,
    hexByte? (Nat.digitChar (n / 16)).toUpper (Nat.digitChar (n % 16)).toUpper = some n.toUInt8 := by
  decide +kernel

/-- Two digits are known from their byte and tell it. -/
theorem upper_byteDigits_inj {n m : UInt8} (h : (byteDigits n).map Char.toUpper =
    (byteDigits m).map Char.toUpper) : n = m := by
  have hread (k : UInt8) : hexByte? (Nat.digitChar (k.toNat / 16)).toUpper
      (Nat.digitChar (k.toNat % 16)).toUpper = some k := by
    rw [hexByte?_byteDigits k.toNat k.toNat_lt, Nat.toUInt8, UInt8.ofNat_toNat]
  simp only [byteDigits, List.map_cons, List.map_nil, List.cons.injEq, and_true] at h
  rw [← Option.some.injEq, ← hread n, ← hread m, h.1, h.2]

/-- Six hex digits tell the three bytes. -/
theorem upperHex_inj {r g b r' g' b' : UInt8} (h : upperHex [r, g, b] = upperHex [r', g', b']) :
    r = r' ∧ g = g' ∧ b = b' := by
  have hlist := String.ofList_injective h
  simp only [List.flatMap_cons, List.flatMap_nil, List.map_append, List.append_nil] at hlist
  obtain ⟨hr, hrest⟩ := List.append_inj hlist rfl
  obtain ⟨hg, hb⟩ := List.append_inj hrest rfl
  exact ⟨upper_byteDigits_inj hr, upper_byteDigits_inj hg, upper_byteDigits_inj hb⟩

/-- The notation of a color that is not opaque. -/
def rgbaText (r g b : UInt8) (alpha : String) : String :=
  s!"rgba({r.toNat}, {g.toNat}, {b.toNat}, {alpha})"

/-- The notation with commas tells its three bytes and the text of its alpha. -/
theorem rgbaText_inj {r g b r' g' b' : UInt8} {alpha alpha' : String}
    (h : rgbaText r g b alpha = rgbaText r' g' b' alpha') :
    r = r' ∧ g = g' ∧ b = b' ∧ alpha = alpha' := by
  have hcomma (n : UInt8) : ',' ∉ (toString n.toNat).toList := (isNumeral_nat _).not_mem (by decide)
  have hnumber {n m : UInt8} (h : (toString n.toNat).toList = (toString m.toNat).toList) : n = m := by
    have hdigits : Nat.toDigits 10 n.toNat = Nat.toDigits 10 m.toNat := by simpa using h
    have hvalue := congrArg (Nat.ofDigitChars 10 · 0) hdigits
    simp only [Nat.ofDigitChars_ten_toDigits] at hvalue
    exact UInt8.toNat_inj.mp hvalue
  have htext (r g b : UInt8) (alpha : String) : (rgbaText r g b alpha).toList =
      "rgba(".toList ++ ((toString r.toNat).toList ++ ',' :: (' ' :: (toString g.toNat).toList ++
        ',' :: (' ' :: (toString b.toNat).toList ++ ',' :: (' ' :: alpha.toList ++ [')'])))) := by
    have hcomma : (toString ", ").toList = [',', ' '] := rfl
    have hopen : (toString "rgba(").toList = "rgba(".toList := rfl
    have hclose : (toString ")").toList = [')'] := rfl
    simp only [rgbaText, String.toList_append, List.append_assoc, List.cons_append,
      List.nil_append, hcomma, hopen, hclose]
    rfl
  -- No number holds a comma, so the text is cut at its commas, one after the other.
  have hlist := congrArg String.toList h
  rw [htext, htext] at hlist
  have hblank {n : UInt8} : ',' ∉ ' ' :: (toString n.toNat).toList := by
    simpa using hcomma n
  obtain ⟨hr, hgreen⟩ := append_separator_inj (hcomma r) (hcomma r') (List.append_cancel_left hlist)
  obtain ⟨hg, hblue⟩ := append_separator_inj hblank hblank hgreen
  obtain ⟨hb, halpha⟩ := append_separator_inj hblank hblank hblue
  exact ⟨hnumber hr, hnumber (List.cons.inj hg).2, hnumber (List.cons.inj hb).2,
    String.toList_injective (List.append_cancel_right (List.cons.inj halpha).2)⟩

/-- Opaque colors are written in hex, the others with their alpha in hundredths. -/
theorem cssText_eq (c : Color) : c.cssText =
    if quantize c.a = 255 then "#" ++ upperHex [quantize c.r, quantize c.g, quantize c.b]
    else rgbaText (quantize c.r) (quantize c.g) (quantize c.b)
      (Float32.text (Float32.round (Float32.clamp 0 1 c.a * 100) / 100)) := by
  by_cases h : quantize c.a = 255
  · simp only [cssText, hexText, bytes, h, if_true]
  · simp only [cssText, bytes, h, if_false, rgbaText]

/-! ### The law -/

/-- What is written of an alpha is its hundredths. -/
theorem ProperAlpha.text_eq_iff (hc : c.ProperAlpha) (hd : d.ProperAlpha) :
    Float32.text (Float32.round (Float32.clamp 0 1 c.a * 100) / 100) =
        Float32.text (Float32.round (Float32.clamp 0 1 d.a * 100) / 100) ↔
      c.hundredths = d.hundredths := by
  obtain ⟨k, hk, hround⟩ := Float32.exists_hundredths hc.nonneg hc.le_one hc.unsigned
  obtain ⟨n, hn, hround'⟩ := Float32.exists_hundredths hd.nonneg hd.le_one hd.unsigned
  have hkey : c.hundredths = k ∧ d.hundredths = n := by
    unfold hundredths
    rw [Float32.clamp_of_mem hc.nonneg hc.le_one, Float32.clamp_of_mem hd.nonneg hd.le_one, hround,
      hround']
    exact ⟨toNatSaturating_ofFinite k (by omega), toNatSaturating_ofFinite n (by omega)⟩
  rw [Float32.clamp_of_mem hc.nonneg hc.le_one, Float32.clamp_of_mem hd.nonneg hd.le_one, hround,
    hround', hkey.1, hkey.2]
  -- Within the bounds both alphas are whole hundredths, and those are read back from their text.
  constructor
  · intro h
    have hread := congrArg hundredthsOf? h
    rwa [hundredthsOf?_text k (by omega), hundredthsOf?_text n (by omega), Option.some.injEq] at hread
  · rintro rfl
    rfl

/-- **Two colors are written alike exactly if they are of one shade.** -/
theorem cssText_eq_iff (hc : c.ProperAlpha) (hd : d.ProperAlpha) :
    c.cssText = d.cssText ↔ c.SameShade d := by
  have hnotation {bytes : List UInt8} {r g b : UInt8} {alpha : String} :
      "#" ++ upperHex bytes ≠ rgbaText r g b alpha := by
    intro h
    have hfirst := congrArg (·.toList.head?) h
    have hletter : (toString "rgba(").toList.head? = some 'r' := rfl
    simp only [rgbaText, String.toList_append, List.append_assoc, List.head?_append] at hfirst
    rw [hletter] at hfirst
    exact absurd hfirst (by simp)
  rw [cssText_eq, cssText_eq]
  constructor
  · intro h
    -- A text in hex and one with commas never agree, so both colors use the same notation.
    split_ifs at h with hopaque hopaque' hopaque'
    · obtain ⟨hr, hg, hb⟩ := upperHex_inj ((String.append_right_inj "#").mp h)
      exact ⟨hr, hg, hb, iff_of_true hopaque hopaque', fun hnot => absurd hopaque hnot⟩
    · exact absurd h hnotation
    · exact absurd h.symm hnotation
    · obtain ⟨hr, hg, hb, halpha⟩ := rgbaText_inj h
      exact ⟨hr, hg, hb, iff_of_false hopaque hopaque', fun _ => (hc.text_eq_iff hd).mp halpha⟩
  · intro h
    rw [h.red, h.green, h.blue]
    split_ifs with hopaque hopaque' hopaque'
    · rfl
    · exact absurd (h.isOpaque.mp hopaque) hopaque'
    · exact absurd (h.isOpaque.mpr hopaque') hopaque
    · rw [(hc.text_eq_iff hd).mpr (h.hundredths hopaque)]

/-- Components that agree as numbers have one byte. -/
theorem quantize_eq_of_beq {v w : Float32} (h : (v == w) = true) : quantize v = quantize w := by
  have hzero : quantize 0 = quantize (-0) := by decide +kernel
  obtain ⟨-, -, rfl | ⟨rfl, rfl⟩ | ⟨rfl, rfl⟩⟩ := Float32.beq_iff_ne_nan_and_eq.mp h
  · rfl
  · exact hzero
  · exact hzero.symm

/-- **Equal colors are of one shade.** -/
theorem sameShade_of_beq (h : (c == d) = true) (hc : c.ProperAlpha) (hd : d.ProperAlpha) :
    c.SameShade d := by
  have hparts : (((c.r == d.r) = true ∧ (c.g == d.g) = true) ∧ (c.b == d.b) = true) ∧
      (c.a == d.a) = true := by
    change Color.beq c d = true at h
    simpa only [Color.beq, Bool.and_eq_true] using h
  obtain ⟨⟨⟨hr, hg⟩, hb⟩, ha⟩ := hparts
  have halpha : c.a = d.a := by
    -- Only the two zeros compare as equal without being so, and neither alpha is the negative one.
    obtain ⟨-, -, heq | ⟨-, hzero⟩ | ⟨hzero, -⟩⟩ := Float32.beq_iff_ne_nan_and_eq.mp ha
    · exact heq
    · exact absurd hzero hd.unsigned
    · exact absurd hzero hc.unsigned
  refine ⟨quantize_eq_of_beq hr, quantize_eq_of_beq hg, quantize_eq_of_beq hb, by rw [halpha],
    fun _ => ?_⟩
  rw [hundredths, halpha, ← hundredths]

end Color

end DesignCompiler
