import DesignCompiler.Proofs.Paint.Shade
/-!
# Hex colors

A hex color is three or four bytes, written in two hexadecimal digits each, with one number sign in
front or none. Such a text is read as the color of its bytes, which has these bytes and is written
with these digits again, in upper case (`Color.ofHex?_of_isHexColor`).

More is read than hex colors: number signs are dropped as often as they stand in front, and a byte
may be a plus sign and one digit. What is read is always of this form (`Color.ofHex?_eq_some_iff`),
in one way only, since neither a digit nor a plus sign is a number sign. So a text is read as it
should be exactly if it has no second number sign and no plus sign (`Color.ofHex?_reads`).
-/

namespace DesignCompiler

namespace Color

/-! ### Digits -/

/-- **A character that writes a hexadecimal digit,** in either case. -/
def WritesDigit (c : Char) (v : Nat) : Prop :=
  v < 16 ∧ (c = Nat.digitChar v ∨ c = (Nat.digitChar v).toUpper)

instance (c : Char) (v : Nat) : Decidable (WritesDigit c v) :=
  inferInstanceAs (Decidable (_ ∧ _))

/-- A character that writes a digit is read as that digit. -/
theorem hexDigit?_of_writesDigit {c : Char} {v : Nat} (h : WritesDigit c v) :
    hexDigit? c = some v := by
  have hread : ∀ v < 16, hexDigit? (Nat.digitChar v) = some v ∧
      hexDigit? (Nat.digitChar v).toUpper = some v := by decide
  obtain ⟨hv, rfl | rfl⟩ := h
  · exact (hread v hv).1
  · exact (hread v hv).2

/-- Only characters that write a digit are read as one. -/
theorem writesDigit_of_hexDigit? {c : Char} {v : Nat} (h : hexDigit? c = some v) :
    WritesDigit c v := by
  -- All digits are among the first 128 characters, and these can be gone through.
  have hascii : ∀ n < 128, ∀ v ∈ hexDigit? (Char.ofNat n), WritesDigit (Char.ofNat n) v := by
    decide
  have hlow : c.toNat < 128 := by
    by_contra hhigh
    have hnot : ∀ d : Char, d.toNat < 128 → ¬c ≤ d := fun d hd hle =>
      hhigh (Nat.lt_of_le_of_lt (UInt32.le_iff_toNat_le.mp hle) hd)
    have hnone : hexDigit? c = none := by
      rw [hexDigit?, if_neg fun h => hnot '9' (by decide) h.2,
        if_neg fun h => hnot 'f' (by decide) h.2, if_neg fun h => hnot 'F' (by decide) h.2]
    cases hnone.symm.trans h
  have hc := hascii c.toNat hlow v
  rw [Char.ofNat_toNat] at hc
  exact hc h

/-- **Digits are read as what they write.** -/
theorem hexDigit?_eq_some_iff {c : Char} {v : Nat} : hexDigit? c = some v ↔ WritesDigit c v :=
  ⟨writesDigit_of_hexDigit?, hexDigit?_of_writesDigit⟩

/-- No digit is a sign. -/
theorem WritesDigit.ne_sign {c : Char} {v : Nat} (h : WritesDigit c v) : c ≠ '#' ∧ c ≠ '+' := by
  have hread := hexDigit?_of_writesDigit h
  constructor
  · rintro rfl
    cases hread
  · rintro rfl
    cases hread

/-! ### Bytes -/

/-- **Two characters that write a byte.** -/
def WritesByte (c d : Char) (b : UInt8) : Prop :=
  ∃ high low, WritesDigit c high ∧ WritesDigit d low ∧ b.toNat = 16 * high + low

/-- **Two characters that are read as a byte:** those that write it, or a plus sign and a digit. -/
inductive PassesForByte (c d : Char) (b : UInt8) : Prop
  | digits (h : WritesByte c d b)
  | signed (hsign : c = '+') (h : WritesDigit d b.toNat)

/-- The upper-case digits of a byte are those that write it, in upper case. -/
theorem WritesByte.byteDigits {c d : Char} {b : UInt8} (h : WritesByte c d b) :
    (byteDigits b).map Char.toUpper = [c.toUpper, d.toUpper] := by
  have hupper : ∀ {c v}, WritesDigit c v → (Nat.digitChar v).toUpper = c.toUpper := by
    have hagain : ∀ v < 16, (Nat.digitChar v).toUpper.toUpper = (Nat.digitChar v).toUpper := by
      decide
    rintro c v ⟨hv, rfl | rfl⟩
    · rfl
    · exact (hagain v hv).symm
  -- In upper case both spellings of a digit are one.
  obtain ⟨high, low, hhigh, hlow, hb⟩ := h
  have hdiv : b.toNat / 16 = high := by have := hlow.1; omega
  have hmod : b.toNat % 16 = low := by have := hlow.1; omega
  rw [Color.byteDigits, hdiv, hmod, List.map_cons, List.map_cons, List.map_nil, hupper hhigh,
    hupper hlow]

theorem toUInt8_eq_iff {n : Nat} (hn : n < 256) {b : UInt8} : n.toUInt8 = b ↔ b.toNat = n := by
  rw [← UInt8.toNat_inj, Nat.toUInt8, UInt8.toNat_ofNat_of_lt' hn, eq_comm]

/-- **What is read as a byte.** -/
theorem hexByte?_eq_some_iff {c d : Char} {b : UInt8} :
    hexByte? c d = some b ↔ PassesForByte c d b := by
  have hbyte : hexByte? c d = (hexDigit? d).bind fun low =>
      if (c == '+') = true then some low.toUInt8
      else (hexDigit? c).bind fun high => some (16 * high + low).toUInt8 := rfl
  rw [hbyte, Option.bind_eq_some_iff]
  constructor
  · rintro ⟨low, hlow, h⟩
    have hdigit := hexDigit?_eq_some_iff.mp hlow
    have hsmall := hdigit.1
    -- The parser takes a plus sign off before it looks for digits.
    split at h
    · next hsign =>
      have hb := (toUInt8_eq_iff (by omega)).mp (Option.some.inj h)
      exact .signed (beq_iff_eq.mp hsign) (hb ▸ hdigit)
    · obtain ⟨high, hhigh, h⟩ := Option.bind_eq_some_iff.mp h
      have hdigit' := hexDigit?_eq_some_iff.mp hhigh
      have hsmall' := hdigit'.1
      exact .digits ⟨high, low, hdigit', hdigit,
        (toUInt8_eq_iff (by omega)).mp (Option.some.inj h)⟩
  · rintro (⟨high, low, hhigh, hlow, hb⟩ | ⟨rfl, hlow⟩)
    · have hsmall := hhigh.1
      have hsmall' := hlow.1
      refine ⟨low, hexDigit?_of_writesDigit hlow, ?_⟩
      rw [if_neg (by simpa using hhigh.ne_sign.2), hexDigit?_of_writesDigit hhigh, Option.bind_some,
        (toUInt8_eq_iff (by omega)).mpr hb]
    · have hsmall := hlow.1
      exact ⟨b.toNat, hexDigit?_of_writesDigit hlow,
        congrArg some ((toUInt8_eq_iff (by omega)).mpr rfl)⟩

/-! ### Texts -/

/-- **A text of pairs,** one for each of some bytes. -/
inductive Spells (pair : Char → Char → UInt8 → Prop) : List Char → List UInt8 → Prop
  | nil : Spells pair [] []
  | cons {c d : Char} {b : UInt8} {text : List Char} {bytes : List UInt8} : pair c d b →
      Spells pair text bytes → Spells pair (c :: d :: text) (b :: bytes)

variable {text : List Char} {bytes : List UInt8}

/-- A text spells its bytes by any weaker reading of pairs too. -/
theorem Spells.mono {pair pair' : Char → Char → UInt8 → Prop}
    (hpair : ∀ {c d b}, pair c d b → pair' c d b) (h : Spells pair text bytes) :
    Spells pair' text bytes := by
  induction h with
  | nil => exact .nil
  | cons hcd _ ih => exact .cons (hpair hcd) ih

/-- Pairs that are read do not begin with a number sign. -/
theorem Spells.head?_ne (h : Spells PassesForByte text bytes) : text.head? ≠ some '#' := by
  cases h with
  | nil => simp
  | cons hpair _ =>
    rintro heq
    rcases hpair with ⟨high, low, hhigh, -⟩ | ⟨rfl, -⟩
    · exact hhigh.ne_sign.1 (Option.some.inj heq)
    · exact absurd (Option.some.inj heq) (by decide)

/-- Pairs that are read without a plus sign are digits. -/
theorem Spells.digits (h : Spells PassesForByte text bytes) (hsign : '+' ∉ text) :
    Spells WritesByte text bytes := by
  induction h with
  | nil => exact .nil
  | cons hpair _ ih =>
    simp only [List.mem_cons, not_or] at hsign
    rcases hpair with hdigits | ⟨rfl, -⟩
    · exact .cons hdigits (ih hsign.2.2)
    · exact absurd rfl hsign.1

/-- No sign stands among hex digits proper. -/
theorem Spells.not_mem (h : Spells WritesByte text bytes) : '+' ∉ text := by
  induction h with
  | nil => exact List.not_mem_nil
  | cons hpair _ ih =>
    obtain ⟨high, low, hhigh, hlow, -⟩ := hpair
    simp only [List.mem_cons, not_or]
    exact ⟨hhigh.ne_sign.2.symm, hlow.ne_sign.2.symm, ih⟩

theorem spells_nil_iff {pair : Char → Char → UInt8 → Prop} : Spells pair text [] ↔ text = [] := by
  constructor
  · intro h
    cases h
    rfl
  · rintro rfl
    exact .nil

/-- The first byte takes the first two characters. -/
theorem spells_cons_iff {pair : Char → Char → UInt8 → Prop} {b : UInt8} :
    Spells pair text (b :: bytes) ↔
      ∃ c d rest, text = c :: d :: rest ∧ pair c d b ∧ Spells pair rest bytes := by
  constructor
  · intro h
    cases h with
    | @cons c d _ rest _ hpair hrest => exact ⟨c, d, rest, rfl, hpair, hrest⟩
  · rintro ⟨c, d, rest, rfl, hpair, hrest⟩
    exact .cons hpair hrest

/-! ### Reading -/

/-- **The color of some bytes:** opaque if there are three, and with the fourth as alpha. -/
def ofByteList? : List UInt8 → Option Color
  | [r, g, b] => some (ofBytes r g b)
  | [r, g, b, a] => some { ofBytes r g b with a := channel a }
  | _ => none

/-- What is dropped are the number signs in front, all of them. -/
theorem dropWhile_eq_iff {text digits : List Char} (h : digits.head? ≠ some '#') :
    text.dropWhile (· == '#') = digits ↔ ∃ signs, text = List.replicate signs '#' ++ digits := by
  constructor
  · -- What was taken off in front is number signs only.
    rintro rfl
    refine ⟨(text.takeWhile (· == '#')).length, ?_⟩
    have hsigns : text.takeWhile (· == '#') =
        List.replicate (text.takeWhile (· == '#')).length '#' :=
      List.eq_replicate_of_mem fun c hc => by simpa using List.mem_takeWhile_imp hc
    rw [← hsigns, List.takeWhile_append_dropWhile]
  · rintro ⟨signs, rfl⟩
    rw [List.dropWhile_append_of_pos (by simp)]
    cases digits with
    | nil => rfl
    | cons c rest => exact List.dropWhile_cons_of_neg (by simpa using h)

/-- Number signs and what is behind them are told apart. -/
theorem signs_inj {signs signs' : Nat} {digits digits' : List Char}
    (h : digits.head? ≠ some '#') (h' : digits'.head? ≠ some '#')
    (htexts : List.replicate signs '#' ++ digits = List.replicate signs' '#' ++ digits') :
    signs = signs' ∧ digits = digits' := by
  have hdigits : digits = digits' := by
    rw [← (dropWhile_eq_iff h).mpr ⟨signs, rfl⟩, htexts]
    exact (dropWhile_eq_iff h').mpr ⟨signs', rfl⟩
  have hlengths := congrArg List.length htexts
  rw [hdigits, List.length_append, List.length_append, List.length_replicate,
    List.length_replicate] at hlengths
  exact ⟨by omega, hdigits⟩

/-- The color is that of the digits behind the number signs, three pairs or four. -/
theorem ofHex?_of_dropWhile {text : String} {digits : List Char}
    (hdigits : text.toList.dropWhile (· == '#') = digits) {color : Color} :
    ofHex? text = some color ↔
      ∃ bytes, Spells PassesForByte digits bytes ∧ ofByteList? bytes = some color := by
  unfold ofHex?
  rw [hdigits]
  constructor
  · intro h
    -- Three pairs, four pairs, and every other length.
    split at h
    · obtain ⟨r, hr, h⟩ := Option.bind_eq_some_iff.mp h
      obtain ⟨g, hg, h⟩ := Option.bind_eq_some_iff.mp h
      obtain ⟨b, hb, h⟩ := Option.bind_eq_some_iff.mp h
      rw [hexByte?_eq_some_iff] at hr hg hb
      exact ⟨[r, g, b], .cons hr (.cons hg (.cons hb .nil)), h⟩
    · obtain ⟨r, hr, h⟩ := Option.bind_eq_some_iff.mp h
      obtain ⟨g, hg, h⟩ := Option.bind_eq_some_iff.mp h
      obtain ⟨b, hb, h⟩ := Option.bind_eq_some_iff.mp h
      obtain ⟨a, ha, h⟩ := Option.bind_eq_some_iff.mp h
      rw [hexByte?_eq_some_iff] at hr hg hb ha
      exact ⟨[r, g, b, a], .cons hr (.cons hg (.cons hb (.cons ha .nil))), h⟩
    · cases h
  · rintro ⟨bytes, hspells, hcolor⟩
    unfold ofByteList? at hcolor
    split at hcolor
    · simp only [spells_cons_iff, spells_nil_iff, ← hexByte?_eq_some_iff] at hspells
      obtain ⟨_, _, _, rfl, hr, _, _, _, rfl, hg, _, _, _, rfl, hb, rfl⟩ := hspells
      simp [hr, hg, hb, ← hcolor]
    · simp only [spells_cons_iff, spells_nil_iff, ← hexByte?_eq_some_iff] at hspells
      obtain ⟨_, _, _, rfl, hr, _, _, _, rfl, hg, _, _, _, rfl, hb, _, _, _, rfl, ha, rfl⟩ :=
        hspells
      simp [hr, hg, hb, ha, ← hcolor]
    · cases hcolor

/-- **What is read as a hex color:** bytes behind any number of number signs. -/
theorem ofHex?_eq_some_iff {text : String} {color : Color} :
    ofHex? text = some color ↔ ∃ signs digits bytes,
      text.toList = List.replicate signs '#' ++ digits ∧ Spells PassesForByte digits bytes ∧
        ofByteList? bytes = some color := by
  constructor
  · intro h
    obtain ⟨bytes, hspells, hcolor⟩ := (ofHex?_of_dropWhile rfl).mp h
    obtain ⟨signs, hsigns⟩ := (dropWhile_eq_iff hspells.head?_ne).mp rfl
    exact ⟨signs, _, bytes, hsigns, hspells, hcolor⟩
  · rintro ⟨signs, digits, bytes, hdigits, hspells, hcolor⟩
    have hdrop := (dropWhile_eq_iff hspells.head?_ne).mpr ⟨signs, hdigits⟩
    exact (ofHex?_of_dropWhile hdrop).mpr ⟨bytes, hspells, hcolor⟩

/-! ### Writing -/

/-- **A byte is the byte nearest to its own component.** -/
theorem quantize_channel (b : UInt8) : quantize (channel b) = b := by
  have hbytes : ∀ n < 256, quantize (channel n.toUInt8) = n.toUInt8 := by decide +kernel
  have hb := hbytes b.toNat b.toNat_lt
  rwa [Nat.toUInt8, UInt8.ofNat_toNat] at hb

theorem quantize_one : quantize 1 = 255 := by decide +kernel

/-- The bytes a color is made of are the ones it is written with. -/
theorem bytes_ofBytes (r g b : UInt8) : (ofBytes r g b).bytes = (r, g, b, 255) := by
  simp only [bytes, ofBytes, quantize_channel, quantize_one]

theorem bytes_withAlpha (r g b a : UInt8) :
    ({ ofBytes r g b with a := channel a } : Color).bytes = (r, g, b, a) := by
  simp only [bytes, ofBytes, quantize_channel]

/-- Bytes are written as the digits that spell them, in upper case. -/
theorem Spells.upperHex (h : Spells WritesByte text bytes) :
    upperHex bytes = String.ofList (text.map Char.toUpper) := by
  have hdigits : (bytes.flatMap Color.byteDigits).map Char.toUpper = text.map Char.toUpper := by
    induction h with
    | nil => rfl
    | cons hpair _ ih =>
      rw [List.flatMap_cons, List.map_append, hpair.byteDigits, ih]
      rfl
  rw [Color.upperHex, hdigits]

/-- The digits that a color is written with: all of them in upper case, but for an alpha of `FF`. -/
def shownDigits (digits : List Char) : List Char :=
  let upper := digits.map Char.toUpper
  if upper.drop 6 = ['F', 'F'] then upper.take 6 else upper

/-- **A hex color:** six or eight digits behind one number sign or none, and the bytes that they
write. -/
structure IsHexColor (text : String) (digits : List Char) (bytes : List UInt8) : Prop where
  sign : text.toList = digits ∨ text.toList = '#' :: digits
  digits : Spells WritesByte digits bytes
  length : bytes.length = 3 ∨ bytes.length = 4

/-- Three bytes are written with all digits. -/
theorem hexText_ofBytes {r g b : UInt8} (h : Spells WritesByte text [r, g, b]) :
    (ofBytes r g b).hexText = String.ofList ('#' :: shownDigits text) := by
  have hupper := h.upperHex
  simp only [spells_cons_iff, spells_nil_iff] at h
  obtain ⟨_, _, _, rfl, -, _, _, _, rfl, -, _, _, _, rfl, -, rfl⟩ := h
  simp only [hexText, bytes_ofBytes, if_true, hupper]
  exact String.toList_inj.mp (by simp [shownDigits])

/-- The alpha is left out if its digits are `FF`, which is if the color is opaque. -/
theorem hexText_withAlpha {r g b a : UInt8} (h : Spells WritesByte text [r, g, b, a]) :
    ({ ofBytes r g b with a := channel a } : Color).hexText =
      String.ofList ('#' :: shownDigits text) := by
  have hupper := h.upperHex
  simp only [spells_cons_iff, spells_nil_iff] at h
  obtain ⟨_, _, _, rfl, hr, _, _, _, rfl, hg, _, _, c, rfl, hb, d, e, _, rfl, ha, rfl⟩ := h
  have hcolor := (Spells.cons hr (.cons hg (.cons hb .nil))).upperHex
  -- The alpha is left out exactly when it is written `FF`, in either case.
  have hopaque : a = 255 ↔ [d.toUpper, e.toUpper] = ['F', 'F'] := by
    have hfull : (Color.byteDigits 255).map Char.toUpper = ['F', 'F'] := by decide
    rw [← ha.byteDigits, ← hfull]
    exact ⟨congrArg fun byte => (Color.byteDigits byte).map Char.toUpper, upper_byteDigits_inj⟩
  simp only [hexText, bytes_withAlpha]
  split
  · next hfull =>
    rw [hcolor]
    have hshown := hopaque.mp hfull
    exact String.toList_inj.mp (by simpa [shownDigits] using hshown)
  · next hpart =>
    rw [hupper]
    have hshown := mt hopaque.mpr hpart
    exact String.toList_inj.mp (by simpa [shownDigits] using hshown)

/-- A proper color has at most one number sign in front. -/
theorem IsHexColor.exists_signs {text : String} {digits : List Char} {bytes : List UInt8}
    (h : IsHexColor text digits bytes) :
    ∃ signs ≤ 1, text.toList = List.replicate signs '#' ++ digits := by
  rcases h.sign with hsign | hsign
  · exact ⟨0, by omega, hsign⟩
  · exact ⟨1, by omega, hsign⟩

theorem IsHexColor.passes {text : String} {digits : List Char} {bytes : List UInt8}
    (h : IsHexColor text digits bytes) : Spells PassesForByte digits bytes :=
  h.digits.mono fun hpair => .digits hpair

/-- **A hex color is read as its bytes,** and written with its digits again. -/
theorem ofHex?_of_isHexColor {text : String} {digits : List Char} {bytes : List UInt8}
    (h : IsHexColor text digits bytes) :
    ∃ color, ofHex? text = some color ∧
      color.bytes = (bytes.getD 0 0, bytes.getD 1 0, bytes.getD 2 0, bytes.getD 3 255) ∧
      color.hexText = String.ofList ('#' :: shownDigits digits) := by
  have hread : ∀ {color}, ofByteList? bytes = some color → ofHex? text = some color := by
    intro color hcolor
    obtain ⟨signs, -, htext⟩ := h.exists_signs
    exact ofHex?_eq_some_iff.mpr ⟨signs, digits, bytes, htext, h.passes, hcolor⟩
  -- Three bytes are an opaque color, four carry their alpha.
  rcases h.length with hthree | hfour
  · obtain ⟨r, g, b, rfl⟩ := List.length_eq_three.mp hthree
    exact ⟨ofBytes r g b, hread rfl, bytes_ofBytes r g b, hexText_ofBytes h.digits⟩
  · obtain ⟨r, rest, rfl⟩ := List.exists_cons_of_length_eq_add_one hfour
    obtain ⟨g, b, a, rfl⟩ := List.length_eq_three.mp (Nat.succ.inj hfour)
    exact ⟨_, hread rfl, bytes_withAlpha r g b a, hexText_withAlpha h.digits⟩

/-! ### The law -/

/-- A text is a hex color if it is read and has neither a second number sign nor a plus sign. -/
theorem isHexColor_of_spells {text : String} {signs : Nat} {digits : List Char}
    {bytes : List UInt8} (htext : text.toList = List.replicate signs '#' ++ digits)
    (hspells : Spells PassesForByte digits bytes) (hlength : bytes.length = 3 ∨ bytes.length = 4)
    (hsigns : signs ≤ 1) (hplus : '+' ∉ digits) : IsHexColor text digits bytes := by
  refine ⟨?_, hspells.digits hplus, hlength⟩
  match signs, hsigns with
  | 0, _ => exact Or.inl htext
  | 1, _ => exact Or.inr htext

/-- Exactly three bytes and four make a color. -/
theorem exists_ofByteList?_iff {bytes : List UInt8} :
    (∃ color, ofByteList? bytes = some color) ↔ bytes.length = 3 ∨ bytes.length = 4 := by
  unfold ofByteList?
  split
  · simp
  · simp
  · -- Any other list has another length, since the first two cases take all of these.
    next hthree hfour =>
    refine iff_of_false (fun ⟨_, h⟩ => nomatch h) ?_
    rintro (h | h)
    · obtain ⟨r, g, b, rfl⟩ := List.length_eq_three.mp h
      exact hthree r g b rfl
    · obtain ⟨r, rest, rfl⟩ := List.exists_cons_of_length_eq_add_one h
      obtain ⟨g, b, a, rfl⟩ := List.length_eq_three.mp (Nat.succ.inj h)
      exact hfour r g b a rfl

/-- **What is read, and what of it should be.** Read are three or four bytes behind any number of
number signs, where a byte may be a plus sign and one digit. All hex colors are among it, and they
are read and written as their digits say. So a text is read exactly if it is a hex color, unless it
is read and has a second number sign or a plus sign. -/
theorem ofHex?_reads (text : String) :
    (∀ color, ofHex? text = some color ↔ ∃ signs digits bytes,
      text.toList = List.replicate signs '#' ++ digits ∧ Spells PassesForByte digits bytes ∧
        ofByteList? bytes = some color) ∧
    (∀ digits bytes, IsHexColor text digits bytes → ∃ color, ofHex? text = some color ∧
      color.bytes = (bytes.getD 0 0, bytes.getD 1 0, bytes.getD 2 0, bytes.getD 3 255) ∧
      color.hexText = String.ofList ('#' :: shownDigits digits)) ∧
    (((∃ color, ofHex? text = some color) ↔ ∃ digits bytes, IsHexColor text digits bytes) ↔
      ∀ signs digits bytes, text.toList = List.replicate signs '#' ++ digits →
        Spells PassesForByte digits bytes → bytes.length = 3 ∨ bytes.length = 4 →
          signs ≤ 1 ∧ '+' ∉ digits) := by
  refine ⟨fun _ => ofHex?_eq_some_iff, fun _ _ => ofHex?_of_isHexColor, ?_, ?_⟩
  · intro hexactly signs digits bytes htext hspells hlength
    obtain ⟨color, hcolor⟩ := exists_ofByteList?_iff.mpr hlength
    obtain ⟨digits', bytes', hhex⟩ := hexactly.mp
      ⟨color, ofHex?_eq_some_iff.mpr ⟨signs, digits, bytes, htext, hspells, hcolor⟩⟩
    obtain ⟨signs', hone, htext'⟩ := hhex.exists_signs
    -- There is one way to put the signs aside, so it is the one of the hex color.
    obtain ⟨rfl, rfl⟩ := signs_inj hspells.head?_ne hhex.passes.head?_ne (htext.symm.trans htext')
    exact ⟨hone, hhex.digits.not_mem⟩
  · intro hplain
    refine ⟨?_, fun ⟨digits, bytes, hhex⟩ => ?_⟩
    · rintro ⟨color, hcolor⟩
      obtain ⟨signs, digits, bytes, htext, hspells, hbytes⟩ := ofHex?_eq_some_iff.mp hcolor
      have hlength := exists_ofByteList?_iff.mp ⟨color, hbytes⟩
      obtain ⟨hsigns, hplus⟩ := hplain signs digits bytes htext hspells hlength
      exact ⟨digits, bytes, isHexColor_of_spells htext hspells hlength hsigns hplus⟩
    · obtain ⟨color, hcolor, -⟩ := ofHex?_of_isHexColor hhex
      exact ⟨color, hcolor⟩

/-- **Two number signs and plus signs are read over,** and neither text is a hex color. -/
theorem ofHex?_signed :
    ((∃ color, ofHex? "##FF5733" = some color) ∧
      ¬∃ digits bytes, IsHexColor "##FF5733" digits bytes) ∧
    (∃ color, ofHex? "+F+F+F" = some color) ∧
      ¬∃ digits bytes, IsHexColor "+F+F+F" digits bytes := by
  refine ⟨⟨⟨_, rfl⟩, ?_⟩, ⟨_, rfl⟩, ?_⟩
  · -- One sign is put aside, and digits do not begin with the other one.
    rintro ⟨digits, bytes, h⟩
    rcases h.sign with hsign | hsign
    · exact h.passes.head?_ne (hsign ▸ rfl)
    · exact h.passes.head?_ne ((List.cons.inj hsign).2 ▸ rfl)
  · rintro ⟨digits, bytes, h⟩
    rcases h.sign with hsign | hsign
    · exact h.digits.not_mem (hsign ▸ List.mem_cons_self)
    · exact absurd (List.cons.inj hsign).1 (by decide)

end Color

end DesignCompiler
