import DesignCompiler.Proofs.Design.FlagOrder
import DesignCompiler.Proofs.Text.Tokens
import Mathlib.Data.List.TakeWhile
/-!
# Widths in flags

The value of `--min-width` or `--max-width` is a number, finite and not negative, and it may have
the unit `px` behind it. What is read is more than this: all units at the end are taken off, so
`640pxpx` is as good as `640`.

No number has an `x` in it (`not_mem_of_read`). So a value is a number and some units in one way
only (`units_inj`), and `parseFlags_width` says how far the reading goes: the values that are read
and should not be are the numbers with two units or more.
-/

namespace DesignCompiler

/-! ### Units -/

/-- The unit `px`, some times over. -/
def units : Nat → String
  | 0 => ""
  | k + 1 => units k ++ "px"

theorem reverse_append_units (s : String) (k : Nat) :
    (s ++ units (k + 1)).toList.reverse = 'x' :: 'p' :: (s ++ units k).toList.reverse := by
  simp [units]

/-- A value without the units at its end. -/
def bare (v : String) : String := String.ofList (dropUnits v.toList.reverse).reverse

/-- All units are taken off, and nothing more of a text without an `x`. -/
theorem bare_append_units {s : String} (h : 'x' ∉ s.toList) (k : Nat) :
    bare (s ++ units k) = s := by
  have hdrop : dropUnits (s ++ units k).toList.reverse = s.toList.reverse := by
    induction k with
    | zero =>
      rw [units, String.append_empty]
      refine dropUnits.eq_2 _ fun rest hrest => h ?_
      rw [← List.mem_reverse, hrest]
      exact List.mem_cons_self
    | succ k ih => rw [reverse_append_units, dropUnits, ih]
  rw [bare, hdrop, List.reverse_reverse, String.ofList_toList]

/-- What is taken off is units. -/
theorem exists_eq_bare_append (v : String) : ∃ k, v = bare v ++ units k := by
  have hdrop : ∀ text : List Char, ∃ k, text = (units k).toList.reverse ++ dropUnits text := by
    intro text
    -- The induction is that of taking units off the end: one more unit each time there is one.
    induction text using dropUnits.induct with
    | case1 rest ih =>
      obtain ⟨k, hk⟩ := ih
      refine ⟨k + 1, ?_⟩
      rw [dropUnits, units, String.toList_append, List.reverse_append, List.append_assoc, ← hk]
      rfl
    | case2 text hunits =>
      refine ⟨0, ?_⟩
      rw [dropUnits.eq_2 text hunits]
      rfl
  obtain ⟨k, hk⟩ := hdrop v.toList.reverse
  refine ⟨k, String.toList_inj.mp (List.reverse_inj.mp ?_)⟩
  rw [bare, String.toList_append, String.toList_ofList, List.reverse_append, List.reverse_reverse]
  exact hk

/-- **A text without an `x` and some units behind it** are told apart. -/
theorem units_inj {s s' : String} {k k' : Nat} (hs : 'x' ∉ s.toList) (hs' : 'x' ∉ s'.toList)
    (h : s ++ units k = s' ++ units k') : k = k' := by
  have hlength : ∀ k, (units k).toList.length = 2 * k := by
    intro k
    induction k with
    | zero => rfl
    | succ k ih =>
      rw [units, String.toList_append, List.length_append, ih]
      rfl
  -- Without an `x` in them, both values are what is left when all units are taken off.
  have hbase : s = s' := by rw [← bare_append_units hs k, h, bare_append_units hs' k']
  have hlengths := congrArg (fun text : String => text.toList.length) h
  simp only [hbase, String.toList_append, List.length_append, hlength] at hlengths
  omega

/-! ### Numbers -/

/-- The letter of the unit stays behind the digits. -/
theorem mem_dropWhile_digits {text : List Char} (h : 'x' ∈ text) :
    'x' ∈ text.dropWhile isDecimalDigit := by
  rw [← List.takeWhile_append_dropWhile (p := isDecimalDigit) (l := text), List.mem_append] at h
  exact h.resolve_left fun hmem => absurd (List.mem_takeWhile_imp hmem) (by decide)

theorem mem_splitSign {text : List Char} (h : 'x' ∈ text) : 'x' ∈ (splitSign text).2 := by
  unfold splitSign
  split <;> simpa using h

/-- No exponent has it. -/
theorem readExponent?_of_mem {text : List Char} (h : 'x' ∈ text) : readExponent? text = none := by
  cases text with
  | nil => cases h
  | cons c rest =>
    rw [readExponent?]
    refine if_neg fun hread => ?_
    simp only [Bool.and_eq_true] at hread
    rcases List.mem_cons.mp h with rfl | hrest
    · exact absurd hread.1.1 (by decide)
    · exact absurd (List.all_eq_true.mp hread.2 _ (mem_splitSign hrest)) (by decide)

/-- No number has it, so none is read with a unit behind it. -/
theorem readDecimal?_of_mem {text : List Char} (h : 'x' ∈ text) : readDecimal? text = none := by
  have hother := mem_dropWhile_digits h
  unfold readDecimal?
  split
  next fraction rest hsplit =>
  -- Behind the digits, with a point or without one, the `x` is in what is left for the exponent.
  have hrest : 'x' ∈ rest := by
    split at hsplit
    · next after hafter =>
      cases hsplit
      rw [hafter] at hother
      exact mem_dropWhile_digits ((List.mem_cons.mp hother).resolve_left (by decide))
    · cases hsplit
      exact hother
  simp [readExponent?_of_mem hrest]

/-- **No number has an `x` in it.** -/
theorem not_mem_of_read {text : List Char} {n : Float} (h : Float.read? text = some n) :
    'x' ∉ text := by
  intro hmem
  have hunsigned := mem_splitSign hmem
  -- No word for a number has an `x` in it, and no decimal either.
  have hword : ∀ word : String, 'x' ∉ word.toList →
      (String.ofList ((splitSign text).2.map Char.toLower) == word) = false := by
    intro word hword
    refine beq_eq_false_iff_ne.mpr fun heq => hword ?_
    rw [← heq, String.toList_ofList]
    exact List.mem_map.mpr ⟨'x', hunsigned, rfl⟩
  have hnone : Float.read? text = none := by
    simp [Float.read?, hword, readDecimal?_of_mem hunsigned]
  cases hnone.symm.trans h

/-! ### Reading a width -/

/-- **A text that is a width:** a number that is finite and not negative. -/
def IsWidth (s : String) (n : Float) : Prop :=
  Float.read? s.toList = some n ∧ n.isFinite = true ∧ n ≥ 0

/-- A width with one unit or none is one with some units, but no more than one. -/
theorem one_unit_iff {v : String} {n : Float} :
    (∃ s, (v = s ∨ v = s ++ "px") ∧ IsWidth s n) ↔
      ∃ s k, k ≤ 1 ∧ v = s ++ units k ∧ IsWidth s n := by
  constructor
  · rintro ⟨s, rfl | rfl, hwidth⟩
    · exact ⟨v, 0, by omega, by rw [units, String.append_empty], hwidth⟩
    · exact ⟨s, 1, by omega, rfl, hwidth⟩
  · rintro ⟨s, k, hk, hs, hwidth⟩
    refine ⟨s, ?_, hwidth⟩
    match k, hk with
    | 0, _ => exact Or.inl (by rw [hs, units, String.append_empty])
    | 1, _ => exact Or.inr hs

/-- **A width is read exactly if the value without its units is one.** -/
theorem readWidth_cases (key v : String) :
    (∃ n, readWidth key (some v) = .ok n ∧ IsWidth (bare v) n) ∨
      readWidth key (some v) = .error (.invalidValue key v) ∧ ∀ n, ¬ IsWidth (bare v) n := by
  have htext : (bare v).toList = (dropUnits v.toList.reverse).reverse := String.toList_ofList
  rw [readWidth.eq_2, ← htext]
  unfold IsWidth
  -- The number may be missing, or it may be none of those that a width can be.
  cases Float.read? (bare v).toList with
  | none => exact Or.inr ⟨rfl, fun n h => nomatch h.1⟩
  | some m =>
    by_cases hm : (m.isFinite && decide (m ≥ 0)) = true
    · exact Or.inl ⟨m, if_pos hm, rfl, by simpa using hm⟩
    · refine Or.inr ⟨if_neg hm, fun n h => hm ?_⟩
      cases h.1
      simpa using h.2

/-- **What is read as a width** is one with any number of units behind it. -/
theorem readWidth_eq_ok_iff (key : String) {v : String} {n : Float} :
    readWidth key (some v) = .ok n ↔ ∃ s k, v = s ++ units k ∧ IsWidth s n := by
  constructor
  · intro hread
    obtain ⟨k, hk⟩ := exists_eq_bare_append v
    rcases readWidth_cases key v with ⟨m, hm, hwidth⟩ | ⟨herror, -⟩
    · cases hm.symm.trans hread
      exact ⟨bare v, k, hk, hwidth⟩
    · cases herror.symm.trans hread
  · -- All units are taken off, so what is read is the width in front of them.
    rintro ⟨s, k, rfl, hwidth⟩
    have hbare := bare_append_units (not_mem_of_read hwidth.1) k
    rcases readWidth_cases key (s ++ units k) with ⟨m, hm, hread, -⟩ | ⟨-, hnone⟩
    · rw [hbare] at hread
      cases hread.symm.trans hwidth.1
      exact hm
    · exact absurd hwidth (hbare ▸ hnone n)

/-- A value that is no width is reported as it is. -/
theorem readWidth_eq_error {key v : String} (h : ∀ n, readWidth key (some v) ≠ .ok n) :
    readWidth key (some v) = .error (.invalidValue key v) := by
  rcases readWidth_cases key v with ⟨n, hn, -⟩ | ⟨herror, -⟩
  · exact absurd hn (h n)
  · exact herror

/-! ### The two flags -/

/-- **The two flags that have a width for their value.** -/
inductive WidthBound where
  | least
  | greatest

namespace WidthBound

/-- The key of the flag. -/
def key : WidthBound → String
  | least => "min-width"
  | greatest => "max-width"

/-- The flag with its width. -/
def flag : WidthBound → Float → Flag
  | least => .minWidth
  | greatest => .maxWidth

/-- The token of the flag with a value. -/
def token (b : WidthBound) (v : String) : List Char := ("--" ++ b.key ++ "=" ++ v).toList

theorem flag_inj (b : WidthBound) {m n : Float} (h : b.flag m = b.flag n) : m = n := by
  cases b <;> cases h <;> rfl

/-- The token of a bound is its key and its value. -/
theorem splitFlag_token (b : WidthBound) (v : String) :
    splitFlag (b.token v) = (b.key, some v) := by
  cases b <;> simp [token, key, splitFlag]

/-- It is read as a width of the bound. -/
theorem readToken_token (b : WidthBound) (v : String) :
    readToken (b.token v) = (readWidth b.key (some v)).map (some ∘ b.flag) := by
  have hflag : isFlagToken (b.token v) = true := by
    cases b <;> simp [token, key, isFlagToken]
  rw [readToken, if_pos hflag, splitFlag_token]
  cases b <;> rfl

variable (b : WidthBound) {v : String}

/-- A value without blanks makes a name with one flag. -/
theorem flagTokens_token (h : v.toList.any isBlank = false) :
    flagTokens (String.ofList (b.token v)) = [b.token v] := by
  have hfront : ("--" ++ b.key ++ "=").toList.any isBlank = false := by cases b <;> decide
  have hblank : (b.token v).any isBlank = false := by
    rw [token, String.toList_append, List.any_append, hfront, h]
    rfl
  have hne : b.token v ≠ [] := by cases b <;> simp [token, key]
  have hknown : isKnownFlag (b.token v) = true := by
    rw [isKnownFlag, splitFlag_token]
    cases b <;> simp +decide [token, key, isFlagToken]
  rw [flagTokens, String.toList_ofList, tokens_of_not_any hne hblank, List.filter_singleton, hknown]
  rfl

variable {b} {name : String}

/-- A name with this one flag is read as its width. -/
theorem parseFlags_of_token (h : flagTokens name = [b.token v]) :
    parseFlags name = (readWidth b.key (some v)).map fun n => [b.flag n] := by
  rw [parseFlags_eq_flagTokens, h, readTokens, readToken_token, readTokens]
  cases readWidth b.key (some v) <;> rfl

/-- The one flag of a name is read as a width with any number of units behind it. -/
theorem parseFlags_eq_ok_iff (h : flagTokens name = [b.token v]) {n : Float} :
    parseFlags name = .ok [b.flag n] ↔ ∃ s k, v = s ++ units k ∧ IsWidth s n := by
  rw [parseFlags_of_token h, ← readWidth_eq_ok_iff b.key]
  -- The one flag is the one that was read, since flags tell their widths.
  cases readWidth b.key (some v) with
  | error fault => simp [Except.map]
  | ok m =>
    constructor
    · intro hread
      rw [b.flag_inj (List.cons.inj (Except.ok.inj hread)).1]
    · rintro hread
      cases hread
      rfl

/-- **How a width is read** where it is the only flag of a name: any value that is a width with some
units behind it is read as this width, and any other one is reported as it is. So widths with one
unit or none are read, and no other values, exactly for a value that has no more than one unit. -/
theorem parseFlags_width (b : WidthBound) (hv : v.toList.any isBlank = false) :
    flagTokens (String.ofList (b.token v)) = [b.token v] ∧
      ∀ name, flagTokens name = [b.token v] →
        (∀ n, parseFlags name = .ok [b.flag n] ↔ ∃ s k, v = s ++ units k ∧ IsWidth s n) ∧
        ((¬ ∃ s k n, v = s ++ units k ∧ IsWidth s n) →
          parseFlags name = .error (.invalidValue b.key v)) ∧
        ((∀ n, parseFlags name = .ok [b.flag n] ↔ ∃ s, (v = s ∨ v = s ++ "px") ∧ IsWidth s n) ↔
          ∀ s k n, v = s ++ units k → IsWidth s n → k ≤ 1) := by
  refine ⟨b.flagTokens_token hv, fun name hname => ?_⟩
  refine ⟨fun n => parseFlags_eq_ok_iff hname, ?_, ?_, ?_⟩
  · intro hnone
    have herror : readWidth b.key (some v) = .error (.invalidValue b.key v) := by
      refine readWidth_eq_error fun n hread => hnone ?_
      obtain ⟨s, k, hv, hwidth⟩ := (readWidth_eq_ok_iff b.key).mp hread
      exact ⟨s, k, n, hv, hwidth⟩
    rw [parseFlags_of_token hname, herror]
    rfl
  · -- A value has its units in one way only, so it does not have one in one way and two in another.
    intro hclaim s k n hs hwidth
    obtain ⟨s', k', hk', hs', hwidth'⟩ :=
      one_unit_iff.mp ((hclaim n).mp ((parseFlags_eq_ok_iff hname).mpr ⟨s, k, hs, hwidth⟩))
    have heq := units_inj (not_mem_of_read hwidth.1) (not_mem_of_read hwidth'.1) (hs.symm.trans hs')
    omega
  · intro hfew n
    rw [parseFlags_eq_ok_iff hname, one_unit_iff]
    constructor
    · rintro ⟨s, k, hs, hwidth⟩
      exact ⟨s, k, hfew s k n hs hwidth, hs, hwidth⟩
    · rintro ⟨s, k, -, hs, hwidth⟩
      exact ⟨s, k, hs, hwidth⟩

theorem isWidth_640 : IsWidth "640" (Float.ofDecimal false 640 0) :=
  ⟨rfl, by decide +kernel, by decide +kernel⟩

/-- The law at a box with a flag for its width. -/
theorem parseFlags_width_box : flagTokens "box --max-width=640px" = [greatest.token "640px"] ∧
    parseFlags "box --max-width=640px" = .ok [.maxWidth (Float.ofDecimal false 640 0)] := by
  have hname : flagTokens "box --max-width=640px" = [greatest.token "640px"] := by decide
  have hread := (parseFlags_width greatest (v := "640px") (by decide)).2 _ hname
  exact ⟨hname, (hread.1 _).mpr ⟨"640", 1, rfl, isWidth_640⟩⟩

/-- Two units are read as one, though no number is left when one of them is taken off. -/
theorem parseFlags_twoUnits :
    parseFlags "box --max-width=640pxpx" = .ok [.maxWidth (Float.ofDecimal false 640 0)] ∧
      ∀ n s, ("640pxpx" = s ∨ "640pxpx" = s ++ "px") → ¬ IsWidth s n := by
  have hname : flagTokens "box --max-width=640pxpx" = [greatest.token "640pxpx"] := by decide
  refine ⟨(parseFlags_eq_ok_iff hname).mpr ⟨"640", 2, rfl, isWidth_640⟩, ?_⟩
  intro n s hs hwidth
  have hread := not_mem_of_read hwidth.1
  rcases hs with rfl | hs
  · exact hread (by decide)
  · have hunits : "640" ++ units 2 = s ++ units 1 := hs
    exact absurd (units_inj (by decide) hread hunits) (by decide)

end WidthBound

end DesignCompiler
