import DesignCompiler.Proofs.Style.DeclarationReader
import DesignCompiler.Proofs.Style.Plain
import Mathlib.Data.List.TakeWhile
/-!
# Values that delimit themselves

What the library writes as a value by itself is made of words and numbers, with blanks and commas in
between, and of calls like `blur(2px)`, with texts of this kind in parentheses. Such a text is
*balanced*: nothing in it is a quote or a semicolon, and as many parentheses are opened as closed,
so a reader stands behind it where it stood before, however deep that was (`Balanced`). With no
blank at its ends it is *neat* (`Neat`).

Each formatter of values is settled here once. A neat value is tame, and it delimits itself.
-/

namespace DesignCompiler

/-! ### Balanced texts -/

/-- **A tame text whose parentheses match.** -/
structure Balanced (text : String) : Prop where
  tame : Tame text
  level : ∀ depth, Nesting.behind? ⟨false, depth⟩ text.toList = some ⟨false, depth⟩

/-- Words, with blanks and commas in between, but without parentheses. -/
def IsPhrase (text : String) : Prop :=
  ∀ c ∈ text.toList, isTameChar c = true ∧ c ≠ '(' ∧ c ≠ ')'

instance : DecidablePred IsPhrase := fun text =>
  decidable_of_iff (text.toList.all (fun c => isTameChar c && c != '(' && c != ')') = true)
    (by simp [IsPhrase, and_assoc])

/-- A phrase has no quotes and brackets to balance. -/
theorem IsPhrase.balanced {text : String} (h : IsPhrase text) : Balanced text := by
  have htame : Tame text := fun c hc => (h c hc).1
  refine ⟨htame, fun depth => Nesting.behind?_of_forall fun c hc => ?_⟩
  obtain ⟨-, hopen, hclose⟩ := h c hc
  have hquote : c ≠ '"' := fun heq => htame.not_mem (by decide) (heq ▸ hc)
  have hend : c ≠ ';' := fun heq => htame.not_mem (by decide) (heq ▸ hc)
  constructor
  · simp [Nesting.step, hquote, hopen, hclose]
  · simp [Nesting.ends, hend]

/-- Balanced texts may follow one another. -/
theorem Balanced.append {a b : String} (ha : Balanced a) (hb : Balanced b) : Balanced (a ++ b) where
  tame := tame_append.mpr ⟨ha.tame, hb.tame⟩
  level depth := by
    rw [String.toList_append, Nesting.behind?_append, ha.level]
    exact hb.level depth

theorem balanced_intercalate {joiner : String} (hjoiner : Balanced joiner) {texts : List String}
    (h : ∀ text ∈ texts, Balanced text) : Balanced (joiner.intercalate texts) :=
  intercalate_of_append (IsPhrase.balanced (by decide)) Balanced.append hjoiner h

/-- A numeral is a phrase. -/
theorem isPhrase_of_isNumeral {text : String} (h : IsNumeral text.toList) : IsPhrase text := by
  refine fun c hc => ⟨tame_of_isNumeral h c hc, ?_, ?_⟩
  · exact fun heq => h.not_mem (by decide) (heq ▸ hc)
  · exact fun heq => h.not_mem (by decide) (heq ▸ hc)

/-! ### Firm texts -/

/-- Firm ends make a firm text, whatever stands between them. -/
theorem Firm.around {a b : String} (ha : Firm a) (hb : Firm b) (middle : String) :
    Firm (a ++ middle ++ b) := by
  obtain ⟨c, rest, htext, hc⟩ := ha.exists_cons
  obtain ⟨before, d, htext', hd⟩ := hb.exists_concat
  constructor
  · simp [htext, hc]
  · simp [htext', hd]

/-- The space is the only tame blank. -/
theorem isBlank_of_tame {c : Char} (h : isTameChar c = true) (hspace : c ≠ ' ') :
    isBlank c = false := by
  have hmarks : " #%(),-.[]_".toList.all (fun d => d == ' ' || !isBlank d) = true := by decide
  rw [isTameChar, Bool.or_eq_true, List.contains_iff_mem] at h
  rcases h with hletter | hmark
  · exact forall_alphanum (P := (isBlank · = false)) (by decide +kernel) hletter
  · simpa [hspace] using List.all_eq_true.mp hmarks c hmark

/-- A tame text without spaces has no blank at its ends. -/
theorem firm_of_tame {text : String} (h : Tame text) (hspace : ' ' ∉ text.toList)
    (hne : text.toList ≠ []) : Firm text := by
  have hblank : ∀ c ∈ text.toList, (!isBlank c) = true := by
    intro c hc
    rw [isBlank_of_tame (h c hc) fun heq => hspace (heq ▸ hc)]
    rfl
  rw [Firm, Option.any_eq_true, Option.any_eq_true]
  exact ⟨⟨_, List.head?_eq_some_head hne, hblank _ (List.head_mem hne)⟩,
    ⟨_, List.getLast?_eq_some_getLast hne, hblank _ (List.getLast_mem hne)⟩⟩

theorem firm_of_isNumeral {text : String} (h : IsNumeral text.toList) (hne : text.toList ≠ []) :
    Firm text :=
  firm_of_tame (tame_of_isNumeral h) (h.not_mem (by decide)) hne

/-! ### Neat values -/

/-- **A balanced value without blanks at its ends.** -/
structure Neat (value : String) : Prop extends Balanced value where
  firm : Firm value

/-- **A neat value delimits itself.** -/
theorem Neat.selfDelimiting {value : String} (h : Neat value) : SelfDelimiting value := h.level 0

@[simp] theorem neat_phrase {value : String} (h : IsPhrase value ∧ Firm value) : Neat value :=
  ⟨h.1.balanced, h.2⟩

theorem Neat.around {a b : String} (ha : Neat a) (hb : Neat b) {middle : String}
    (hmiddle : Balanced middle) : Neat (a ++ middle ++ b) :=
  ⟨(ha.toBalanced.append hmiddle).append hb.toBalanced, ha.firm.around hb.firm middle⟩

theorem Neat.append {a b : String} (ha : Neat a) (hb : Neat b) : Neat (a ++ b) := by
  have h : Neat (a ++ "" ++ b) := ha.around hb (IsPhrase.balanced (by decide))
  rwa [String.append_empty] at h

theorem Neat.spaced {a b : String} (ha : Neat a) (hb : Neat b) : Neat (a ++ " " ++ b) :=
  ha.around hb (IsPhrase.balanced (by decide))

theorem neat_of_isNumeral {text : String} (h : IsNumeral text.toList) (hne : text.toList ≠ []) :
    Neat text :=
  neat_phrase ⟨isPhrase_of_isNumeral h, firm_of_isNumeral h hne⟩

/-! ### Calls -/

/-- **A call that has begun,** up to somewhere among its arguments: the reader is one deeper. -/
structure Opened (text : String) : Prop where
  tame : Tame text
  level : ∀ depth, Nesting.behind? ⟨false, depth⟩ text.toList = some ⟨false, depth + 1⟩
  start : (text.toList.head?.any (!isBlank ·)) = true

/-- The name of a function opens its bracket. -/
theorem opened_name (name : String) (h : IsPhrase name ∧ Firm name) : Opened (name ++ "(") where
  tame := tame_append.mpr ⟨h.1.balanced.tame, by decide⟩
  level depth := by
    rw [String.toList_append, Nesting.behind?_append, h.1.balanced.level]
    rfl
  start := by
    obtain ⟨c, rest, hname, hc⟩ := h.2.exists_cons
    simp [hname, hc]

/-- What stands in the bracket is balanced on its own. -/
theorem Opened.append {a b : String} (ha : Opened a) (hb : Balanced b) : Opened (a ++ b) where
  tame := tame_append.mpr ⟨ha.tame, hb.tame⟩
  level depth := by
    rw [String.toList_append, Nesting.behind?_append, ha.level]
    exact hb.level (depth + 1)
  start := by
    obtain ⟨c, hc, hblank⟩ := (Option.any_eq_true _ _).mp ha.start
    obtain ⟨rest, hrest⟩ := List.head?_eq_some_iff.mp hc
    simpa [hrest] using hblank

/-- **Closed, it is neat:** the reader is back where it was in front of the call. -/
theorem Opened.close {a : String} (h : Opened a) : Neat (a ++ ")") where
  tame := tame_append.mpr ⟨h.tame, by decide⟩
  level depth := by
    rw [String.toList_append, Nesting.behind?_append, h.level]
    rfl
  firm := by
    -- The text starts as it did and ends in a bracket.
    obtain ⟨c, hc, hblank⟩ := (Option.any_eq_true _ _).mp h.start
    obtain ⟨rest, hrest⟩ := List.head?_eq_some_iff.mp hc
    constructor
    · simpa [hrest] using hblank
    · simp
      decide

/-- An opened bracket is closed behind what stands in it. -/
theorem Opened.close_append {a b : String} (ha : Opened a) (hb : Balanced b) :
    Neat (a ++ (b ++ ")")) := by
  rw [← String.append_assoc]
  exact (ha.append hb).close

/-! ### Numbers -/

/-- Not all of a text is dropped when another character stands in it. -/
theorem dropTrailing_ne_nil {c d : Char} {text : List Char} (hd : d ∈ text) (hne : d ≠ c) :
    dropTrailing c text ≠ [] := by
  intro hnil
  rw [dropTrailing, List.reverse_eq_nil_iff, List.dropWhile_eq_nil_iff] at hnil
  exact hne (beq_iff_eq.mp (hnil d (List.mem_reverse.mpr hd)))

/-- Below the units there is a point. -/
theorem point_mem_positional {e : Int} (h : ¬ 0 ≤ e) (digits : List Char) :
    '.' ∈ (positional digits e).toList := by
  rw [positional, if_neg h]
  simp

/-- What is no number is a word, and digits with places behind the point have the point too. -/
theorem exists_ne_zero_of_fixed {places : Nat} (h : 0 < places) (x : Float) :
    ∃ d ∈ (Float.fixed places x).toList, d ≠ '0' := by
  unfold Float.fixed BinaryParts.fixed
  split
  · exact ⟨'N', by decide, by decide⟩
  · exact ⟨'i', by simp, by decide⟩
  · have hpoint := point_mem_positional (e := -places) (by omega)
    rw [String.toList_append]
    exact ⟨'.', List.mem_append_right _ (hpoint _), by decide⟩

theorem toString_int_ne_nil (i : Int) : (toString i).toList ≠ [] := by
  cases i with
  | ofNat n =>
    show (toString n).toList ≠ []
    simp [Nat.toDigits_ne_nil]
  | negSucc n =>
    show ("-" ++ toString (n + 1)).toList ≠ []
    simp

/-- A number is written with at least one character. -/
theorem cssNumber_ne_nil (value : Float) : (cssNumber value).toList ≠ [] := by
  simp only [cssNumber]
  split
  · exact toString_int_ne_nil _
  · obtain ⟨d, hd, hne⟩ := exists_ne_zero_of_fixed (by decide : 0 < 2) _
    rw [String.toList_ofList]
    exact dropTrailing_ne_nil hd hne

@[simp] theorem neat_cssNumber (value : Float) : Neat (cssNumber value) :=
  neat_of_isNumeral (isNumeral_cssNumber value) (cssNumber_ne_nil value)

@[simp] theorem neat_natural (n : Nat) : Neat n.repr :=
  neat_of_isNumeral (isNumeral_nat n) (by simp [Nat.toDigits_ne_nil])

@[simp] theorem neat_px (value : Float) : Neat (px value) :=
  (neat_cssNumber value).append (neat_phrase (by decide))

theorem balanced_radians (angle : Float) : Balanced (radians angle) :=
  (isPhrase_of_isNumeral (isNumeral_radians angle)).balanced

theorem neat_rotation (angle : Float) : Neat ("rotate(" ++ radians angle ++ "rad)") :=
  ((opened_name "rotate" (by decide)).append (balanced_radians angle)).close_append
    (b := "rad") (IsPhrase.balanced (by decide))

theorem neat_blur (radius : Float) : Neat ("blur(" ++ px radius ++ ")") :=
  ((opened_name "blur" (by decide)).append (neat_px radius).toBalanced).close

/-! ### Colors and boxes -/

/-- A color in hex is written neatly. -/
theorem neat_hash {text : String} (h : ∀ c ∈ text.toList, c.isAlphanum = true) :
    Neat ("#" ++ text) := by
  have hword : IsPhrase text := by
    refine fun c hc => ⟨tame_of_alphanum h c hc, ?_, ?_⟩
    · exact fun heq => absurd (heq ▸ h c hc) (by decide)
    · exact fun heq => absurd (heq ▸ h c hc) (by decide)
  have hbalanced : Balanced ("#" ++ text) :=
    (IsPhrase.balanced (by decide)).append hword.balanced
  refine ⟨hbalanced, firm_of_tame hbalanced.tame ?_ (by simp)⟩
  rw [String.toList_append, List.mem_append, not_or]
  exact ⟨by decide, fun hspace => absurd (h _ hspace) (by decide)⟩

@[simp] theorem neat_cssText (c : Color) : Neat c.cssText := by
  simp only [Color.cssText]
  split
  · exact neat_hash (alphanum_upperHex _)
  · -- Three bytes and a number, with commas in between.
    have hcomma : Balanced ", " := IsPhrase.balanced (by decide)
    have hbyte : ∀ n : UInt8, Balanced (toString n.toNat) := fun n => (neat_natural _).toBalanced
    have halpha : ∀ x, Balanced (Float32.text x) :=
      fun x => (isPhrase_of_isNumeral (isNumeral_text32 x)).balanced
    have hopened : Opened "rgba(" := opened_name "rgba" (by decide)
    exact (((((((hopened.append (hbyte _)).append hcomma).append (hbyte _)).append hcomma).append
      (hbyte _)).append hcomma).append (halpha _)).close

@[simp] theorem neat_cornersValue (c : Corners) : Neat (cornersValue c) := by
  unfold cornersValue
  split
  · exact neat_px _
  · exact (((neat_px _).spaced (neat_px _)).spaced (neat_px _)).spaced (neat_px _)

@[simp] theorem neat_insetsValue (i : Insets) : Neat (insetsValue i) := by
  unfold insetsValue
  split
  · split
    · exact neat_px _
    · exact (neat_px _).spaced (neat_px _)
  · exact (((neat_px _).spaced (neat_px _)).spaced (neat_px _)).spaced (neat_px _)

@[simp] theorem neat_borderValue (b : Border) : Neat b.value :=
  (neat_px _).around (neat_cssText _) (IsPhrase.balanced (by decide))

/-! ### Shadows and gradients -/

/-- A shadow is written neatly. -/
theorem neat_shadowValue (s : Shadow) : Neat (shadowValue s) := by
  have hlengths : Neat s!"{px s.x} {px s.y} {px s.blur} {px s.spread} {s.color.cssText}" :=
    ((((neat_px _).spaced (neat_px _)).spaced (neat_px _)).spaced (neat_px _)).spaced
      (neat_cssText _)
  have hinset : Neat "inset" := neat_phrase (by decide)
  unfold shadowValue
  split
  · exact hinset.spaced hlengths
  · rwa [String.empty_append]

/-- Neat values, of which there is one at least, make a neat list. -/
theorem neat_intercalate {texts : List String} (hne : texts ≠ []) (h : ∀ text ∈ texts, Neat text) :
    Neat (", ".intercalate texts) :=
  intercalate_of_joined (fun ha hb => ha.around hb (IsPhrase.balanced (by decide))) hne h

/-- So are several, when there are any. -/
theorem neat_shadowsValue {shadows : List Shadow} (h : shadows ≠ []) :
    Neat (shadowsValue shadows) := by
  refine neat_intercalate (by simpa using h) fun text htext => ?_
  obtain ⟨s, -, rfl⟩ := List.mem_map.mp htext
  exact neat_shadowValue s

/-- Stops may be none, so a list of them is balanced but need not be neat. -/
theorem balanced_stopsValue (stops : List GradientStop) : Balanced (stopsValue stops) := by
  refine balanced_intercalate (IsPhrase.balanced (by decide)) fun text htext => ?_
  obtain ⟨s, -, rfl⟩ := List.mem_map.mp htext
  exact ((neat_cssText _).spaced (neat_cssNumber _)).toBalanced.append
    (IsPhrase.balanced (by decide))

/-- Every gradient that is written is written neatly; diamonds are not. -/
theorem neat_gradientValue {g : Gradient} {value : String} (h : gradientValue? g = some value) :
    Neat value := by
  have hnumber : ∀ x, Balanced (cssNumber x) := fun x => (neat_cssNumber x).toBalanced
  -- Each kind opens the bracket of its function, writes numbers and stops, and closes it.
  cases g with
  | linear angle stops =>
    cases h
    have hopened : Opened "linear-gradient(" := opened_name "linear-gradient" (by decide)
    exact (((hopened.append (hnumber _)).append (IsPhrase.balanced (by decide))).append
      (balanced_stopsValue stops)).close
  | radial centerX centerY radius stops =>
    cases h
    have hopened : Opened "radial-gradient(circle at " :=
      (opened_name "radial-gradient" (by decide)).append (b := "circle at ")
        (IsPhrase.balanced (by decide))
    exact ((((hopened.append (hnumber _)).append (IsPhrase.balanced (by decide))).append
      (hnumber _)).append (IsPhrase.balanced (by decide))).close_append (balanced_stopsValue stops)
  | angular startAngle stops =>
    cases h
    have hopened : Opened "conic-gradient(from " :=
      (opened_name "conic-gradient" (by decide)).append (b := "from ")
        (IsPhrase.balanced (by decide))
    exact (((hopened.append (hnumber _)).append (IsPhrase.balanced (by decide))).append
      (balanced_stopsValue stops)).close
  | diamond stops => exact absurd h (by simp [gradientValue?])

end DesignCompiler
