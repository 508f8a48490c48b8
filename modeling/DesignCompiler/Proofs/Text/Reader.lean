import DesignCompiler.Text.Reader
import Mathlib.Data.List.Basic
/-!
# What readers take

The steps of a `TextReader` on a text that begins as they want it. `many_flatMap` is the law for a
repeated reader: if each item is read off its own spelling, whatever comes behind, then the
spellings of several items are read as these items, up to where the reader refuses.

What a reader takes of a text that nothing is known of is bounded by the readers that it is made of
(`Takes`): so many characters at least, and all of one class. A reader that takes one at least can
be repeated item by item (`Takes.many_eq`).
-/

namespace DesignCompiler

namespace TextReader

variable {α β : Type}

/-- One reader after the other. -/
theorem bind_of_eq {reader : TextReader α} {next : α → TextReader β} {text rest : List Char}
    {value : α} (h : reader text = some (value, rest)) :
    (reader >>= next) text = next value rest := by
  show (reader text).bind _ = _
  rw [h]
  rfl

/-- What was read is mapped, and the rest stays. -/
theorem map_of_eq {reader : TextReader α} {f : α → β} {text rest : List Char} {value : α}
    (h : reader text = some (value, rest)) : (f <$> reader) text = some (f value, rest) := by
  show (reader text).bind _ = _
  rw [h]
  rfl

/-- Nothing read is nothing mapped. -/
theorem map_of_none {reader : TextReader α} {f : α → β} {text : List Char}
    (h : reader text = none) : (f <$> reader) text = none := by
  show (reader text).bind _ = _
  rw [h]
  rfl

/-- A reader that fails first fails. -/
theorem bind_of_none {reader : TextReader α} {next : α → TextReader β} {text : List Char}
    (h : reader text = none) : (reader >>= next) text = none := by
  show (reader text).bind _ = _
  rw [h]
  rfl

/-- Two readers in a row read when the first does and the second reads on from there. -/
theorem bind_eq_some_iff {reader : TextReader α} {next : α → TextReader β}
    {text rest : List Char} {value : β} :
    (reader >>= next) text = some (value, rest) ↔
      ∃ first between, reader text = some (first, between) ∧
        next first between = some (value, rest) := by
  cases hfirst : reader text with
  | none => simp [bind_of_none hfirst]
  | some found => simp [bind_of_eq hfirst, Prod.ext_iff]

/-- The first alternative that reads is taken. -/
theorem orElse_of_eq {first second : TextReader α} {text rest : List Char} {value : α}
    (h : first text = some (value, rest)) : (first <|> second) text = some (value, rest) := by
  show (first text <|> second text) = _
  rw [h]
  rfl

/-- The second alternative is tried from the same place. -/
theorem orElse_of_none {first second : TextReader α} {text : List Char} (h : first text = none) :
    (first <|> second) text = second text := by
  show (first text <|> second text) = _
  rw [h]
  rfl

/-- What was read came from one of the alternatives. -/
theorem orElse_eq_some {first second : TextReader α} {text rest : List Char} {value : α}
    (h : (first <|> second) text = some (value, rest)) :
    first text = some (value, rest) ∨ second text = some (value, rest) := by
  cases hfirst : first text with
  | none => exact Or.inr ((orElse_of_none hfirst).symm.trans h)
  | some found => exact Or.inl ((orElse_of_eq hfirst).symm.trans h)

theorem char_of_pos {allowed : Char → Bool} {c : Char} (h : allowed c = true) (rest : List Char) :
    char allowed (c :: rest) = some (c, rest) := by
  rw [char, if_pos h]

/-- A word in front is read. -/
theorem word_append (expected : String) (rest : List Char) :
    word expected (expected.toList ++ rest) = some ((), rest) := by
  have hprefix : expected.toList.isPrefixOf (expected.toList ++ rest) = true :=
    List.isPrefixOf_iff_prefix.mpr (List.prefix_append _ _)
  rw [word, if_pos hprefix, ← String.length_toList, List.drop_left]

/-- Only texts that start with the word are read. -/
theorem word_eq_some_iff {expected : String} {text rest : List Char} {u : Unit} :
    word expected text = some (u, rest) ↔ text = expected.toList ++ rest := by
  constructor
  · intro h
    rw [word] at h
    split at h
    · next hprefix =>
      cases h
      obtain ⟨rest, rfl⟩ := List.isPrefixOf_iff_prefix.mp hprefix
      rw [← String.length_toList, List.drop_left]
    · cases h
  · rintro rfl
    exact word_append expected rest

/-- The characters of a class up to one that is not in it. -/
theorem run_append {allowed : Char → Bool} {text rest : List Char}
    (htext : ∀ c ∈ text, allowed c = true) (hrest : ∀ c, rest.head? = some c → allowed c = false) :
    run allowed (text ++ rest) = some (text, rest) := by
  -- The run stops where the rest starts.
  have hstop : rest.takeWhile allowed = [] ∧ rest.dropWhile allowed = rest := by
    cases rest with
    | nil => exact ⟨rfl, rfl⟩
    | cons c more =>
      have hc : ¬allowed c = true := by
        rw [hrest c rfl]
        exact Bool.false_ne_true
      rw [List.takeWhile_cons_of_neg hc, List.dropWhile_cons_of_neg hc]
      exact ⟨rfl, rfl⟩
  rw [run, List.takeWhile_append_of_pos htext, List.dropWhile_append_of_pos htext, hstop.1,
    hstop.2, List.append_nil]

/-- A text of one class is taken as a whole. -/
theorem run1_of_forall {allowed : Char → Bool} {c : Char} {text : List Char}
    (h : ∀ d ∈ c :: text, allowed d = true) : run1 allowed (c :: text) = some (c :: text, []) := by
  obtain ⟨hc, htext⟩ := List.forall_mem_cons.mp h
  have hrun : run allowed (text ++ []) = some (text, []) := run_append htext nofun
  rw [List.append_nil] at hrun
  rw [run1, bind_of_eq (char_of_pos hc text), bind_of_eq hrun]
  rfl

theorem attempt_of_eq {reader : TextReader α} {text rest : List Char} {value : α}
    (h : reader text = some (value, rest)) : attempt reader text = some (some value, rest) :=
  orElse_of_eq (map_of_eq h)

theorem attempt_of_none {reader : TextReader α} {text : List Char} (h : reader text = none) :
    attempt reader text = some (none, text) :=
  orElse_of_none (map_of_none h)

section Many

variable {reader : TextReader α} {text rest : List Char}

/-- Repetition ends at the first failure. -/
theorem upTo_of_none (h : reader text = none) (times : Nat) :
    upTo reader times text = some ([], text) := by
  cases times with
  | zero => rfl
  | succ times =>
    rw [upTo, bind_of_eq (attempt_of_none h)]
    rfl

theorem upTo_succ {value : α} (h : reader text = some (value, rest)) (times : Nat) :
    upTo reader (times + 1) text =
      (upTo reader times rest).map fun found => (value :: found.1, found.2) := by
  rw [upTo, bind_of_eq (attempt_of_eq h)]
  show (upTo reader times rest).bind _ = _
  cases upTo reader times rest <;> rfl

/-- Repetition reads one, then the others. -/
theorem upTo_cons {first : α} {others : List α} {more : List Char} {times : Nat}
    (h : reader text = some (first, rest)) (hrest : upTo reader times rest = some (others, more)) :
    upTo reader (times + 1) text = some (first :: others, more) := by
  rw [upTo_succ h, hrest]
  rfl

theorem many_of_none (h : reader text = none) : many reader text = some ([], text) :=
  upTo_of_none h _

/-- A repeated reader that takes all of a text at once. -/
theorem many_of_eq {value : α} (h : reader text = some (value, [])) (hnil : reader [] = none) :
    many reader text = some ([value], []) := by
  cases text with
  | nil =>
    rw [hnil] at h
    cases h
  | cons c text => exact upTo_cons h (upTo_of_none hnil _)

variable {value : β → α} {spelling : β → List Char} {items : List β}

/-- Items that are read off their spellings, with enough turns left. -/
theorem upTo_flatMap (hitem : ∀ b ∈ items, ∀ more, reader (spelling b ++ more) = some (value b, more))
    (hrest : reader rest = none) {times : Nat} (htimes : items.length ≤ times) :
    upTo reader times (items.flatMap spelling ++ rest) = some (items.map value, rest) := by
  induction items generalizing times with
  | nil => exact upTo_of_none hrest times
  | cons b items ih =>
    obtain ⟨hb, hitems⟩ := List.forall_mem_cons.mp hitem
    rw [List.length_cons] at htimes
    obtain ⟨times, rfl⟩ : ∃ n, times = n + 1 := ⟨times - 1, by omega⟩
    rw [List.flatMap_cons, List.append_assoc]
    exact upTo_cons (hb _) (ih hitems (Nat.le_of_succ_le_succ htimes))

/-- **A repeated reader** takes the items that are spelled one after the other. -/
theorem many_flatMap (hitem : ∀ b ∈ items, ∀ more, reader (spelling b ++ more) = some (value b, more))
    (hspelling : ∀ b ∈ items, spelling b ≠ []) (hrest : reader rest = none) :
    many reader (items.flatMap spelling ++ rest) = some (items.map value, rest) := by
  refine upTo_flatMap hitem hrest ?_
  -- Each item takes a character at least, so there are turns enough.
  have hlength : items.length ≤ (items.flatMap spelling).length := by
    clear hitem
    induction items with
    | nil => exact Nat.zero_le _
    | cons b items ih =>
      obtain ⟨hb, hitems⟩ := List.forall_mem_cons.mp hspelling
      have hfirst := List.length_pos_iff.mpr hb
      have hothers := ih hitems
      rw [List.length_cons, List.flatMap_cons, List.length_append]
      omega
  rw [List.length_append]
  omega

end Many

/-! ### What a reader takes -/

/-- **A reader takes so many characters at least,** all of one class. -/
def Takes (least : Nat) (p : Char → Prop) (reader : TextReader α) : Prop :=
  ∀ text value rest, reader text = some (value, rest) →
    ∃ taken, text = taken ++ rest ∧ least ≤ taken.length ∧ ∀ c ∈ taken, p c

section Takes

variable {p : Char → Prop} {least more : Nat}

/-- What takes more takes at least as much as less. -/
theorem Takes.mono {reader : TextReader α} (h : Takes more p reader) (hle : least ≤ more) :
    Takes least p reader := fun text value rest hread => by
  obtain ⟨taken, rfl, hlength, hall⟩ := h text value rest hread
  exact ⟨taken, rfl, Nat.le_trans hle hlength, hall⟩

theorem takes_pure (value : α) : Takes 0 p (pure value : TextReader α) := fun text _ rest h => by
  cases h
  exact ⟨[], rfl, Nat.le_refl _, fun _ h => absurd h List.not_mem_nil⟩

theorem takes_failure : Takes least p (failure : TextReader α) := fun _ _ _ h => by
  cases h

/-- A character reader takes one allowed character. -/
theorem takes_char {allowed : Char → Bool} (h : ∀ c, allowed c = true → p c) :
    Takes 1 p (char allowed) := by
  intro text value rest hread
  cases text with
  | nil => cases hread
  | cons c text =>
    rw [char] at hread
    split at hread
    · next hc =>
      cases hread
      exact ⟨[value], rfl, Nat.le_refl _, fun d hd => List.mem_singleton.mp hd ▸ h value hc⟩
    · cases hread

theorem takes_word {expected : String} (h : ∀ c ∈ expected.toList, p c) :
    Takes expected.length p (word expected) := fun _ _ _ hread =>
  ⟨expected.toList, word_eq_some_iff.mp hread, Nat.le_of_eq String.length_toList.symm, h⟩

/-- A run takes allowed characters, perhaps none. -/
theorem takes_run {allowed : Char → Bool} (h : ∀ c, allowed c = true → p c) :
    Takes 0 p (run allowed) := by
  intro text value rest hread
  cases hread
  exact ⟨_, List.takeWhile_append_dropWhile.symm, Nat.zero_le _,
    fun c hc => h c (List.all_eq_true.mp List.all_takeWhile c hc)⟩

/-- Readers in a row take what both take. -/
theorem Takes.bind {reader : TextReader α} {next : α → TextReader β} (h : Takes least p reader)
    (hnext : ∀ value, Takes more p (next value)) : Takes (least + more) p (reader >>= next) := by
  intro text value rest hread
  obtain ⟨first, between, hfirst, hsecond⟩ := bind_eq_some_iff.mp hread
  obtain ⟨taken, rfl, hleast, hall⟩ := h _ _ _ hfirst
  obtain ⟨others, rfl, hmore, hothers⟩ := hnext first _ _ _ hsecond
  refine ⟨taken ++ others, (List.append_assoc _ _ _).symm, ?_, ?_⟩
  · rw [List.length_append]
    omega
  · exact List.forall_mem_append.mpr ⟨hall, hothers⟩

/-- Alternatives take what each of them takes. -/
theorem Takes.orElse {first second : TextReader α} (h : Takes least p first)
    (h' : Takes least p second) : Takes least p (first <|> second) :=
  fun text value rest hread =>
    (orElse_eq_some hread).elim (h text value rest) (h' text value rest)

theorem takes_attempt {reader : TextReader α} (h : Takes least p reader) :
    Takes 0 p (attempt reader) :=
  Takes.orElse ((h.mono (Nat.zero_le _)).bind fun _ => takes_pure _) (takes_pure _)

/-- Looking ahead takes nothing. -/
theorem takes_notNext (reader : TextReader α) : Takes 0 p (notNext reader) := by
  intro text value rest hread
  rw [notNext] at hread
  split at hread
  · cases hread
  · cases hread
    exact ⟨[], rfl, Nat.le_refl _, fun _ h => absurd h List.not_mem_nil⟩

theorem takes_run1 {allowed : Char → Bool} (h : ∀ c, allowed c = true → p c) :
    Takes 1 p (run1 allowed) :=
  (takes_char h).bind fun _ => (takes_run h).bind fun _ => takes_pure _

end Takes

/-! ### One item at a time -/

section ManyCons

variable {p : Char → Prop} {reader : TextReader α} (h : Takes 1 p reader)
include h

/-- A reader that takes something shortens the text. -/
theorem Takes.length_lt {text rest : List Char} {value : α} (hread : reader text = some (value, rest)) :
    rest.length < text.length := by
  obtain ⟨taken, rfl, hlength, -⟩ := h _ _ _ hread
  rw [List.length_append]
  omega

/-- **Turns left over do nothing.** -/
theorem upTo_congr {n m : Nat} {text : List Char} (hn : text.length ≤ n) (hm : text.length ≤ m) :
    upTo reader n text = upTo reader m text := by
  induction n generalizing m text with
  | zero =>
    have hnone : reader text = none := by
      by_contra hsome
      obtain ⟨⟨value, rest⟩, hread⟩ := Option.ne_none_iff_exists'.mp hsome
      have := h.length_lt hread
      omega
    rw [upTo_of_none hnone, upTo_of_none hnone]
  | succ n ih =>
    -- Each round shortens the text, so that either count outlasts it.
    cases hread : reader text with
    | none => rw [upTo_of_none hread, upTo_of_none hread]
    | some found =>
      obtain ⟨value, rest⟩ := found
      have hlength := h.length_lt hread
      obtain ⟨m, rfl⟩ : ∃ k, m = k + 1 := ⟨m - 1, by omega⟩
      rw [upTo_succ hread, upTo_succ hread, ih (m := m) (by omega) (by omega)]

/-- **A repeated reader,** where it takes an item, goes on behind it. -/
theorem Takes.many_eq {text rest : List Char} {value : α} (hread : reader text = some (value, rest)) :
    many reader text = (many reader rest).map fun found => (value :: found.1, found.2) := by
  have hlength := h.length_lt hread
  obtain ⟨n, hn⟩ : ∃ n, text.length = n + 1 := ⟨text.length - 1, by omega⟩
  rw [many, hn, upTo_succ hread, many, upTo_congr h (n := n) (by omega) (Nat.le_refl _)]

end ManyCons

end TextReader

end DesignCompiler
