import DesignCompiler.Asset.Reservation
import Mathlib.Data.List.TakeWhile
/-!
# How a text is cut at its references

A text is cut from left to right, and a key goes on as far as it can. Two facts follow that say how
the pieces lie next to each other.

* `separated_references` — after a reference comes a character that is no key character, or nothing,
  so no two references touch;
* `referencesFrom_append_cons` — at a character that is no key character the text can be parted, and
  the parts cut on their own.

Both are proved by `cut_induction`, which follows the cut: it takes off a reference with its whole
key where there is one, else one character.
-/

namespace DesignCompiler

/-! ### The prefix -/

/-- All characters of the prefix could stand in a key. -/
theorem prefix_isKeyChar : ∀ c ∈ reservationPrefix.toList, isKeyChar c = true := by
  have hall : reservationPrefix.toList.all isKeyChar = true := by decide +kernel
  exact List.all_eq_true.mp hall

theorem prefix_ne_nil : reservationPrefix.toList ≠ [] := by
  decide

/-- A text that begins with no key character does not begin with the prefix. -/
theorem not_prefix_of_not_keyChar {c : Char} (hc : isKeyChar c = false) (rest : List Char) :
    ¬ reservationPrefix.toList <+: c :: rest := by
  intro h
  -- The prefix begins with a key character.
  obtain ⟨d, ds, hbegins⟩ := List.exists_cons_of_ne_nil prefix_ne_nil
  have hd := prefix_isKeyChar d (hbegins ▸ List.mem_cons_self)
  rw [hbegins, List.cons_prefix_cons] at h
  rw [h.1, hc] at hd
  cases hd

/-! ### One reference -/

/-- Whether a text begins where a key would end: with no key character, or not at all. -/
def EndsKey (text : List Char) : Prop := ∀ c ∈ text.head?, isKeyChar c = false

theorem endsKey_nil : EndsKey [] := fun _ h => absurd h (by simp)

theorem endsKey_cons {c : Char} {rest : List Char} : EndsKey (c :: rest) ↔ isKeyChar c = false := by
  simp [EndsKey]

/-- The key characters in front of the end of a key are taken as a whole. -/
theorem takeWhile_key {key rest : List Char} (hkey : ∀ c ∈ key, isKeyChar c = true)
    (hrest : EndsKey rest) : (key ++ rest).takeWhile isKeyChar = key := by
  rw [List.takeWhile_append_of_pos hkey]
  cases rest with
  | nil => simp
  | cons c rest =>
    rw [List.takeWhile_cons, endsKey_cons.mp hrest]
    simp

/-- What is left behind the characters of a key ends it. -/
theorem endsKey_dropWhile (text : List Char) : EndsKey (text.dropWhile isKeyChar) := by
  intro c hc
  have h := List.head?_dropWhile_not isKeyChar text
  rw [Option.mem_def.mp hc] at h
  simpa using h

/-- **The reference that a text begins with:** the prefix, then as many key characters as there are,
and at least one. -/
theorem leadingKey?_eq_some_iff {text key : List Char} :
    leadingKey? text = some key ↔ key ≠ [] ∧ (∀ c ∈ key, isKeyChar c = true) ∧
      ∃ rest, EndsKey rest ∧ text = reservationPrefix.toList ++ (key ++ rest) := by
  unfold leadingKey?
  constructor
  · intro h
    split at h
    · -- Behind the prefix, the key is as much as can be taken.
      next hbegins =>
      obtain ⟨after, rfl⟩ := List.isPrefixOf_iff_prefix.mp hbegins
      simp only [← String.length_toList, List.drop_left] at h
      split at h
      · cases h
      · next hne =>
        cases h
        refine ⟨fun hnil => hne (by rw [hnil]; rfl), fun c => List.mem_takeWhile_imp, ?_⟩
        exact ⟨after.dropWhile isKeyChar, endsKey_dropWhile after,
          by rw [List.takeWhile_append_dropWhile]⟩
    · cases h
  · rintro ⟨hne, hkey, rest, hrest, rfl⟩
    have hbegins : reservationPrefix.toList.isPrefixOf
        (reservationPrefix.toList ++ (key ++ rest)) = true :=
      List.isPrefixOf_iff_prefix.mpr (List.prefix_append _ _)
    -- Read the other way, the key is taken whole, since it ends where no key character is.
    rw [if_pos hbegins, ← String.length_toList, List.drop_left, takeWhile_key hkey hrest]
    simp [hne]

/-- No reference begins with a character that is in no key, since the prefix has only such as are in
keys. -/
theorem leadingKey?_of_not_keyChar {c : Char} (hc : isKeyChar c = false) (rest : List Char) :
    leadingKey? (c :: rest) = none := by
  unfold leadingKey?
  rw [if_neg]
  exact fun h => not_prefix_of_not_keyChar hc rest (List.isPrefixOf_iff_prefix.mp h)

/-! ### The cut -/

/-- Passing over characters is the same as leaving them out. -/
theorem referencesFrom_eq_drop (skip : Nat) (text : List Char) :
    referencesFrom skip text = referencesFrom 0 (text.drop skip) := by
  induction text generalizing skip with
  | nil => rw [List.drop_nil]; rfl
  | cons c rest ih =>
    cases skip with
    | zero => rfl
    | succ skip => rw [referencesFrom, ih, List.drop_succ_cons]

/-- Where no reference begins, one character is taken off. -/
theorem referencesFrom_char {c : Char} {rest : List Char} (h : leadingKey? (c :: rest) = none) :
    referencesFrom 0 (c :: rest) = .char c :: referencesFrom 0 rest := by
  rw [referencesFrom, h]

/-- Where a reference begins, it is taken off with its whole key. -/
theorem referencesFrom_reference {key rest : List Char} (hne : key ≠ [])
    (hkey : ∀ c ∈ key, isKeyChar c = true) (hrest : EndsKey rest) :
    referencesFrom 0 (reservationPrefix.toList ++ (key ++ rest)) =
      .reference key :: referencesFrom 0 rest := by
  have hleading := leadingKey?_eq_some_iff.mpr ⟨hne, hkey, rest, hrest, rfl⟩
  obtain ⟨c, cs, hbegins⟩ := List.exists_cons_of_ne_nil prefix_ne_nil
  -- The first character is taken off, and the rest of the reference is passed over.
  have hlength : reservationPrefix.length = cs.length + 1 := by
    rw [← String.length_toList, hbegins, List.length_cons]
  rw [hbegins, List.cons_append] at hleading ⊢
  simp only [referencesFrom, hleading]
  rw [referencesFrom_eq_drop, hlength, show cs.length + 1 + key.length - 1 =
    (cs ++ key).length by rw [List.length_append]; omega, ← List.append_assoc, List.drop_left]

/-- **Induction along the cut of a text.** -/
theorem cut_induction {motive : List Char → Prop} (nil : motive [])
    (char : ∀ c rest, leadingKey? (c :: rest) = none → motive rest → motive (c :: rest))
    (reference : ∀ key rest, key ≠ [] → (∀ c ∈ key, isKeyChar c = true) → EndsKey rest →
      motive rest → motive (reservationPrefix.toList ++ (key ++ rest)))
    (text : List Char) : motive text := by
  -- A reference takes off more than one character, so the induction is on the length.
  induction hlength : text.length using Nat.strong_induction_on generalizing text with
  | _ length ih =>
    cases text with
    | nil => exact nil
    | cons c rest =>
      cases hleading : leadingKey? (c :: rest) with
      | none => exact char c rest hleading (ih rest.length (by simp [← hlength]) rest rfl)
      | some key =>
        obtain ⟨hne, hkey, after, hafter, htext⟩ := leadingKey?_eq_some_iff.mp hleading
        rw [htext] at hlength ⊢
        refine reference key after hne hkey hafter (ih after.length ?_ after rfl)
        have := List.length_pos_iff.mpr hne
        simp only [List.length_append] at hlength
        omega

/-- **Pieces in which no two references touch:** after each of them comes a character that is no key
character, or nothing. -/
def Separated : List ReferencePiece → Prop
  | [] => True
  | .char _ :: rest => Separated rest
  | .reference _ :: rest =>
    (rest = [] ∨ ∃ c after, rest = .char c :: after ∧ isKeyChar c = false) ∧ Separated rest

/-- A key goes on as far as it can, so the pieces of a text are separated. -/
theorem separated_references (text : List Char) : Separated (referencesFrom 0 text) := by
  -- Behind a reference the text ends, or a character follows that could not be read on into the
  -- key.
  induction text using cut_induction with
  | nil => trivial
  | char c rest h ih =>
    rw [referencesFrom_char h]
    exact ih
  | reference key rest hne hkey hrest ih =>
    rw [referencesFrom_reference hne hkey hrest]
    refine ⟨?_, ih⟩
    cases rest with
    | nil => exact Or.inl rfl
    | cons c rest =>
      have hc := endsKey_cons.mp hrest
      exact Or.inr ⟨c, _, referencesFrom_char (leadingKey?_of_not_keyChar hc rest), hc⟩

/-! ### Parting a text -/

/-- Key characters that a text begins with lie before the first character that is none. -/
theorem exists_of_append_cons {before after keys rest : List Char} {c : Char}
    (hc : isKeyChar c = false) (hkeys : ∀ d ∈ keys, isKeyChar d = true)
    (h : before ++ c :: after = keys ++ rest) :
    ∃ between, before = keys ++ between ∧ rest = between ++ c :: after := by
  rcases List.append_eq_append_iff.mp h with ⟨surplus, hsurplus, hrest⟩ | ⟨between, hbefore, hrest⟩
  · -- The character itself would be among the key characters, unless there is nothing over.
    cases surplus with
    | nil => exact ⟨[], by simpa using hsurplus.symm, by simpa using hrest.symm⟩
    | cons d surplus =>
      obtain ⟨rfl, -⟩ := List.cons.inj hrest
      have hd := hkeys c (hsurplus ▸ List.mem_append_right _ List.mem_cons_self)
      rw [hc] at hd
      cases hd
  · exact ⟨between, hbefore, hrest⟩

/-- Nor does one begin anew for what comes behind such a character. -/
theorem leadingKey?_append_cons {before : List Char} {c : Char} (hc : isKeyChar c = false)
    (after : List Char) (h : leadingKey? before = none) :
    leadingKey? (before ++ c :: after) = none := by
  by_contra hsome
  obtain ⟨key, hkey⟩ := Option.ne_none_iff_exists'.mp hsome
  obtain ⟨hne, hkeys, rest, hrest, htext⟩ := leadingKey?_eq_some_iff.mp hkey
  -- A reference of the whole would lie in front of the character, and so in that part alone.
  have hall : ∀ d ∈ reservationPrefix.toList ++ key, isKeyChar d = true :=
    fun d hd => (List.mem_append.mp hd).elim (prefix_isKeyChar d) (hkeys d)
  rw [← List.append_assoc] at htext
  obtain ⟨between, hbefore, hbetween⟩ := exists_of_append_cons hc hall htext
  have hends : EndsKey between := by
    cases between with
    | nil => exact endsKey_nil
    | cons d between =>
      rw [hbetween, List.cons_append] at hrest
      exact endsKey_cons.mpr (endsKey_cons.mp hrest)
  rw [List.append_assoc] at hbefore
  have hleading := leadingKey?_eq_some_iff.mpr ⟨hne, hkeys, between, hends, hbefore⟩
  rw [h] at hleading
  cases hleading

/-- **A character that is no key character parts a text:** both sides are cut on their own. -/
theorem referencesFrom_append_cons {c : Char} (hc : isKeyChar c = false)
    (before after : List Char) : referencesFrom 0 (before ++ c :: after) =
      referencesFrom 0 before ++ .char c :: referencesFrom 0 after := by
  induction before using cut_induction with
  | nil => exact referencesFrom_char (leadingKey?_of_not_keyChar hc after)
  | char d rest h ih =>
    have happend := leadingKey?_append_cons hc after h
    rw [List.cons_append] at happend ⊢
    rw [referencesFrom_char happend, referencesFrom_char h, ih, List.cons_append]
  | reference key rest hne hkey hrest ih =>
    -- The key ends where it ended, or at the character itself.
    have hends : EndsKey (rest ++ c :: after) := by
      cases rest with
      | nil => exact endsKey_cons.mpr hc
      | cons d rest => exact endsKey_cons.mpr (endsKey_cons.mp hrest)
    rw [List.append_assoc, List.append_assoc, referencesFrom_reference hne hkey hends,
      referencesFrom_reference hne hkey hrest, ih, List.cons_append]

/-- A text that is no longer than the prefix has no reference in it. -/
theorem referencesFrom_of_length_le {text : List Char}
    (h : text.length ≤ reservationPrefix.toList.length) :
    referencesFrom 0 text = text.map .char := by
  induction text with
  | nil => rfl
  | cons c rest ih =>
    have hnone : leadingKey? (c :: rest) = none := by
      by_contra hsome
      obtain ⟨key, hkey⟩ := Option.ne_none_iff_exists'.mp hsome
      -- A reference would be longer than the prefix by its key.
      obtain ⟨hne, -, after, -, htext⟩ := leadingKey?_eq_some_iff.mp hkey
      have hlength := List.length_pos_iff.mpr hne
      rw [htext] at h
      simp only [List.length_append] at h
      omega
    rw [referencesFrom_char hnone, ih (by rw [List.length_cons] at h; omega), List.map_cons]

end DesignCompiler
