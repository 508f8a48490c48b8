import DesignCompiler.Proofs.Asset.Answers
import DesignCompiler.Proofs.Asset.References
/-!
# When the prefix of reserved references survives

Putting the images in is meant to leave no reserved reference behind, and it replaces every one that
has a key. The prefix may still be in the result, although no image has it in its value. It cannot
reach from a value into what comes next, since a value is followed by a character that cannot be in
the prefix. So there are two ways, and both are in the text before:

* the prefix stands there without a key (`HasBarePrefix`);
* characters before a reference and the beginning of its value spell it (`Respells`).

`holdsPrefix_substitute_iff` says so for a text that the images of a source are put in, where
`finalValue` is what takes the place of a key in the end.
-/

namespace DesignCompiler

/-- The prefix of reserved references occurs in a text. -/
def HoldsPrefix (text : String) : Prop := reservationPrefix.toList <:+: text.toList

instance : DecidablePred HoldsPrefix :=
  fun text => inferInstanceAs (Decidable (reservationPrefix.toList <:+: text.toList))

/-- **The prefix stands without a key** among the pieces of a text. -/
def HasBarePrefix (pieces : List ReferencePiece) : Prop :=
  ∃ before after, pieces = before ++ (reservationPrefix.toList.map .char ++ after)

/-- **The prefix is spelled anew** by characters before a reference and the beginning of the value
that takes its place. -/
def Respells (value : String → String) (pieces : List ReferencePiece) : Prop :=
  ∃ before start key after rest,
    pieces = before ++ (start.map .char ++ .reference key :: after) ∧
    start ++ rest = reservationPrefix.toList ∧ start ≠ [] ∧ rest ≠ [] ∧
    rest <+: (value (String.ofList key)).toList

/-- The characters of some pieces with values in the place of references. -/
def written (value : String → String) (pieces : List ReferencePiece) : List Char :=
  pieces.flatMap (·.replace value)

variable {value : String → String}

/-! ### One occurrence -/

/-- Key characters that begin a text do not reach beyond the end of a key. -/
theorem prefix_of_prefix_append {keys text rest : List Char}
    (hkeys : ∀ c ∈ keys, isKeyChar c = true) (hrest : EndsKey rest) (h : keys <+: text ++ rest) :
    keys <+: text := by
  obtain ⟨after, h⟩ := h
  rcases List.append_eq_append_iff.mp h with ⟨surplus, htext, -⟩ | ⟨surplus, hsurplus, hafter⟩
  · exact ⟨surplus, htext.symm⟩
  · cases surplus with
    | nil =>
      rw [List.append_nil] at hsurplus
      exact hsurplus ▸ List.prefix_rfl
    | cons c surplus =>
      -- What reaches beyond the text begins the rest, where no key character is.
      have hc := hkeys c (hsurplus ▸ List.mem_append_right _ List.mem_cons_self)
      rw [hafter, List.cons_append] at hrest
      rw [endsKey_cons.mp hrest] at hc
      cases hc

/-- Nor do key characters anywhere in it. -/
theorem infix_of_infix_append {keys text rest : List Char}
    (hkeys : ∀ c ∈ keys, isKeyChar c = true) (hrest : EndsKey rest) (h : keys <:+: text ++ rest) :
    keys <:+: text ∨ keys <:+: rest := by
  induction text with
  | nil => exact Or.inr h
  | cons c text ih =>
    rcases List.infix_cons_iff.mp h with h | h
    · exact Or.inl (prefix_of_prefix_append hkeys hrest h).isInfix
    · exact (ih h).imp_left fun h => List.infix_cons h

/-- What is written after a reference begins with no key character. -/
theorem endsKey_written {key : List Char} {rest : List ReferencePiece}
    (h : Separated (.reference key :: rest)) : EndsKey (written value rest) := by
  obtain ⟨rfl | ⟨c, after, rfl, hc⟩, -⟩ := h
  · exact endsKey_nil
  · exact endsKey_cons.mpr hc

/-- **Key characters that begin what is written** are characters of the text, or some of them are
and the others begin the value of the reference that comes next. -/
theorem exists_of_prefix_written {keys : List Char} :
    ∀ {pieces : List ReferencePiece}, (∀ c ∈ keys, isKeyChar c = true) → Separated pieces →
      keys <+: written value pieces →
      (∃ after, pieces = keys.map .char ++ after) ∨
      ∃ start key after rest, pieces = start.map .char ++ .reference key :: after ∧
        start ++ rest = keys ∧ rest ≠ [] ∧ rest <+: (value (String.ofList key)).toList := by
  -- Along the characters asked for: each is one of the text, or a value begins and has the others.
  induction keys with
  | nil => exact fun _ _ _ => Or.inl ⟨_, rfl⟩
  | cons k keys ih =>
    intro pieces hkeys hseparated h
    cases pieces with
    | nil => exact absurd (List.prefix_nil.mp h) (List.cons_ne_nil _ _)
    | cons p pieces =>
      cases p with
      | char c =>
        obtain ⟨rfl, htail⟩ := List.cons_prefix_cons.mp h
        have hlater : Separated pieces := hseparated
        rcases ih (fun c hc => hkeys c (List.mem_cons_of_mem _ hc)) hlater htail with
          ⟨after, rfl⟩ | ⟨start, key, after, rest, rfl, rfl, hne, hvalue⟩
        · exact Or.inl ⟨after, rfl⟩
        · exact Or.inr ⟨k :: start, key, after, rest, rfl, rfl, hne, hvalue⟩
      | reference key =>
        -- After the value comes no key character, so all of them are in the value.
        refine Or.inr ⟨[], key, pieces, k :: keys, rfl, rfl, List.cons_ne_nil _ _, ?_⟩
        exact prefix_of_prefix_append hkeys (endsKey_written hseparated) h

/-! ### One text -/

/-- A bare prefix stays one behind another piece. -/
theorem HasBarePrefix.cons {pieces : List ReferencePiece} (p : ReferencePiece) :
    HasBarePrefix pieces → HasBarePrefix (p :: pieces)
  | ⟨before, after, h⟩ => ⟨p :: before, after, congrArg (p :: ·) h⟩

/-- So does a reference that is spelled anew. -/
theorem Respells.cons {pieces : List ReferencePiece} (p : ReferencePiece) :
    Respells value pieces → Respells value (p :: pieces)
  | ⟨before, start, key, after, rest, h, hrest⟩ =>
    ⟨p :: before, start, key, after, rest, congrArg (p :: ·) h, hrest⟩

/-- **Where the prefix is in what is written,** if it is in no value. -/
theorem exists_of_infix_written (hvalue : ∀ key, ¬ HoldsPrefix (value key))
    {pieces : List ReferencePiece} (hseparated : Separated pieces)
    (h : reservationPrefix.toList <:+: written value pieces) :
    HasBarePrefix pieces ∨ Respells value pieces := by
  -- The prefix begins at a character, where it is followed, or it lies further on.
  induction pieces with
  | nil => exact absurd (List.infix_nil.mp h) prefix_ne_nil
  | cons p pieces ih =>
    cases p with
    | char c =>
      rcases List.infix_cons_iff.mp h with hbegins | hinfix
      · rcases exists_of_prefix_written prefix_isKeyChar hseparated hbegins with
          ⟨after, hpieces⟩ | ⟨start, key, after, rest, hpieces, hrest, hne, hstarts⟩
        · exact Or.inl ⟨[], after, hpieces⟩
        · refine Or.inr ⟨[], start, key, after, rest, hpieces, hrest, fun hnil => ?_, hne, hstarts⟩
          rw [hnil] at hpieces
          cases hpieces
      · exact (ih hseparated hinfix).imp (.cons _) (.cons _)
    | reference key =>
      rcases infix_of_infix_append prefix_isKeyChar (endsKey_written hseparated) h with
        hinvalue | hinfix
      · -- No value has the prefix, and it does not reach out of one.
        exact absurd hinvalue (hvalue _)
      · exact (ih hseparated.2 hinfix).imp (.cons _) (.cons _)

/-- Characters are written as they are. -/
theorem written_map_char (chars : List Char) : written value (chars.map .char) = chars := by
  induction chars with
  | nil => rfl
  | cons c chars ih => exact congrArg (c :: ·) ih

theorem written_append (pieces others : List ReferencePiece) :
    written value (pieces ++ others) = written value pieces ++ written value others :=
  List.flatMap_append

/-- The prefix without a key is kept. -/
theorem infix_written_of_bare {pieces : List ReferencePiece} (h : HasBarePrefix pieces) :
    reservationPrefix.toList <:+: written value pieces := by
  obtain ⟨before, after, rfl⟩ := h
  rw [written_append, written_append, written_map_char]
  exact ⟨written value before, written value after, by rw [List.append_assoc]⟩

/-- The prefix that is spelled anew is there then. -/
theorem infix_written_of_respells {pieces : List ReferencePiece} (h : Respells value pieces) :
    reservationPrefix.toList <:+: written value pieces := by
  obtain ⟨before, start, key, after, rest, rfl, hrest, -, -, surplus, hvalue⟩ := h
  -- The value begins with what is missing.
  have hreference : written value (.reference key :: after) =
      rest ++ (surplus ++ written value after) := by
    change (value (String.ofList key)).toList ++ written value after = _
    rw [← hvalue, List.append_assoc]
  rw [written_append, written_append, written_map_char, hreference, ← hrest]
  exact ⟨written value before, surplus ++ written value after, by simp⟩

/-- **The prefix is in what is written** just where it stands without a key before, or is spelled
anew. -/
theorem infix_written_iff (hvalue : ∀ key, ¬ HoldsPrefix (value key)) (text : String) :
    reservationPrefix.toList <:+: written value (references text) ↔
      HasBarePrefix (references text) ∨ Respells value (references text) := by
  constructor
  · exact exists_of_infix_written hvalue (separated_references text.toList)
  · rintro (h | h)
    · exact infix_written_of_bare h
    · exact infix_written_of_respells h

/-! ### The values of a source -/

variable {source : Option AssetSource}

/-- No image that a source has holds the prefix, so no final value does. -/
theorem not_holdsPrefix_finalValue
    (h : ∀ s ∈ source, ∀ key image, s.fetch key = .ok image → ¬ HoldsPrefix image) (key : String) :
    ¬ HoldsPrefix (finalValue source key) := by
  have hfallback : ¬ HoldsPrefix fallbackSource := by decide +kernel
  -- What a key has in the end is the fallback, or an image that was fetched.
  unfold finalValue
  cases source with
  | none => exact hfallback
  | some s =>
    simp only
    split
    · exact hfallback
    · cases hfetch : s.fetch key with
      | ok image => exact h s rfl key image hfetch
      | error e => exact hfallback

/-- **The table for some keys has the final value of each of them,** where they are different. -/
theorem assetValue_resolveAssets {keys : List String} (hkeys : keys.Nodup) {key : String}
    (h : key ∈ keys) : assetValue (resolveAssets source keys) key = finalValue source key := by
  rw [assetValue, get?_resolveAssets, if_pos h, if_pos (List.count_eq_one_of_mem hkeys h),
    Option.getD_some]

/-- Leaving out repetitions leaves none. -/
theorem nodup_eraseDups (keys : List String) : keys.eraseDups.Nodup := by
  induction hlength : keys.length using Nat.strong_induction_on generalizing keys with
  | _ length ih =>
    cases keys with
    | nil => exact List.nodup_nil
    | cons key rest =>
      -- The first key is taken out of the rest, which is what is looked at next.
      rw [List.eraseDups_cons, List.nodup_cons, List.mem_eraseDups]
      refine ⟨fun hmem => ?_, ih _ ?_ _ rfl⟩
      · simp at hmem
      · have := List.length_filter_le (fun other => !other == key) rest
        rw [List.length_cons] at hlength
        omega

/-- The keys of a text are among those of all texts. -/
theorem mem_allReservedKeys {texts : List String} {text : String} (htext : text ∈ texts)
    {key : List Char} (hkey : .reference key ∈ references text) :
    String.ofList key ∈ allReservedKeys texts := by
  rw [allReservedKeys, List.mem_eraseDups, List.mem_flatMap]
  refine ⟨text, htext, ?_⟩
  rw [reservedKeys, List.mem_eraseDups, List.mem_filterMap]
  exact ⟨_, hkey, rfl⟩

/-- Putting images in writes the final value of each reference of a text. -/
theorem toList_substitute {texts : List String} {text : String} (htext : text ∈ texts) :
    (substitute (resolveAssets source (allReservedKeys texts)) text).toList =
      written (finalValue source) (references text) := by
  rw [substitute, String.toList_ofList, written]
  refine List.flatMap_congr fun p hp => ?_
  cases p with
  | char c => rfl
  | reference key =>
    -- The key of a reference is among those the table is made for.
    have hkeys : (allReservedKeys texts).Nodup := nodup_eraseDups _
    rw [ReferencePiece.replace, ReferencePiece.replace,
      assetValue_resolveAssets hkeys (mem_allReservedKeys htext hp)]

/-- A text keeps the prefix when the images of a source are put in. -/
def Survives (source : Option AssetSource) (text : String) : Prop :=
  HasBarePrefix (references text) ∨ Respells (finalValue source) (references text)

/-- **When the prefix survives:** putting images in, none of which has it, leaves it in a text just
where it stood without a key before, or is spelled anew. -/
theorem holdsPrefix_substitute_iff
    (h : ∀ s ∈ source, ∀ key image, s.fetch key = .ok image → ¬ HoldsPrefix image)
    {texts : List String} {text : String} (htext : text ∈ texts) :
    HoldsPrefix (substitute (resolveAssets source (allReservedKeys texts)) text) ↔
      Survives source text := by
  rw [HoldsPrefix, toList_substitute htext]
  exact infix_written_iff (not_holdsPrefix_finalValue h) text

/-! ### A prefix without a key -/

/-- The prefix between two characters that are no key characters has no key. -/
theorem hasBarePrefix_of_enclosed {c d : Char} (hc : isKeyChar c = false)
    (hd : isKeyChar d = false) {text : String}
    (h : c :: (reservationPrefix.toList ++ [d]) <:+: text.toList) :
    HasBarePrefix (references text) := by
  obtain ⟨before, after, htext⟩ := h
  have hparts : text.toList = before ++ c :: (reservationPrefix.toList ++ d :: after) := by
    rw [← htext]
    simp
  -- The text is parted at both characters, and the prefix between them is too short for a key.
  refine ⟨referencesFrom 0 before ++ [.char c], .char d :: referencesFrom 0 after, ?_⟩
  rw [references, hparts, referencesFrom_append_cons hc, referencesFrom_append_cons hd,
    referencesFrom_of_length_le (Nat.le_refl _), List.append_assoc, List.singleton_append]

/-- **A prefix without a key** is still there when the images of a source have been put in. -/
theorem holdsPrefix_substitute_of_enclosed {c d : Char} (hc : isKeyChar c = false)
    (hd : isKeyChar d = false) {texts : List String} {text : String} (htext : text ∈ texts)
    (h : c :: (reservationPrefix.toList ++ [d]) <:+: text.toList) :
    HoldsPrefix (substitute (resolveAssets source (allReservedKeys texts)) text) := by
  rw [HoldsPrefix, toList_substitute htext]
  exact infix_written_of_bare (hasBarePrefix_of_enclosed hc hd h)

end DesignCompiler
