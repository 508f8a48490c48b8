import DesignCompiler.Asset.Table
import DesignCompiler.Proofs.Record
/-!
# Answers are used up

The values for some keys are made from the answers of a source, and an answer serves one occurrence
of its key. A key that is given twice is answered where it comes first and has the fallback from
then on. The later of two values counts in a table, so the fallback is what the table has for it,
whatever the source has said.

`get?_resolveAssets` says what is in the table, key by key: an answer for each key that is given
once. So a table is faithful to the source exactly when no image is lost in this way
(`faithful_resolveAssets_iff`), and where all keys are different that is always so.
-/

namespace DesignCompiler

/-- What takes the place of a key in the end: what the source answers, if it is asked and has the
image, else the fallback. -/
def finalValue (source : Option AssetSource) (key : String) : String :=
  match source with
  | some s => if s.isEmpty then fallbackSource else answerValue (some (s.fetch key))
  | none => fallbackSource

variable {source : Option AssetSource}

/-- A key that is asked for is answered with its final value. -/
theorem answerValue_assetAnswers {asked : List String} {key : String} (h : key ∈ asked) :
    answerValue ((assetAnswers source asked).get? key) = finalValue source key := by
  cases source with
  | none => rfl
  | some s =>
    have hasked : asked.isEmpty = false := List.isEmpty_eq_false_iff_exists_mem.mpr ⟨key, h⟩
    simp only [assetAnswers, finalValue, hasked, Bool.or_false]
    -- A source that says that it is empty is not asked.
    cases s.isEmpty with
    | true => rfl
    | false => simp [AssetSource.fetchAll, Record.get?_ofList_map, h]

/-- **The answers that are left for a key:** its own if it is asked for once, and none if it is asked
for again. -/
theorem lookup_takeAnswers (asked : List String) (key : String) :
    ∀ answers : Record (Except AssetError String),
      (takeAnswers answers asked).reverse.lookup key =
        if key ∈ asked then
          some (if asked.count key = 1 then answerValue (answers.get? key) else fallbackSource)
        else none := by
  -- Answers are taken from the front and looked up from the back, so an entry of the rest comes
  -- before the one that is taken now.
  induction asked with
  | nil => exact fun _ => rfl
  | cons first rest ih =>
    intro answers
    rw [takeAnswers, List.reverse_cons, List.lookup_append, ih, Record.get?_erase]
    by_cases hfirst : key = first
    · subst hfirst
      by_cases hagain : key ∈ rest
      · -- Its answer is used up by now, and so it has the fallback however often it comes.
        have hcount : (key :: rest).count key ≠ 1 := by
          have := List.count_pos_iff.mpr hagain
          rw [List.count_cons_self]
          omega
        have hfallback : answerValue none = fallbackSource := rfl
        rw [if_pos hagain, if_pos rfl, hfallback, ite_self, Option.some_or,
          if_pos List.mem_cons_self, if_neg hcount]
      · simp [hagain, List.count_eq_zero_of_not_mem hagain]
    · have hcount : (first :: rest).count key = rest.count key :=
        List.count_cons_of_ne (Ne.symm hfirst)
      have hlast : [(first, answerValue (answers.get? first))].lookup key = none := by
        simp [List.lookup_cons, beq_false_of_ne hfirst]
      rw [hlast, Option.or_none, hcount, if_neg hfirst]
      simp [hfirst]

/-- **The table for some keys:** it has these keys, each with its final value if it is given once,
and with the fallback if it is given again. -/
theorem get?_resolveAssets (source : Option AssetSource) (asked : List String) (key : String) :
    (resolveAssets source asked).get? key =
      if key ∈ asked then
        some (if asked.count key = 1 then finalValue source key else fallbackSource)
      else none := by
  rw [resolveAssets, Record.get?_ofList, lookup_takeAnswers]
  by_cases h : key ∈ asked
  · rw [answerValue_assetAnswers h]
  · rw [if_neg h, if_neg h]

/-! ### Faithful tables -/

/-- **A table that is faithful to a source:** it has the keys that are asked for and no others, each
with its image, or with the fallback where the image cannot be had. -/
structure Faithful (s : AssetSource) (asked : List String) (table : Record String) : Prop where
  keys : ∀ key, key ∈ table.keys ↔ key ∈ asked
  fetched : ∀ key ∈ asked, ∀ image, s.fetch key = .ok image → table.get? key = some image
  missing : ∀ key ∈ asked, ∀ error, s.fetch key = .error error →
    table.get? key = some fallbackSource

/-- The table has an entry for each key that was asked for, and for no other. -/
theorem mem_keys_resolveAssets {asked : List String} {key : String} :
    key ∈ (resolveAssets source asked).keys ↔ key ∈ asked := by
  have hvalue := get?_resolveAssets source asked key
  constructor
  · intro hkey
    -- A key that was not asked has no value, but every key of a record has one.
    by_contra hnot
    rw [if_neg hnot] at hvalue
    obtain ⟨⟨k, v⟩, hpair, rfl⟩ := List.mem_map.mp hkey
    rw [Record.get?_eq_some_iff.mpr hpair] at hvalue
    cases hvalue
  · intro hkey
    rw [if_pos hkey, Record.get?_eq_some_iff] at hvalue
    exact List.mem_map.mpr ⟨_, hvalue, rfl⟩

/-- **A table is faithful exactly when no image is asked for twice,** other than the fallback. In
every case it has the keys that are asked for, each one that comes once with its final value, and
each one that comes again with the fallback. -/
theorem faithful_resolveAssets_iff {s : AssetSource} (hs : s.isEmpty = false)
    (asked : List String) :
    (∀ key, (resolveAssets (some s) asked).get? key =
      if key ∈ asked then
        some (if asked.count key = 1 then answerValue (some (s.fetch key)) else fallbackSource)
      else none) ∧
    (Faithful s asked (resolveAssets (some s) asked) ↔
      ∀ key ∈ asked, ∀ image, s.fetch key = .ok image →
        asked.count key = 1 ∨ image = fallbackSource) := by
  have hfinal : ∀ key, finalValue (some s) key = answerValue (some (s.fetch key)) := by
    intro key
    simp [finalValue, hs]
  have hvalue : ∀ key ∈ asked, (resolveAssets (some s) asked).get? key =
      some (if asked.count key = 1 then answerValue (some (s.fetch key)) else fallbackSource) := by
    intro key hkey
    rw [get?_resolveAssets, if_pos hkey, hfinal]
  refine ⟨fun key => ?_, fun hfaithful key hkey image hfetch => ?_, fun honce => ?_⟩
  · rw [get?_resolveAssets, hfinal]
  · -- The table has the image, so the key comes once, or the image is what all others have.
    have himage := hfaithful.fetched key hkey image hfetch
    rw [hvalue key hkey, hfetch, Option.some.injEq] at himage
    by_cases hcount : asked.count key = 1
    · exact Or.inl hcount
    · rw [if_neg hcount] at himage
      exact Or.inr himage.symm
  · refine ⟨fun key => mem_keys_resolveAssets, fun key hkey image hfetch => ?_,
      fun key hkey error hfetch => ?_⟩
    · rw [hvalue key hkey, hfetch]
      -- What came more than once was to be answered by the fallback anyway.
      rcases honce key hkey image hfetch with hcount | rfl
      · rw [if_pos hcount]
        rfl
      · simp [answerValue]
    · rw [hvalue key hkey, hfetch]
      simp [answerValue]

/-- A source that has one image. -/
def heroSource : AssetSource where
  isEmpty := false
  fetch key := if key = "hero" then .ok "hero.png" else .error (.notFound key)

/-- A key that is given once has its image. One without an image may come twice, since it has the
fallback in any case. -/
theorem faithful_heroSource : heroSource.isEmpty = false ∧
    Faithful heroSource ["logo", "hero", "logo"]
      (resolveAssets (some heroSource) ["logo", "hero", "logo"]) := by
  refine ⟨rfl, ((faithful_resolveAssets_iff (s := heroSource) rfl _).2).mpr ?_⟩
  intro key _ image hfetch
  have himage : key = "hero" := by
    by_contra hne
    simp [heroSource, hne] at hfetch
  subst himage
  exact Or.inl (by decide)

/-- **An image that is asked for twice is lost:** its key has the fallback, although the source has
the image. -/
theorem not_faithful_heroSource :
    (resolveAssets (some heroSource) ["hero", "hero"]).get? "hero" = some fallbackSource ∧
      ¬Faithful heroSource ["hero", "hero"] (resolveAssets (some heroSource) ["hero", "hero"]) := by
  have hlost : (resolveAssets (some heroSource) ["hero", "hero"]).get? "hero" =
      some fallbackSource := by
    rw [get?_resolveAssets]
    rfl
  refine ⟨hlost, fun hfaithful => ?_⟩
  have himage := hfaithful.fetched "hero" List.mem_cons_self "hero.png" rfl
  rw [hlost] at himage
  exact absurd himage (by decide)

end DesignCompiler
