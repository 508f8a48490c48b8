import DesignCompiler.Proofs.Style.CanonicalKey
/-!
# Which sets of pairs a canonical text stands for

Records with the same pairs have one canonical text, in whatever order the pairs were set. The way
back is not so sure. Nothing is escaped in a canonical text, so a text can be cut in more than one
way: the record of a single pair has the text of any other record, if the cut is at one of its
colons and all semicolons go to the value.

So the text stands for one set of pairs against all records there are exactly where it has a single
colon or none (`Css.canonicalKey_identifies`). Where the records are separable, that is, where there
are no marks of the text in properties and no semicolons in values, it always does
(`Css.canonicalKey_eq_iff_of_separable`).
-/

namespace DesignCompiler

/-- Texts that all hold a character hold it as often as there are texts. -/
theorem length_le_count_intercalate {c separator : Char} {texts : List (List Char)}
    (h : ∀ text ∈ texts, c ∈ text) : texts.length ≤ ([separator].intercalate texts).count c := by
  induction texts with
  | nil => exact Nat.zero_le _
  | cons text rest ih =>
    obtain ⟨htext, hrest⟩ := List.forall_mem_cons.mp h
    have hone : 1 ≤ text.count c := List.count_pos_iff.mpr htext
    cases rest with
    | nil => simpa using hone
    | cons next others =>
      have hothers := ih hrest
      -- The separator may be the character itself and only adds to the count.
      rw [List.intercalate_cons_cons, List.count_append, List.count_append]
      rw [List.length_cons]
      omega

namespace Css

/-- **Records with the same pairs,** in whatever order. -/
def SamePairs (c d : Css) : Prop := ∀ p, p ∈ c.toList ↔ p ∈ d.toList

/-- The record of one pair. -/
def single (property value : String) : Css where
  toList := [(property, value)]

variable {c d : Css}

theorem canonicalKey_of_samePairs (h : SamePairs c d) : c.canonicalKey = d.canonicalKey := by
  rw [canonicalKey, canonicalKey, sortedPairs_eq_iff.mpr h]

theorem sortedPairs_single (property value : String) :
    (single property value).sortedPairs = [(property, value)] := List.mergeSort_singleton _

theorem toList_canonicalKey_of_sortedPairs {p : String × String} (h : c.sortedPairs = [p]) :
    c.canonicalKey.toList = piece p := by
  rw [toList_canonicalKey, h, List.map_singleton, List.intercalate_singleton]

/-! ### Records that are separable -/

theorem separable_sortedPairs (h : Separable c.toList) : Separable c.sortedPairs :=
  fun p hp => h p (c.sortedPairs_perm.mem_iff.mp hp)

/-- **The canonical text of a separable record** stands for its set of pairs, among such records. -/
theorem canonicalKey_eq_iff_of_separable (hc : Separable c.toList) (hd : Separable d.toList) :
    c.canonicalKey = d.canonicalKey ↔ SamePairs c d := by
  refine ⟨fun h => sortedPairs_eq_iff.mp ?_, canonicalKey_of_samePairs⟩
  have hcs := separable_sortedPairs hc
  have hds := separable_sortedPairs hd
  -- Cut at the semicolons, the texts fall into the pairs.
  have hpieces : c.pieces = d.pieces := by rw [pieces_eq, pieces_eq, h]
  rw [pieces, pieces, hcs.flatMap_splitOn, hds.flatMap_splitOn] at hpieces
  exact hcs.map_piece_inj hds hpieces

/-! ### One text, cut at different colons -/

/-- A text is that of a single pair for every colon in it. -/
theorem canonicalKey_eq_single {before after : List Char}
    (h : c.canonicalKey.toList = before ++ ':' :: after) :
    c.canonicalKey = (single (String.ofList before) (String.ofList after)).canonicalKey := by
  apply String.toList_injective
  rw [h, toList_canonicalKey_of_sortedPairs (sortedPairs_single _ _)]
  simp [piece]

/-- A key has a colon for each of its declarations. -/
theorem length_sortedPairs_le (c : Css) :
    c.sortedPairs.length ≤ c.canonicalKey.toList.count ':' := by
  rw [toList_canonicalKey, ← List.length_map (f := piece)]
  refine length_le_count_intercalate fun text htext => ?_
  obtain ⟨p, -, rfl⟩ := List.mem_map.mp htext
  exact List.mem_append_right _ List.mem_cons_self

/-- A record whose text has at most one colon has at most one pair, without colons in it. -/
theorem sortedPairs_cases (h : c.canonicalKey.toList.count ':' ≤ 1) :
    c.sortedPairs = [] ∧ c.canonicalKey.toList = [] ∨
      ∃ p : String × String, c.sortedPairs = [p] ∧ c.canonicalKey.toList = piece p ∧
        ':' ∉ p.1.toList := by
  have hlength := c.length_sortedPairs_le.trans h
  rcases hsorted : c.sortedPairs with _ | ⟨p, rest⟩
  · refine Or.inl ⟨rfl, ?_⟩
    rw [toList_canonicalKey, hsorted, List.map_nil, List.intercalate_nil]
  · obtain rfl : rest = [] := by
      rw [hsorted, List.length_cons] at hlength
      exact List.eq_nil_of_length_eq_zero (by omega)
    have htext := toList_canonicalKey_of_sortedPairs hsorted
    refine Or.inr ⟨p, rfl, htext, fun hmem => ?_⟩
    -- The colon behind the property would be a second one.
    have hone : 1 ≤ p.1.toList.count ':' := List.count_pos_iff.mpr hmem
    rw [htext, piece, List.count_append, List.count_cons_self] at h
    omega

/-- Records with one text that has at most one colon have the same pair, or none. -/
theorem sortedPairs_of_count_le (hcolon : c.canonicalKey.toList.count ':' ≤ 1)
    (h : c.canonicalKey = d.canonicalKey) : c.sortedPairs = d.sortedPairs := by
  have hne : ∀ p : String × String, piece p ≠ [] := fun p hp => by simp [piece] at hp
  rcases sortedPairs_cases hcolon with ⟨hc, hctext⟩ | ⟨p, hc, hctext, hp⟩ <;>
    rcases sortedPairs_cases (h ▸ hcolon) with ⟨hd, hdtext⟩ | ⟨q, hd, hdtext, hq⟩
  · rw [hc, hd]
  · exact absurd (hdtext.symm.trans (h ▸ hctext)) (hne q)
  · exact absurd (hctext.symm.trans (h ▸ hdtext)) (hne p)
  · have hpiece : piece p = piece q := by rw [← hctext, h, hdtext]
    rw [hc, hd, piece_inj hp hq hpiece]

/-- Declarations of two properties differ, whatever their values. -/
theorem not_samePairs_single {k l v w : String} (h : k ≠ l) :
    ¬ SamePairs (single k v) (single l w) := by
  intro hsame
  have hmem : (k, v) ∈ (single l w).toList := (hsame _).mp (List.mem_singleton.mpr rfl)
  exact h (congrArg Prod.fst (List.mem_singleton.mp hmem))

/-- With a second colon in its text a record has the text of two different pairs. -/
theorem exists_of_two_colons (h : ¬ c.canonicalKey.toList.count ':' ≤ 1) :
    ∃ d e : Css, c.canonicalKey = d.canonicalKey ∧ c.canonicalKey = e.canonicalKey ∧
      ¬ SamePairs d e := by
  have hmem : ':' ∈ c.canonicalKey.toList := List.count_pos_iff.mp (by omega)
  obtain ⟨before, after, hfirst, hnot⟩ := List.eq_append_cons_of_mem hmem
  have hafter : ':' ∈ after := by
    rw [hfirst, List.count_append, List.count_cons_self,
      List.count_eq_zero_of_not_mem hnot] at h
    exact List.count_pos_iff.mp (by omega)
  obtain ⟨between, rest, rfl⟩ := List.append_of_mem hafter
  have hsecond : c.canonicalKey.toList = (before ++ ':' :: between) ++ ':' :: rest := by
    rw [hfirst, List.append_assoc, List.cons_append]
  refine ⟨_, _, canonicalKey_eq_single hfirst, canonicalKey_eq_single hsecond,
    not_samePairs_single fun hsame => ?_⟩
  -- The second property goes on behind the first colon.
  have hlength := congrArg (fun name : String => name.toList.length) hsame
  simp at hlength

/-- **What a canonical text stands for.** Equal sets of pairs have equal texts; separable records
with equal texts have equal sets of pairs; and among all records whatever, a text stands for one set
of pairs exactly where there is at most one colon in it. -/
theorem canonicalKey_identifies (c : Css) :
    (∀ d, SamePairs c d → c.canonicalKey = d.canonicalKey) ∧
      (Separable c.toList → ∀ d : Css, Separable d.toList →
        (c.canonicalKey = d.canonicalKey ↔ SamePairs c d)) ∧
      ((∀ d, c.canonicalKey = d.canonicalKey ↔ SamePairs c d) ↔
        c.canonicalKey.toList.count ':' ≤ 1) := by
  refine ⟨fun d => canonicalKey_of_samePairs, fun hc d hd => canonicalKey_eq_iff_of_separable hc hd,
    fun h => ?_, fun h d => ⟨fun hkey => ?_, canonicalKey_of_samePairs⟩⟩
  · -- With two colons in it, one key stands for two declarations that differ.
    by_contra hcolons
    obtain ⟨d, e, hd, he, hne⟩ := exists_of_two_colons hcolons
    exact hne fun p => ((h d).mp hd p).symm.trans ((h e).mp he p)
  · exact sortedPairs_eq_iff.mp (sortedPairs_of_count_le h hkey)

/-- A width that is part of the color makes the text of a color and a width. -/
theorem canonicalKey_widthInColor :
    ¬ ((single "color" "red;width:10px").canonicalKey =
        canonicalKey (.ofList [("color", "red"), ("width", "10px")]) ↔
      SamePairs (single "color" "red;width:10px")
        (.ofList [("color", "red"), ("width", "10px")])) := by
  intro h
  have hsorted : sortedPairs (.ofList [("color", "red"), ("width", "10px")]) =
      [("color", "red"), ("width", "10px")] := List.mergeSort_of_pairwise (by decide)
  have hkey : (single "color" "red;width:10px").canonicalKey =
      canonicalKey (.ofList [("color", "red"), ("width", "10px")]) := by
    rw [canonicalKey, canonicalKey, sortedPairs_single, hsorted]
    decide
  exact absurd ((h.mp hkey ("color", "red")).mpr (by decide)) (by decide)

end Css

end DesignCompiler
