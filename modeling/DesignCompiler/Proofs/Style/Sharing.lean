import DesignCompiler.Proofs.Style.Chains
import DesignCompiler.Style.Sheet
/-!
# What sharing does to a list of entries

`shareDeclarations` goes along the entries with the declarations that are in use so far. Seen from
the end there is no such state: an entry takes the first declaration *of all* that has the key of
its own, and those in use are the first ones for each key.

* `shareDeclarations_fst` — the entries, each with the declaration that it takes;
* `find?_uniques` — looking for a key among those in use finds what it finds among all;
* `mem_uniques_iff` — those in use are the ones that are found under their own keys.

Nothing here depends on what the keys say about the declarations.
-/

namespace DesignCompiler

namespace StyleDeclaration

/-- The first declaration in a list that has the key of this one. -/
def firstIn (d : StyleDeclaration) (ds : List StyleDeclaration) : Option StyleDeclaration :=
  ds.find? fun e => e.shareKey == d.shareKey

/-- The declaration shared with has the same key. -/
theorem shareKey_firstIn {d first : StyleDeclaration} {ds : List StyleDeclaration}
    (h : d.firstIn ds = some first) : first.shareKey = d.shareKey := by
  have hfound := List.find?_some h
  simpa using hfound

/-- Among declarations that hold this one, something is found. -/
theorem exists_firstIn {d : StyleDeclaration} {ds : List StyleDeclaration} (h : d ∈ ds) :
    ∃ first, d.firstIn ds = some first := by
  rw [← Option.isSome_iff_exists, firstIn, List.find?_isSome]
  exact ⟨d, h, beq_self_eq_true _⟩

/-- Alike declarations share with the same one. -/
theorem firstIn_congr {d e : StyleDeclaration} (h : d.shareKey = e.shareKey)
    (ds : List StyleDeclaration) : d.firstIn ds = e.firstIn ds := by
  unfold firstIn
  rw [h]

/-- What is found early stays what is found. -/
theorem firstIn_append {d first : StyleDeclaration} {seen : List StyleDeclaration}
    (h : d.firstIn seen = some first) (rest : List StyleDeclaration) :
    d.firstIn (seen ++ rest) = some first := by
  unfold firstIn at h ⊢
  rw [List.find?_append, h, Option.some_or]

/-- A declaration whose key is not there yet is the first one with it. -/
theorem firstIn_append_self {d : StyleDeclaration} {seen : List StyleDeclaration}
    (h : d.firstIn seen = none) (rest : List StyleDeclaration) :
    d.firstIn (seen ++ d :: rest) = some d := by
  unfold firstIn at h ⊢
  rw [List.find?_append, h, Option.none_or, List.find?_cons, beq_self_eq_true]

/-- A declaration that comes after one with its key is never the first. -/
theorem firstIn_append_cons {d e first : StyleDeclaration} {seen rest : List StyleDeclaration}
    (h : d.firstIn seen = some first) :
    e.firstIn (seen ++ d :: rest) = e.firstIn (seen ++ rest) := by
  -- If `e` has the key too, it is found in `seen` already; else `d` is passed over.
  by_cases hkey : d.shareKey = e.shareKey
  · have hseen : e.firstIn seen = some first := (firstIn_congr hkey seen).symm.trans h
    rw [firstIn_append hseen, firstIn_append hseen]
  · unfold firstIn
    rw [List.find?_append, List.find?_append, List.find?_cons, beq_false_of_ne hkey]

end StyleDeclaration

namespace StyleEntry

/-- The entry with the first declaration of a list that has the key of its own. -/
def shareIn (e : StyleEntry) (ds : List StyleDeclaration) : StyleEntry :=
  match e.styling with
  | none => e
  | some s => e.redeclare s ((s.declaration.firstIn ds).getD s.declaration)

/-- Declaring an entry as it is declared changes nothing. -/
theorem redeclare_self {e : StyleEntry} {s : Styling} (h : e.styling = some s) :
    e.redeclare s s.declaration = e := by
  obtain ⟨tag, attributes, styling⟩ := e
  cases h
  simp only [redeclare, ite_eq_right_iff, mk.injEq, and_self, and_true]
  exact fun htag => (beq_iff_eq.mp htag).symm

@[simp] theorem attributes_shareIn (e : StyleEntry) (ds : List StyleDeclaration) :
    (e.shareIn ds).attributes = e.attributes := by
  unfold shareIn
  split <;> rfl

theorem shareIn_of_bare {e : StyleEntry} (h : e.styling = none) (ds : List StyleDeclaration) :
    e.shareIn ds = e := by
  simp only [shareIn, h]

/-- The style of an element is as it was computed, whichever declaration the entry takes. -/
@[simp] theorem style_shareIn (e : StyleEntry) (ds : List StyleDeclaration) :
    (e.shareIn ds).styling.map (·.style) = e.styling.map (·.style) := by
  unfold shareIn
  split
  · rfl
  · next h => rw [h]; rfl

/-- Sharing replaces a declaration by the first one alike. -/
theorem declaration?_shareIn (e : StyleEntry) (ds : List StyleDeclaration) :
    (e.shareIn ds).declaration? = e.declaration?.map fun d => (d.firstIn ds).getD d := by
  unfold shareIn declaration?
  split
  · next h => rw [h]; rfl
  · next h => rw [h]; rfl

/-- Where the tag is the name of the declaration, it stays so. -/
theorem tag_shareIn {e : StyleEntry} {d : StyleDeclaration} (h : e.declaration? = some d)
    (htag : e.tag = d.name) (ds : List StyleDeclaration) :
    (e.shareIn ds).tag = ((d.firstIn ds).getD d).name := by
  obtain ⟨s, hs, rfl⟩ := Option.map_eq_some_iff.mp h
  simp only [shareIn, hs, redeclare, htag, beq_self_eq_true, if_true]

/-- A tag that is not the name of the declaration stays as it is. -/
theorem tag_shareIn_of_ne {e : StyleEntry} (h : ∀ d, e.declaration? = some d → e.tag ≠ d.name)
    (ds : List StyleDeclaration) : (e.shareIn ds).tag = e.tag := by
  unfold shareIn
  cases hs : e.styling with
  | none => rfl
  | some s =>
    have htag := h s.declaration (by rw [declaration?, hs]; rfl)
    simp [redeclare, htag]

/-- Sharing depends on what is first alike only. -/
theorem shareIn_congr {ds es : List StyleDeclaration}
    (h : ∀ d : StyleDeclaration, d.firstIn ds = d.firstIn es) (e : StyleEntry) :
    e.shareIn ds = e.shareIn es := by
  simp only [shareIn, h]

end StyleEntry

variable {seen : List StyleDeclaration} {pairs : List (String × StyleEntry)}

/-- What sharing does to entries and to what is in use, in each of its three cases. -/
theorem shareDeclarations_cons (seen : List StyleDeclaration) (id : String) (entry : StyleEntry)
    (rest : List (String × StyleEntry)) :
    (entry.declaration? = none ∧
      shareDeclarations true seen ((id, entry) :: rest) =
        ((id, entry) :: (shareDeclarations true seen rest).1,
          (shareDeclarations true seen rest).2)) ∨
    ∃ d, entry.declaration? = some d ∧
      ((∃ shared, d.firstIn seen = some shared ∧
        shareDeclarations true seen ((id, entry) :: rest) =
          ((id, entry.shareIn seen) :: (shareDeclarations true seen rest).1,
            (shareDeclarations true seen rest).2)) ∨
      (d.firstIn seen = none ∧
        shareDeclarations true seen ((id, entry) :: rest) =
          ((id, entry) :: (shareDeclarations true (seen ++ [d]) rest).1,
            (shareDeclarations true (seen ++ [d]) rest).2))) := by
  -- The three cases are a bare entry, one that is shared, and one that is new.
  cases hs : entry.styling with
  | none =>
    refine Or.inl ⟨by rw [StyleEntry.declaration?, hs]; rfl, ?_⟩
    simp only [shareDeclarations, hs]
  | some s =>
    refine Or.inr ⟨s.declaration, by rw [StyleEntry.declaration?, hs]; rfl, ?_⟩
    cases hfirst : s.declaration.firstIn seen with
    | some shared =>
      have hfind := hfirst
      unfold StyleDeclaration.firstIn at hfind
      refine Or.inl ⟨shared, rfl, ?_⟩
      simp only [shareDeclarations, hs, if_true, hfind, StyleEntry.shareIn, hfirst,
        Option.getD_some]
    | none =>
      have hfind := hfirst
      unfold StyleDeclaration.firstIn at hfind
      refine Or.inr ⟨rfl, ?_⟩
      simp only [shareDeclarations, hs, if_true, hfind]

/-- **The entries after sharing:** each takes the first declaration of all that has its key. -/
theorem shareDeclarations_fst (pairs : List (String × StyleEntry)) :
    ∀ seen, (shareDeclarations true seen pairs).1 =
      pairs.map fun pair => (pair.1, pair.2.shareIn (seen ++ declarationsOf pairs)) := by
  induction pairs with
  | nil => exact fun _ => rfl
  | cons pair rest ih =>
    intro seen
    obtain ⟨id, entry⟩ := pair
    -- Whatever is shared, `seen ++ declarationsOf pairs` stays all that is declared.
    rcases shareDeclarations_cons seen id entry rest with
      ⟨hnone, h⟩ | ⟨d, hd, ⟨shared, hfirst, h⟩ | ⟨hfirst, h⟩⟩
    · have hall := declarationsOf_cons_bare hnone id rest
      have hbare : entry.styling = none := by simpa [StyleEntry.declaration?] using hnone
      rw [h, ih, hall, List.map_cons, StyleEntry.shareIn_of_bare hbare]
    · -- The declaration of the entry comes too late to be the first one of its key.
      have hall := declarationsOf_cons_styled hd id rest
      have hlate : ∀ e : StyleDeclaration,
          e.firstIn (seen ++ declarationsOf ((id, entry) :: rest)) =
            e.firstIn (seen ++ declarationsOf rest) := by
        intro e
        rw [hall]
        exact StyleDeclaration.firstIn_append_cons hfirst
      have hentry : entry.shareIn seen =
          entry.shareIn (seen ++ declarationsOf ((id, entry) :: rest)) := by
        obtain ⟨s, hs, rfl⟩ := Option.map_eq_some_iff.mp hd
        have hfound := StyleDeclaration.firstIn_append hfirst
          (declarationsOf ((id, entry) :: rest))
        simp only [StyleEntry.shareIn, hs, hfirst, hfound]
      rw [h, ih, List.map_cons, hentry]
      refine congrArg _ (List.map_congr_left fun other _ => ?_)
      rw [StyleEntry.shareIn_congr hlate]
    · -- The declaration of the entry is the first one of its key, and the entry keeps it.
      have hall := declarationsOf_cons_styled hd id rest
      have hentry : entry.shareIn (seen ++ declarationsOf ((id, entry) :: rest)) = entry := by
        obtain ⟨s, hs, rfl⟩ := Option.map_eq_some_iff.mp hd
        have hfound := StyleDeclaration.firstIn_append_self hfirst (declarationsOf rest)
        simp only [StyleEntry.shareIn, hs, hall, hfound, Option.getD_some,
          StyleEntry.redeclare_self hs]
      rw [h, ih, List.map_cons, hentry, hall, List.append_assoc, List.singleton_append]

/-! ### The declarations in use -/

/-- A key is found among the declarations in use just where it is found among all. -/
theorem find?_uniques (pairs : List (String × StyleEntry)) :
    ∀ seen (d : StyleDeclaration), d.firstIn (shareDeclarations true seen pairs).2 =
      d.firstIn (seen ++ declarationsOf pairs) := by
  induction pairs with
  | nil => intro seen d; rw [declarationsOf, List.filterMap_nil, List.append_nil]; rfl
  | cons pair rest ih =>
    intro seen e
    obtain ⟨id, entry⟩ := pair
    rcases shareDeclarations_cons seen id entry rest with
      ⟨hnone, h⟩ | ⟨d, hd, ⟨shared, hfirst, h⟩ | ⟨-, h⟩⟩
    · rw [h, ih, declarationsOf_cons_bare hnone]
    · -- A declaration left out has its key in use already.
      rw [h, ih, declarationsOf_cons_styled hd]
      exact (StyleDeclaration.firstIn_append_cons hfirst).symm
    · rw [h, ih, declarationsOf_cons_styled hd, List.append_assoc, List.singleton_append]

/-- The declarations in use have different keys. -/
theorem nodup_keys_uniques (pairs : List (String × StyleEntry)) :
    ∀ seen : List StyleDeclaration, (seen.map (·.shareKey)).Nodup →
      ((shareDeclarations true seen pairs).2.map (·.shareKey)).Nodup := by
  induction pairs with
  | nil => exact fun _ h => h
  | cons pair rest ih =>
    intro seen hseen
    obtain ⟨id, entry⟩ := pair
    rcases shareDeclarations_cons seen id entry rest with
      ⟨-, h⟩ | ⟨d, -, ⟨shared, -, h⟩ | ⟨hfirst, h⟩⟩
    · rw [h]
      exact ih seen hseen
    · rw [h]
      exact ih seen hseen
    · rw [h]
      refine ih _ ?_
      rw [List.map_append, List.nodup_append]
      refine ⟨hseen, List.nodup_singleton _, ?_⟩
      -- The new key is none of those in use, or it would have been found.
      intro key hkey key' hkey' heq
      obtain ⟨e, he, rfl⟩ := List.mem_map.mp hkey
      rw [List.mem_singleton.mp hkey'] at heq
      have hother := List.find?_eq_none.mp hfirst e he
      exact hother (beq_iff_eq.mpr heq)

/-- Those in use come in the order of the entries that declare them. -/
theorem uniques_sublist (pairs : List (String × StyleEntry)) :
    ∀ seen, (shareDeclarations true seen pairs).2.Sublist (seen ++ declarationsOf pairs) := by
  induction pairs with
  | nil => intro seen; rw [declarationsOf, List.filterMap_nil, List.append_nil]; exact .refl _
  | cons pair rest ih =>
    intro seen
    obtain ⟨id, entry⟩ := pair
    -- An entry is bare, shares what was seen, or adds its declaration at the end.
    rcases shareDeclarations_cons seen id entry rest with
      ⟨hnone, h⟩ | ⟨d, hd, ⟨shared, -, h⟩ | ⟨-, h⟩⟩
    · rw [h, declarationsOf_cons_bare hnone]
      exact ih seen
    · rw [h, declarationsOf_cons_styled hd]
      exact (ih seen).trans (List.Sublist.append_left (List.sublist_cons_self _ _) _)
    · rw [h, declarationsOf_cons_styled hd]
      have hrest := ih (seen ++ [d])
      rw [List.append_assoc] at hrest
      exact hrest

/-- **The declarations in use** are those that are found under their own keys. -/
theorem mem_uniques_iff {d : StyleDeclaration} :
    d ∈ (shareDeclarations true [] pairs).2 ↔ d.firstIn (declarationsOf pairs) = some d := by
  have hfind := find?_uniques pairs [] d
  rw [List.nil_append] at hfind
  rw [← hfind]
  refine ⟨fun hmem => ?_, List.mem_of_find?_eq_some⟩
  -- Something is found under the key of `d`, and nothing else in use has that key.
  obtain ⟨first, hfirst⟩ := StyleDeclaration.exists_firstIn hmem
  have hsame : first = d :=
    List.inj_on_of_nodup_map (nodup_keys_uniques pairs [] List.nodup_nil)
      (List.mem_of_find?_eq_some hfirst) hmem (StyleDeclaration.shareKey_firstIn hfirst)
  rw [hfirst, hsame]

end DesignCompiler
