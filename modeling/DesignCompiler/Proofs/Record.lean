import DesignCompiler.Style.Css
import Mathlib.Data.List.Nodup
/-!
# What is in a record

A record is given by its pairs: no key stands twice, so looking a key up and finding its pair in the
list are one thing (`Record.get?_eq_some_iff`). What writing a key does to the pairs follows, and
with it what several writes do, one after the other.

* `Record.get?_foldl_put` — the last of several values written under a key is the one that is left;
* `Record.toList_ofList` — pairs under different keys are taken over as they are;
* `Css.mem_setAll` — a pair that several writes leave was there before or has been written.
-/

namespace DesignCompiler

namespace Record

variable {α : Type}

/-- Among pairs with distinct keys, looking up is membership. -/
theorem lookup_eq_some_iff {pairs : List (String × α)} (hnodup : (pairs.map Prod.fst).Nodup)
    {k : String} {v : α} : pairs.lookup k = some v ↔ (k, v) ∈ pairs := by
  induction pairs with
  | nil => simp
  | cons p rest ih =>
    obtain ⟨l, w⟩ := p
    rw [List.map_cons, List.nodup_cons] at hnodup
    by_cases hk : k = l
    · subst hk
      -- The key does not stand in the rest, so the first pair is the only one with it.
      have hrest : (k, v) ∉ rest := fun h => hnodup.1 (List.mem_map.mpr ⟨_, h, rfl⟩)
      simp [hrest, eq_comm]
    · simp [List.lookup_cons, beq_false_of_ne hk, ih hnodup.2, hk]

/-- **A value is the one under a key** if the two are a pair of the record. -/
theorem get?_eq_some_iff {r : Record α} {k : String} {v : α} :
    r.get? k = some v ↔ (k, v) ∈ r.toList :=
  lookup_eq_some_iff r.keys_nodup

/-- What is in a record after an entry is put in: the entry, and what was under other keys. -/
theorem mem_toList_put {r : Record α} {k : String} {v : α} {p : String × α} :
    p ∈ (r.put k v).toList ↔ p = (k, v) ∨ p.1 ≠ k ∧ p ∈ r.toList := by
  obtain ⟨l, w⟩ := p
  rw [← get?_eq_some_iff, get?_put, ← get?_eq_some_iff]
  by_cases h : l = k
  · simp [h, eq_comm]
  · simp [h]

/-- The keys are those from before and the one put in. -/
theorem mem_keys_put {r : Record α} {k l : String} {v : α} :
    l ∈ (r.put k v).keys ↔ l ∈ r.keys ∨ l = k := by
  rw [keys_put]
  split
  · next h => exact ⟨Or.inl, fun hl => hl.elim id fun e => e ▸ h⟩
  · rw [List.mem_append, List.mem_singleton]

/-- Of two values written under a key the second one is left. -/
theorem put_put (r : Record α) (k : String) (v w : α) : (r.put k v).put k w = r.put k w := by
  refine Record.ext ?_
  rw [toList_put, toList_put, toList_put]
  induction r.toList with
  | nil => simp [putPair]
  | cons p rest ih =>
    obtain ⟨l, u⟩ := p
    by_cases h : l = k
    · simp [putPair, h]
    · simp [putPair, h, ih]

/-- **The last value that is written under a key is left.** One that is in the record before counts
only where none is written. -/
theorem get?_foldl_put (pairs : List (String × α)) (r : Record α) (k : String) :
    (pairs.foldl (fun r p => r.put p.1 p.2) r).get? k =
      (pairs.reverse.lookup k).or (r.get? k) := by
  induction pairs generalizing r with
  | nil => rfl
  | cons p rest ih =>
    have hfirst : [p].lookup k = if k = p.1 then some p.2 else none := by
      obtain ⟨l, v⟩ := p
      by_cases h : k = l <;> simp [List.lookup_cons, h, beq_false_of_ne]
    -- The first pair counts where no later one has the key.
    rw [List.foldl_cons, ih, get?_put, List.reverse_cons, List.lookup_append, Option.or_assoc,
      hfirst]
    congr 1
    split <;> rfl

/-- A record of pairs has the last value of each key. -/
theorem get?_ofList (pairs : List (String × α)) (k : String) :
    (ofList pairs).get? k = pairs.reverse.lookup k := by
  rw [ofList, get?_foldl_put, get?_empty, Option.or_none]

/-- Where all values come from their keys, it does not matter how often a key is written. -/
theorem get?_ofList_map (keys : List String) (f : String → α) (key : String) :
    (ofList (keys.map fun k => (k, f k))).get? key = if key ∈ keys then some (f key) else none := by
  have hmem : key ∈ keys ↔ key ∈ keys.reverse := List.mem_reverse.symm
  rw [get?_ofList, ← List.map_reverse, if_congr hmem rfl rfl]
  -- The last value of a key counts, and all of its values are the same.
  clear hmem
  induction keys.reverse with
  | nil => rfl
  | cons k rest ih =>
    rw [List.map_cons, List.lookup_cons, ih]
    by_cases h : key = k
    · simp [h]
    · simp [h, beq_false_of_ne h]

/-- Erasing a key leaves the other entries as they are. -/
theorem get?_erase (r : Record α) (k l : String) :
    (r.erase k).get? l = if l = k then none else r.get? l := by
  refine Option.ext fun v => ?_
  rw [get?_eq_some_iff, toList_erase, List.mem_filter]
  by_cases h : l = k
  · simp [h]
  · simp [h, get?_eq_some_iff]

/-- Writing a key that is absent puts the pair at the end. -/
theorem putPair_of_not_mem {pairs : List (String × α)} {k : String} (h : k ∉ pairs.map Prod.fst)
    (v : α) : putPair k v pairs = pairs ++ [(k, v)] := by
  induction pairs with
  | nil => rfl
  | cons p rest ih =>
    obtain ⟨l, w⟩ := p
    rw [List.map_cons, List.mem_cons, not_or] at h
    rw [putPair, if_neg fun e => h.1 e.symm, ih h.2, List.cons_append]

/-- Pairs with new and distinct keys are put in behind each other. -/
theorem toList_foldl_put {pairs : List (String × α)} :
    ∀ {r : Record α}, ((r.toList ++ pairs).map Prod.fst).Nodup →
      (pairs.foldl (fun r p => r.put p.1 p.2) r).toList = r.toList ++ pairs := by
  induction pairs with
  | nil => intro r _; rw [List.foldl_nil, List.append_nil]
  | cons p rest ih =>
    intro r hnodup
    -- The next key is not in the record yet, so its pair goes to the end.
    have habsent : p.1 ∉ r.toList.map Prod.fst := by
      rw [List.map_append, List.map_cons, List.nodup_append] at hnodup
      exact fun h => hnodup.2.2 _ h _ List.mem_cons_self rfl
    have hput : (r.put p.1 p.2).toList = r.toList ++ [p] := putPair_of_not_mem habsent p.2
    rw [List.foldl_cons, ih (by rw [hput, List.append_assoc]; exact hnodup), hput,
      List.append_assoc]
    rfl

/-- **A list of pairs under different keys** is the list of the pairs of its record. -/
theorem toList_ofList {pairs : List (String × α)} (hnodup : (pairs.map Prod.fst).Nodup) :
    (ofList pairs).toList = pairs :=
  toList_foldl_put hnodup

end Record

namespace Css

/-- Setting properties adds none that are not among them. -/
theorem mem_setAll {pairs : List (String × String)} :
    ∀ {css : Css} {p : String × String}, p ∈ (setAll css pairs).toList →
      p ∈ css.toList ∨ p ∈ pairs := by
  induction pairs with
  | nil => exact fun h => Or.inl h
  | cons q rest ih =>
    intro css p h
    -- What the later writes leave was there after the first one.
    rcases ih h with h | h
    · rcases Record.mem_toList_put.mp h with h | ⟨-, h⟩
      · exact Or.inr (h ▸ List.mem_cons_self)
      · exact Or.inl h
    · exact Or.inr (List.mem_cons_of_mem _ h)

/-- The properties set are those from before and those of the pairs. -/
theorem mem_keys_setAll {pairs : List (String × String)} :
    ∀ {css : Css} {k : String}, k ∈ (setAll css pairs).keys ↔
      k ∈ css.keys ∨ k ∈ pairs.map Prod.fst := by
  induction pairs with
  | nil => simp
  | cons q rest ih =>
    intro css k
    rw [setAll_cons, ih, Record.mem_keys_put, List.map_cons, List.mem_cons, or_assoc]

end Css

end DesignCompiler
