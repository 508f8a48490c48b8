/-!
# Records in order of insertion

A `Record α` maps strings to values and remembers the order in which the keys came. Writing a key
that is present keeps its place, and erasing one closes the gap. No key stands twice, which is part
of the type (`Record.keys_nodup`).

Each operation is pinned by what it does to the view: `keys_put`, `get?_put`, `get?_putNew`,
`toList_erase`.
-/

namespace DesignCompiler

/-- Values under distinct keys, in order. -/
structure Record (α : Type) where
  toList : List (String × α)
  keys_nodup : (toList.map Prod.fst).Nodup := by simp

namespace Record

variable {α β : Type}

/-- The record without entries. -/
def empty : Record α := ⟨[], by simp⟩

instance : Inhabited (Record α) := ⟨empty⟩

instance : EmptyCollection (Record α) := ⟨empty⟩

instance [BEq α] : BEq (Record α) := ⟨fun r s => r.toList == s.toList⟩

/-- A record is the list of its pairs. -/
@[ext] theorem ext {r s : Record α} (h : r.toList = s.toList) : r = s := by
  cases r; cases s; cases h; rfl

/-- The keys in order. -/
def keys (r : Record α) : List String := r.toList.map Prod.fst

/-- The number of entries. -/
def size (r : Record α) : Nat := r.toList.length

/-- Whether there is no entry. -/
def isEmpty (r : Record α) : Bool := r.toList.isEmpty

/-- The value under a key. -/
def get? (r : Record α) (k : String) : Option α := r.toList.lookup k

/-- Whether a key is present. -/
def contains (r : Record α) (k : String) : Bool := (r.get? k).isSome

/-- Writes a key in a list of pairs: in its place if it is there, else at the end. -/
def putPair (k : String) (v : α) : List (String × α) → List (String × α)
  | [] => [(k, v)]
  | (l, w) :: rest => if l = k then (k, v) :: rest else (l, w) :: putPair k v rest

/-- A new key is appended, a known one keeps its place. -/
theorem map_fst_putPair (k : String) (v : α) (pairs : List (String × α)) :
    (putPair k v pairs).map Prod.fst =
      if k ∈ pairs.map Prod.fst then pairs.map Prod.fst else pairs.map Prod.fst ++ [k] := by
  induction pairs with
  | nil => simp [putPair]
  | cons p rest ih =>
    obtain ⟨l, w⟩ := p
    by_cases h : l = k
    · simp [putPair, h]
    · have h' : ¬ k = l := fun e => h e.symm
      simp only [putPair, h, if_false, List.map_cons, ih, List.mem_cons, h', false_or]
      split <;> simp

/-- A pair that was put is found, and the others stay. -/
theorem lookup_putPair (k l : String) (v : α) (pairs : List (String × α)) :
    (putPair k v pairs).lookup l = if l = k then some v else pairs.lookup l := by
  induction pairs with
  | nil => by_cases h : l = k <;> simp [putPair, List.lookup_cons, h, beq_false_of_ne]
  | cons p rest ih =>
    obtain ⟨j, w⟩ := p
    -- The pair is replaced where its key stands, and looked for behind any other.
    by_cases hj : j = k
    · subst hj
      by_cases h : l = j <;> simp [putPair, List.lookup_cons, h, beq_false_of_ne]
    · by_cases h : l = j
      · subst h
        simp [putPair, hj]
      · simp [putPair, hj, List.lookup_cons, ih, beq_false_of_ne h]

/-- Writes a key; one that is present keeps its place. -/
def put (r : Record α) (k : String) (v : α) : Record α where
  toList := putPair k v r.toList
  keys_nodup := by
    have h := r.keys_nodup
    rw [map_fst_putPair]
    split
    · exact h
    · next hk =>
      refine List.nodup_append.2 ⟨h, by simp, fun a ha b hb e => hk ?_⟩
      rw [List.mem_singleton.1 hb] at e
      exact e ▸ ha

/-- Writes a key only where it is absent. -/
def putNew (r : Record α) (k : String) (v : α) : Record α := if r.contains k then r else r.put k v

/-- Removes a key; the others keep their order. -/
def erase (r : Record α) (k : String) : Record α where
  toList := r.toList.filter fun p => p.1 != k
  keys_nodup := r.keys_nodup.sublist (List.filter_sublist.map _)

/-- The record of a list of pairs: a repeated key has its first place and its last value. -/
def ofList (pairs : List (String × α)) : Record α :=
  pairs.foldl (fun r p => r.put p.1 p.2) empty

/-- The values mapped, under the same keys. -/
def map (f : α → β) (r : Record α) : Record β where
  toList := r.toList.map fun p => (p.1, f p.2)
  keys_nodup := by simpa [Function.comp_def] using r.keys_nodup

@[simp] theorem toList_empty : (empty : Record α).toList = [] := rfl

@[simp] theorem get?_empty (k : String) : (empty : Record α).get? k = none := rfl

@[simp] theorem toList_put (r : Record α) (k : String) (v : α) :
    (r.put k v).toList = putPair k v r.toList := rfl

/-- A new key is appended, a known one keeps its place. -/
theorem keys_put (r : Record α) (k : String) (v : α) :
    (r.put k v).keys = if k ∈ r.keys then r.keys else r.keys ++ [k] :=
  map_fst_putPair k v r.toList

/-- A value that was put is found, and the others stay. -/
theorem get?_put (r : Record α) (k l : String) (v : α) :
    (r.put k v).get? l = if l = k then some v else r.get? l :=
  lookup_putPair k l v r.toList

/-- A new value is kept only where there was none. -/
theorem get?_putNew (r : Record α) (k l : String) (v : α) :
    (r.putNew k v).get? l = if l = k then some ((r.get? k).getD v) else r.get? l := by
  unfold putNew contains
  cases h : r.get? k with
  | none => simp [get?_put]
  | some w => by_cases hl : l = k <;> simp [hl, h]

@[simp] theorem toList_erase (r : Record α) (k : String) :
    (r.erase k).toList = r.toList.filter fun p => p.1 != k := rfl

@[simp] theorem keys_map (f : α → β) (r : Record α) : (r.map f).keys = r.keys := by
  simp [keys, map, Function.comp_def]

end Record

end DesignCompiler
