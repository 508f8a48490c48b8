import DesignCompiler.Proofs.Record
import DesignCompiler.Proofs.Style.Identifier
/-!
# A namer on any sequence of requests

Handing out an identifier is a search without a bound of its own: the wanted identifier is tried
first, and as long as a candidate is in the way, the count for the wanted one goes up and is put
behind it. `Namer.Search` is this loop, turn by turn, so that a search is a loop that has ended.

* `Namer.search_iff` — every search ends, and `Namer.nameIt` is what it ends with;
* `Namer.requests_iff` — so do all searches of a sequence of requests, where each begins in the state
  that the one before it left;
* `Namer.Counted` — a number is passed over only when the identifier with it is in the way from then
  on. It is kept by every turn, and bounds the counts by what is in the way.

Names such as `Card1` may be asked for as they are, so the numbers of one identifier meet those of
another one. That they never give the same identifier twice does not depend on the counts: what is
handed out is free, and is taken from then on (`Namer.taken_requests`).
-/

namespace DesignCompiler

namespace Namer

/-- How far the numbers behind an identifier have gone. -/
def countOf (n : Namer) (base : String) : Nat := (n.counters.get? base).getD 0

/-- The namer after an identifier has been handed out. -/
def take (n : Namer) (identifier : String) : Namer := { n with taken := identifier :: n.taken }

/-- The namer after the count for an identifier has gone up by one. -/
def count (n : Namer) (base : String) : Namer :=
  { n with counters := n.counters.put base (n.countOf base + 1) }

/-- **The search for a free identifier,** one turn after the other. A candidate that is free is handed
out; for one that is in the way the count goes up, and the next candidate is the wanted identifier
with the count behind it. -/
inductive Search (base : String) : Namer → String → String → Namer → Prop
  | free {n : Namer} {candidate : String} (h : n.isFree candidate = true) :
      Search base n candidate candidate (n.take candidate)
  | blocked {n after : Namer} {candidate identifier : String} (h : n.isFree candidate = false)
      (next : Search base (n.count base) (base ++ toString (n.countOf base + 1)) identifier after) :
      Search base n candidate identifier after

/-- **Requests one after the other:** for each name there is a search for its identifier. -/
inductive Requests : Namer → List String → List String → Namer → Prop
  | none (n : Namer) : Requests n [] [] n
  | next {n between after : Namer} {name identifier : String} {names identifiers : List String}
      (first : Search (legalIdentifier name) n (legalIdentifier name) identifier between)
      (rest : Requests between names identifiers after) :
      Requests n (name :: names) (identifier :: identifiers) after

variable {n after : Namer} {base : String}

@[simp] theorem countOf_count (n : Namer) (base : String) :
    (n.count base).countOf base = n.countOf base + 1 := by
  simp [countOf, count, Record.get?_put]

theorem countOf_count_of_ne (n : Namer) {other : String} (h : other ≠ base) :
    (n.count base).countOf other = n.countOf other := by
  simp [countOf, count, Record.get?_put, h]

/-! ### Searches end -/

/-- Which numbers are tried does not depend on the counts that are kept. -/
theorem nextCount_count (n : Namer) (base : String) (tries : Nat) :
    ∀ count, (n.count base).nextCount base tries count = n.nextCount base tries count := by
  induction tries with
  | zero => exact fun _ => rfl
  | succ tries ih =>
    intro count
    rw [nextCount, nextCount, ih]
    rfl

/-- **A search goes through the numbers** up to the first one that makes a free identifier, and leaves
this number as the count. -/
theorem search_nextCount {tries : Nat} :
    ∀ {n : Namer} {candidate : String}, n.isFree candidate = false →
      (∃ i < tries, n.isFree (base ++ toString (n.countOf base + i + 1)) = true) →
      Search base n candidate (base ++ toString (n.nextCount base tries (n.countOf base)))
        { n with
          taken := (base ++ toString (n.nextCount base tries (n.countOf base))) :: n.taken
          counters := n.counters.put base (n.nextCount base tries (n.countOf base)) } := by
  -- By the number of tries left; a turn only changes the counts, which `isFree` does not look at.
  induction tries with
  | zero => exact fun _ ⟨_, hi, _⟩ => absurd hi (Nat.not_lt_zero _)
  | succ tries ih =>
    intro n candidate hblocked hfree
    refine .blocked hblocked ?_
    rw [nextCount]
    by_cases hnext : n.isFree (base ++ toString (n.countOf base + 1)) = true
    · rw [if_pos hnext]
      exact .free hnext
    · rw [if_neg hnext]
      -- The first number fails, so the one that makes a free identifier comes later.
      have hlater : ∃ i < tries, (n.count base).isFree
          (base ++ toString ((n.count base).countOf base + i + 1)) = true := by
        obtain ⟨i, hi, hfree⟩ := hfree
        cases i with
        | zero => exact absurd hfree hnext
        | succ i =>
          refine ⟨i, by omega, ?_⟩
          rw [countOf_count, show n.countOf base + 1 + i + 1 = n.countOf base + (i + 1) + 1 by omega]
          exact hfree
      have hcandidate : n.isFree (base ++ toString (n.countOf base + 1)) = false :=
        Bool.eq_false_iff.mpr hnext
      have hcounters : ∀ k, (n.count base).counters.put base k = n.counters.put base k :=
        fun k => Record.put_put _ _ _ k
      have hsearch := ih (n := n.count base) hcandidate hlater
      rw [nextCount_count, countOf_count, hcounters] at hsearch
      exact hsearch

/-- The namer searches from the legal identifier of the name. -/
theorem search_nameIt (n : Namer) (name : String) :
    Search (legalIdentifier name) n (legalIdentifier name) (n.nameIt name).1 (n.nameIt name).2 := by
  cases hfree : n.isFree (legalIdentifier name) with
  | true =>
    simp only [nameIt, hfree, if_true]
    exact .free hfree
  | false =>
    simp only [nameIt, hfree, Bool.false_eq_true, if_false]
    exact search_nextCount hfree (exists_isFree n (legalIdentifier name) _)

/-- A search has one end. -/
theorem Search.unique {candidate identifier other : String} {after' : Namer}
    (h : Search base n candidate identifier after) :
    Search base n candidate other after' → identifier = other ∧ after = after' := by
  induction h with
  | free hfree =>
    -- The candidate is free or blocked, and both searches see which.
    intro h'
    cases h' with
    | free => exact ⟨rfl, rfl⟩
    | blocked hblocked => rw [hfree] at hblocked; cases hblocked
  | blocked hblocked _ ih =>
    intro h'
    cases h' with
    | free hfree => rw [hfree] at hblocked; cases hblocked
    | blocked _ hnext => exact ih hnext

/-- **Every search ends,** with what the namer hands out. -/
theorem search_iff {name identifier : String} :
    Search (legalIdentifier name) n (legalIdentifier name) identifier after ↔
      n.nameIt name = (identifier, after) := by
  constructor
  · intro h
    obtain ⟨hidentifier, hafter⟩ := (search_nameIt n name).unique h
    exact Prod.ext hidentifier hafter
  · intro h
    have hsearch := search_nameIt n name
    rw [h] at hsearch
    exact hsearch

/-- **Every sequence of requests is answered,** with what the namer hands out for it. -/
theorem requests_iff {names identifiers : List String} :
    Requests n names identifiers after ↔ n.nameAll names = (identifiers, after) := by
  induction names generalizing n identifiers with
  | nil =>
    -- Both sides serve the first request and go on with the namer it leaves.
    constructor
    · rintro ⟨⟩
      rfl
    · intro h
      cases h
      exact .none _
  | cons name names ih =>
    constructor
    · rintro (_ | ⟨first, rest⟩)
      simp only [nameAll, search_iff.mp first, ih.mp rest]
    · intro h
      cases h
      exact .next (search_iff.mpr rfl) (ih.mpr rfl)

/-! ### What a turn keeps -/

/-- **No number is passed over for nothing:** up to the count of an identifier, each number makes one
that is in the way. -/
def Counted (n : Namer) : Prop :=
  ∀ base k, 0 < k → k ≤ n.countOf base → base ++ toString k ∈ n.blocked

/-- The same in the middle of a search, where the candidate has been counted and not looked at. -/
def CountedBut (n : Namer) (candidate : String) : Prop :=
  ∀ base k, 0 < k → k ≤ n.countOf base →
    base ++ toString k = candidate ∨ base ++ toString k ∈ n.blocked

theorem Counted.but (h : n.Counted) (candidate : String) : n.CountedBut candidate :=
  fun base k hpos hk => Or.inr (h base k hpos hk)

/-- A candidate that is handed out is in the way from then on. -/
theorem CountedBut.take {candidate : String} (h : n.CountedBut candidate) :
    (n.take candidate).Counted := by
  intro base k hpos hk
  have hblocked : ∀ identifier, identifier = candidate ∨ identifier ∈ n.blocked →
      identifier ∈ (n.take candidate).blocked := by
    simp only [blocked, Namer.take, List.mem_append, List.mem_cons]
    tauto
  exact hblocked _ (h base k hpos hk)

/-- A candidate that is in the way may be passed over, and the next one has been counted. -/
theorem CountedBut.count {candidate : String} (h : n.CountedBut candidate)
    (hblocked : n.isFree candidate = false) (base : String) :
    (n.count base).CountedBut (base ++ toString (n.countOf base + 1)) := by
  have hcandidate : candidate ∈ n.blocked := by
    by_contra hmem
    rw [isFree_iff.mpr hmem] at hblocked
    cases hblocked
  have hcounted : n.Counted := fun other k hpos hk =>
    (h other k hpos hk).elim (fun heq => heq ▸ hcandidate) id
  intro other k hpos hk
  -- Only the new number of the counted name is unaccounted for, and it is the next candidate.
  by_cases hother : other = base
  · subst hother
    rw [countOf_count] at hk
    rcases Nat.lt_or_ge (n.countOf other) k with hlt | hle
    · exact Or.inl (by rw [show k = n.countOf other + 1 by omega])
    · exact Or.inr (hcounted other k hpos hle)
  · rw [countOf_count_of_ne n hother] at hk
    exact Or.inr (hcounted other k hpos hk)

/-- Every turn of a search keeps the counts. -/
theorem Search.counted {candidate identifier : String}
    (h : Search base n candidate identifier after) : n.CountedBut candidate → after.Counted := by
  induction h with
  | free => exact fun hcounted => hcounted.take
  | blocked hblocked _ ih => exact fun hcounted => ih (hcounted.count hblocked base)

/-- **The count of an identifier is bounded** by what is in the way, since its numbers make as many
different identifiers there. -/
theorem Counted.countOf_le (h : n.Counted) (base : String) :
    n.countOf base ≤ n.blocked.length := by
  -- The numbered names up to the count are distinct, and all of them are blocked.
  let passed := (List.range (n.countOf base)).map fun i => base ++ toString (i + 1)
  have hnodup : passed.Nodup := by
    refine List.Nodup.map_on (fun i _ j _ hij => ?_) List.nodup_range
    have := numbered_injective base hij
    omega
  have hsubset : passed ⊆ n.blocked := by
    intro identifier hmem
    obtain ⟨i, hi, rfl⟩ := List.mem_map.mp hmem
    exact h base (i + 1) i.succ_pos (List.mem_range.mp hi)
  calc n.countOf base = passed.length := by simp [passed]
    _ ≤ n.blocked.length := (hnodup.subperm hsubset).length_le

/-! ### What a run keeps -/

section Requests

variable {names identifiers : List String}

/-- The counts stay true over every request. -/
theorem Requests.counted (h : Requests n names identifiers after) (hn : n.Counted) :
    after.Counted := by
  induction h with
  | none => exact hn
  | next first _ ih => exact ih (first.counted (hn.but _))

/-- What is handed out is taken, and nothing else changes about what is in the way. -/
theorem Requests.taken (h : Requests n names identifiers after) :
    after.reserved = n.reserved ∧ after.taken = identifiers.reverse ++ n.taken := by
  induction h with
  | none => exact ⟨rfl, rfl⟩
  | @next n between after name identifier names identifiers first _ ih =>
    obtain ⟨hreserved, htaken⟩ := ih
    have hfirst := search_iff.mp first
    have hreserved' := n.reserved_nameIt name
    have htaken' := n.taken_nameIt name
    rw [hfirst] at hreserved' htaken'
    refine ⟨hreserved.trans hreserved', ?_⟩
    -- The newest name stands in front.
    rw [htaken, htaken', List.reverse_cons, List.append_assoc, List.singleton_append]

/-- **What is handed out is free, and different each time.** -/
theorem Requests.fresh (h : Requests n names identifiers after) :
    identifiers.Nodup ∧ ∀ identifier ∈ identifiers, n.isFree identifier = true := by
  induction h with
  | none => exact ⟨List.nodup_nil, List.forall_mem_nil _⟩
  | @next n between after name identifier names identifiers first _ ih =>
    obtain ⟨hnodup, hfree⟩ := ih
    have hfirst := search_iff.mp first
    have hidentifier := n.isFree_nameIt name
    have hreserved := n.reserved_nameIt name
    have htaken := n.taken_nameIt name
    rw [hfirst] at hidentifier hreserved htaken
    -- What is free later was free before, and is not what has been taken in between.
    have hlater : ∀ other, between.isFree other = true →
        other ≠ identifier ∧ n.isFree other = true := by
      intro other hother
      rw [isFree_iff, blocked, hreserved, htaken] at hother
      rw [isFree_iff, blocked]
      simp only [List.mem_append, List.mem_cons] at hother ⊢
      tauto
    refine ⟨List.nodup_cons.mpr ⟨fun hmem => ?_, hnodup⟩, ?_⟩
    · exact (hlater identifier (hfree identifier hmem)).1 rfl
    · rw [List.forall_mem_cons]
      exact ⟨hidentifier, fun other hother => (hlater other (hfree other hother)).2⟩

/-- Every name given is an identifier. -/
theorem Requests.isIdentifier (h : Requests n names identifiers after) :
    ∀ identifier ∈ identifiers, IsIdentifier identifier := by
  induction h with
  | none => exact List.forall_mem_nil _
  | @next n _ _ name _ _ _ first _ ih =>
    have hfirst := n.isIdentifier_nameIt name
    rw [search_iff.mp first] at hfirst
    exact List.forall_mem_cons.mpr ⟨hfirst, ih⟩

/-- Every request is given a name. -/
theorem Requests.length_eq (h : Requests n names identifiers after) :
    identifiers.length = names.length := by
  induction h with
  | none => rfl
  | next _ _ ih => rw [List.length_cons, List.length_cons, ih]

end Requests

/-! ### The law -/

/-- **What a namer hands out for some names is safe** to declare, and so are its counts. -/
structure Safe (reserved : ReservedWords) (names identifiers : List String) (n : Namer) : Prop where
  answered : identifiers.length = names.length
  distinct : identifiers.Nodup
  unreserved : ∀ identifier ∈ identifiers, identifier ∉ reserved.words
  legal : ∀ identifier ∈ identifiers, IsIdentifier identifier
  /-- A count never goes beyond the number of words and identifiers in the way. -/
  counts : ∀ base, n.countOf base ≤ reserved.words.length + identifiers.length

/-- **A namer is safe on any sequence of requests:** all searches end, with what the namer hands out
and in no other way, and that is different each time, no reserved word, and an identifier. -/
theorem nameAll_safe (scope : String) (reserved : ReservedWords) (names : List String) :
    (∀ identifiers after, Requests { scope, reserved } names identifiers after ↔
      ({ scope, reserved } : Namer).nameAll names = (identifiers, after)) ∧
    Safe reserved names (({ scope, reserved } : Namer).nameAll names).1
      (({ scope, reserved } : Namer).nameAll names).2 := by
  refine ⟨fun _ _ => requests_iff, ?_⟩
  let start : Namer := { scope, reserved }
  have hrun : Requests start names (start.nameAll names).1 (start.nameAll names).2 :=
    requests_iff.mpr rfl
  -- Nothing has been counted at the start.
  have hstart : start.Counted := fun _ _ hpos hk => absurd (Nat.lt_of_lt_of_le hpos hk) nofun
  obtain ⟨hreserved, htaken⟩ := hrun.taken
  obtain ⟨hdistinct, hfree⟩ := hrun.fresh
  refine ⟨hrun.length_eq, hdistinct, fun identifier hmem hword => ?_, hrun.isIdentifier,
    fun base => ?_⟩
  · exact isFree_iff.mp (hfree identifier hmem) (List.mem_append_left _ hword)
  · have hcounts := (hrun.counted hstart).countOf_le base
    rw [blocked, hreserved, htaken] at hcounts
    simpa [start] using hcounts

/-- The name that a number would have made is asked for in between. -/
example : (({ scope := "", reserved := .dart } : Namer).nameAll
    ["card", "Card1", "card", "image", "card"]).1 =
      ["Card", "Card1", "Card2", "Image1", "Card3"] := by decide +kernel

end Namer

end DesignCompiler
