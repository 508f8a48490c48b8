import DesignCompiler.Style.Identifier
import Mathlib.Data.List.Nodup
import Mathlib.Data.List.Perm.Subperm
/-!
# A namer hands out free identifiers

`Namer.nameIt` puts a number behind an identifier that is in the way, and looks for that number in
a bounded number of tries. The bound suffices. The identifiers that are tried differ from each
other, and there is one more of them than there are identifiers in the way, so one of them is free
(`exists_isFree`).

* `Namer.isFree_nameIt` — what is handed out is neither reserved nor taken;
* `Namer.taken_nameIt` — from then on it is taken, and nothing else changes about what is.
-/

namespace DesignCompiler

namespace Namer

variable {n : Namer}

/-- What is in the way of an identifier. -/
def blocked (n : Namer) : List String := n.reserved.words ++ n.taken

theorem isFree_iff {identifier : String} : n.isFree identifier = true ↔ identifier ∉ n.blocked := by
  simp [isFree, blocked]

/-! ### Numbers behind an identifier -/

/-- Different numbers behind one identifier make different identifiers. -/
theorem numbered_injective (base : String) :
    Function.Injective fun count : Nat => base ++ toString count := by
  intro a b h
  have hdigits : Nat.toDigits 10 a = Nat.toDigits 10 b := by
    simpa using congrArg String.toList h
  -- The digits are read back.
  rw [← Nat.ofDigitChars_ten_toDigits (n := a), hdigits, Nat.ofDigitChars_ten_toDigits]

/-- **One of enough tries is free:** otherwise all of these identifiers, which are different, would
be among fewer that are in the way. -/
theorem exists_isFree (n : Namer) (base : String) (count : Nat) :
    ∃ i < n.enoughTries, n.isFree (base ++ toString (count + i + 1)) = true := by
  by_contra hnone
  push Not at hnone
  -- If all tries fail, they are so many different identifiers among those in the way.
  let tried := (List.range n.enoughTries).map fun i => base ++ toString (count + i + 1)
  have hnodup : tried.Nodup := by
    refine List.Nodup.map_on (fun i _ j _ hij => ?_) List.nodup_range
    have := numbered_injective base hij
    omega
  have hsubset : tried ⊆ n.blocked := by
    intro identifier h
    obtain ⟨i, hi, rfl⟩ := List.mem_map.mp h
    have hblocked := hnone i (List.mem_range.mp hi)
    rw [Ne, isFree_iff, not_not] at hblocked
    exact hblocked
  have hlength := (hnodup.subperm hsubset).length_le
  have htried : tried.length = n.enoughTries := by simp [tried]
  have hblocked : n.blocked.length < n.enoughTries := by simp [blocked, enoughTries]
  omega

/-- If one of the tries is free, the number that is found makes a free identifier. -/
theorem isFree_nextCount {base : String} {tries : Nat} :
    ∀ {count : Nat}, (∃ i < tries, n.isFree (base ++ toString (count + i + 1)) = true) →
      n.isFree (base ++ toString (n.nextCount base tries count)) = true := by
  induction tries with
  | zero => exact fun ⟨_, hi, _⟩ => absurd hi (Nat.not_lt_zero _)
  | succ tries ih =>
    intro count hfree
    rw [nextCount]
    split
    · assumption
    · next hnext =>
      -- The first try fails, so the free one is among those that are left.
      obtain ⟨i, hi, hfree⟩ := hfree
      cases i with
      | zero => exact absurd hfree hnext
      | succ i =>
        refine ih ⟨i, by omega, ?_⟩
        rwa [show count + 1 + i + 1 = count + (i + 1) + 1 by omega]

/-! ### What is handed out -/

/-- **What handing out does:** it gives a free identifier, takes it, and counts. -/
theorem nameIt_eq (n : Namer) (name : String) : ∃ identifier counters,
    n.isFree identifier = true ∧
      n.nameIt name =
        (identifier, { n with taken := identifier :: n.taken, counters := counters }) := by
  by_cases hfree : n.isFree (legalIdentifier name) = true
  · refine ⟨legalIdentifier name, n.counters, hfree, ?_⟩
    simp only [nameIt, hfree, if_true]
  · -- The identifier itself is in the way, so a number goes behind it.
    let count := n.nextCount (legalIdentifier name) n.enoughTries
      ((n.counters.get? (legalIdentifier name)).getD 0)
    refine ⟨legalIdentifier name ++ toString count,
      n.counters.put (legalIdentifier name) count,
      isFree_nextCount (exists_isFree n (legalIdentifier name) _), ?_⟩
    simp only [nameIt, hfree, Bool.false_eq_true, if_false, count]

/-- **A name is free when it is handed out,** that is neither reserved nor taken. -/
theorem isFree_nameIt (n : Namer) (name : String) : n.isFree (n.nameIt name).1 = true := by
  obtain ⟨identifier, counters, hfree, h⟩ := n.nameIt_eq name
  simp only [h, hfree]

/-- A name that is handed out is taken from then on. -/
@[simp] theorem taken_nameIt (n : Namer) (name : String) :
    (n.nameIt name).2.taken = (n.nameIt name).1 :: n.taken := by
  obtain ⟨identifier, counters, -, h⟩ := n.nameIt_eq name
  rw [h]

/-- Naming reserves nothing. -/
@[simp] theorem reserved_nameIt (n : Namer) (name : String) :
    (n.nameIt name).2.reserved = n.reserved := by
  obtain ⟨identifier, counters, -, h⟩ := n.nameIt_eq name
  rw [h]

end Namer

end DesignCompiler
