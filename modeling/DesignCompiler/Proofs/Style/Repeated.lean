import DesignCompiler.Proofs.Style.Sheet
/-!
# Style maps of trees with repeated ids

Where an id comes again, the later entry of a style map counts. What holds of all the entries along
the chains of a tree holds of those that are left, so names are still declared once and sharing is
still exact (`StyleSheet.sharesExactly_of_any`). Only a chain that is not the last one with its id
has no entry of its own.
-/

namespace DesignCompiler

namespace Record

variable {α : Type}

/-- What is in a record after puts was there before or was put. -/
theorem mem_foldl_put {pairs : List (String × α)} :
    ∀ {r : Record α} {p : String × α},
      p ∈ (pairs.foldl (fun r p => r.put p.1 p.2) r).toList → p ∈ r.toList ∨ p ∈ pairs := by
  induction pairs with
  | nil => exact fun h => Or.inl h
  | cons q rest ih =>
    intro r p h
    -- In the record behind the first put, or put later.
    rcases ih h with h | h
    · rcases mem_toList_put.mp h with rfl | ⟨-, h⟩
      · exact Or.inr List.mem_cons_self
      · exact Or.inl h
    · exact Or.inr (List.mem_cons_of_mem _ h)

/-- A record has nothing but the pairs that it is made of. -/
theorem mem_of_mem_ofList {pairs : List (String × α)} {p : String × α}
    (h : p ∈ (ofList pairs).toList) : p ∈ pairs :=
  (mem_foldl_put h).resolve_left List.not_mem_nil

/-- **The last value counts.** -/
theorem get?_ofList_of_last {before after : List (String × α)} {k : String} {v : α}
    (h : k ∉ after.map Prod.fst) : (ofList (before ++ (k, v) :: after)).get? k = some v := by
  have hlater : after.reverse.lookup k = none := by
    rw [List.lookup_eq_none_iff]
    intro p hp
    have hne : k ≠ p.1 := fun hk => h (List.mem_map.mpr ⟨p, List.mem_reverse.mp hp, hk.symm⟩)
    exact bne_iff_ne.mpr hne
  rw [get?_ofList, List.reverse_append, List.reverse_cons, List.append_assoc, List.lookup_append,
    hlater, Option.none_or, List.singleton_append, List.lookup_cons_self]

end Record

namespace StyleSheet

/-- Without repetition, some of the entries declare each name once if all of them do. -/
theorem nodup_names_of_subset {pairs kept : List (String × StyleEntry)} (hsubset : kept ⊆ pairs)
    (hkept : kept.Nodup) (hnames : ((declarationsOf pairs).map (·.name)).Nodup) :
    ((declarationsOf kept).map (·.name)).Nodup := by
  obtain ⟨some, hperm, hsublist⟩ := List.subperm_of_subset hkept hsubset
  have hsome : ((declarationsOf some).map (·.name)).Nodup :=
    ((hsublist.filterMap _).map _).nodup hnames
  exact ((hperm.filterMap _).map _).nodup_iff.mp hsome

/-- **Names are declared once and sharing is exact,** whatever ids the widgets have. -/
theorem sharesExactly_of_any (w : Widget) (p : StylePreferences) (n : Namer) :
    ((declarationsOf (n.styleMap p w).1.toList).map (·.name)).Nodup ∧
      SharesExactly (n.styleMap p w).1 (ofMap (n.styleMap p w).1 true) := by
  have hsubset : (n.styleMap p w).1.toList ⊆ (Namer.entriesAlong p (w.chains .root) n).1 := by
    simp only [Namer.styleMap, Namer.entriesOf_eq w w .root n rfl]
    exact fun _ h => Record.mem_of_mem_ofList h
  -- Whatever entries the map kept, each was made from a chain, and its css tells its key.
  have hdeclares {d : StyleDeclaration}
      (h : d ∈ declarationsOf (n.styleMap p w).1.toList) : ∃ c, d.Declares c := by
    obtain ⟨pair, hpair, hd⟩ := List.mem_filterMap.mp h
    obtain ⟨c, -, name, rfl⟩ := Namer.mem_entriesAlong (hsubset hpair)
    rw [Chain.declaration?_entry] at hd
    obtain ⟨css, hcss, rfl⟩ := Option.map_eq_some_iff.mp hd
    exact ⟨c, rfl, hcss⟩
  refine ⟨nodup_names_of_subset hsubset (List.Nodup.of_map _ (n.styleMap p w).1.keys_nodup)
    (Namer.names_entriesAlong _ n).1, sharesExactly_of_keys fun d hd e he => ?_⟩
  obtain ⟨b, hb⟩ := hdeclares hd
  obtain ⟨c, hc⟩ := hdeclares he
  exact StyleDeclaration.shareKey_eq_iff hb hc

end StyleSheet

/-- The last chain of an id has the entry of its style in the map. -/
theorem Namer.exists_entry_of_last {w : Widget} (p : StylePreferences) (n : Namer)
    (before : List Chain) {after : List Chain} {c : Chain} (hchains : w.chains .root = before ++ c :: after)
    (hlast : c.id ∉ after.map (·.id)) :
    ∃ name, (n.styleMap p w).1.get? c.id = some (c.entry p name) := by
  have hmap : (n.styleMap p w).1 =
      Record.ofList (Namer.entriesAlong p (w.chains .root) n).1 := by
    simp only [Namer.styleMap, Namer.entriesOf_eq w w .root n rfl]
    rfl
  rw [hmap, hchains, Namer.entriesAlong_append]
  -- Along the chains the entry of this one comes after those before it, and no later id is its own.
  generalize (Namer.entriesAlong p before n).2 = next
  obtain ⟨name, hname⟩ : ∃ name, (next.styleEntry p c.head c.placement).1 = c.entry p name := by
    rcases Namer.styleEntry_cases p c next with ⟨-, h⟩ | ⟨css, wanted, -, h⟩ <;> rw [h] <;>
      exact ⟨_, rfl⟩
  refine ⟨name, ?_⟩
  simp only [Namer.entriesAlong, ← hname]
  refine Record.get?_ofList_of_last ?_
  rwa [Namer.map_fst_entriesAlong]

end DesignCompiler
