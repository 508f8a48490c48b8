import DesignCompiler.Proofs.Style.CanonicalKey
import DesignCompiler.Proofs.Style.Sharing
/-!
# A style sheet shares what is alike, and nothing else

Sharing compares declarations by a text, `shareKey`. On what a style map holds that is exact: every
declaration there is made from the computed style of a chain, and for those the text says which tag
and which set of pairs it was made from (`StyleDeclaration.shareKey_eq_iff`).

The result is `StyleSheet.sharesExactly`. Elements of a tree use one declaration if and only if their
own ones are alike, it is the first of these in the document, and the declarations in use are listed
once each. The rest of the entries stays as it is.
-/

namespace DesignCompiler

/-- `first` is the first declaration of a list that `d` is like. -/
def StyleDeclaration.FirstLike (d : StyleDeclaration) (ds : List StyleDeclaration)
    (first : StyleDeclaration) : Prop :=
  ∃ before after, ds = before ++ first :: after ∧ d.Alike first ∧ ∀ e ∈ before, ¬ d.Alike e

/-- The declaration that the element of an id uses. -/
def StyleSheet.declaration? (s : StyleSheet) (id : String) : Option StyleDeclaration := do
  let e ← s.entry? id
  e.declaration?

/-- **A style sheet shares exactly** what is alike in a style map. -/
structure SharesExactly (map : Record StyleEntry) (s : StyleSheet) : Prop where
  /-- The entries are those of the map, in its order. -/
  keys : s.entries.keys = map.keys
  /-- Attributes and computed styles are kept, and bare entries as a whole. -/
  kept : ∀ {id e}, map.get? id = some e → ∃ e', s.entry? id = some e' ∧
    e'.attributes = e.attributes ∧ e'.styling.map (·.style) = e.styling.map (·.style) ∧
    (e.styling = none → e' = e)
  /-- Two elements use one declaration if and only if their own ones are alike. -/
  shares : ∀ {id id' e e' d d'}, map.get? id = some e → e.declaration? = some d →
    map.get? id' = some e' → e'.declaration? = some d' →
    (s.declaration? id = s.declaration? id' ↔ d.Alike d')
  /-- It is the first one in the document. -/
  first : ∀ {id e d}, map.get? id = some e → e.declaration? = some d →
    ∃ first, s.declaration? id = some first ∧ d.FirstLike (declarationsOf map.toList) first
  /-- The declarations in use are listed in the order of the document. -/
  uniques_sublist : s.uniques.Sublist (declarationsOf map.toList)
  mem_uniques : ∀ {d}, d ∈ s.uniques ↔ ∃ id, s.declaration? id = some d
  uniques_unlike : s.uniques.Pairwise fun d e => ¬ d.Alike e

namespace StyleSheet

variable {map : Record StyleEntry}

/-- The sheet holds the entries of the map, each sharing among all declarations. -/
theorem entry?_eq_some_iff {id : String} {e' : StyleEntry} :
    entry? (ofMap map true) id = some e' ↔
      ∃ e, map.get? id = some e ∧ e.shareIn (declarationsOf map.toList) = e' := by
  unfold entry?
  rw [Record.get?_eq_some_iff]
  simp only [Record.get?_eq_some_iff, ofMap, shareDeclarations_fst, List.nil_append]
  constructor
  · intro h
    obtain ⟨⟨id', e⟩, he, heq⟩ := List.mem_map.mp h
    obtain ⟨rfl, rfl⟩ := Prod.mk.inj heq
    exact ⟨e, he, rfl⟩
  · rintro ⟨e, he, rfl⟩
    exact List.mem_map.mpr ⟨_, he, rfl⟩

theorem mem_declarationsOf {id : String} {e : StyleEntry} {d : StyleDeclaration}
    (he : map.get? id = some e) (hd : e.declaration? = some d) : d ∈ declarationsOf map.toList :=
  List.mem_filterMap.mpr ⟨_, Record.get?_eq_some_iff.mp he, hd⟩

/-- The declaration that an element uses is the first one with the key of its own. -/
theorem declaration?_ofMap {id : String} {e : StyleEntry} {d : StyleDeclaration}
    (he : map.get? id = some e) (hd : e.declaration? = some d) :
    (ofMap map true).declaration? id = d.firstIn (declarationsOf map.toList) := by
  have hentry := entry?_eq_some_iff.mpr ⟨e, he, rfl⟩
  obtain ⟨first, hfirst⟩ := StyleDeclaration.exists_firstIn (mem_declarationsOf he hd)
  rw [declaration?, hentry, Option.bind_eq_bind, Option.bind_some,
    StyleEntry.declaration?_shareIn, hd, Option.map_some, hfirst, Option.getD_some]

/-- An element uses some declaration just where it has one of its own in the map. -/
theorem exists_of_declaration? {id : String} {first : StyleDeclaration}
    (h : (ofMap map true).declaration? id = some first) : ∃ e d, map.get? id = some e ∧
      e.declaration? = some d ∧ d.firstIn (declarationsOf map.toList) = some first := by
  obtain ⟨e', he', hfirst⟩ := Option.bind_eq_some_iff.mp h
  obtain ⟨e, he, rfl⟩ := entry?_eq_some_iff.mp he'
  rw [StyleEntry.declaration?_shareIn] at hfirst
  obtain ⟨d, hd, -⟩ := Option.map_eq_some_iff.mp hfirst
  exact ⟨e, d, he, hd, (declaration?_ofMap he hd).symm.trans h⟩

/-- **Where keys tell what is alike,** sharing by keys is exact. -/
theorem sharesExactly_of_keys
    (hkeys : ∀ d ∈ declarationsOf map.toList, ∀ e ∈ declarationsOf map.toList,
      d.shareKey = e.shareKey ↔ d.Alike e) : SharesExactly map (ofMap map true) where
  keys := map_fst_shareDeclarations true [] map.toList
  kept {id e} he :=
    ⟨_, entry?_eq_some_iff.mpr ⟨e, he, rfl⟩, StyleEntry.attributes_shareIn e _,
      StyleEntry.style_shareIn e _, fun hbare => StyleEntry.shareIn_of_bare hbare _⟩
  shares {id id' e e' d d'} he hd he' hd' := by
    have hmem := mem_declarationsOf he hd
    have hmem' := mem_declarationsOf he' hd'
    rw [declaration?_ofMap he hd, declaration?_ofMap he' hd', ← hkeys d hmem d' hmem']
    -- Each element takes the first declaration with its key, so equal ones mean equal keys.
    constructor
    · intro hfirst
      obtain ⟨first, hfound⟩ := StyleDeclaration.exists_firstIn hmem
      rw [← StyleDeclaration.shareKey_firstIn hfound]
      exact StyleDeclaration.shareKey_firstIn (hfirst ▸ hfound)
    · exact fun hkey => StyleDeclaration.firstIn_congr hkey _
  first {id e d} he hd := by
    have hmem := mem_declarationsOf he hd
    obtain ⟨first, hfirst⟩ := StyleDeclaration.exists_firstIn hmem
    refine ⟨first, (declaration?_ofMap he hd).trans hfirst, ?_⟩
    -- What comes before the one that is found has another key, and so is not alike.
    obtain ⟨hkey, before, after, hds, hbefore⟩ := List.find?_eq_some_iff_append.mp hfirst
    have hfirstMem : first ∈ declarationsOf map.toList := List.mem_of_find?_eq_some hfirst
    refine ⟨before, after, hds, (hkeys d hmem first hfirstMem).mp (beq_iff_eq.mp hkey).symm, ?_⟩
    intro e he halike
    have heMem : e ∈ declarationsOf map.toList := hds ▸ List.mem_append_left _ he
    -- A declaration alike would have the key, and would have been found.
    have hne : e.shareKey ≠ d.shareKey := by simpa using hbefore e he
    exact hne ((hkeys d hmem e heMem).mpr halike).symm
  uniques_sublist := uniques_sublist map.toList []
  mem_uniques {d} := by
    -- In use means found under its own key, which some entry has.
    change d ∈ (shareDeclarations true [] map.toList).2 ↔ _
    rw [mem_uniques_iff]
    constructor
    · intro hfirst
      obtain ⟨⟨id, e⟩, he, hd⟩ := List.mem_filterMap.mp (List.mem_of_find?_eq_some hfirst)
      exact ⟨id, (declaration?_ofMap (Record.get?_eq_some_iff.mpr he) hd).trans hfirst⟩
    · rintro ⟨id, hid⟩
      obtain ⟨e, own, -, -, hfirst⟩ := exists_of_declaration? hid
      rw [StyleDeclaration.firstIn_congr (StyleDeclaration.shareKey_firstIn hfirst)]
      exact hfirst
  uniques_unlike := by
    have hnodup := nodup_keys_uniques map.toList [] List.nodup_nil
    rw [List.Nodup, List.pairwise_map] at hnodup
    have hsublist := uniques_sublist map.toList []
    refine hnodup.imp_of_mem fun {d e} hd he hne halike => hne ?_
    exact (hkeys d (hsublist.mem hd) e (hsublist.mem he)).mpr halike

/-- Every declaration of a style map is made from the computed style of a chain. -/
theorem exists_declares {w : Widget} (hids : (w.contents.map (·.id)).Nodup)
    {p : StylePreferences} {n : Namer} {d : StyleDeclaration}
    (h : d ∈ declarationsOf (n.styleMap p w).1.toList) : ∃ c, d.Declares c := by
  rw [Namer.toList_styleMap hids] at h
  obtain ⟨pair, hpair, hd⟩ := List.mem_filterMap.mp h
  obtain ⟨c, -, name, rfl⟩ := Namer.mem_entriesAlong hpair
  rw [Chain.declaration?_entry] at hd
  obtain ⟨css, hcss, rfl⟩ := Option.map_eq_some_iff.mp hd
  exact ⟨c, rfl, hcss⟩

section Names

variable {w : Widget} (hids : (w.contents.map (·.id)).Nodup) (p : StylePreferences) (n : Namer)
include hids

/-- What a style map declares has an identifier for its name. -/
theorem isIdentifier_declarationsOf :
    ∀ d ∈ declarationsOf (n.styleMap p w).1.toList, IsIdentifier d.name := by
  rw [Namer.toList_styleMap hids]
  exact Namer.isIdentifier_entriesAlong (w.chains .root) n

/-- What is in use is some of what the map declares. -/
theorem isIdentifier_uniques :
    ∀ d ∈ (ofMap (n.styleMap p w).1 true).uniques, IsIdentifier d.name :=
  fun d hd => isIdentifier_declarationsOf hids p n d ((uniques_sublist _ []).mem hd)

end Names

/-- The declarations of a style map have names of their own, and are shared exactly. -/
theorem sharesExactly_styleMap {w : Widget} (hids : (w.contents.map (·.id)).Nodup)
    (p : StylePreferences) (n : Namer) :
    ((declarationsOf (n.styleMap p w).1.toList).map (·.name)).Nodup ∧
      SharesExactly (n.styleMap p w).1 (ofMap (n.styleMap p w).1 true) := by
  refine ⟨?_, sharesExactly_of_keys fun d hd e he => ?_⟩
  · rw [Namer.toList_styleMap hids]
    exact (Namer.names_entriesAlong _ n).1
  · obtain ⟨b, hb⟩ := exists_declares hids hd
    obtain ⟨c, hc⟩ := exists_declares hids he
    exact StyleDeclaration.shareKey_eq_iff hb hc

/-- **The style sheet of a tree shares exactly.** The style map has an entry for each widget that is
no wrapper, in the order of the walk, with a declaration of its own if it is styled. Of these
declarations those that are alike become one, and no others do. -/
theorem sharesExactly {w : Widget} (hids : (w.contents.map (·.id)).Nodup) (p : StylePreferences)
    (n : Namer) :
    (n.styleMap p w).1.keys = w.contents.map (·.id) ∧
      ((declarationsOf (n.styleMap p w).1.toList).map (·.name)).Nodup ∧
      SharesExactly (n.styleMap p w).1 (ofMap (n.styleMap p w).1 true) := by
  refine ⟨?_, sharesExactly_styleMap hids p n⟩
  rw [Record.keys, Namer.toList_styleMap hids, Namer.map_fst_entriesAlong, Widget.map_id_chains]

/-- Two texts that look the same, in a font whose name has a semicolon in it. -/
def twoCaptions : Widget :=
  .box ⟨"1", "Card", none⟩ (.sized 80 40) .group [⟨0, 0, caption "2"⟩, ⟨0, 0, caption "3"⟩]
where
  caption (id : String) : Widget :=
    .leaf ⟨id, "Caption", none⟩ {} (.text ⟨"Ab", { fontFamily := "A\";color:B" }, none, none⟩)

theorem sharesExactly_twoCaptions :
    (twoCaptions.contents.map (·.id)).Nodup ∧
      SharesExactly (Namer.styleMap ⟨"1", .react, [], {}⟩ {} twoCaptions).1
        (ofMap (Namer.styleMap ⟨"1", .react, [], {}⟩ {} twoCaptions).1 true) :=
  ⟨by decide, (sharesExactly (w := twoCaptions) (by decide) _ _).2.2⟩

end StyleSheet

end DesignCompiler
