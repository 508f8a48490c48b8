import DesignCompiler.Proofs.Asset.Survival
import Mathlib.Data.List.Induction
/-!
# One reading of a text

References are looked for as a pattern is: the leftmost one first, with a key that is as long as it
can be, and then on behind it. `Matches` says what it is to cut a text in this way, with no mention
of how it is done, and leaves no choice (`Matches.unique`).

Two things are made from a text, the list of its keys and the text with values put in. Both are read
off the one cut (`Matches.referencesFrom_eq`), so they speak of the same references:

* each reference is replaced by the value of its key, and what lies between them is kept;
* the keys are all listed, once each, in the order in which they first appear;
* so the result depends on the values of the listed keys alone, and a table in which each of them has
  its own reference gives the text back.

`exists_readsReferences` puts this together.
-/

namespace DesignCompiler

/-! ### The pattern -/

/-- **A text begins with a reference:** with the prefix, and a key character behind it. -/
def BeginsReference (text : List Char) : Prop :=
  ∃ c rest, isKeyChar c = true ∧ text = reservationPrefix.toList ++ c :: rest

/-- A key is found at the beginning of a text just where a reference is. -/
theorem leadingKey?_eq_none_iff {text : List Char} :
    leadingKey? text = none ↔ ¬ BeginsReference text := by
  rw [← not_iff_not, not_not, ← ne_eq, Option.ne_none_iff_exists']
  constructor
  · rintro ⟨key, h⟩
    obtain ⟨hne, hkey, rest, -, rfl⟩ := leadingKey?_eq_some_iff.mp h
    obtain ⟨c, cs, rfl⟩ := List.exists_cons_of_ne_nil hne
    exact ⟨c, cs ++ rest, hkey c List.mem_cons_self, rfl⟩
  · rintro ⟨c, rest, hc, rfl⟩
    -- The key goes on from its first character as far as it can.
    have htaken : (c :: rest).takeWhile isKeyChar ≠ [] := by
      rw [List.takeWhile_cons_of_pos hc]
      exact List.cons_ne_nil _ _
    refine ⟨_, leadingKey?_eq_some_iff.mpr
      ⟨htaken, fun d => List.mem_takeWhile_imp, _, endsKey_dropWhile (c :: rest), ?_⟩⟩
    rw [List.takeWhile_append_dropWhile]

/-- A reference in a text, with the characters between the one before and it. -/
structure Occurrence where
  gap : List Char
  key : List Char

namespace Occurrence

/-- The key of a reference. -/
def name (o : Occurrence) : String := String.ofList o.key

/-- The pieces of a text up to the end of a reference. -/
def pieces (o : Occurrence) : List ReferencePiece := o.gap.map .char ++ [.reference o.key]

end Occurrence

/-- **The leftmost, longest matches in a text,** none of which overlap, and what is left behind the
last one. -/
inductive Matches : List Char → List Occurrence → List Char → Prop
  /-- No reference begins anywhere. -/
  | done {text : List Char} (hnone : ∀ before after, text = before ++ after →
      ¬ BeginsReference after) : Matches text [] text
  /-- None begins in the gap, so the reference behind it is the leftmost. Its key ends where no key
  character is, and the search goes on from there. -/
  | found {gap key rest tail : List Char} {others : List Occurrence}
      (hleftmost : ∀ before after, gap = before ++ after → after ≠ [] →
        ¬ BeginsReference (after ++ (reservationPrefix.toList ++ (key ++ rest))))
      (hne : key ≠ []) (hkey : ∀ c ∈ key, isKeyChar c = true) (hends : EndsKey rest)
      (hothers : Matches rest others tail) :
      Matches (gap ++ (reservationPrefix.toList ++ (key ++ rest))) (⟨gap, key⟩ :: others) tail

/-! ### The cut finds the matches -/

/-- Characters at which no reference begins are taken off one by one. -/
theorem referencesFrom_gap {gap rest : List Char}
    (h : ∀ before after, gap = before ++ after → after ≠ [] → ¬ BeginsReference (after ++ rest)) :
    referencesFrom 0 (gap ++ rest) = gap.map .char ++ referencesFrom 0 rest := by
  induction gap with
  | nil => rfl
  | cons c gap ih =>
    have hhere : leadingKey? (c :: (gap ++ rest)) = none :=
      leadingKey?_eq_none_iff.mpr (h [] (c :: gap) rfl (List.cons_ne_nil _ _))
    have hlater := ih fun before after hgap => h (c :: before) after (congrArg (c :: ·) hgap)
    rw [List.cons_append, referencesFrom_char hhere, hlater, List.map_cons, List.cons_append]

/-- **The pieces of a text are those of its matches,** and the characters that are left. -/
theorem Matches.referencesFrom_eq {text tail : List Char} {found : List Occurrence}
    (h : Matches text found tail) :
    referencesFrom 0 text = found.flatMap (·.pieces) ++ tail.map .char := by
  -- The reader passes over the gap in front of each match, since no reference begins in it, and
  -- over the tail in the end.
  induction h with
  | @done text hnone =>
    have hgap : ∀ before after, text = before ++ after → after ≠ [] →
        ¬ BeginsReference (after ++ []) := by
      intro before after htext _
      rw [List.append_nil]
      exact hnone before after htext
    have htext := referencesFrom_gap hgap
    rw [List.append_nil] at htext
    rw [htext, List.flatMap_nil, List.nil_append]
    exact List.append_nil _
  | found hleftmost hne hkey hends _ ih =>
    rw [referencesFrom_gap hleftmost, referencesFrom_reference hne hkey hends, ih,
      List.flatMap_cons, Occurrence.pieces]
    simp

/-- A character at which no reference begins joins the gap in front of the first match. -/
theorem Matches.exists_cons {c : Char} {rest tail : List Char} {found : List Occurrence}
    (hc : ¬ BeginsReference (c :: rest)) (h : Matches rest found tail) :
    ∃ found tail, Matches (c :: rest) found tail := by
  -- A character that begins no reference goes to the gap of the first match, or to the tail.
  cases h with
  | done hnone =>
    refine ⟨[], c :: rest, .done fun before after htext => ?_⟩
    cases before with
    | nil => exact (show c :: rest = after from htext) ▸ hc
    | cons d before => exact hnone before after (List.cons.inj htext).2
  | @found gap key rest _ others hleftmost hne hkey hends hothers =>
    have hleftmost' : ∀ before after, c :: gap = before ++ after → after ≠ [] →
        ¬ BeginsReference (after ++ (reservationPrefix.toList ++ (key ++ rest))) := by
      intro before after hgap hafter
      cases before with
      | nil => exact (show c :: gap = after from hgap) ▸ hc
      | cons d before => exact hleftmost before after (List.cons.inj hgap).2 hafter
    exact ⟨_, tail, .found hleftmost' hne hkey hends hothers⟩

/-- **Every text has its matches.** -/
theorem exists_matches (text : List Char) : ∃ found tail, Matches text found tail := by
  induction text using cut_induction with
  | nil =>
    refine ⟨[], [], .done fun before after htext hbegins => ?_⟩
    obtain ⟨-, rfl⟩ := List.append_eq_nil_iff.mp htext.symm
    obtain ⟨c, rest, -, hnil⟩ := hbegins
    exact absurd hnil.symm (by simp)
  | char c rest h ih =>
    obtain ⟨found, tail, hmatches⟩ := ih
    exact hmatches.exists_cons (leadingKey?_eq_none_iff.mp h)
  | reference key rest hne hkey hrest ih =>
    obtain ⟨found, tail, hmatches⟩ := ih
    -- Nothing comes before a reference that the text begins with.
    have hleftmost : ∀ before after, [] = before ++ after → after ≠ [] →
        ¬ BeginsReference (after ++ (reservationPrefix.toList ++ (key ++ rest))) := by
      intro before after hnil hafter
      exact absurd (List.append_eq_nil_iff.mp hnil.symm).2 hafter
    exact ⟨_, tail, .found hleftmost hne hkey hrest hmatches⟩

/-! ### There is one reading -/

/-- The first reference among some pieces, and the characters before it, can be told. -/
theorem map_char_append_inj {key key' : List Char} {after after' : List ReferencePiece} :
    ∀ {gap gap' : List Char},
      gap.map .char ++ .reference key :: after = gap'.map .char ++ .reference key' :: after' →
      gap = gap' ∧ key = key' ∧ after = after'
  | [], [], h => by
    obtain ⟨hkey, hafter⟩ := List.cons.inj h
    exact ⟨rfl, ReferencePiece.reference.inj hkey, hafter⟩
  -- A character is no reference, so both gaps end at the same place.
  | [], c :: gap', h => by cases (List.cons.inj h).1
  | c :: gap, [], h => by cases (List.cons.inj h).1
  | c :: gap, d :: gap', h => by
    obtain ⟨hc, hrest⟩ := List.cons.inj h
    obtain ⟨rfl, hlater⟩ := map_char_append_inj hrest
    exact ⟨congrArg (· :: gap) (ReferencePiece.char.inj hc), hlater⟩

/-- Characters are no reference. -/
theorem map_char_ne_append {key chars : List Char} {before after : List ReferencePiece} :
    chars.map .char ≠ before ++ .reference key :: after := by
  intro h
  have hmem : ReferencePiece.reference key ∈ chars.map .char :=
    h ▸ List.mem_append_right _ List.mem_cons_self
  obtain ⟨c, -, hc⟩ := List.mem_map.mp hmem
  cases hc

theorem pieces_append (o : Occurrence) (after : List ReferencePiece) :
    o.pieces ++ after = o.gap.map .char ++ .reference o.key :: after := by
  rw [Occurrence.pieces, List.append_assoc, List.singleton_append]

/-- **Pieces come from one list of references.** -/
theorem flatMap_pieces_inj {tail tail' : List Char} :
    ∀ {found found' : List Occurrence},
      found.flatMap (·.pieces) ++ tail.map .char = found'.flatMap (·.pieces) ++ tail'.map .char →
      found = found' ∧ tail = tail'
  | [], [], h => by
    have hinj : Function.Injective ReferencePiece.char := fun _ _ => ReferencePiece.char.inj
    exact ⟨rfl, hinj.list_map h⟩
  | [], o :: found', h => by
    rw [List.flatMap_cons, List.append_assoc, pieces_append] at h
    exact absurd h map_char_ne_append
  | o :: found, [], h => by
    rw [List.flatMap_cons, List.append_assoc, pieces_append] at h
    exact absurd h.symm map_char_ne_append
  | ⟨gap, key⟩ :: found, ⟨gap', key'⟩ :: found', h => by
    rw [List.flatMap_cons, List.flatMap_cons, List.append_assoc, List.append_assoc, pieces_append,
      pieces_append] at h
    -- The first references agree, and with them taken off the others do.
    obtain ⟨rfl, rfl, hlater⟩ := map_char_append_inj h
    obtain ⟨rfl, rfl⟩ := flatMap_pieces_inj hlater
    exact ⟨rfl, rfl⟩

/-- **The matches in a text are determined.** -/
theorem Matches.unique {text tail tail' : List Char} {found found' : List Occurrence}
    (h : Matches text found tail) (h' : Matches text found' tail') :
    found = found' ∧ tail = tail' :=
  flatMap_pieces_inj (h.referencesFrom_eq.symm.trans h'.referencesFrom_eq)

/-! ### The order of keys -/

/-- **The values of a list, each one once, in the order in which they first appear.** -/
structure InOrderOfAppearance (all listed : List String) : Prop where
  nodup : listed.Nodup
  mem_iff : ∀ key, key ∈ listed ↔ key ∈ all
  ordered : listed.Pairwise fun earlier later => all.idxOf earlier < all.idxOf later

/-- A value that has been listed is passed over, and a new one comes last. -/
theorem eraseDups_concat (all : List String) (last : String) :
    (all ++ [last]).eraseDups = if last ∈ all then all.eraseDups else all.eraseDups ++ [last] := by
  rw [List.eraseDups_append]
  by_cases h : last ∈ all
  · have hnone : [last].removeAll all = [] := by simp [List.removeAll, h]
    rw [hnone, if_pos h]
    exact List.append_nil _
  · have hkept : [last].removeAll all = [last] := by simp [List.removeAll, h]
    rw [hkept, if_neg h]
    rfl

/-- **Leaving out repetitions keeps the order in which members appear first.** -/
theorem inOrderOfAppearance_eraseDups (all : List String) :
    InOrderOfAppearance all all.eraseDups := by
  refine ⟨nodup_eraseDups all, fun key => List.mem_eraseDups, ?_⟩
  -- Value by value: what has been listed keeps its place, and a new value first appears behind it.
  induction all using List.reverseRecOn with
  | nil => exact List.Pairwise.nil
  | append_singleton all last ih =>
    have hsame : ∀ key ∈ all, (all ++ [last]).idxOf key = all.idxOf key :=
      fun key hkey => List.idxOf_append_of_mem hkey
    have hlisted : all.eraseDups.Pairwise fun earlier later =>
        (all ++ [last]).idxOf earlier < (all ++ [last]).idxOf later := by
      refine ih.imp_of_mem fun {earlier later} hearlier hlater hlt => ?_
      rw [hsame earlier (List.mem_eraseDups.mp hearlier),
        hsame later (List.mem_eraseDups.mp hlater)]
      exact hlt
    rw [eraseDups_concat]
    split
    · exact hlisted
    · next hnew =>
      refine List.pairwise_append.mpr ⟨hlisted, List.pairwise_singleton _ _, ?_⟩
      intro earlier hearlier later hlater
      have hmem := List.mem_eraseDups.mp hearlier
      rw [List.mem_singleton.mp hlater, hsame earlier hmem, List.idxOf_append_of_notMem hnew]
      exact Nat.lt_add_right _ (List.idxOf_lt_length_of_mem hmem)

/-! ### What is read off the matches -/

/-- A text is its gaps and references, and what is left behind them. -/
theorem Matches.eq_flatMap {text tail : List Char} {found : List Occurrence}
    (h : Matches text found tail) :
    text = found.flatMap (fun o => o.gap ++ (reservationPrefix.toList ++ o.key)) ++ tail := by
  induction h with
  | done => rfl
  | @found gap key rest tail others _ _ _ _ _ ih =>
    rw [List.flatMap_cons, List.append_assoc, ← ih]
    simp

/-- **The keys of a text are those of its matches.** -/
theorem Matches.reservedKeys_eq {text : String} {found : List Occurrence} {tail : List Char}
    (h : Matches text.toList found tail) : reservedKeys text = (found.map (·.name)).eraseDups := by
  have hchars : ∀ chars : List Char, (chars.map ReferencePiece.char).filterMap (·.key?) = [] := by
    intro chars
    rw [List.filterMap_map]
    exact List.filterMap_eq_nil_iff.mpr fun _ _ => rfl
  -- Only references have keys, and each match has one reference.
  have hone : ∀ o : Occurrence, o.pieces.filterMap (·.key?) = [o.name] := by
    intro o
    rw [Occurrence.pieces, List.filterMap_append, hchars]
    rfl
  have hall : (found.flatMap (·.pieces)).filterMap (·.key?) = found.map (·.name) := by
    rw [List.filterMap_flatMap, List.map_eq_flatMap]
    exact List.flatMap_congr fun o _ => hone o
  rw [reservedKeys, references, h.referencesFrom_eq, List.filterMap_append, hchars, hall, List.append_nil]

/-- **The references of a text are replaced, and nothing else is.** -/
theorem Matches.toList_substitute {text : String} {found : List Occurrence} {tail : List Char}
    (h : Matches text.toList found tail) (table : Record String) :
    (substitute table text).toList =
      found.flatMap (fun o => o.gap ++ (assetValue table o.name).toList) ++ tail := by
  -- A match is written as its gap and the value of its key.
  have hone : ∀ o : Occurrence, written (assetValue table) o.pieces =
      o.gap ++ (assetValue table o.name).toList := by
    intro o
    rw [Occurrence.pieces, written_append, written_map_char]
    exact congrArg (o.gap ++ ·) (List.append_nil _)
  have hall : written (assetValue table) (found.flatMap (·.pieces)) =
      found.flatMap fun o => o.gap ++ (assetValue table o.name).toList := by
    rw [written, List.flatMap_assoc]
    exact List.flatMap_congr fun o _ => hone o
  calc (substitute table text).toList
      = written (assetValue table) (references text) := by
        rw [substitute, String.toList_ofList, written]
    _ = _ := by rw [references, h.referencesFrom_eq, written_append, hall, written_map_char]

/-- The table in which each key of a text has its own reference. -/
def ownReferences (text : String) : Record String :=
  Record.ofList ((reservedKeys text).map fun key => (key, reservationPrefix ++ key))

/-- The table of own references gives each key back as it stood in the text. -/
theorem assetValue_ownReferences {text key : String} (h : key ∈ reservedKeys text) :
    assetValue (ownReferences text) key = reservationPrefix ++ key := by
  rw [assetValue, ownReferences, Record.get?_ofList_map, if_pos h, Option.getD_some]

/-- **How the references of a text are read:** there is one way to find them, and the list of keys
and the text with values put in both follow it. -/
structure ReadsReferences (text : String) (found : List Occurrence) (tail : List Char) : Prop where
  isCut : Matches text.toList found tail
  unique : ∀ found' tail', Matches text.toList found' tail' → found' = found ∧ tail' = tail
  keys : InOrderOfAppearance (found.map (·.name)) (reservedKeys text)
  replaces : ∀ table, (substitute table text).toList =
    found.flatMap (fun o => o.gap ++ (assetValue table o.name).toList) ++ tail
  own : substitute (ownReferences text) text = text
  agree : ∀ table other, (∀ key ∈ reservedKeys text, assetValue table key = assetValue other key) →
    substitute table text = substitute other text

/-- **Every text is read in one way.** Its references are the leftmost, longest ones; all their keys
are listed; and putting values in touches the references and nothing else. -/
theorem exists_readsReferences (text : String) :
    ∃ found tail, ReadsReferences text found tail := by
  obtain ⟨found, tail, hcut⟩ := exists_matches text.toList
  have hlisted : ∀ o ∈ found, o.name ∈ reservedKeys text := by
    intro o ho
    rw [hcut.reservedKeys_eq, List.mem_eraseDups]
    exact List.mem_map_of_mem ho
  refine ⟨found, tail, hcut, fun _ _ h => h.unique hcut, ?_, hcut.toList_substitute, ?_, ?_⟩
  · rw [hcut.reservedKeys_eq]
    exact inOrderOfAppearance_eraseDups _
  · -- With its own reference for each key, what is written is what has been read.
    refine String.toList_inj.mp ?_
    calc (substitute (ownReferences text) text).toList
        = found.flatMap (fun o => o.gap ++ (assetValue (ownReferences text) o.name).toList) ++
            tail := hcut.toList_substitute _
      _ = found.flatMap (fun o => o.gap ++ (reservationPrefix.toList ++ o.key)) ++ tail := by
        refine congrArg (· ++ tail) (List.flatMap_congr fun o ho => ?_)
        rw [assetValue_ownReferences (hlisted o ho), String.toList_append, Occurrence.name,
          String.toList_ofList]
      _ = text.toList := hcut.eq_flatMap.symm
  · intro table other hagree
    refine String.toList_inj.mp ?_
    -- Both tables write the same at every match, and the gaps are left as they are.
    rw [hcut.toList_substitute, hcut.toList_substitute]
    refine congrArg (· ++ tail) (List.flatMap_congr fun o ho => ?_)
    rw [hagree o.name (hlisted o ho)]

/-- A second prefix belongs to the key that it stands in. -/
example : reservedKeys (reservationPrefix ++ "a" ++ reservationPrefix ++ "b") =
    ["a" ++ reservationPrefix ++ "b"] := by
  decide +kernel

end DesignCompiler
