import DesignCompiler.Proofs.Style.Legible
import DesignCompiler.Style.Sheet
import Mathlib.Data.String.Basic
/-!
# The canonical text of a legible style determines it

The pairs of a style are written in their order with semicolons in between. Cut at the semicolons,
the text falls into *pieces*: one for each plain pair, and several for a free text that holds
semicolons itself. The pieces before the free text are found from the front, since its own first
piece is the first one that starts with its property. Those after it are found from the end: its
companion is next to it in the order of properties, so the last piece that starts with the companion
is where they begin. What is left in between is the free text.

* `Css.sortedPairs_eq_iff` — the pairs in order stand for the set of pairs;
* `Css.canonicalKey_eq_iff` — equal texts of legible styles mean equal sets of pairs;
* `StyleDeclaration.shareKey_eq_iff` — the same for declarations with their tags.
-/

namespace DesignCompiler

/-! ### The order of pairs -/

namespace Css

theorem pairLe_iff {p q : String × String} :
    pairLe p q = true ↔ p.1 < q.1 ∨ p.1 = q.1 ∧ p.2 ≤ q.2 := by
  simp [pairLe]

theorem pairLe_total (p q : String × String) : (pairLe p q || pairLe q p) = true := by
  rw [Bool.or_eq_true, pairLe_iff, pairLe_iff]
  -- Pairs are compared by property, and by value where the properties agree.
  rcases lt_trichotomy p.1 q.1 with h | h | h
  · exact Or.inl (Or.inl h)
  · rcases le_total p.2 q.2 with h' | h'
    · exact Or.inl (Or.inr ⟨h, h'⟩)
    · exact Or.inr (Or.inr ⟨h.symm, h'⟩)
  · exact Or.inr (Or.inl h)

theorem pairLe_trans (p q r : String × String) (hpq : pairLe p q = true)
    (hqr : pairLe q r = true) : pairLe p r = true := by
  rw [pairLe_iff] at *
  rcases hpq with hpq | ⟨hpq, hpq'⟩
  · rcases hqr with hqr | ⟨hqr, -⟩
    · exact Or.inl (hpq.trans hqr)
    · exact Or.inl (hqr ▸ hpq)
  · rcases hqr with hqr | ⟨hqr, hqr'⟩
    · exact Or.inl (hpq ▸ hqr)
    · exact Or.inr ⟨hpq.trans hqr, hpq'.trans hqr'⟩

theorem pairLe_antisymm {p q : String × String} (hpq : pairLe p q = true)
    (hqp : pairLe q p = true) : p = q := by
  rw [pairLe_iff] at hpq hqp
  rcases hpq with hpq | ⟨hpq, hpq'⟩
  · rcases hqp with hqp | ⟨hqp, -⟩
    · exact absurd hqp hpq.not_gt
    · exact absurd hqp hpq.ne'
  · rcases hqp with hqp | ⟨-, hqp'⟩
    · exact absurd hpq hqp.ne'
    · exact Prod.ext hpq (le_antisymm hpq' hqp')

variable {c d : Css}

theorem sortedPairs_perm (c : Css) : c.sortedPairs.Perm c.toList := List.mergeSort_perm _ _

theorem pairwise_sortedPairs (c : Css) :
    c.sortedPairs.Pairwise fun p q => pairLe p q = true :=
  List.pairwise_mergeSort pairLe_trans pairLe_total _

theorem nodup_keys_sortedPairs (c : Css) : (c.sortedPairs.map Prod.fst).Nodup :=
  (c.sortedPairs_perm.map Prod.fst).nodup_iff.mpr c.keys_nodup

/-- **The pairs in order** are the same just where the sets of pairs are. -/
theorem sortedPairs_eq_iff :
    c.sortedPairs = d.sortedPairs ↔ ∀ p, p ∈ c.toList ↔ p ∈ d.toList := by
  constructor
  · intro h p
    rw [← c.sortedPairs_perm.mem_iff, h, d.sortedPairs_perm.mem_iff]
  · intro h
    -- Sorting two orders of one set of pairs gives one list, since the order is total.
    have hperm : c.toList.Perm d.toList :=
      (List.perm_ext_iff_of_nodup c.keys_nodup.of_map d.keys_nodup.of_map).mpr h
    refine List.Perm.eq_of_pairwise (fun p q _ _ => pairLe_antisymm) c.pairwise_sortedPairs
      d.pairwise_sortedPairs ?_
    exact c.sortedPairs_perm.trans (hperm.trans d.sortedPairs_perm.symm)

end Css

/-! ### Pieces -/

/-- A pair as it is written in a canonical text. -/
def piece (d : String × String) : List Char := d.1.toList ++ ':' :: d.2.toList

/-- Whether a text starts as the piece of a property does. -/
def StartsWith (property : String) (text : List Char) : Prop :=
  property.toList ++ [':'] <+: text

/-- In two ways to cut a list at its first item of a kind, the cut is at the same place. -/
theorem append_cons_inj_of_first {α : Type} {p : α → Prop} {b b' : α} (hb : p b) (hb' : p b')
    {as as' cs cs' : List α} (has : ∀ a ∈ as, ¬ p a) (has' : ∀ a ∈ as', ¬ p a)
    (h : as ++ b :: cs = as' ++ b' :: cs') : as = as' ∧ b = b' ∧ cs = cs' := by
  -- Both cuts move along together until one of them comes to its item.
  induction as generalizing as' with
  | nil =>
    cases as' with
    | nil => exact ⟨rfl, by simpa using h⟩
    | cons a' as' =>
      obtain ⟨rfl, -⟩ : b = a' ∧ cs = as' ++ b' :: cs' := by simpa using h
      exact absurd hb (has' _ List.mem_cons_self)
  | cons a as ih =>
    cases as' with
    | nil =>
      obtain ⟨rfl, -⟩ : a = b' ∧ as ++ b :: cs = cs' := by simpa using h
      exact absurd hb' (has _ List.mem_cons_self)
    | cons a' as' =>
      obtain ⟨rfl, htail⟩ : a = a' ∧ as ++ b :: cs = as' ++ b' :: cs' := by simpa using h
      obtain ⟨rfl, hrest⟩ := ih (fun a ha => has a (List.mem_cons_of_mem _ ha))
        (fun a ha => has' a (List.mem_cons_of_mem _ ha)) htail
      exact ⟨rfl, hrest⟩

/-- The same for the last item of a kind. -/
theorem append_cons_inj_of_last {α : Type} {p : α → Prop} {b b' : α} (hb : p b) (hb' : p b')
    {as as' cs cs' : List α} (hcs : ∀ c ∈ cs, ¬ p c) (hcs' : ∀ c ∈ cs', ¬ p c)
    (h : as ++ b :: cs = as' ++ b' :: cs') : as = as' ∧ b = b' ∧ cs = cs' := by
  -- Seen from the end, the last item of a kind is the first.
  have hreverse : cs.reverse ++ b :: as.reverse = cs'.reverse ++ b' :: as'.reverse := by
    simpa using congrArg List.reverse h
  obtain ⟨hcs, hb, has⟩ := append_cons_inj_of_first hb hb'
    (fun c hc => hcs c (List.mem_reverse.mp hc)) (fun c hc => hcs' c (List.mem_reverse.mp hc))
    hreverse
  exact ⟨List.reverse_injective has, hb, List.reverse_injective hcs⟩

/-- A text up to a first separator and the rest are known from the whole. -/
theorem append_separator_inj {separator : Char} {a a' b b' : List Char} (ha : separator ∉ a)
    (ha' : separator ∉ a') (h : a ++ separator :: b = a' ++ separator :: b') : a = a' ∧ b = b' := by
  obtain ⟨h, -, h'⟩ := append_cons_inj_of_first (p := (· = separator)) rfl rfl
    (fun c hc e => ha (e ▸ hc)) (fun c hc e => ha' (e ▸ hc)) h
  exact ⟨h, h'⟩

/-- The first colon of a piece ends its name when names hold none. -/
theorem piece_inj {d e : String × String} (hd : ':' ∉ d.1.toList) (he : ':' ∉ e.1.toList)
    (h : piece d = piece e) : d = e := by
  obtain ⟨hkey, hvalue⟩ := append_separator_inj hd he h
  exact Prod.ext (String.toList_injective hkey) (String.toList_injective hvalue)

/-- A piece starts with its own property and with no other. -/
theorem startsWith_piece {property : String} {d : String × String} (hp : ':' ∉ property.toList)
    (hd : ':' ∉ d.1.toList) : StartsWith property (piece d) ↔ d.1 = property := by
  constructor
  · rintro ⟨rest, h⟩
    rw [List.append_assoc, List.singleton_append] at h
    exact String.toList_injective (append_separator_inj hp hd h).1.symm
  · intro h
    refine ⟨d.2.toList, ?_⟩
    rw [List.append_assoc, List.singleton_append, ← h]
    rfl

/-- A beginning without separators stays whole when a text is cut. -/
theorem splitOn_append {separator : Char} {start : List Char} (h : separator ∉ start)
    (rest : List Char) : ∃ first others,
      (start ++ rest).splitOn separator = (start ++ first) :: others := by
  induction start with
  | nil =>
    -- The first piece of the rest is what the beginning is put in front of.
    obtain ⟨first, others, h⟩ := List.exists_cons_of_ne_nil (List.splitOn_ne_nil separator rest)
    exact ⟨first, others, h⟩
  | cons c start ih =>
    rw [List.mem_cons, not_or] at h
    obtain ⟨first, others, hrest⟩ := ih h.2
    refine ⟨first, others, ?_⟩
    rw [List.cons_append, List.splitOn_cons_eq_if_modifyHead, hrest,
      if_neg fun e => h.1 (beq_iff_eq.mp e).symm]
    rfl

/-- Cutting a joined text cuts what it was joined from. -/
theorem splitOn_intercalate_flatMap {separator : Char} {texts : List (List Char)}
    (h : texts ≠ []) : ([separator].intercalate texts).splitOn separator =
      texts.flatMap (·.splitOn separator) := by
  induction texts with
  | nil => exact absurd rfl h
  | cons text rest ih =>
    cases rest with
    | nil => simp
    | cons next rest =>
      rw [List.flatMap_cons, List.intercalate_cons_cons, List.append_assoc,
        List.singleton_append, List.splitOn_append_cons_self, ih (List.cons_ne_nil _ _)]

/-! ### Reading a legible style -/

/-- **Declarations that can be told apart:** the marks that stand between pairs, and between a
property and its value, are in none of them, but for colons in values. -/
def Separable (ds : Declarations) : Prop :=
  ∀ d ∈ ds, (':' ∉ d.1.toList ∧ ';' ∉ d.1.toList) ∧ Plain d.2

namespace Css

/-- The pieces of a canonical text. -/
def pieces (css : Css) : List (List Char) :=
  css.sortedPairs.flatMap fun d => (piece d).splitOn ';'

/-- The key is the pieces of the sorted declarations, joined by semicolons. -/
theorem toList_canonicalKey (css : Css) :
    css.canonicalKey.toList = [';'].intercalate (css.sortedPairs.map piece) := by
  rw [canonicalKey, String.toList_intercalate, List.map_map]
  refine congrArg _ (List.map_congr_left fun d _ => ?_)
  simp [piece]

/-- **The pieces are known from the text.** A text without pieces is that of the empty record. -/
theorem pieces_eq (css : Css) :
    css.pieces =
      if css.canonicalKey.toList = [] then [] else css.canonicalKey.toList.splitOn ';' := by
  rw [toList_canonicalKey, pieces]
  cases h : css.sortedPairs with
  | nil => rfl
  | cons d rest =>
    -- A pair is written with a colon at least, so the text of some pairs is not empty.
    have hne : [';'].intercalate ((d :: rest).map piece) ≠ [] := by
      cases rest <;> simp [piece]
    rw [if_neg hne, splitOn_intercalate_flatMap (by simp), List.flatMap_map]

end Css

variable {f : FreeText}

/-- Neither mark of the canonical text is in a name. -/
theorem IsHyphenated.marks_not_mem {name : String} (h : IsHyphenated name) :
    ':' ∉ name.toList ∧ ';' ∉ name.toList :=
  ⟨h.neat.tame.not_mem (by decide), h.neat.tame.not_mem (by decide)⟩

/-- The names of plain properties hold neither colon nor semicolon. -/
theorem marks_not_mem_known {property : String} (h : property ∈ plainProperties) :
    ':' ∉ property.toList ∧ ';' ∉ property.toList :=
  (isHyphenated_of_mem _ h).marks_not_mem

theorem marks_not_mem_property (f : FreeText) : ':' ∉ f.property.toList ∧ ';' ∉ f.property.toList :=
  f.isHyphenated_property.marks_not_mem

/-- What a free text is declared with is plain. -/
theorem companion_mem (f : FreeText) : f.companion ∈ plainProperties := by
  cases f <;> decide

/-- In the order of properties nothing comes between a free text and its companion. -/
theorem companion_adjacent (f : FreeText) : f.property < f.companion ∧
    ∀ property ∈ plainProperties, ¬ (f.property < property ∧ property < f.companion) := by
  cases f <;> decide +kernel

namespace Separable

variable {ds : Declarations}

/-- Each pair is one piece. -/
theorem flatMap_splitOn (h : Separable ds) :
    ds.flatMap (fun d => (piece d).splitOn ';') = ds.map piece := by
  rw [List.map_eq_flatMap]
  refine List.flatMap_congr fun d hd => List.splitOn_eq_singleton fun hmem => ?_
  obtain ⟨⟨-, hname⟩, hplain⟩ := h d hd
  rcases List.mem_append.mp hmem with hmem | hmem
  · exact hname hmem
  · rcases List.mem_cons.mp hmem with hmem | hmem
    · exact absurd hmem (by decide)
    · exact hplain hmem

/-- Pairs are known from their pieces. -/
theorem map_piece_inj {es : Declarations} (hds : Separable ds) (hes : Separable es)
    (h : ds.map piece = es.map piece) : ds = es := by
  induction ds generalizing es with
  | nil => exact (List.map_eq_nil_iff.mp h.symm).symm
  | cons d ds ih =>
    cases es with
    | nil => exact absurd h (by simp)
    | cons e es =>
      rw [List.map_cons, List.map_cons, List.cons.injEq] at h
      have hde := piece_inj (hds d List.mem_cons_self).1.1 (hes e List.mem_cons_self).1.1 h.1
      rw [hde, ih (fun d hd => hds d (List.mem_cons_of_mem _ hd))
        (fun e he => hes e (List.mem_cons_of_mem _ he)) h.2]

end Separable

namespace AllPlain

variable {ds : Declarations}

/-- Plain declarations are cut apart at the marks. -/
theorem separable (h : AllPlain ds) : Separable ds := fun d hd =>
  ⟨marks_not_mem_known (h d hd).1, (h d hd).2⟩

/-- No plain pair starts with the property of a free text. -/
theorem not_startsWith (h : AllPlain ds) : ∀ text ∈ ds.map piece, ¬ StartsWith f.property text := by
  intro text htext hstarts
  obtain ⟨d, hd, rfl⟩ := List.mem_map.mp htext
  obtain ⟨hknown, -⟩ := h d hd
  have hproperty := (startsWith_piece (marks_not_mem_property f).1
    (marks_not_mem_known hknown).1).mp hstarts
  exact f.property_not_mem (hproperty ▸ hknown)

end AllPlain

namespace Css

/-- A declared property has its value among the sorted declarations. -/
theorem exists_mem_sortedPairs {css : Css} {property : String} (h : property ∈ css.keys) :
    ∃ value, (property, value) ∈ css.sortedPairs := by
  obtain ⟨d, hd, rfl⟩ := List.mem_map.mp h
  exact ⟨d.2, css.sortedPairs_perm.mem_iff.mpr hd⟩

/-- The pairs other than the free text are plain. -/
theorem allPlain_of_legible {css : Css} (h : Legible f css.toList) {ds : Declarations}
    (hds : ∀ d ∈ ds, d ∈ css.sortedPairs ∧ d.1 ≠ f.property) : AllPlain ds := by
  intro d hd
  obtain ⟨hmem, hne⟩ := hds d hd
  exact h.plain d (css.sortedPairs_perm.mem_iff.mp hmem) hne

/-- **A style with a free text in the order of its pairs:** its companion comes right after it. -/
structure FreeForm (f : FreeText) (css : Css) where
  before : Declarations
  value : String
  companion : String
  after : Declarations
  sorted : css.sortedPairs =
    before ++ (f.property, value) :: (f.companion, companion) :: after
  plain_before : AllPlain before
  plain_after : AllPlain ((f.companion, companion) :: after)
  last : ∀ d ∈ after, d.1 ≠ f.companion

/-- Two pairs of a list without a second pair of their keys, and all the others. -/
theorem ne_of_mem_others {before between after : Declarations} {a b : String × String}
    (h : ((before ++ a :: (between ++ b :: after)).map Prod.fst).Nodup) :
    ∀ d ∈ before ++ between ++ after, d.1 ≠ a.1 ∧ d.1 ≠ b.1 := by
  -- With the two in front, no key repeats one that stands before it.
  have hperm : (before ++ a :: (between ++ b :: after)).Perm
      (a :: b :: (before ++ between ++ after)) := by
    refine List.perm_middle.trans (.cons _ ?_)
    rw [← List.append_assoc]
    exact List.perm_middle
  have hkeys := (hperm.map Prod.fst).nodup_iff.mp h
  simp only [List.map_cons, List.nodup_cons, List.mem_cons, not_or] at hkeys
  obtain ⟨⟨-, ha⟩, hb, -⟩ := hkeys
  intro d hd
  have hkey := List.mem_map_of_mem (f := Prod.fst) hd
  exact ⟨fun heq => ha (heq ▸ hkey), fun heq => hb (heq ▸ hkey)⟩

/-- The companion of a free text comes after it, since its property is the greater one. -/
theorem exists_sortedPairs_eq {css : Css} (h : Legible f css.toList)
    (hfree : f.property ∈ css.keys) : ∃ before value between companion after,
      css.sortedPairs =
        before ++ (f.property, value) :: (between ++ (f.companion, companion) :: after) := by
  obtain ⟨value, hvalue⟩ := exists_mem_sortedPairs hfree
  obtain ⟨companion, hcompanion⟩ := exists_mem_sortedPairs (h.companion hfree)
  obtain ⟨before, rest, hsorted⟩ := List.append_of_mem hvalue
  have hlt := (companion_adjacent f).1
  have horder := css.pairwise_sortedPairs
  rw [hsorted] at horder hcompanion
  have hbefore := (List.pairwise_append.mp horder).2.2
  have hrest : (f.companion, companion) ∈ rest := by
    rcases List.mem_append.mp hcompanion with hmem | hmem
    · -- Then the companion would be at most the free text.
      have hle := hbefore _ hmem _ List.mem_cons_self
      rw [pairLe_iff] at hle
      exact absurd hlt (hle.elim (fun hlt' => hlt'.not_gt) fun heq => heq.1.not_gt)
    · exact (List.mem_cons.mp hmem).resolve_left fun heq => hlt.ne' (congrArg Prod.fst heq)
  obtain ⟨between, after, rfl⟩ := List.append_of_mem hrest
  exact ⟨before, value, between, companion, after, hsorted⟩

/-- **A legible style with a free text** has that form. -/
theorem nonempty_freeForm {css : Css} (h : Legible f css.toList) (hfree : f.property ∈ css.keys) :
    Nonempty (FreeForm f css) := by
  obtain ⟨before, value, between, companion, after, hsorted⟩ := exists_sortedPairs_eq h hfree
  obtain ⟨hlt, hbetween⟩ := companion_adjacent f
  have hmem : ∀ d ∈ css.sortedPairs, d.1 ≠ f.property → d.1 ∈ plainProperties ∧ Plain d.2 :=
    fun d hd => h.plain d (css.sortedPairs_perm.mem_iff.mp hd)
  have hnodup := css.nodup_keys_sortedPairs
  have horder := css.pairwise_sortedPairs
  rw [hsorted] at hmem hnodup horder
  have hother := ne_of_mem_others hnodup
  have hplain : ∀ d ∈ before ++ between ++ after, d.1 ∈ plainProperties ∧ Plain d.2 := by
    intro d hd
    refine hmem d ?_ (hother d hd).1
    simp only [List.mem_append, List.mem_cons] at hd ⊢
    tauto
  have hcompanionPlain := hmem (f.companion, companion) (by simp) hlt.ne'
  -- A pair in between would have its property between the two, and no plain property is there.
  have hnone : between = [] := by
    refine List.eq_nil_iff_forall_not_mem.mpr fun d hd => ?_
    have hdOther : d ∈ before ++ between ++ after :=
      List.mem_append_left _ (List.mem_append_right _ hd)
    have hrest := List.pairwise_cons.mp (List.pairwise_append.mp horder).2.1
    have hfrom := hrest.1 d (List.mem_append_left _ hd)
    have hto := (List.pairwise_append.mp hrest.2).2.2 d hd _ List.mem_cons_self
    rw [pairLe_iff] at hfrom hto
    exact hbetween d.1 (hplain d hdOther).1
      ⟨hfrom.resolve_right fun heq => (hother d hdOther).1 heq.1.symm,
        hto.resolve_right fun heq => (hother d hdOther).2 heq.1⟩
  subst hnone
  rw [List.append_nil] at hother hplain
  exact ⟨{
    before, value, companion, after
    sorted := hsorted
    plain_before := fun d hd => hplain d (List.mem_append_left _ hd)
    plain_after := allPlain_cons.mpr
      ⟨hcompanionPlain, fun d hd => hplain d (List.mem_append_right _ hd)⟩
    last := fun d hd => (hother d (List.mem_append_right _ hd)).2 }⟩

/-- The pieces of a style with a free text: those of the plain pairs, with those of the free text in
between, of which the first starts with its property. -/
theorem FreeForm.pieces {css : Css} (r : FreeForm f css) :
    ∃ first others, (piece (f.property, r.value)).splitOn ';' = first :: others ∧
      StartsWith f.property first ∧
      css.pieces = r.before.map piece ++
        first :: (others ++ piece (f.companion, r.companion) :: r.after.map piece) := by
  -- Its own beginning has no semicolon, so it stays whole in the first piece.
  have hstart : ';' ∉ f.property.toList ++ [':'] := by
    rw [List.mem_append, not_or]
    exact ⟨(marks_not_mem_property f).2, by decide⟩
  obtain ⟨first, others, hsplit⟩ := splitOn_append hstart r.value.toList
  have hpiece : piece (f.property, r.value) =
      (f.property.toList ++ [':']) ++ r.value.toList := by
    simp [piece]
  refine ⟨_, others, by rw [hpiece, hsplit], ⟨first, rfl⟩, ?_⟩
  rw [Css.pieces, r.sorted, List.flatMap_append, r.plain_before.separable.flatMap_splitOn,
    List.flatMap_cons, r.plain_after.separable.flatMap_splitOn, hpiece, hsplit]
  rfl

/-- Without the free property every declaration is plain. -/
theorem allPlain_of_no_free {css : Css} (h : Legible f css.toList) (hfree : f.property ∉ css.keys) :
    AllPlain css.sortedPairs :=
  allPlain_of_legible h fun _ hd =>
    ⟨hd, fun heq => hfree (heq ▸ List.mem_map_of_mem (css.sortedPairs_perm.mem_iff.mp hd))⟩

/-- A style has its free text or not, and the pieces tell which. -/
theorem free_mem_keys_iff {css : Css} (h : Legible f css.toList) :
    f.property ∈ css.keys ↔ ∃ text ∈ css.pieces, StartsWith f.property text := by
  constructor
  · intro hfree
    obtain ⟨r⟩ := nonempty_freeForm h hfree
    obtain ⟨first, others, -, hstarts, hpieces⟩ := r.pieces
    have hfirst : first ∈ css.pieces := by
      rw [hpieces]
      exact List.mem_append_right _ List.mem_cons_self
    exact ⟨first, hfirst, hstarts⟩
  · rintro ⟨text, htext, hstarts⟩
    -- Plain declarations alone have no piece that starts like the free property.
    by_contra hfree
    have hplain := allPlain_of_no_free h hfree
    rw [pieces, hplain.separable.flatMap_splitOn] at htext
    exact hplain.not_startsWith text htext hstarts

/-- Two styles with free texts are read from the front, from the end, and what is left. -/
theorem FreeForm.sortedPairs_eq {c d : Css} (r : FreeForm f c) (s : FreeForm f d)
    (h : c.pieces = d.pieces) : c.sortedPairs = d.sortedPairs := by
  obtain ⟨first, others, hsplit, hstarts, hpieces⟩ := r.pieces
  obtain ⟨first', others', hsplit', hstarts', hpieces'⟩ := s.pieces
  rw [hpieces, hpieces'] at h
  -- From the front: the first piece that starts with the property of the free text.
  obtain ⟨hbefore, hfirst, hrest⟩ := append_cons_inj_of_first hstarts hstarts'
    r.plain_before.not_startsWith s.plain_before.not_startsWith h
  have hcolon := (marks_not_mem_known (companion_mem f)).1
  have hcompanion : ∀ value, StartsWith f.companion (piece (f.companion, value)) :=
    fun value => (startsWith_piece (d := (f.companion, value)) hcolon hcolon).mpr rfl
  have hlast : ∀ {ds : Declarations}, AllPlain ds → (∀ d ∈ ds, d.1 ≠ f.companion) →
      ∀ text ∈ ds.map piece, ¬ StartsWith f.companion text := by
    intro ds hplain hne text htext hstarts
    obtain ⟨d, hd, rfl⟩ := List.mem_map.mp htext
    exact hne d hd ((startsWith_piece hcolon (marks_not_mem_known (hplain d hd).1).1).mp hstarts)
  have hafterPlain := (allPlain_cons.mp r.plain_after).2
  have hafterPlain' := (allPlain_cons.mp s.plain_after).2
  -- From the end: the last piece that starts with the companion.
  obtain ⟨hothers, hcompanions, hafter⟩ := append_cons_inj_of_last
    (hcompanion r.companion) (hcompanion s.companion) (hlast hafterPlain r.last)
    (hlast hafterPlain' s.last) hrest
  -- What is left in between, joined again, is the free text.
  have hvalue : piece (f.property, r.value) = piece (f.property, s.value) := by
    have hjoin : ∀ text : List Char, [';'].intercalate (text.splitOn ';') = text :=
      fun _ => List.intercalate_splitOn ';'
    rw [← hjoin (piece (f.property, r.value)), hsplit, hfirst, hothers, ← hsplit', hjoin]
  have hfree := (marks_not_mem_property f).1
  have hpair : (f.property, r.value) = (f.property, s.value) := piece_inj hfree hfree hvalue
  have hcompanionPair : (f.companion, r.companion) = (f.companion, s.companion) :=
    piece_inj hcolon hcolon hcompanions
  rw [r.sorted, s.sorted,
    r.plain_before.separable.map_piece_inj s.plain_before.separable hbefore, hpair, hcompanionPair,
    hafterPlain.separable.map_piece_inj hafterPlain'.separable hafter]

/-- **Legible styles with the same pieces** have the same pairs. -/
theorem sortedPairs_of_pieces {c d : Css} (hc : Legible f c.toList) (hd : Legible f d.toList)
    (h : c.pieces = d.pieces) : c.sortedPairs = d.sortedPairs := by
  -- Both declare the free property or neither does.
  by_cases hfree : f.property ∈ c.keys
  · have hfree' : f.property ∈ d.keys := by
      rw [free_mem_keys_iff hd, ← h]
      exact (free_mem_keys_iff hc).mp hfree
    obtain ⟨r⟩ := nonempty_freeForm hc hfree
    obtain ⟨s⟩ := nonempty_freeForm hd hfree'
    exact r.sortedPairs_eq s h
  · have hfree' : f.property ∉ d.keys := by
      rw [free_mem_keys_iff hd, ← h]
      exact fun hsome => hfree ((free_mem_keys_iff hc).mpr hsome)
    have hcplain := allPlain_of_no_free hc hfree
    have hdplain := allPlain_of_no_free hd hfree'
    rw [pieces, pieces, hcplain.separable.flatMap_splitOn, hdplain.separable.flatMap_splitOn] at h
    exact hcplain.separable.map_piece_inj hdplain.separable h

/-- **The canonical text of a legible style** stands for its set of pairs. -/
theorem canonicalKey_eq_iff {c d : Css} (hc : Legible f c.toList) (hd : Legible f d.toList) :
    c.canonicalKey = d.canonicalKey ↔ ∀ p, p ∈ c.toList ↔ p ∈ d.toList := by
  rw [← sortedPairs_eq_iff]
  constructor
  · intro h
    refine sortedPairs_of_pieces hc hd ?_
    rw [pieces_eq, pieces_eq, h]
  · intro h
    rw [canonicalKey, canonicalKey, h]

end Css

/-! ### Declarations -/

namespace StyleDeclaration

/-- **Two declarations are alike** if they are for one tag and set the same, in whatever order. -/
def Alike (c d : StyleDeclaration) : Prop :=
  c.htmlTag = d.htmlTag ∧ ∀ p, p ∈ c.style.toList ↔ p ∈ d.style.toList

/-- A declaration that stands for the style of a chain. -/
def Declares (d : StyleDeclaration) (c : Chain) : Prop :=
  d.htmlTag = c.element.start.name ∧ c.css? = some d.style

/-- No tag holds the bar that stands behind it in a key. -/
theorem bar_not_mem_htmlTag (w : Widget) : '|' ∉ w.element.start.name.toList := by
  have hleaf : ∀ tag ∈ leafTags, '|' ∉ tag.toList := by decide
  induction w using Widget.induction with
  | leaf key style leaf => exact hleaf _ (mem_leafTags key.originName leaf)
  | box => exact (by decide : '|' ∉ "div".toList)
  | wrap key style wrapper child ih => exact ih

/-- **The share key is exact** on declarations for chains: it is the same for those that are alike,
and for no others. -/
theorem shareKey_eq_iff {c d : StyleDeclaration} {b e : Chain} (hc : c.Declares b)
    (hd : d.Declares e) : c.shareKey = d.shareKey ↔ c.Alike d := by
  have hcBar : '|' ∉ c.htmlTag.toList := hc.1 ▸ bar_not_mem_htmlTag b.head
  have hdBar : '|' ∉ d.htmlTag.toList := hd.1 ▸ bar_not_mem_htmlTag e.head
  have hlist : ∀ d : StyleDeclaration, d.shareKey.toList =
      d.htmlTag.toList ++ '|' :: d.style.canonicalKey.toList := by
    intro d
    simp [shareKey]
  have hcLegible := hc.1 ▸ Chain.legible_css hc.2
  have hdLegible := hd.1 ▸ Chain.legible_css hd.2
  constructor
  · intro h
    have htext := congrArg String.toList h
    rw [hlist, hlist] at htext
    -- The tag has no bar in it, so the first bar ends it.
    obtain ⟨htag, hkey⟩ := append_separator_inj hcBar hdBar htext
    have htag := String.toList_injective htag
    rw [← htag] at hdLegible
    exact ⟨htag, (Css.canonicalKey_eq_iff hcLegible hdLegible).mp (String.toList_injective hkey)⟩
  · rintro ⟨htag, hpairs⟩
    rw [← htag] at hdLegible
    rw [shareKey, shareKey, htag, (Css.canonicalKey_eq_iff hcLegible hdLegible).mpr hpairs]

end StyleDeclaration

end DesignCompiler
