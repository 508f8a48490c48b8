import DesignCompiler.Proofs.Asset.Survival
import DesignCompiler.Proofs.Text.Tame
import DesignCompiler.Text.Quote
import Mathlib.Data.List.Infix
/-!
# References in a text made of parts

Generated code is put together from parts, some of them fixed and some of them free. A reference in
it need not lie in one of the parts: the prefix could begin in one and go on in the next, and a key
could go on where it should have ended. This file is about the seams.

* `Cites P text` — every reference in the text has a key with the property `P`;
* `Leads P text` — whatever comes behind the text, no reference without the property begins in it.

What leads can be put in front of what leads (`Leads.append`), so a text is cut into parts that lead
on their own. A fixed part leads if no suffix of it is the beginning of a prefix (`Inert`). A free text
that does not hold the prefix leads together with a character behind it that is not in the prefix
(`Settles`), and one with references in it together with a character that is in no key
(`leads_closed`).
-/

namespace DesignCompiler

variable {P : String → Prop}

/-! ### Texts and their references -/

/-- **All references of a text have keys with a property.** -/
def Cites (P : String → Prop) (text : List Char) : Prop :=
  ∀ key, .reference key ∈ referencesFrom 0 text → P (String.ofList key)

/-- **The references of a text have a property exactly if all its keys have it.** -/
theorem cites_iff {text : String} : Cites P text.toList ↔ ∀ key ∈ reservedKeys text, P key := by
  -- The keys of a text are those of its references, without repetition.
  constructor
  · intro h key hkey
    rw [reservedKeys, List.mem_eraseDups, List.mem_filterMap] at hkey
    obtain ⟨piece, hpiece, hkey⟩ := hkey
    cases piece with
    | char c => cases hkey
    | reference chars =>
      cases hkey
      exact h chars hpiece
  · intro h key hkey
    refine h _ ?_
    rw [reservedKeys, List.mem_eraseDups, List.mem_filterMap]
    exact ⟨_, hkey, rfl⟩

theorem cites_nil : Cites P [] := fun _ h => absurd h List.not_mem_nil

/-- **A character that is in no key parts a text,** and both sides are looked at on their own. -/
theorem cites_append_cons {c : Char} (hc : isKeyChar c = false) {before after : List Char} :
    Cites P (before ++ c :: after) ↔ Cites P before ∧ Cites P after := by
  simp only [Cites, referencesFrom_append_cons hc, List.mem_append, List.mem_cons, reduceCtorEq,
    false_or, or_imp, forall_and]

/-- A text in which no prefix begins, not even one that goes on in the rest, adds no reference. -/
theorem Cites.behind {text rest : List Char} (hrest : Cites P rest)
    (h : ∀ before after, text = before ++ after → after ≠ [] →
      ¬ reservationPrefix.toList <+: after ++ rest) : Cites P (text ++ rest) := by
  -- No reference begins in the text in front, so the reader passes over it one character at a time.
  induction text with
  | nil => exact hrest
  | cons c text ih =>
    have hnone : leadingKey? (c :: (text ++ rest)) = none := by
      unfold leadingKey?
      rw [if_neg]
      exact fun hbegins => h [] (c :: text) rfl (List.cons_ne_nil _ _)
        (List.isPrefixOf_iff_prefix.mp hbegins)
    intro key hkey
    rw [List.cons_append, referencesFrom_char hnone, List.mem_cons] at hkey
    refine ih (fun before after htext hafter => ?_) key (hkey.resolve_left (by simp))
    exact h (c :: before) after (by rw [htext, List.cons_append]) hafter

/-- A text without the prefix has no references. -/
theorem cites_of_not_holdsPrefix {text : String} (h : ¬ HoldsPrefix text) :
    Cites P text.toList := by
  rw [← List.append_nil text.toList]
  refine cites_nil.behind fun before after htext _ hbegins => ?_
  rw [List.append_nil] at hbegins
  exact h (hbegins.isInfix.trans ⟨before, [], by rw [htext, List.append_nil]⟩)

/-! ### Parts that lead -/

/-- **No reference without the property begins in a text,** whatever comes behind it. -/
def Leads (P : String → Prop) (text : String) : Prop :=
  ∀ rest, Cites P rest → Cites P (text.toList ++ rest)

theorem Leads.cites {text : String} (h : Leads P text) : Cites P text.toList := by
  have hempty := h [] cites_nil
  rwa [List.append_nil] at hempty

theorem leads_empty : Leads P "" := fun _ h => h

/-- **What leads in front of what leads, leads.** -/
theorem Leads.append {a b : String} (ha : Leads P a) (hb : Leads P b) : Leads P (a ++ b) := by
  intro rest hrest
  rw [String.toList_append, List.append_assoc]
  exact ha _ (hb _ hrest)

/-- Texts that lead do so one behind the other. -/
theorem leads_join {texts : List String} (h : ∀ text ∈ texts, Leads P text) :
    Leads P (String.join texts) := by
  induction texts with
  | nil => exact leads_empty
  | cons text rest ih =>
    obtain ⟨htext, hrest⟩ := List.forall_mem_cons.mp h
    rw [String.join_cons]
    exact htext.append (ih hrest)

theorem leads_intercalate {joiner : String} (hjoiner : Leads P joiner) {texts : List String}
    (h : ∀ text ∈ texts, Leads P text) : Leads P (joiner.intercalate texts) :=
  intercalate_of_append leads_empty Leads.append hjoiner h

/-! ### Fixed parts -/

/-- **No prefix can begin in a text:** where its first letter is, the text does not go on with the
prefix, not even up to the end. -/
def Inert (text : String) : Prop :=
  ∀ after ∈ text.toList.tails, after.head? = some 'w' →
    ¬ reservationPrefix.toList <+: after ∧ ¬ after <+: reservationPrefix.toList

instance : DecidablePred Inert := fun text =>
  inferInstanceAs (Decidable (∀ after ∈ text.toList.tails, after.head? = some 'w' →
    ¬ reservationPrefix.toList <+: after ∧ ¬ after <+: reservationPrefix.toList))

/-- What the prefix begins begins with its first letter. -/
theorem head?_of_begins {after rest : List Char} (hafter : after ≠ [])
    (h : reservationPrefix.toList <+: after ++ rest) : after.head? = some 'w' := by
  have hfirst : reservationPrefix.toList = 'w' :: reservationPrefix.toList.tail := rfl
  obtain ⟨c, after, rfl⟩ := List.exists_cons_of_ne_nil hafter
  rw [hfirst, List.cons_append, List.cons_prefix_cons] at h
  rw [List.head?_cons, h.1]

/-- An inert text has no part in any reference, so it leads. -/
theorem Inert.leads {text : String} (h : Inert text) : Leads P text := by
  intro rest hrest
  refine hrest.behind fun before after htext hafter hbegins => ?_
  have htail := (List.mem_tails _ _).mpr ⟨before, htext.symm⟩
  obtain ⟨hwhole, hpart⟩ := h after htail (head?_of_begins hafter hbegins)
  -- The prefix ends within the suffix, or beyond it.
  rcases List.prefix_or_prefix_of_prefix hbegins (List.prefix_append after rest) with h | h
  · exact hwhole h
  · exact hpart h

/-- A text without the first letter of the prefix is inert. -/
theorem inert_of_not_mem {text : String} (h : 'w' ∉ text.toList) : Inert text := by
  intro after hafter hhead
  obtain ⟨rest, rfl⟩ := List.head?_eq_some_iff.mp hhead
  exact absurd (((List.mem_tails _ _).mp hafter).mem List.mem_cons_self) h

/-! ### Free parts -/

/-- A text that begins with a character that is not in the prefix. -/
def Parts (text : String) : Prop :=
  text.toList.head?.any (!reservationPrefix.toList.contains ·) = true

instance : DecidablePred Parts := fun _ => inferInstanceAs (Decidable (_ = true))

/-- A text that begins with a character that is in no key. -/
def Closes (text : String) : Prop := text.toList.head?.any (!isKeyChar ·) = true

instance : DecidablePred Closes := fun _ => inferInstanceAs (Decidable (_ = true))

/-- A text whose first character is such and such has a first character. -/
theorem exists_of_any_head? {p : Char → Bool} {text : String}
    (h : text.toList.head?.any p = true) : ∃ c rest, text.toList = c :: rest ∧ p c = true := by
  obtain ⟨c, hc, hp⟩ := (Option.any_eq_true _ _).mp h
  obtain ⟨rest, htext⟩ := List.head?_eq_some_iff.mp hc
  exact ⟨c, rest, htext, hp⟩

/-- A text that parts begins with a character that is not in the prefix. -/
theorem Parts.exists_cons {text : String} (h : Parts text) :
    ∃ c rest, text.toList = c :: rest ∧ c ∉ reservationPrefix.toList := by
  obtain ⟨c, rest, htext, hc⟩ := exists_of_any_head? h
  exact ⟨c, rest, htext, by simpa using hc⟩

/-- A text that closes begins with a character that is in no key. -/
theorem Closes.exists_cons {text : String} (h : Closes text) :
    ∃ c rest, text.toList = c :: rest ∧ isKeyChar c = false := by
  obtain ⟨c, rest, htext, hc⟩ := exists_of_any_head? h
  exact ⟨c, rest, htext, by simpa using hc⟩

/-- Whether a text parts depends on how it begins. -/
theorem Parts.append {a : String} (h : Parts a) (b : String) : Parts (a ++ b) := by
  obtain ⟨c, rest, ha, hc⟩ := h.exists_cons
  rw [Parts, String.toList_append, ha]
  simpa using hc

/-- So does whether it closes. -/
theorem Closes.append {a : String} (h : Closes a) (b : String) : Closes (a ++ b) := by
  obtain ⟨c, rest, ha, hc⟩ := h.exists_cons
  rw [Closes, String.toList_append, ha]
  simpa using hc

/-- What begins a text with a character in it that it does not have begins the part before. -/
theorem prefix_of_prefix_append_cons {begin before after : List Char} {c : Char} (hc : c ∉ begin)
    (h : begin <+: before ++ c :: after) : begin <+: before := by
  rcases List.prefix_or_prefix_of_prefix h (List.prefix_append before (c :: after)) with h' | h'
  · exact h'
  · -- The character would come next in what begins the text.
    obtain ⟨more, rfl⟩ := h'
    rw [List.prefix_append_right_inj] at h
    cases more with
    | nil => rw [List.append_nil]
    | cons d more =>
      rw [List.cons_prefix_cons] at h
      exact absurd (List.mem_append_right _ (h.1 ▸ List.mem_cons_self)) hc

/-- **A text that leads** in front of a character that is not in the prefix. -/
def Settles (P : String → Prop) (text : String) : Prop :=
  ∀ next, Parts next → Leads P next → Leads P (text ++ next)

theorem Leads.settles {text : String} (h : Leads P text) : Settles P text :=
  fun _ _ hnext => h.append hnext

/-- What leads in front of what settles, settles. -/
theorem Settles.append {a b : String} (ha : Leads P a) (hb : Settles P b) :
    Settles P (a ++ b) := by
  intro next hparts hnext
  rw [String.append_assoc]
  exact ha.append (hb next hparts hnext)

/-- **A free text without the prefix** settles. -/
theorem settles_of_not_holdsPrefix {text : String} (htext : ¬ HoldsPrefix text) :
    Settles P text := by
  intro next hnext h rest hrest
  obtain ⟨c, others, hbegins, hc⟩ := hnext.exists_cons
  rw [String.toList_append, List.append_assoc]
  refine (h rest hrest).behind fun before after hparts _ hstarts => ?_
  rw [hbegins, List.cons_append] at hstarts
  have hafter := prefix_of_prefix_append_cons hc hstarts
  exact htext (hafter.isInfix.trans ⟨before, [], by rw [hparts, List.append_nil]⟩)

/-- The prefix has a slash in it. -/
theorem not_holdsPrefix_of_not_mem {text : String} (h : '/' ∉ text.toList) : ¬ HoldsPrefix text :=
  fun hholds => h (hholds.subset (show '/' ∈ reservationPrefix.toList by decide))

/-- Nothing in a tame text can end a prefix. -/
theorem Tame.not_holdsPrefix {text : String} (h : Tame text) : ¬ HoldsPrefix text :=
  not_holdsPrefix_of_not_mem (h.not_mem (by decide))

theorem Tame.settles {text : String} (h : Tame text) : Settles P text :=
  settles_of_not_holdsPrefix h.not_holdsPrefix

/-- **The name of a value leads.** Its colon could be that of a prefix, but for the space behind. -/
theorem Tame.leads_label {name : String} (h : Tame name) : Leads P (name ++ ": ") := by
  have hslash : '/' ∉ (name ++ ":").toList := by
    rw [String.toList_append, List.mem_append, not_or]
    exact ⟨h.not_mem (by decide), by decide⟩
  have hspace := settles_of_not_holdsPrefix (P := P) (not_holdsPrefix_of_not_mem hslash) " "
    (by decide) (Inert.leads (by decide))
  rwa [String.append_assoc] at hspace

/-- **A text with its references closed** leads in front of a character that is in no key. -/
theorem leads_closed {text next : String} (htext : Cites P text.toList) (hnext : Closes next)
    (h : Leads P next) : Leads P (text ++ next) := by
  intro rest hrest
  obtain ⟨c, others, hbegins, hc⟩ := hnext.exists_cons
  have hbehind := h rest hrest
  rw [hbegins, List.cons_append, ← List.nil_append (_ :: _), cites_append_cons hc] at hbehind
  rw [String.toList_append, List.append_assoc, hbegins, List.cons_append, cites_append_cons hc]
  exact ⟨htext, hbehind.2⟩

end DesignCompiler
