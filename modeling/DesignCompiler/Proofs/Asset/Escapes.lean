import DesignCompiler.Proofs.Asset.Seams
/-!
# References in escaped texts

The outputs escape what they put in quotes or into markup, each in its own way. What they have in
common is `Escaping`: a character stays as it is, or in its place comes one that is not in the prefix,
with no letter after it that the prefix begins with. So escaping spells no prefix anew
(`Escaping.not_holdsPrefix`), and a source whose key is made of characters that stay is written as it
is (`Clean.escape`).
-/

namespace DesignCompiler

variable {P : String → Prop}

/-! ### Sources -/

/-- A character of keys that all outputs write as it is. -/
def isBareKeyChar (c : Char) : Bool := isKeyChar c && c != '&' && c != '$' && 32 ≤ c.toNat

theorem isKeyChar_of_bare {c : Char} (h : isBareKeyChar c = true) : isKeyChar c = true := by
  simp only [isBareKeyChar, Bool.and_eq_true] at h
  exact h.1.1.1

/-- The characters of the prefix are bare. -/
theorem prefix_bare : ∀ c ∈ reservationPrefix.toList, isBareKeyChar c = true := by
  have hall : reservationPrefix.toList.all isBareKeyChar = true := by decide +kernel
  exact List.all_eq_true.mp hall

/-- **A text as it comes with a design:** it does not hold the prefix, or it is a reference under a
bare key with the property. -/
def Clean (P : String → Prop) (text : String) : Prop :=
  ¬ HoldsPrefix text ∨ ∃ key, text = reservationPrefix ++ key ∧
    (∀ c ∈ key.toList, isBareKeyChar c = true) ∧ (key ≠ "" → P key)

/-- **A clean text has no references but those with the property:** none at all, or its own. -/
theorem Clean.cites {text : String} (h : Clean P text) : Cites P text.toList := by
  rcases h with h | ⟨key, rfl, hkey, hP⟩
  · exact cites_of_not_holdsPrefix h
  · by_cases hempty : key = ""
    · -- The prefix by itself is too short for a reference.
      have hshort : (reservationPrefix ++ key).toList.length ≤ reservationPrefix.toList.length := by
        rw [hempty, String.append_empty]
      intro other hother
      rw [referencesFrom_of_length_le hshort, List.mem_map] at hother
      obtain ⟨_, -, hother⟩ := hother
      cases hother
    · -- A reference with bare characters is read as a whole, and there is nothing behind it.
      have hne : key.toList ≠ [] := fun hnil => hempty (String.toList_eq_nil_iff.mp hnil)
      have hwhole := referencesFrom_reference hne (fun c hc => isKeyChar_of_bare (hkey c hc))
        endsKey_nil
      intro other hother
      rw [String.toList_append, ← List.append_nil key.toList, hwhole, List.mem_cons] at hother
      rcases hother with hother | hother
      · cases hother
        rw [String.ofList_toList]
        exact hP hempty
      · exact absurd hother List.not_mem_nil

/-! ### Escapes -/

/-- **A way of escaping that keeps references apart.** -/
structure Escaping (escape : Char → List Char) : Prop where
  apart : ∀ c, escape c = [c] ∨ ∃ d rest, escape c = d :: rest ∧
    d ∉ reservationPrefix.toList ∧ 'w' ∉ rest
  bare : ∀ c, isBareKeyChar c = true → escape c = [c]

/-- What a bare character of a key is not. -/
theorem ne_of_bare {c d : Char} (hc : isBareKeyChar c = true) (hd : isBareKeyChar d = false) :
    c ≠ d := by
  rintro rfl
  rw [hc] at hd
  cases hd

/-- A control character is escaped with a backslash in front. -/
theorem exists_scriptEscape_control {c : Char} (h : c.toNat < 32) :
    ∃ rest, scriptEscape c = '\\' :: rest ∧ 'w' ∉ rest := by
  have hall : ∀ n : Fin 32, (scriptEscape (Char.ofNat n)).head? = some '\\' ∧
      'w' ∉ (scriptEscape (Char.ofNat n)).tail := by decide
  have hc := hall ⟨c.toNat, h⟩
  rw [Char.ofNat_toNat] at hc
  obtain ⟨rest, heq⟩ := List.head?_eq_some_iff.mp hc.1
  rw [heq, List.tail_cons] at hc
  exact ⟨rest, heq, hc.2⟩

/-- Of the others, only the quote and the backslash are escaped. -/
theorem scriptEscape_visible {c : Char} (h : 32 ≤ c.toNat) (hquote : c ≠ '"') (hslash : c ≠ '\\') :
    scriptEscape c = [c] := by
  unfold scriptEscape
  rw [if_neg (by simpa using hquote), if_neg (by simpa using hslash)]
  repeat rw [if_neg (by omega)]

/-- **Escaping for scripts keeps references apart.** What is escaped begins with a backslash. -/
theorem escaping_script : Escaping scriptEscape where
  apart c := by
    have hslash : '\\' ∉ reservationPrefix.toList := by decide
    -- The control characters are escaped, and of the visible ones the quote and the backslash.
    rcases Nat.lt_or_ge c.toNat 32 with hcontrol | hvisible
    · obtain ⟨rest, heq, hrest⟩ := exists_scriptEscape_control hcontrol
      exact Or.inr ⟨'\\', rest, heq, hslash, hrest⟩
    by_cases hc : c = '"' ∨ c = '\\'
    · rcases hc with rfl | rfl
      · exact Or.inr ⟨'\\', ['"'], rfl, hslash, by decide⟩
      · exact Or.inr ⟨'\\', ['\\'], rfl, hslash, by decide⟩
    · obtain ⟨hquote, hback⟩ := not_or.mp hc
      exact Or.inl (scriptEscape_visible hvisible hquote hback)
  bare c hc := by
    have hvisible : 32 ≤ c.toNat := by
      simp only [isBareKeyChar, Bool.and_eq_true, decide_eq_true_eq] at hc
      exact hc.2
    exact scriptEscape_visible hvisible
      (ne_of_bare hc (show isBareKeyChar '"' = false by decide))
      (ne_of_bare hc (show isBareKeyChar '\\' = false by decide))

/-- **Escaping for Dart keeps references apart.** -/
theorem escaping_dart : Escaping dartEscape where
  apart c := by
    have hslash : '\\' ∉ reservationPrefix.toList := by decide
    -- Each of the four escapes has a backslash in front of a character that is not in the prefix.
    unfold dartEscape
    split_ifs
    · exact Or.inr ⟨'\\', ['\\'], rfl, hslash, by decide⟩
    · exact Or.inr ⟨'\\', ['"'], rfl, hslash, by decide⟩
    · exact Or.inr ⟨'\\', ['$'], rfl, hslash, by decide⟩
    · exact Or.inr ⟨'\\', ['n'], rfl, hslash, by decide⟩
    · exact Or.inl rfl
  bare c hc := by
    have hslash := ne_of_bare hc (show isBareKeyChar '\\' = false by decide)
    have hquote := ne_of_bare hc (show isBareKeyChar '"' = false by decide)
    have hdollar := ne_of_bare hc (show isBareKeyChar '$' = false by decide)
    have hfeed := ne_of_bare hc (show isBareKeyChar '\n' = false by decide)
    simp [dartEscape, hslash, hquote, hdollar, hfeed]

/-- **Escaping for markup keeps references apart.** What is escaped begins with an ampersand. -/
theorem escaping_markup : Escaping markupEscape where
  apart c := by
    have hamp : '&' ∉ reservationPrefix.toList := by decide
    -- Each of the four escapes ends at its semicolon, which is not in the prefix either.
    unfold markupEscape
    split_ifs
    · exact Or.inr ⟨'&', ['a', 'm', 'p', ';'], rfl, hamp, by decide⟩
    · exact Or.inr ⟨'&', ['l', 't', ';'], rfl, hamp, by decide⟩
    · exact Or.inr ⟨'&', ['g', 't', ';'], rfl, hamp, by decide⟩
    · exact Or.inr ⟨'&', ['q', 'u', 'o', 't', ';'], rfl, hamp, by decide⟩
    · exact Or.inl rfl
  bare c hc := by
    have hamp := ne_of_bare hc (show isBareKeyChar '&' = false by decide)
    have hless := ne_of_bare hc (show isBareKeyChar '<' = false by decide)
    have hgreater := ne_of_bare hc (show isBareKeyChar '>' = false by decide)
    have hquote := ne_of_bare hc (show isBareKeyChar '"' = false by decide)
    simp [markupEscape, hamp, hless, hgreater, hquote]

namespace Escaping

variable {escape : Char → List Char} (h : Escaping escape)
include h

/-- Characters of the prefix that begin an escaped text begin the text. -/
theorem prefix_of_prefix {chars : List Char} :
    ∀ {text : List Char}, (∀ c ∈ chars, c ∈ reservationPrefix.toList) →
      chars <+: text.flatMap escape → chars <+: text := by
  -- Letter by letter: a letter of the prefix is not escaped, so it stands in the text as well.
  induction chars with
  | nil => exact fun _ _ => List.nil_prefix
  | cons k chars ih =>
    intro text hchars hbegins
    cases text with
    | nil => exact absurd (List.prefix_nil.mp hbegins) (List.cons_ne_nil _ _)
    | cons c text =>
      rw [List.flatMap_cons] at hbegins
      rcases h.apart c with hc | ⟨d, rest, hc, hd, -⟩
      · rw [hc, List.singleton_append, List.cons_prefix_cons] at hbegins
        obtain ⟨rfl, hbegins⟩ := hbegins
        exact List.cons_prefix_cons.mpr
          ⟨rfl, ih (fun e he => hchars e (List.mem_cons_of_mem _ he)) hbegins⟩
      · -- What comes in the place of a character is none of the prefix.
        rw [hc, List.cons_append, List.cons_prefix_cons] at hbegins
        exact absurd (hbegins.1 ▸ hchars k List.mem_cons_self) hd

omit h in
/-- The prefix does not begin where its first letter is not. -/
theorem infix_of_infix_append {skipped text : List Char} (hskipped : 'w' ∉ skipped)
    (hholds : reservationPrefix.toList <:+: skipped ++ text) :
    reservationPrefix.toList <:+: text := by
  induction skipped with
  | nil => exact hholds
  | cons c skipped ih =>
    rw [List.mem_cons, not_or] at hskipped
    rcases List.infix_cons_iff.mp hholds with hbegins | hholds
    · have hfirst := head?_of_begins (List.cons_ne_nil c skipped) hbegins
      exact absurd (Option.some.inj hfirst).symm hskipped.1
    · exact ih hskipped.2 hholds

/-- **Escaping spells no prefix anew.** -/
theorem not_holdsPrefix {text : String} (htext : ¬ HoldsPrefix text) :
    ¬ HoldsPrefix (escapeWith escape text) := by
  have hletter : 'w' ∈ reservationPrefix.toList := by decide
  rw [HoldsPrefix, toList_escapeWith]
  rw [HoldsPrefix] at htext
  generalize text.toList = chars at htext
  intro hholds
  refine htext ?_
  clear htext
  -- Where the prefix stands in what is written, it does not go over an escape, so it stands in the
  -- text.
  induction chars with
  | nil => exact hholds
  | cons c chars ih =>
    rw [List.flatMap_cons] at hholds
    rcases h.apart c with hc | ⟨d, rest, hc, hd, hrest⟩
    · rw [hc, List.singleton_append] at hholds
      rcases List.infix_cons_iff.mp hholds with hbegins | hholds
      · have hwhole : reservationPrefix.toList <+: (c :: chars).flatMap escape := by
          rwa [List.flatMap_cons, hc, List.singleton_append]
        exact (h.prefix_of_prefix (fun _ => id) hwhole).isInfix
      · exact List.infix_cons (ih hholds)
    · have hskipped : 'w' ∉ escape c := by
        rw [hc]
        exact List.not_mem_cons_of_ne_of_not_mem (fun hsame => hd (hsame ▸ hletter)) hrest
      exact List.infix_cons (ih (infix_of_infix_append hskipped hholds))

/-- A text of bare characters is written as it is. -/
theorem escape_bare {text : String} (htext : ∀ c ∈ text.toList, isBareKeyChar c = true) :
    escapeWith escape text = text := by
  have hsame : ∀ c ∈ text.toList, escape c = [c] := fun c hc => h.bare c (htext c hc)
  rw [escapeWith, List.flatMap_congr hsame, List.flatMap_singleton', String.ofList_toList]

end Escaping

/-- **An escaped text is as clean as it was.** -/
theorem Clean.escape {escape : Char → List Char} (hescape : Escaping escape) {text : String}
    (h : Clean P text) : Clean P (escapeWith escape text) := by
  rcases h with h | ⟨key, rfl, hkey, hP⟩
  · exact Or.inl (hescape.not_holdsPrefix h)
  · have hwhole : ∀ c ∈ (reservationPrefix ++ key).toList, isBareKeyChar c = true := by
      rw [String.toList_append]
      exact List.forall_mem_append.mpr ⟨prefix_bare, hkey⟩
    exact Or.inr ⟨key, hescape.escape_bare hwhole, hkey, hP⟩

/-! ### Quotes -/

/-- Quotes are not in the prefix. -/
theorem not_holdsPrefix_quoted {text : String} (h : ¬ HoldsPrefix text) :
    ¬ HoldsPrefix ("\"" ++ text ++ "\"") := by
  have hletter : 'w' ∈ reservationPrefix.toList := by decide
  intro hholds
  rw [HoldsPrefix, String.toList_append, String.toList_append] at hholds
  have hkeys : EndsKey "\"".toList := endsKey_cons.mpr (by decide)
  rcases infix_of_infix_append prefix_isKeyChar hkeys hholds with hholds | hholds
  · exact h (Escaping.infix_of_infix_append (by decide) hholds)
  · exact absurd (hholds.subset hletter) (by decide)

/-- **A text in quotes leads,** since quotes are in no key. -/
theorem leads_inQuotes {text : String} (h : Cites P text.toList) : Leads P (inQuotes text) := by
  have hopen : Leads P "\"" := Inert.leads (by decide)
  rw [inQuotes, String.append_assoc]
  exact hopen.append (leads_closed h (by decide) hopen)

theorem Clean.leads_scriptQuoted {text : String} (h : Clean P text) :
    Leads P (scriptQuoted text) :=
  leads_inQuotes (h.escape escaping_script).cites

theorem Clean.leads_dartQuoted {text : String} (h : Clean P text) : Leads P (dartQuoted text) :=
  leads_inQuotes (h.escape escaping_dart).cites

end DesignCompiler
