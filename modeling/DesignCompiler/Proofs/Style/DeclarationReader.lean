import DesignCompiler.Proofs.Text.Joined
import DesignCompiler.Style.Css
/-!
# Reading declarations

`readDeclarations` reads a style on one line as a browser does. A declaration ends at a semicolon
that is outside of double quotes and of parentheses (`Nesting`), its name ends at the first colon,
and blanks around a name and a value do not count.

Nothing in a style says how far a value goes but the value itself. It is read as it was written if
the reader stands outside again behind it and no declaration ends within it (`SelfDelimiting`). With
a semicolon outside, a value is read as less than was written; with an open quote or parenthesis at
its end, it swallows the semicolon behind it and is read as more. So a style is read back exactly if
each of its values delimits itself (`readDeclarations_inlinePairs_iff`).
-/

namespace DesignCompiler

/-! ### The reader -/

/-- **Where a reader of declarations stands:** in double quotes or not, and within how many
parentheses. -/
structure Nesting where
  quoted : Bool
  depth : Nat
deriving DecidableEq

namespace Nesting

/-- Neither in quotes nor in parentheses. -/
def outside : Nesting := ⟨false, 0⟩

/-- Where the reader stands behind a character. In quotes a parenthesis is text like any other. -/
def step (n : Nesting) (c : Char) : Nesting :=
  if c = '"' then ⟨!n.quoted, n.depth⟩
  else if n.quoted then n
  else if c = '(' then ⟨false, n.depth + 1⟩
  else if c = ')' then ⟨false, n.depth - 1⟩
  else n

/-- Whether a character ends a declaration. -/
def ends (n : Nesting) (c : Char) : Bool := c == ';' && n == outside

/-- Where the reader stands behind a text, if no declaration ends within it. -/
def behind? (n : Nesting) : List Char → Option Nesting
  | [] => some n
  | c :: rest => if n.ends c then none else (n.step c).behind? rest

end Nesting

/-- The texts of declarations: what is between the semicolons that end them. -/
def declarationTexts (n : Nesting) : List Char → List (List Char)
  | [] => [[]]
  | c :: rest =>
    if n.ends c then [] :: declarationTexts n rest
    else (declarationTexts (n.step c) rest).modifyHead (c :: ·)

/-- One declaration, if there is a colon in its text. -/
def readDeclaration? (text : List Char) : Option (String × String) :=
  match text.dropWhile (· != ':') with
  | [] => none
  | _ :: value =>
    some (String.ofList (trimBlanks (text.takeWhile (· != ':'))), String.ofList (trimBlanks value))

/-- **Reads declarations.** -/
def readDeclarations (text : List Char) : List (String × String) :=
  (declarationTexts .outside text).filterMap readDeclaration?

/-! ### Where declarations end -/

namespace Nesting

/-- A text is read through part by part. -/
theorem behind?_append (n : Nesting) (a b : List Char) :
    n.behind? (a ++ b) = (n.behind? a).bind (·.behind? b) := by
  induction a generalizing n with
  | nil => rfl
  | cons c a ih =>
    rw [List.cons_append, behind?, behind?]
    split
    · rfl
    · exact ih (n.step c)

/-- Characters that leave the reader where it stands do so one after the other. -/
theorem behind?_of_forall {n : Nesting} {text : List Char}
    (h : ∀ c ∈ text, n.step c = n ∧ n.ends c = false) : n.behind? text = some n := by
  induction text with
  | nil => rfl
  | cons c rest ih =>
    obtain ⟨⟨hstep, hends⟩, hrest⟩ := List.forall_mem_cons.mp h
    rw [behind?, if_neg (by simp [hends]), hstep, ih hrest]

/-- Where a declaration ends within a text, it does so first behind a beginning of it. -/
theorem exists_of_behind?_eq_none {n : Nesting} {a : List Char} (h : n.behind? a = none) :
    ∃ before after, a = before ++ ';' :: after ∧ n.behind? before = some outside := by
  induction a generalizing n with
  | nil => cases h
  | cons c a ih =>
    rw [behind?] at h
    -- Reading stops at the first semicolon outside; before that it goes on.
    split at h
    · next hends =>
      rw [ends, Bool.and_eq_true, beq_iff_eq, beq_iff_eq] at hends
      obtain ⟨rfl, rfl⟩ := hends
      exact ⟨[], a, rfl, rfl⟩
    · next hends =>
      obtain ⟨before, after, rfl, hbefore⟩ := ih h
      exact ⟨c :: before, after, rfl, by rw [behind?, if_neg hends, hbefore]⟩

end Nesting

theorem declarationTexts_ne_nil (n : Nesting) (text : List Char) :
    declarationTexts n text ≠ [] := by
  induction text generalizing n with
  | nil => simp [declarationTexts]
  | cons c rest ih =>
    rw [declarationTexts]
    split
    · simp
    · simpa using ih (n.step c)

/-- A text that no declaration ends in belongs to the first one. -/
theorem declarationTexts_append {n m : Nesting} {text : List Char} (h : n.behind? text = some m)
    (rest : List Char) :
    declarationTexts n (text ++ rest) = (declarationTexts m rest).modifyHead (text ++ ·) := by
  induction text generalizing n with
  | nil =>
    obtain rfl : n = m := Option.some.inj h
    rw [List.nil_append]
    cases declarationTexts n rest <;> rfl
  | cons c text ih =>
    rw [Nesting.behind?] at h
    -- Nothing ends within the text, so all of it goes in front of the first piece behind.
    split at h
    · cases h
    · next hends =>
      rw [List.cons_append, declarationTexts, if_neg hends, ih h, List.modifyHead_modifyHead]
      rfl

theorem declarationTexts_end (rest : List Char) :
    declarationTexts .outside (';' :: rest) = [] :: declarationTexts .outside rest := by
  rw [declarationTexts, if_pos (by decide)]

/-- **A value that delimits itself:** behind it the reader is outside again, and no declaration has
ended within it. -/
def SelfDelimiting (value : String) : Prop :=
  Nesting.outside.behind? value.toList = some .outside

instance : DecidablePred SelfDelimiting := fun value =>
  inferInstanceAs (Decidable (Nesting.outside.behind? value.toList = some .outside))

/-! ### Blanks around names and values -/

/-- **A text that neither begins nor ends with a blank.** -/
def Firm (text : String) : Prop :=
  (text.toList.head?.any (!isBlank ·)) = true ∧ (text.toList.getLast?.any (!isBlank ·)) = true

instance : DecidablePred Firm := fun _ => inferInstanceAs (Decidable (_ ∧ _))

/-- A firm text starts with a character that is no blank. -/
theorem Firm.exists_cons {text : String} (h : Firm text) :
    ∃ c rest, text.toList = c :: rest ∧ isBlank c = false := by
  obtain ⟨c, hc, hblank⟩ := (Option.any_eq_true _ _).mp h.1
  obtain ⟨rest, hrest⟩ := List.head?_eq_some_iff.mp hc
  exact ⟨c, rest, hrest, by simpa using hblank⟩

/-- A firm text ends with a character that is no blank. -/
theorem Firm.exists_concat {text : String} (h : Firm text) :
    ∃ rest c, text.toList = rest ++ [c] ∧ isBlank c = false := by
  obtain ⟨c, hc, hblank⟩ := (Option.any_eq_true _ _).mp h.2
  obtain ⟨rest, hrest⟩ := List.getLast?_eq_some_iff.mp hc
  exact ⟨rest, c, hrest, by simpa using hblank⟩

/-- A blank in front is trimmed. -/
theorem trimBlanks_space (text : List Char) : trimBlanks (' ' :: text) = trimBlanks text := by
  have hstart : trimStart ([' '] ++ text) = trimStart text :=
    trimStart_append_of_blank (List.forall_mem_singleton.mpr (by decide)) text
  exact congrArg trimEnd hstart

/-- A firm text in front of another keeps its beginning. -/
theorem Firm.trimStart_append {text : String} (h : Firm text) (rest : List Char) :
    trimStart (text.toList ++ rest) = text.toList ++ rest := by
  obtain ⟨c, tail, htext, hc⟩ := h.exists_cons
  rw [htext, List.cons_append, trimStart_cons_of_ne hc]

/-- A firm text is trimmed to itself. -/
theorem Firm.trimBlanks_eq {text : String} (h : Firm text) :
    trimBlanks text.toList = text.toList := by
  obtain ⟨rest, c, htext, hc⟩ := h.exists_concat
  have hstart := h.trimStart_append []
  rw [List.append_nil] at hstart
  rw [trimBlanks, hstart, htext, trimEnd_concat hc]

/-! ### One declaration -/

/-- The first colon ends the name. -/
theorem readDeclaration?_of_colon {name : List Char} (h : ':' ∉ name) (value : List Char) :
    readDeclaration? (name ++ ':' :: value) =
      some (String.ofList (trimBlanks name), String.ofList (trimBlanks value)) := by
  have hname : ∀ c ∈ name, (c != ':') = true := fun c hc => bne_iff_ne.mpr fun heq => h (heq ▸ hc)
  have hdrop : (name ++ ':' :: value).dropWhile (· != ':') = ':' :: value := by
    rw [List.dropWhile_append_of_pos hname]
    simp
  have htake : (name ++ ':' :: value).takeWhile (· != ':') = name := by
    rw [List.takeWhile_append_of_pos hname]
    simp
  rw [readDeclaration?, hdrop, htake]

/-- A blank between declarations is not read. -/
theorem readDeclaration?_space (text : List Char) :
    readDeclaration? (' ' :: text) = readDeclaration? text := by
  have hdrop : (' ' :: text).dropWhile (· != ':') = text.dropWhile (· != ':') := by simp
  have htake : (' ' :: text).takeWhile (· != ':') = ' ' :: text.takeWhile (· != ':') := by simp
  rw [readDeclaration?, readDeclaration?, hdrop, htake, trimBlanks_space]

/-- A space in front is passed over. -/
theorem readDeclarations_space (text : List Char) :
    readDeclarations (' ' :: text) = readDeclarations text := by
  obtain ⟨first, others, htext⟩ := List.exists_cons_of_ne_nil
    (declarationTexts_ne_nil .outside text)
  have hspace : declarationTexts .outside ([' '] ++ text) =
      (declarationTexts .outside text).modifyHead ([' '] ++ ·) :=
    declarationTexts_append (by decide) text
  rw [List.singleton_append, htext] at hspace
  rw [readDeclarations, readDeclarations, hspace, htext, List.modifyHead_cons,
    List.filterMap_cons, List.filterMap_cons, List.singleton_append, readDeclaration?_space]

/-- **A declaration whose name can be read,** and whose value has no blanks at its ends. -/
structure Nameable (d : String × String) : Prop where
  no_colon : ':' ∉ d.1.toList
  firm_name : Firm d.1
  delimiting : SelfDelimiting d.1
  firm : Firm d.2

namespace Nameable

variable {d : String × String} (h : Nameable d)
include h

/-- The name and its colon are read through without opening anything. -/
theorem behind?_name : Nesting.outside.behind? (d.1.toList ++ [':', ' ']) = some .outside := by
  have hname : Nesting.outside.behind? d.1.toList = some .outside := h.delimiting
  rw [Nesting.behind?_append, hname]
  rfl

/-- What is read of a name with some text behind it that is taken for its value. -/
theorem readDeclaration?_eq (value : List Char) :
    readDeclaration? (d.1.toList ++ [':', ' '] ++ value) =
      some (d.1, String.ofList (trimBlanks value)) := by
  rw [List.append_assoc, List.cons_append, List.singleton_append,
    readDeclaration?_of_colon h.no_colon, h.firm_name.trimBlanks_eq, trimBlanks_space,
    String.ofList_toList]

/-- **Where the value delimits itself,** the declaration is read, and the reader goes on behind. -/
theorem readDeclarations_of_selfDelimiting (hvalue : SelfDelimiting d.2) (rest : List Char) :
    readDeclarations ((Css.declaration d.1 d.2).toList ++ rest) = d :: readDeclarations rest := by
  have hbehind : Nesting.outside.behind? (d.1.toList ++ [':', ' '] ++ d.2.toList) =
      some .outside := by
    rw [Nesting.behind?_append, h.behind?_name]
    exact hvalue
  have htext : (Css.declaration d.1 d.2).toList ++ rest =
      d.1.toList ++ [':', ' '] ++ d.2.toList ++ ';' :: rest := by
    simp [Css.declaration]
  rw [readDeclarations, htext, declarationTexts_append hbehind, declarationTexts_end,
    List.modifyHead_cons, List.append_nil, List.filterMap_cons, h.readDeclaration?_eq,
    h.firm.trimBlanks_eq, String.ofList_toList]
  rfl

/-- The texts of declarations from a name on. -/
theorem declarationTexts_eq (value rest : List Char) :
    declarationTexts .outside (d.1.toList ++ [':', ' '] ++ value ++ rest) =
      (declarationTexts .outside (value ++ rest)).modifyHead (d.1.toList ++ [':', ' '] ++ ·) := by
  rw [List.append_assoc, declarationTexts_append h.behind?_name]

/-- Where a declaration ends within the value, less is read than was written. -/
theorem exists_shorter (hvalue : Nesting.outside.behind? d.2.toList = none) (rest : List Char) :
    ∃ value others, value ≠ d.2 ∧
      readDeclarations ((Css.declaration d.1 d.2).toList ++ rest) = (d.1, value) :: others := by
  obtain ⟨before, after, hsplit, hbefore⟩ := Nesting.exists_of_behind?_eq_none hvalue
  have htext : (Css.declaration d.1 d.2).toList ++ rest =
      d.1.toList ++ [':', ' '] ++ before ++ ';' :: (after ++ ';' :: rest) := by
    simp [Css.declaration, hsplit]
  refine ⟨String.ofList (trimBlanks before), readDeclarations (after ++ ';' :: rest), ?_, ?_⟩
  · -- What is left of the value is shorter than the value.
    intro heq
    have hlength := (trimBlanks_sublist before).length_le
    rw [← String.toList_ofList (l := trimBlanks before), heq, hsplit, List.length_append,
      List.length_cons] at hlength
    omega
  · rw [readDeclarations, htext, h.declarationTexts_eq, declarationTexts_append hbefore,
      declarationTexts_end, List.modifyHead_cons, List.modifyHead_cons, List.append_nil,
      List.filterMap_cons, h.readDeclaration?_eq]
    rfl

/-- Where quotes or parentheses are left open, the semicolon is read as a part of the value. -/
theorem exists_longer {n : Nesting} (hvalue : Nesting.outside.behind? d.2.toList = some n)
    (hne : n ≠ .outside) (rest : List Char) :
    ∃ value others, value ≠ d.2 ∧
      readDeclarations ((Css.declaration d.1 d.2).toList ++ rest) = (d.1, value) :: others := by
  have htext : (Css.declaration d.1 d.2).toList ++ rest =
      d.1.toList ++ [':', ' '] ++ d.2.toList ++ ';' :: rest := by
    simp [Css.declaration]
  have hends : n.ends ';' = false := by simpa [Nesting.ends] using hne
  obtain ⟨first, others, hrest⟩ := List.exists_cons_of_ne_nil
    (declarationTexts_ne_nil (n.step ';') rest)
  refine ⟨String.ofList (trimBlanks (d.2.toList ++ ';' :: first)),
    others.filterMap readDeclaration?, ?_, ?_⟩
  · -- The semicolon that ends the declaration is read as part of the value.
    intro heq
    have hlength := congrArg (fun text : String => text.toList.length) heq
    rw [String.toList_ofList, trimBlanks, h.firm.trimStart_append,
      trimEnd_append_cons (by decide), List.length_append, List.length_cons] at hlength
    omega
  · rw [readDeclarations, htext, h.declarationTexts_eq, declarationTexts_append hvalue,
      declarationTexts, if_neg (by simp [hends]), hrest, List.modifyHead_cons,
      List.modifyHead_cons, List.modifyHead_cons, List.filterMap_cons, h.readDeclaration?_eq]

/-- **Where the value does not delimit itself,** something else is read as the value. -/
theorem exists_of_not_selfDelimiting (hvalue : ¬ SelfDelimiting d.2) (rest : List Char) :
    ∃ value others, value ≠ d.2 ∧
      readDeclarations ((Css.declaration d.1 d.2).toList ++ rest) = (d.1, value) :: others := by
  cases hbehind : Nesting.outside.behind? d.2.toList with
  | none => exact h.exists_shorter hbehind rest
  | some n =>
    exact h.exists_longer hbehind (fun heq => hvalue (by rw [SelfDelimiting, hbehind, heq])) rest

end Nameable

/-! ### A style -/

namespace Css

theorem toList_inlinePairs_cons (d e : String × String) (ds : List (String × String)) :
    (inlinePairs (d :: e :: ds)).toList =
      (declaration d.1 d.2).toList ++ ' ' :: (inlinePairs (e :: ds)).toList := by
  simp [inlinePairs, String.toList_intercalate]

/-- What a style on one line is read as, but for its first declaration. -/
theorem exists_inlinePairs_cons (d : String × String) (ds : List (String × String)) :
    ∃ rest, (inlinePairs (d :: ds)).toList = (declaration d.1 d.2).toList ++ rest ∧
      readDeclarations rest = readDeclarations (inlinePairs ds).toList := by
  cases ds with
  | nil => exact ⟨[], by simp [inlinePairs], by simp [inlinePairs]⟩
  | cons e ds => exact ⟨_, toList_inlinePairs_cons d e ds, readDeclarations_space _⟩

/-- **A style on one line is read back** exactly if each of its values delimits itself. -/
theorem readDeclarations_inlinePairs_iff {ds : List (String × String)}
    (h : ∀ d ∈ ds, Nameable d) :
    readDeclarations (inlinePairs ds).toList = ds ↔ ∀ d ∈ ds, SelfDelimiting d.2 := by
  induction ds with
  | nil => simp [inlinePairs, readDeclarations, declarationTexts, readDeclaration?]
  | cons d ds ih =>
    obtain ⟨hd, hds⟩ := List.forall_mem_cons.mp h
    obtain ⟨rest, htext, hrest⟩ := exists_inlinePairs_cons d ds
    rw [htext, List.forall_mem_cons]
    -- A value that delimits itself is read as it is, and the rest by induction; any other comes
    -- back changed.
    by_cases hvalue : SelfDelimiting d.2
    · rw [hd.readDeclarations_of_selfDelimiting hvalue, hrest, List.cons.injEq, ih hds]
      simp [hvalue]
    · obtain ⟨value, others, hne, hread⟩ := hd.exists_of_not_selfDelimiting hvalue rest
      rw [hread]
      constructor
      · intro heq
        exact absurd (congrArg Prod.snd (List.cons.inj heq).1) hne
      · intro hall
        exact absurd hall.1 hvalue

end Css

end DesignCompiler
