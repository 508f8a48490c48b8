import DesignCompiler.Proofs.Asset.Escapes
import DesignCompiler.Proofs.Markup.Print
import DesignCompiler.Proofs.Style.Legible
/-!
# References in styles

A style is written as the rules of a sheet, as the text of an attribute or as an object in a script.
Its properties are known words, and only the value of a background may have a reference, in
parentheses. So in all three ways each declaration leads on its own, escaped or not.
-/

namespace DesignCompiler

variable {P : String → Prop}

/-! ### Values -/

/-- **A value as it comes with a design:** one without the prefix, or the address of a source. -/
def CleanValue (P : String → Prop) (value : String) : Prop :=
  ¬ HoldsPrefix value ∨ ∃ source, Clean P source ∧ value = "url(" ++ source ++ ")"

/-- A clean source leads as an address: the brackets around it are in no key. -/
theorem leads_address {source : String} (h : Clean P source) :
    Leads P ("url(" ++ source ++ ")") := by
  have hopen : Leads P "url(" := Inert.leads (by decide)
  rw [String.append_assoc]
  exact hopen.append (leads_closed h.cites (by decide) (Inert.leads (by decide)))

/-- A clean value settles. -/
theorem CleanValue.settles {value : String} (h : CleanValue P value) : Settles P value := by
  rcases h with h | ⟨source, hsource, rfl⟩
  · exact settles_of_not_holdsPrefix h
  · exact (leads_address hsource).settles

/-- It has no references but those of its source. -/
theorem CleanValue.cites {value : String} (h : CleanValue P value) : Cites P value.toList := by
  rcases h with h | ⟨source, hsource, rfl⟩
  · exact cites_of_not_holdsPrefix h
  · exact (leads_address hsource).cites

theorem escapeWith_append (escape : Char → List Char) (a b : String) :
    escapeWith escape (a ++ b) = escapeWith escape a ++ escapeWith escape b := by
  simp only [escapeWith, String.toList_append, List.flatMap_append, String.ofList_append]

/-- Texts and what joins them are escaped one by one. -/
theorem escapeWith_intercalate (escape : Char → List Char) (joiner : String)
    (texts : List String) : escapeWith escape (joiner.intercalate texts) =
      (escapeWith escape joiner).intercalate (texts.map (escapeWith escape)) := by
  induction texts with
  | nil => rfl
  | cons text rest ih =>
    cases rest with
    | nil => simp
    | cons next others =>
      rw [String.intercalate_cons_cons, List.map_cons, List.map_cons,
        String.intercalate_cons_cons, escapeWith_append, escapeWith_append, ih, List.map_cons]

/-- A value is as clean as it was if the parentheses are not escaped. -/
theorem CleanValue.escape {escape : Char → List Char} (hescape : Escaping escape)
    (hopen : escapeWith escape "url(" = "url(") (hclose : escapeWith escape ")" = ")")
    {value : String} (h : CleanValue P value) : CleanValue P (escapeWith escape value) := by
  rcases h with h | ⟨source, hsource, rfl⟩
  · exact Or.inl (hescape.not_holdsPrefix h)
  · rw [escapeWith_append, escapeWith_append, hopen, hclose]
    exact Or.inr ⟨_, hsource.escape hescape, rfl⟩

/-! ### Declarations -/

/-- The properties that computed styles set. -/
def styleProperties : List String := plainProperties ++ ["background-image", "font-family"]

/-- The names of properties are words with hyphens between them. -/
theorem isHyphenated_of_mem_styleProperties {property : String} (h : property ∈ styleProperties) :
    IsHyphenated property := by
  have hfree : ∀ known ∈ ["background-image", "font-family"], IsHyphenated known := by decide
  rcases List.mem_append.mp h with h | h
  · exact isHyphenated_of_mem _ h
  · exact hfree _ h

/-- **Declarations as they come with a design.** -/
def CleanDeclarations (P : String → Prop) (ds : Declarations) : Prop :=
  ∀ d ∈ ds, d.1 ∈ styleProperties ∧ CleanValue P d.2

/-- **Declarations are clean if the free values in them are:** all else in them is composed of fixed
words and numbers. -/
theorem Composed.clean {f : FreeText} {Free : String → Prop} {ds : Declarations}
    (h : Composed f Free ds) (hfree : ∀ value, Free value → CleanValue P value) :
    CleanDeclarations P ds := by
  have hproperty : f.property ∈ styleProperties := by cases f <;> decide
  intro d hd
  by_cases hname : d.1 = f.property
  · exact ⟨hname ▸ hproperty, hfree _ (h.free d hd hname)⟩
  · obtain ⟨hknown, htame⟩ := h.tame d hd hname
    exact ⟨List.mem_append_left _ hknown, Or.inl htame.not_holdsPrefix⟩

/-- A declaration of a clean value leads. -/
theorem leads_declaration {property value : String} (hproperty : property ∈ styleProperties)
    (hvalue : CleanValue P value) : Leads P (Css.declaration property value) := by
  have hname : Tame property := (isHyphenated_of_mem_styleProperties hproperty).neat.tame
  -- A value that has no reference in it is ended by the semicolon.
  have hend := hvalue.settles ";" (by decide) (Inert.leads (by decide))
  rw [Css.declaration, String.append_assoc]
  exact hname.leads_label.append hend

/-- **Rules of a sheet lead,** declaration by declaration. -/
theorem CleanDeclarations.leads_block {css : Css} (h : CleanDeclarations P css.toList)
    (indent : Nat) : Leads P (css.block indent) := by
  have hspaces : Leads P ("".pushn ' ' indent) := by
    refine (inert_of_not_mem fun hletter => ?_).leads
    rw [toList_spaces, List.mem_replicate] at hletter
    exact absurd hletter.2 (by decide)
  refine leads_join fun line hline => ?_
  obtain ⟨⟨property, value⟩, hd, rfl⟩ := List.mem_map.mp hline
  obtain ⟨hproperty, hvalue⟩ := h _ hd
  exact (hspaces.append (leads_declaration hproperty hvalue)).append (Inert.leads (by decide))

/-- **A style on one line leads.** -/
theorem CleanDeclarations.leads_inlinePairs {ds : Declarations} (h : CleanDeclarations P ds) :
    Leads P (Css.inlinePairs ds) := by
  refine leads_intercalate (Inert.leads (by decide)) fun text htext => ?_
  obtain ⟨⟨property, value⟩, hd, rfl⟩ := List.mem_map.mp htext
  obtain ⟨hproperty, hvalue⟩ := h _ hd
  exact leads_declaration hproperty hvalue

/-- In markup the values of a style on one line are escaped, and nothing else is. -/
theorem CleanDeclarations.markupEscaped_inlinePairs {ds : Declarations}
    (h : CleanDeclarations P ds) :
    markupEscaped (Css.inlinePairs ds) =
      Css.inlinePairs (ds.map fun (k, v) => (k, markupEscaped v)) := by
  have hknown : ∀ known ∈ styleProperties, markupEscaped known = known := by
    refine fun known hmem => escaping_markup.escape_bare fun c hc => ?_
    rcases (isHyphenated_of_mem_styleProperties hmem).alphanum_or_hyphen c hc with hletter | rfl
    · exact forall_alphanum (P := (isBareKeyChar · = true)) (by decide +kernel) hletter
    · decide
  -- Neither a property nor the marks around it have anything to escape, so only the value is.
  have hdeclaration : ∀ d ∈ ds, markupEscaped (Css.declaration d.1 d.2) =
      Css.declaration d.1 (markupEscaped d.2) := by
    intro d hd
    have hproperty := hknown _ (h d hd).1
    have hmarks : markupEscaped ": " = ": " ∧ markupEscaped ";" = ";" := by decide
    simp only [markupEscaped] at hproperty hmarks ⊢
    simp only [Css.declaration, escapeWith_append, hproperty, hmarks]
  have hspace : escapeWith markupEscape " " = " " := by decide
  rw [markupEscaped, Css.inlinePairs, escapeWith_intercalate, hspace, List.map_map,
    Css.inlinePairs, List.map_map]
  exact congrArg _ (List.map_congr_left fun d hd => hdeclaration d hd)

/-- Clean declarations lead in an attribute of markup. -/
theorem CleanDeclarations.leads_markup {ds : Declarations} (h : CleanDeclarations P ds) :
    Leads P (inQuotes (markupEscaped (Css.inlinePairs ds))) := by
  have hescaped : CleanDeclarations P (ds.map fun (k, v) => (k, markupEscaped v)) := by
    intro d hd
    obtain ⟨own, hown, rfl⟩ := List.mem_map.mp hd
    obtain ⟨hproperty, hvalue⟩ := h own hown
    exact ⟨hproperty, hvalue.escape escaping_markup (by decide) (by decide)⟩
  rw [h.markupEscaped_inlinePairs]
  exact leads_inQuotes hescaped.leads_inlinePairs.cites

/-- **A style object leads,** with its names in camel case and its values in quotes. -/
theorem CleanDeclarations.leads_styleObject {ds : Declarations} (h : CleanDeclarations P ds) :
    Leads P (styleObject (Css.camelCasePairs ds)) := by
  have hbraces : ∀ {text}, Leads P text → Leads P (inBraces text) := fun htext =>
    ((Inert.leads (by decide)).append htext).append (Inert.leads (by decide))
  have hspace : Leads P " " := Inert.leads (by decide)
  -- An entry is a tame name, a colon and the quoted value.
  have hentries : ∀ text ∈ (Css.camelCasePairs ds).map fun (k, v) => k ++ ": " ++ scriptQuoted v,
      Leads P text := by
    intro text htext
    obtain ⟨entry, hentry, rfl⟩ := List.mem_map.mp htext
    obtain ⟨d, hd, rfl⟩ := List.mem_map.mp hentry
    obtain ⟨hproperty, hvalue⟩ := h d hd
    have hquoted := hvalue.escape escaping_script (by decide) (by decide)
    have hname : Tame (camelCase d.1) :=
      (isHyphenated_of_mem_styleProperties hproperty).tame_camelCase
    exact hname.leads_label.append (leads_inQuotes hquoted.cites)
  unfold styleObject
  split
  · exact hbraces leads_empty
  · exact hbraces ((hspace.append (leads_intercalate (Inert.leads (by decide)) hentries)).append
      hspace)

end DesignCompiler
