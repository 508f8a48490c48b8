import DesignCompiler.Proofs.Style.Legible
import DesignCompiler.Proofs.Style.Merge
/-!
# Computed styles on one line

A computed style is neat but for its free text: the name of a font, which is put in quotes, or the
address of an image, which is put in the parentheses of `url()`. Neither is escaped. So a style on
one line is read back as the pairs that were computed exactly if its free text stays where it was
put (`Widget.inline_reads_back_iff`): a name with a quote in it leaves the quotes, and what follows
may be read as other declarations.
-/

namespace DesignCompiler

/-! ### Free text in its place -/

/-- Within quotes all is text up to the next quote. -/
theorem selfDelimiting_quoted {text : String} (h : '"' ∉ text.toList) :
    SelfDelimiting ("\"" ++ text ++ "\"") := by
  have hopen : Nesting.outside.behind? ['"'] = some ⟨true, 0⟩ := rfl
  have htext : Nesting.behind? ⟨true, 0⟩ text.toList = some ⟨true, 0⟩ := by
    refine Nesting.behind?_of_forall fun c hc => ⟨?_, by simp [Nesting.ends, Nesting.outside]⟩
    have hquote : c ≠ '"' := fun heq => h (heq ▸ hc)
    simp [Nesting.step, hquote]
  have hlist : ("\"" ++ text ++ "\"").toList = ['"'] ++ (text.toList ++ ['"']) := by simp
  rw [SelfDelimiting, hlist, Nesting.behind?_append, hopen, Option.bind_some,
    Nesting.behind?_append, htext]
  rfl

/-- Within parentheses all is text up to a quote or a parenthesis. -/
theorem selfDelimiting_url {source : String} (h : ∀ c ∈ source.toList, c ∉ ['"', '(', ')']) :
    SelfDelimiting ("url(" ++ source ++ ")") := by
  have hopen : Nesting.outside.behind? ['u', 'r', 'l', '('] = some ⟨false, 1⟩ := rfl
  -- Inside the bracket nothing opens or closes, and no semicolon ends anything.
  have hsource : Nesting.behind? ⟨false, 1⟩ source.toList = some ⟨false, 1⟩ := by
    refine Nesting.behind?_of_forall fun c hc => ⟨?_, by simp [Nesting.ends, Nesting.outside]⟩
    have hmarks := h c hc
    simp only [List.mem_cons, List.not_mem_nil, or_false, not_or] at hmarks
    simp [Nesting.step, hmarks]
  have hlist : ("url(" ++ source ++ ")").toList =
      ['u', 'r', 'l', '('] ++ (source.toList ++ [')']) := by simp
  rw [SelfDelimiting, hlist, Nesting.behind?_append, hopen, Option.bind_some,
    Nesting.behind?_append, hsource]
  rfl

namespace Widget

/-! ### The free text of a widget -/

/-- The value that a widget declares with its free text in it. -/
def freeValue? : Widget → Option String
  | leaf _ _ (.text content) => some ("\"" ++ content.style.fontFamily ++ "\"")
  | box _ _ .group _ => none
  | box _ style _ _ =>
    match style.background with
    | some (.image ref) => some ("url(" ++ ref.source ++ ")")
    | _ => none
  | _ => none

/-- Whether nothing in the free text ends what it is put in. -/
def FreeTextStays : Widget → Prop
  | leaf _ _ (.text content) => '"' ∉ content.style.fontFamily.toList
  | box _ style _ _ =>
    ∀ ref, style.background = some (.image ref) → ∀ c ∈ ref.source.toList, c ∉ ['"', '(', ')']
  | _ => True

/-- A free value that stays within its declaration delimits itself. -/
theorem selfDelimiting_of_freeTextStays {w : Widget} (h : w.FreeTextStays) {value : String}
    (hvalue : w.freeValue? = some value) : SelfDelimiting value := by
  unfold freeValue? at hvalue
  split at hvalue
  · cases hvalue
    exact selfDelimiting_quoted h
  · cases hvalue
  · split at hvalue
    · next ref hbackground =>
      cases hvalue
      exact selfDelimiting_url (h ref hbackground)
    · cases hvalue
  · cases hvalue

/-- Free values stand between quotes or in `url()`, so no blank is at either end. -/
theorem firm_of_freeValue {w : Widget} {value : String} (h : w.FreeValue value) : Firm value := by
  have hquote : Firm "\"" := by decide
  have hname : Firm "url(" := by decide
  unfold FreeValue at h
  split at h
  · rw [h]
    exact hquote.around hquote _
  · obtain ⟨ref, -, rfl⟩ := h
    exact hname.around (b := ")") (by decide) _
  · exact h.elim

/-- Without a free text nothing is declared as one. -/
theorem last?_of_composed_false {f : FreeText} {ds : Declarations}
    (h : Composed f (fun _ => False) ds) : ds.last? f.property = none := by
  refine Declarations.last?_eq_none fun hmem => ?_
  obtain ⟨d, hd, hproperty⟩ := List.mem_map.mp hmem
  exact h.free d hd hproperty

/-- A box that is no group declares the image of its background. -/
theorem image_mem_declarations {s : Style} {ref : ImageRef}
    (hbackground : s.background = some (.image ref)) {a : Arrangement} (ha : a ≠ .group)
    (empty : Bool) :
    ("background-image", "url(" ++ ref.source ++ ")") ∈ a.declarations s empty := by
  have hbox : ("background-image", "url(" ++ ref.source ++ ")") ∈ s.boxDeclarations := by
    simp [Style.boxDeclarations, hbackground, Background.declarations]
  cases a with
  | group => exact absurd rfl ha
  | _ => simp [Arrangement.declarations, hbox]

/-- The last image a box declares is its free value. -/
theorem last?_arrangement {key : WidgetKey} {s : Style} {a : Arrangement}
    {children : List (Placed Widget)} :
    (a.declarations s children.isEmpty).last? FreeText.image.property =
      (box key s a children).freeValue? := by
  -- A group declares no background at all.
  by_cases ha : a = .group
  · subst ha
    exact last?_of_composed_false
      ((allNeat_sizeDeclarations s).composed.append (AllNeat.composed (by simp +decide)))
  -- Every other arrangement writes the image it has, and no other image is neat.
  by_cases himage : ∃ ref, s.background = some (.image ref)
  · obtain ⟨ref, hbackground⟩ := himage
    have hvalue : (box key s a children).freeValue? = some ("url(" ++ ref.source ++ ")") := by
      cases a with
      | group => exact absurd rfl ha
      | _ => simp [freeValue?, hbackground]
    have hcomposed : Composed .image (· = "url(" ++ ref.source ++ ")")
        (a.declarations s children.isEmpty) := by
      refine composed_arrangement (fun other hother => ?_) children.isEmpty a
      rw [hbackground] at hother
      cases hother
      rfl
    rw [hvalue]
    exact Declarations.last?_eq_some (image_mem_declarations hbackground ha _)
      fun u hu => hcomposed.free _ hu rfl
  · have hvalue : (box key s a children).freeValue? = none := by
      cases a with
      | group => rfl
      | _ =>
        cases hbackground : s.background with
        | none => simp [freeValue?, hbackground]
        | some b =>
          cases b with
          | image ref => exact absurd ⟨ref, hbackground⟩ himage
          | _ => simp [freeValue?, hbackground]
    rw [hvalue]
    exact last?_of_composed_false
      (composed_arrangement (fun ref href => himage ⟨ref, href⟩) children.isEmpty a)

/-- The last font family a leaf declares is its free value. -/
theorem last?_leaf {key : WidgetKey} {s : Style} {leaf : Leaf} {ds : Declarations}
    (h : leaf.declarations? s = some ds) :
    ds.last? FreeText.family.property = (Widget.leaf key s leaf).freeValue? := by
  cases leaf with
  | text content =>
    have hcomposed : Composed .family (· = "\"" ++ content.style.fontFamily ++ "\"") ds := by
      refine composed_leaf (fun other hother => ?_) h
      cases hother
      rfl
    cases h
    -- Every family a text declares is this one, so the last is.
    refine Declarations.last?_eq_some ?_ fun u hu => hcomposed.free _ hu rfl
    simp [FreeText.property, TextStyle.declarations]
  | _ => exact last?_of_composed_false (composed_leaf (fun _ hother => by cases hother) h)

/-- **The free text in a style** is that of the widget, whatever is around it. -/
theorem get?_css_free {head : Widget} {placement : Placement} {css : Css}
    (h : head.css? placement = some css) :
    css.get? (FreeText.ofTag head.element.start.name).property = head.unwrapped.freeValue? := by
  have hextra : (extraCss head.wrappers placement).get?
      (FreeText.ofTag head.element.start.name).property = none := by
    rw [← Css.last?_toList]
    exact last?_of_composed_false (allNeat_extraCss head.wrappers placement).composed
  rw [get?_css_parts h, hextra, Option.none_or, ← element_unwrapped]
  -- What is left is what the widget declares itself.
  cases hw : head.unwrapped with
  | leaf key style leaf =>
    have htag : ∀ tag ∈ leafTags, FreeText.ofTag tag = .family := by decide
    change Declarations.last? ((leaf.declarations? style).getD [])
      (FreeText.ofTag (leaf.element key.originName).start.name).property = _
    rw [htag _ (mem_leafTags key.originName leaf)]
    cases hds : leaf.declarations? style with
    | none => cases leaf <;> first | rfl | cases hds
    | some ds => exact last?_leaf hds
  | box key style arrangement children => exact last?_arrangement
  | wrap key style wrapper child => rfl

/-! ### Reading a style back -/

section Inline

variable {head : Widget} {placement : Placement} {css : Css} (h : head.css? placement = some css)
include h

/-- The css of a chain is neat but for the free value of its widget. -/
theorem composed_css : Composed (FreeText.ofTag head.element.start.name) head.unwrapped.FreeValue
    css.toList :=
  Chain.composed_css (c := ⟨head, placement⟩) h

/-- The names in a style can be read, whatever its free text is. -/
theorem nameable_css : ∀ d ∈ css.toList, Nameable d := by
  have hcomposed := composed_css h
  -- A name is neat, so it delimits itself and has no blank at its ends.
  have hname : ∀ {name value}, IsHyphenated name → Firm value → Nameable (name, value) :=
    fun hname hvalue =>
      ⟨hname.neat.tame.not_mem (by decide), hname.neat.firm, hname.neat.selfDelimiting, hvalue⟩
  rintro ⟨name, value⟩ hd
  by_cases hproperty : name = (FreeText.ofTag head.element.start.name).property
  · exact hname (hproperty ▸ FreeText.isHyphenated_property _)
      (firm_of_freeValue (hcomposed.free _ hd hproperty))
  · obtain ⟨hmem, hneat⟩ := hcomposed.neat _ hd hproperty
    exact hname (isHyphenated_of_mem _ hmem) hneat.firm

/-- The values in a style delimit themselves if its free text does. -/
theorem selfDelimiting_css_iff : (∀ d ∈ css.toList, SelfDelimiting d.2) ↔
    ∀ value, head.unwrapped.freeValue? = some value → SelfDelimiting value := by
  rw [← get?_css_free h]
  constructor
  · intro hall value hvalue
    exact hall _ (Record.get?_eq_some_iff.mp hvalue)
  · intro hvalue d hd
    by_cases hproperty : d.1 = (FreeText.ofTag head.element.start.name).property
    · exact hvalue _ (Record.get?_eq_some_iff.mpr (hproperty ▸ hd))
    · exact ((composed_css h).neat d hd hproperty).2.selfDelimiting

/-- **A computed style on one line is read back** as the pairs that were computed, in their order,
exactly if the free text of the widget delimits itself as it stands in its quotes or parentheses. It
does so if nothing in it ends them. -/
theorem inline_reads_back_iff :
    (readDeclarations css.inline.toList = css.toList ↔
      ∀ value, head.unwrapped.freeValue? = some value → SelfDelimiting value) ∧
    (head.unwrapped.FreeTextStays → readDeclarations css.inline.toList = css.toList) := by
  have hiff : readDeclarations css.inline.toList = css.toList ↔
      ∀ value, head.unwrapped.freeValue? = some value → SelfDelimiting value :=
    (Css.readDeclarations_inlinePairs_iff (nameable_css h)).trans (selfDelimiting_css_iff h)
  exact ⟨hiff, fun hstays => hiff.mpr fun _ => selfDelimiting_of_freeTextStays hstays⟩

end Inline

/-- A title with a font of a name. -/
def titleIn (font : String) : Widget :=
  leaf ⟨"1:1", "title", none⟩ {} (.text ⟨"Hello", { fontFamily := font }, none, none⟩)

theorem exists_css_titleIn (font : String) : ∃ css, (titleIn font).css? .root = some css := ⟨_, rfl⟩

theorem inline_reads_back_inter : ∃ css, (titleIn "Inter").css? .root = some css ∧
    readDeclarations css.inline.toList = css.toList := by
  obtain ⟨css, hcss⟩ := exists_css_titleIn "Inter"
  have hstays : (titleIn "Inter").unwrapped.FreeTextStays := by
    change '"' ∉ "Inter".toList
    decide
  exact ⟨css, hcss, (inline_reads_back_iff hcss).2 hstays⟩

/-- A quote in the name of a font ends the name, and a color is read that was never computed. -/
theorem inline_read_as_color : ∃ css,
    (titleIn "Inter\"; color: red; x: \"").css? .root = some css ∧
      readDeclarations css.inline.toList ≠ css.toList := by
  obtain ⟨css, hcss⟩ := exists_css_titleIn "Inter\"; color: red; x: \""
  refine ⟨css, hcss, fun hread => ?_⟩
  have hvalues := (Css.readDeclarations_inlinePairs_iff (nameable_css hcss)).mp hread
  have hfont := (selfDelimiting_css_iff hcss).mp hvalues _ rfl
  exact absurd hfont (by decide)

end Widget

end DesignCompiler
