import Mathlib.Data.List.Pairwise
import DesignCompiler.Proofs.Emit.Content
import DesignCompiler.Proofs.Style.ClassName
/-!
# The classes of a page

In a page, a declared style is a rule for a class, and an element has the class of its declaration.
Declarations have names of their own, but the class is the name in lower case, and that may bring
two names together. `Page.emit_classesApart_iff` says when it does: the rules of a page have
selectors of their own, and every element is styled by one rule that sets what its chain sets,
exactly when no two declarations have the same words in lower case.

`Page.namesApart_of_pascalCase` tells such pages by their names. Only a run of capitals, as in the
identifier of `a b`, can be read as another word than it was made from.
-/

namespace DesignCompiler

/-! ### Rules and what they select -/

/-- The selector of a rule. -/
def Declaration.selector? : Declaration → Option String
  | .cssRule selector _ => some selector
  | .styledComponent .. => none

/-- The selectors of the rules of a module. -/
def Module.selectors (m : Module) : List String := m.declarations.filterMap (·.selector?)

/-- The rules of a module for the elements of a class. -/
def Module.rulesFor (m : Module) (className : String) : List Declaration :=
  m.declarations.filter (·.selector? == some ("." ++ className))

/-- **The classes of an element go by the style of its chain.** Without a style there is none; else
there is one, and one rule for it, which sets what the style sets. -/
structure Classed (m : Module) (c : Chain) (start : StartTag) : Prop where
  bare : c.css? = none → start.attributes.filter (·.name == "class") = []
  styled : ∀ css, c.css? = some css → ∃ className style,
    start.attributes.filter (·.name == "class") = [.ofText "class" className] ∧
      m.rulesFor className = [.cssRule ("." ++ className) style] ∧
      ∀ p, p ∈ style.toList ↔ p ∈ css.toList

/-- **Classes that are apart:** no two rules have one selector, and each element is styled by the
one rule that its class selects. -/
structure ClassesApart (m : Module) (w : Widget) (tree : Markup) : Prop where
  selectors_nodup : m.selectors.Nodup
  classed : Stands Page.classBinding (Classed m) ⟨w, .root⟩ tree

/-- No element has a class by itself. -/
theorem Widget.class_not_mem_start (w : Widget) :
    "class" ∉ w.element.start.attributes.map (·.name) := by
  -- The attributes of an element have fixed names, and what is in a wrapper has its own.
  induction w using Widget.induction with
  | leaf key style content =>
    cases content with
    | text content => exact List.not_mem_nil
    | image content =>
      show "class" ∉ ["src", "alt"]
      decide
    | icon content =>
      show "class" ∉ ["src", "alt"]
      decide
    | vector content =>
      show "class" ∉ ["width", "height", "viewBox", "fill", "xmlns", "style"]
      decide
    | boolean content =>
      show "class" ∉ ["width", "height", "viewBox", "fill", "xmlns", "style"]
      decide
  | box => exact List.not_mem_nil
  | wrap key style wrapper child ih => exact ih

namespace Page

variable {w : Widget}

/-! ### Names and selectors -/

/-- The names of the styles that a page declares. -/
def declaredNames (w : Widget) : List String := (sheet w).uniques.map (·.name)

/-- **Names that are apart as classes** have different words in lower case. -/
def NamesApart (w : Widget) : Prop :=
  (declaredNames w).Pairwise fun a b => lowerWords a ≠ lowerWords b

/-- The styles of a page before they are shared. -/
def ownDeclarations (w : Widget) : List StyleDeclaration :=
  declarationsOf ((w.componentName .none).2.styleMap ⟨false, true⟩ w).1.toList

/-- The declarations of a page are some of those before sharing, in their order. -/
theorem uniques_sublist (hids : (w.contents.map (·.id)).Nodup) :
    (sheet w).uniques.Sublist (ownDeclarations w) := by
  obtain ⟨-, hshares⟩ :=
    StyleSheet.sharesExactly_styleMap hids ⟨false, true⟩ (w.componentName .none).2
  exact hshares.uniques_sublist

/-- A declaration stays if it is the only one for its tag. -/
theorem mem_uniques_of_tag (hids : (w.contents.map (·.id)).Nodup) {d : StyleDeclaration}
    (hd : d ∈ ownDeclarations w)
    (hone : ∀ e ∈ ownDeclarations w, e.htmlTag = d.htmlTag → e = d) : d ∈ (sheet w).uniques := by
  obtain ⟨-, hshares⟩ :=
    StyleSheet.sharesExactly_styleMap hids ⟨false, true⟩ (w.componentName .none).2
  obtain ⟨⟨id, entry⟩, hentry, hown⟩ := List.mem_filterMap.mp hd
  -- The first declaration alike has the same tag, hence is this one.
  obtain ⟨first, hfirst, before, after, hds, halike, -⟩ :=
    hshares.first (Record.get?_eq_some_iff.mpr hentry) hown
  have hmem : first ∈ ownDeclarations w := by
    rw [ownDeclarations, hds]
    exact List.mem_append_right _ List.mem_cons_self
  rw [hone first hmem halike.1.symm] at hfirst
  exact hshares.mem_uniques.mpr ⟨id, hfirst⟩

/-- The names that are declared are identifiers. -/
theorem isIdentifier_declaredNames (hids : (w.contents.map (·.id)).Nodup) :
    ∀ name ∈ declaredNames w, IsIdentifier name := by
  intro name hname
  obtain ⟨d, hd, rfl⟩ := List.mem_map.mp hname
  exact StyleSheet.isIdentifier_uniques hids ⟨false, true⟩ (w.componentName .none).2 d hd

/-- No name is declared twice. -/
theorem nodup_declaredNames (hids : (w.contents.map (·.id)).Nodup) : (declaredNames w).Nodup := by
  obtain ⟨hnames, -⟩ :=
    StyleSheet.sharesExactly_styleMap hids ⟨false, true⟩ (w.componentName .none).2
  exact ((uniques_sublist hids).map _).nodup hnames

/-- Names that are in pascal case are apart as classes. -/
theorem namesApart_of_pascalCase (hids : (w.contents.map (·.id)).Nodup)
    (h : ∀ name ∈ declaredNames w, pascalCase name = name) : NamesApart w := by
  refine (nodup_declaredNames hids).imp_of_mem fun {a b} ha hb hne hwords => hne ?_
  exact eq_of_lowerWords_eq (isIdentifier_declaredNames hids a ha)
    (isIdentifier_declaredNames hids b hb) (h a ha) (h b hb) hwords

/-- The selectors are the names in kebab case behind a dot. -/
theorem selectors_eq {m : Module} (h : m.declarations = (sheet w).uniques.map classRule) :
    m.selectors = (declaredNames w).map fun name => "." ++ className name := by
  rw [Module.selectors, h, declaredNames, List.map_map, List.filterMap_map]
  show ((sheet w).uniques.filterMap fun d => some ("." ++ className d.name)) = _
  rw [List.filterMap_eq_map']
  rfl

/-- A selector says which class it is for. -/
theorem selector_inj {a b : String} : "." ++ a = "." ++ b ↔ a = b := by
  constructor
  · intro h
    have hchars := congrArg String.toList h
    rw [String.toList_append, String.toList_append, List.append_cancel_left_eq] at hchars
    exact String.toList_inj.mp hchars
  · rintro rfl
    rfl

/-- **Selectors are apart** exactly when the names of the declarations are. -/
theorem nodup_selectors_iff (hids : (w.contents.map (·.id)).Nodup) {m : Module}
    (h : m.declarations = (sheet w).uniques.map classRule) :
    m.selectors.Nodup ↔ NamesApart w := by
  have hidentifiers := isIdentifier_declaredNames hids
  -- Selectors differ exactly when the lowered words of the names do.
  have hsame : ∀ {a b}, a ∈ declaredNames w → b ∈ declaredNames w →
      ("." ++ className a ≠ "." ++ className b ↔ lowerWords a ≠ lowerWords b) := by
    intro a b ha hb
    rw [Ne, selector_inj]
    exact not_congr (kebabCase_eq_iff (hidentifiers a ha) (hidentifiers b hb))
  rw [selectors_eq h, List.Nodup, List.pairwise_map]
  constructor
  · exact fun hnodup => hnodup.imp_of_mem fun ha hb hne => (hsame ha hb).mp hne
  · exact fun hapart => hapart.imp_of_mem fun ha hb hne => (hsame ha hb).mpr hne

/-! ### Elements and their rules -/

/-- Where selectors are apart, the class of a declaration selects its own rule. -/
theorem rulesFor_className {m : Module} (h : m.declarations = (sheet w).uniques.map classRule)
    (hnodup : m.selectors.Nodup) {d : StyleDeclaration} (hd : d ∈ (sheet w).uniques) :
    m.rulesFor (className d.name) = [classRule d] := by
  rw [selectors_eq h, declaredNames, List.map_map] at hnodup
  rw [Module.rulesFor, h]
  generalize (sheet w).uniques = ds at hnodup hd
  induction ds with
  | nil => exact absurd hd List.not_mem_nil
  | cons e rest ih =>
    obtain ⟨hother, hnodup⟩ := List.nodup_cons.mp hnodup
    rw [List.map_cons, List.filter_cons]
    rcases List.mem_cons.mp hd with rfl | hd
    · -- The rule itself is selected, and no other has its selector.
      have hnone : (rest.map classRule).filter
          (·.selector? == some ("." ++ className d.name)) = [] := by
        rw [List.filter_eq_nil_iff]
        intro rule hrule hselected
        obtain ⟨e, he, rfl⟩ := List.mem_map.mp hrule
        have hsame : "." ++ className e.name = "." ++ className d.name :=
          Option.some.inj (beq_iff_eq.mp hselected)
        exact hother (List.mem_map.mpr ⟨e, he, hsame⟩)
      rw [hnone]
      simp [classRule, Declaration.selector?]
    · have hne : "." ++ className e.name ≠ "." ++ className d.name := by
        intro hsame
        exact hother (List.mem_map.mpr ⟨d, hd, hsame.symm⟩)
      rw [if_neg (by simpa [classRule, Declaration.selector?] using hne), ih hnodup hd]

/-- The attributes of an element by itself say nothing about classes, as a page writes them. -/
theorem filter_class_plain (c : Chain) :
    (c.element.start.attributes.map Attribute.plain).filter (·.name == "class") = [] := by
  rw [List.filter_eq_nil_iff]
  intro a ha hclass
  obtain ⟨own, hown, rfl⟩ := List.mem_map.mp ha
  have hname : own.name = "class" := beq_iff_eq.mp hclass
  exact c.head.class_not_mem_start (List.mem_map.mpr ⟨own, hown, hname⟩)

/-- **The class of an element goes by the style of its chain.** Without a style there is none, else
it is that of a declaration that sets what the style sets. -/
structure Labelled (ds : List StyleDeclaration) (c : Chain) (start : StartTag) : Prop where
  bare : c.css? = none → start.attributes.filter (·.name == "class") = []
  styled : ∀ css, c.css? = some css → ∃ d ∈ ds,
    start.attributes.filter (·.name == "class") = [.ofText "class" (className d.name)] ∧
      ∀ p, p ∈ d.style.toList ↔ p ∈ css.toList

/-- **The class that a chain has goes by its style.** -/
theorem labelled_chainTag (hids : (w.contents.map (·.id)).Nodup) {c : Chain}
    (hc : c ∈ w.chains .root) :
    Labelled (sheet w).uniques c (classBinding.chainTag (sheet w) c) := by
  obtain ⟨-, hshares⟩ :=
    StyleSheet.sharesExactly_styleMap hids ⟨false, true⟩ (w.componentName .none).2
  obtain ⟨name, hentry⟩ := Namer.exists_entry hids ⟨false, true⟩ (w.componentName .none).2 hc
  have hattributes := Chain.attributes_entry ⟨false, true⟩ c name
  -- The entry after sharing has the attributes of the element and, if any, a declaration in use.
  obtain ⟨e, he, hkept, -, hbare⟩ := hshares.kept hentry
  have htag : (classBinding.chainTag (sheet w) c).attributes =
      c.element.start.attributes.map Attribute.plain ++ classBinding.bind e := by
    unfold StyleBinding.chainTag StyleBinding.startTag
    rw [sheet, he, ← hattributes, ← hkept]
    rfl
  constructor
  · intro hcss
    have hstyling : e.styling = none := by
      have hnone : (c.entry ⟨false, true⟩ name).styling = none := by rw [Chain.entry, hcss]
      rw [hbare hnone, hnone]
    have hbind : classBinding.bind e = [] := by simp [classBinding, hstyling]
    rw [htag, hbind, List.append_nil, filter_class_plain]
  · intro css hcss
    have hown : (c.entry ⟨false, true⟩ name).declaration? =
        some ⟨name, c.element.start.name, css⟩ := by
      rw [Chain.declaration?_entry, hcss]
      rfl
    obtain ⟨first, hfirst, -, -, -, halike, -⟩ := hshares.first hentry hown
    have hused : first ∈ (sheet w).uniques := hshares.mem_uniques.mpr ⟨_, hfirst⟩
    have hbind : classBinding.bind e = [.ofText "class" (className first.name)] := by
      rw [StyleSheet.declaration?, he, Option.bind_eq_bind, Option.bind_some] at hfirst
      obtain ⟨styling, hstyling, rfl⟩ := Option.map_eq_some_iff.mp hfirst
      simp [classBinding, hstyling]
    refine ⟨first, hused, ?_, fun p => (halike.2 p).symm⟩
    rw [htag, hbind, List.filter_append, filter_class_plain]
    rfl

/-- **The classes of an element go by its chain,** where selectors are apart. -/
theorem classed_chainTag (hids : (w.contents.map (·.id)).Nodup) {m : Module}
    (h : m.declarations = (sheet w).uniques.map classRule) (hnodup : m.selectors.Nodup) {c : Chain}
    (hc : c ∈ w.chains .root) : Classed m c (classBinding.chainTag (sheet w) c) := by
  have hlabelled := labelled_chainTag hids hc
  refine ⟨hlabelled.bare, fun css hcss => ?_⟩
  obtain ⟨d, hd, hclass, hpairs⟩ := hlabelled.styled css hcss
  exact ⟨className d.name, d.style, hclass, rulesFor_className h hnodup hd, hpairs⟩

/-! ### The law -/

/-- **The classes of a page are apart** exactly when the names of its declarations are: then no two
rules have one selector, and the class of each element selects one rule, which sets what the style
of the element sets. -/
theorem emit_classesApart_iff {o : PageOptions} (hstyling : o.styling = .classes)
    (hids : (w.contents.map (·.id)).Nodup) :
    (∃ tree, (emit o w).body = [.markup tree] ∧ ClassesApart (emit o w) w tree) ↔ NamesApart w := by
  obtain ⟨hdeclarations, hbody⟩ := emit_classes hstyling w
  rw [← nodup_selectors_iff hids hdeclarations]
  constructor
  · rintro ⟨tree, -, happart⟩
    exact happart.selectors_nodup
  · intro hnodup
    refine ⟨_, hbody, hnodup, ?_⟩
    exact StyleBinding.stands_markup ⟨w, .root⟩ fun c hc =>
      classed_chainTag hids hdeclarations hnodup hc

/-- The law at two captions whose names stay apart. -/
theorem emit_classesApart_twoCaptions : (StyleSheet.twoCaptions.contents.map (·.id)).Nodup ∧
    PageOptions.styling {} = .classes ∧ NamesApart StyleSheet.twoCaptions ∧
    ∃ tree, (emit {} StyleSheet.twoCaptions).body = [.markup tree] ∧
      ClassesApart (emit {} StyleSheet.twoCaptions) StyleSheet.twoCaptions tree := by
  have hids : (StyleSheet.twoCaptions.contents.map (·.id)).Nodup := by decide
  have hstyling : PageOptions.styling {} = .classes := rfl
  have hapart : NamesApart StyleSheet.twoCaptions := by
    have hpascal : ∀ d ∈ ownDeclarations StyleSheet.twoCaptions, pascalCase d.name = d.name := by
      decide +kernel
    refine namesApart_of_pascalCase hids fun name hname => ?_
    obtain ⟨d, hd, rfl⟩ := List.mem_map.mp hname
    exact hpascal d ((uniques_sublist hids).mem hd)
  exact ⟨hids, hstyling, hapart, (emit_classesApart_iff hstyling hids).mpr hapart⟩

/-- A text and an image whose names differ in a space. -/
def spacedTwins : Widget :=
  .box ⟨"1", "Card", none⟩ (.sized 80 40) .group
    [⟨0, 0, .leaf ⟨"2", "a b", none⟩ {} (.text ⟨"Ab", { fontFamily := "Inter" }, none, none⟩)⟩,
      ⟨0, 0, .leaf ⟨"3", "ab", none⟩ {} (.image ⟨.placeholder, .fill, "ab"⟩)⟩]

/-- **Rules collide:** the declarations `AB` and `Ab` of the two have one selector. -/
theorem selectors_spacedTwins : (spacedTwins.contents.map (·.id)).Nodup ∧
    ¬(emit {} spacedTwins).selectors.Nodup := by
  have hids : (spacedTwins.contents.map (·.id)).Nodup := by decide
  have hstyling : PageOptions.styling {} = .classes := rfl
  refine ⟨hids, fun hnodup => ?_⟩
  have hapart := (nodup_selectors_iff hids (emit_classes hstyling spacedTwins).1).mp hnodup
  have hown : (ownDeclarations spacedTwins).map (fun d => (d.name, d.htmlTag)) =
      [("RootWrapperCard", "div"), ("AB", "span"), ("Ab", "img")] := by decide +kernel
  -- Each of the three is the only one for its tag, so none of them is shared.
  have hdeclared : ∀ named ∈ (ownDeclarations spacedTwins).map (fun d => (d.name, d.htmlTag)),
      named.1 ∈ declaredNames spacedTwins := by
    have hone : ∀ d ∈ ownDeclarations spacedTwins, ∀ e ∈ ownDeclarations spacedTwins,
        e.htmlTag = d.htmlTag → e = d := by
      have htags : ((ownDeclarations spacedTwins).map (·.htmlTag)).Nodup := by decide +kernel
      exact fun d hd e he htag => List.inj_on_of_nodup_map htags he hd htag
    intro named hnamed
    obtain ⟨d, hd, rfl⟩ := List.mem_map.mp hnamed
    exact List.mem_map_of_mem (mem_uniques_of_tag hids hd (hone d hd))
  rw [hown] at hdeclared
  have hsymm : Std.Symm fun a b => lowerWords a ≠ lowerWords b := ⟨fun _ _ => Ne.symm⟩
  have hwords : lowerWords "AB" ≠ lowerWords "Ab" :=
    hapart.forall (hdeclared ("AB", "span") (by decide)) (hdeclared ("Ab", "img") (by decide))
      (by decide)
  exact hwords (by decide)

end Page

end DesignCompiler
