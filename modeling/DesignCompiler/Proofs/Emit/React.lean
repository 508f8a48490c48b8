import DesignCompiler.Emit.React
import DesignCompiler.Proofs.Emit.Web
import DesignCompiler.Proofs.Style.Sheet
/-!
# A module of styled components is closed

Two walks over the widget tree make such a module: one makes the declarations, the other writes the
elements. They meet in the style sheet, where every chain has the declaration that its entry takes,
and the tag of its element is the name of that declaration (`React.name_chainTag_styled`).

The result is `React.emit_closed`: every tag is declared or is a plain one, whichever the chain
calls for, and everything declared is used.
-/

namespace DesignCompiler

namespace React

/-- **The tag of an element goes by the style of its chain.** Without a style it is the plain one,
else the name of a declaration for the plain tag that sets what the style sets. -/
structure Tagged (ds : List StyleDeclaration) (c : Chain) (start : StartTag) : Prop where
  bare : c.css? = none → start.name = c.element.start.name
  styled : ∀ css, c.css? = some css → ∃ d ∈ ds, start.name = d.name ∧
    d.htmlTag = c.element.start.name ∧ ∀ p, p ∈ d.style.toList ↔ p ∈ css.toList

/-- **A closed module:** declarations under names of their own, and a tree whose tags go by the
styles of its chains and use every declaration. -/
structure Closed (component : String) (ds : List StyleDeclaration) (w : Widget) (tree : Markup) :
    Prop where
  names_nodup : (ds.map (·.name)).Nodup
  names_apart : ∀ d ∈ ds, d.name ≠ component ∧ d.name ≠ "React" ∧ d.name ≠ "styled"
  tags : Stands sharedBinding (Tagged ds) ⟨w, .root⟩ tree
  used : ∀ d ∈ ds, ∃ start inner, .element start inner ∈ tree.elements ∧ start.name = d.name

/-- The namer after it has named the component. -/
def namer (w : Widget) : Namer := (w.componentName .react).2

/-- The style map of a module of styled components, where tags are the names of declarations and the
topmost element is named as the root. -/
def styleMap (w : Widget) : Record StyleEntry := ((namer w).styleMap ⟨true, true⟩ w).1

/-- The style sheet of a module of styled components. -/
def sheet (w : Widget) : StyleSheet := .ofMap (styleMap w) true

/-- The module is a script, with types or without. -/
theorem isScript_emit (o : ReactOptions) (w : Widget) : (emit o w).language.isScript = true := by
  unfold emit
  rcases w.componentName .react with ⟨name, namer⟩
  simp only [emptyModule, Module.withReturn, Module.withImport, Module.withDependency,
    Module.withExport]
  cases o.styling.package? <;> cases o.typed <;> rfl

/-- What a module of styled components is made of. -/
theorem emit_styledComponents {o : ReactOptions} {package : StyledPackage}
    (h : o.styling = .styledComponents package) (w : Widget) :
    (emit o w).name = (w.componentName .react).1 ∧
      (emit o w).declarations = (sheet w).uniques.map styledComponent ∧
      (emit o w).body = [.markup (sharedBinding.markup (sheet w) w)] := by
  have hpackage : o.styling.package? = some package := by rw [h]; rfl
  unfold emit sheet styleMap namer
  rcases w.componentName .react with ⟨name, namer⟩
  simp only [hpackage]
  exact ⟨rfl, rfl, rfl⟩

variable {w : Widget}

/-- What is free for a declaration is neither the component nor a reserved word. -/
theorem apart_of_isFree {name : String} (h : (namer w).isFree name = true) :
    name ≠ (w.componentName .react).1 ∧ name ≠ "React" ∧ name ≠ "styled" := by
  -- The component is taken, and the words of the module are reserved.
  rw [Namer.isFree_iff, Namer.blocked, namer, Widget.componentName, Namer.reserved_nameIt,
    Namer.taken_nameIt, List.mem_append, List.mem_cons, not_or, not_or] at h
  have hreact : "React" ∈ ReservedWords.react.words := by decide
  have hstyled : "styled" ∈ ReservedWords.react.words := by decide
  exact ⟨h.2.1, fun hname => h.1 (hname ▸ hreact), fun hname => h.1 (hname ▸ hstyled)⟩

/-- The tag that a chain has is the one of its entry after sharing. -/
theorem name_chainTag {c : Chain} {e : StyleEntry} (h : (styleMap w).get? c.id = some e) :
    (sharedBinding.chainTag (sheet w) c).name =
      (e.shareIn (declarationsOf (styleMap w).toList)).tag := by
  have hentry := StyleSheet.entry?_eq_some_iff.mpr ⟨e, h, rfl⟩
  unfold StyleBinding.chainTag StyleBinding.startTag
  rw [sheet, hentry]

/-- **The tag of a styled chain** is the name of the declaration that its entry takes. -/
theorem name_chainTag_styled {c : Chain} {name : String} {own first : StyleDeclaration}
    (hentry : (styleMap w).get? c.id = some (c.entry ⟨true, true⟩ name))
    (hown : (c.entry ⟨true, true⟩ name).declaration? = some own)
    (hfirst : (sheet w).declaration? c.id = some first) :
    (sharedBinding.chainTag (sheet w) c).name = first.name := by
  have htag : (c.entry ⟨true, true⟩ name).tag = own.name := by
    rw [Chain.declaration?_entry] at hown
    obtain ⟨css, hcss, rfl⟩ := Option.map_eq_some_iff.mp hown
    rw [Chain.entry, hcss]
    rfl
  -- The tag of the entry is its own name before sharing, and that of the first one after it.
  have hfound := (StyleSheet.declaration?_ofMap hentry hown).symm.trans hfirst
  rw [name_chainTag hentry, StyleEntry.tag_shareIn hown htag, hfound, Option.getD_some]

/-- **The tag that a chain has goes by its style.** -/
theorem tagged_chainTag (hids : (w.contents.map (·.id)).Nodup) {c : Chain}
    (hc : c ∈ w.chains .root) :
    Tagged (sheet w).uniques c (sharedBinding.chainTag (sheet w) c) := by
  obtain ⟨-, hshares⟩ := StyleSheet.sharesExactly_styleMap hids ⟨true, true⟩ (namer w)
  obtain ⟨name, hentry⟩ := Namer.exists_entry hids ⟨true, true⟩ (namer w) hc
  constructor
  · intro hcss
    -- Sharing leaves a bare entry as it is.
    have hbare : (c.entry ⟨true, true⟩ name).styling = none := by rw [Chain.entry, hcss]
    rw [name_chainTag hentry, StyleEntry.shareIn_of_bare hbare, Chain.entry, hcss]
  · intro css hcss
    have hown : (c.entry ⟨true, true⟩ name).declaration? =
        some ⟨name, c.element.start.name, css⟩ := by
      rw [Chain.declaration?_entry, hcss]
      rfl
    -- The entry takes the first declaration like its own, which is in use from then on.
    obtain ⟨first, hfirst, -, -, -, halike, -⟩ := hshares.first hentry hown
    exact ⟨first, hshares.mem_uniques.mpr ⟨_, hfirst⟩, name_chainTag_styled hentry hown hfirst,
      halike.1.symm, fun p => (halike.2 p).symm⟩

/-- Every declaration in use is the one of some chain of the tree, whose tag is its name. -/
theorem exists_chainTag (hids : (w.contents.map (·.id)).Nodup) {d : StyleDeclaration}
    (hd : d ∈ (sheet w).uniques) :
    ∃ c ∈ w.chains .root, (sharedBinding.chainTag (sheet w) c).name = d.name := by
  obtain ⟨-, hshares⟩ := StyleSheet.sharesExactly_styleMap hids ⟨true, true⟩ (namer w)
  obtain ⟨id, hid⟩ := hshares.mem_uniques.mp hd
  obtain ⟨e, own, hentry, hown, -⟩ := StyleSheet.exists_of_declaration? hid
  have hmem := Record.get?_eq_some_iff.mp hentry
  rw [Namer.toList_styleMap hids] at hmem
  -- The entry with the declaration is that of some chain.
  obtain ⟨c, hc, name, hpair⟩ := Namer.mem_entriesAlong hmem
  obtain ⟨rfl, rfl⟩ := Prod.mk.inj hpair
  exact ⟨c, hc, name_chainTag_styled hentry hown hid⟩

/-- **A module of styled components is closed.** -/
theorem emit_closed {o : ReactOptions} {package : StyledPackage}
    (hstyling : o.styling = .styledComponents package)
    (hids : (w.contents.map (·.id)).Nodup) :
    ∃ ds tree, (emit o w).declarations = ds.map styledComponent ∧
      (emit o w).body = [.markup tree] ∧ Closed (emit o w).name ds w tree := by
  obtain ⟨hname, hdeclarations, hbody⟩ := emit_styledComponents hstyling w
  refine ⟨_, _, hdeclarations, hbody, ?_⟩
  obtain ⟨hnames, hshares⟩ := StyleSheet.sharesExactly_styleMap hids ⟨true, true⟩ (namer w)
  constructor
  · exact (hshares.uniques_sublist.map _).nodup hnames
  · intro d hd
    -- What is declared has been handed out by the namer after the component.
    have hfree := (Namer.names_entriesAlong (p := ⟨true, true⟩) (w.chains .root) (namer w)).2 d
    rw [← Namer.toList_styleMap hids] at hfree
    rw [hname]
    exact apart_of_isFree (hfree (hshares.uniques_sublist.mem hd))
  · exact StyleBinding.stands_markup ⟨w, .root⟩ fun c hc => tagged_chainTag hids hc
  · intro d hd
    obtain ⟨c, hc, htag⟩ := exists_chainTag hids hd
    obtain ⟨inner, hinner⟩ : ∃ inner, .element (sharedBinding.chainTag (sheet w) c) inner ∈
        (sharedBinding.markup (sheet w) w).elements :=
      StyleBinding.exists_mem_elements ⟨w, .root⟩ c hc
    exact ⟨_, inner, hinner, htag⟩

/-- The module for two captions is closed. -/
theorem emit_twoCaptions : (StyleSheet.twoCaptions.contents.map (·.id)).Nodup ∧
    ∃ ds tree, (emit {} StyleSheet.twoCaptions).declarations = ds.map styledComponent ∧
      (emit {} StyleSheet.twoCaptions).body = [.markup tree] ∧
      Closed (emit {} StyleSheet.twoCaptions).name ds StyleSheet.twoCaptions tree :=
  ⟨by decide,
    emit_closed (show ReactOptions.styling {} = .styledComponents .emotion from rfl) (by decide)⟩

end React

end DesignCompiler
