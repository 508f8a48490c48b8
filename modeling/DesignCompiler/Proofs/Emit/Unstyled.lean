import DesignCompiler.Proofs.Emit.Classes
import DesignCompiler.Proofs.Style.Unstyled
/-!
# No style and an empty style

An element without a style and one with an empty style look alike as long as only declarations are
compared, and it would be easy to mix them up on the way from the computed style to what is written:
in the style map, when styles are shared, and in each of the two ways to write a shared style.
`Widget.KeepsUnstyled` says that they are told apart all along.

* An entry is bare exactly where the chain is not styled, in the map and in every sheet made from it.
* Where styles are declared, as components or as rules for classes, nothing that is declared styles
  the element of such a chain. Every other element has a declaration that styles it, and if its style
  is empty, so is that declaration (`DeclaredFor`).
-/

namespace DesignCompiler

/-! ### Entries -/

/-- The entry of a chain is bare exactly if the chain has no style. -/
theorem Chain.styling_entry_eq_none_iff (p : StylePreferences) (c : Chain) (name : String) :
    (c.entry p name).styling = none ↔ c.css? = none := by
  unfold Chain.entry
  cases c.css? <;> simp

/-- An entry that takes another declaration is bare if it was. -/
theorem StyleEntry.styling_shareIn_eq_none_iff (e : StyleEntry) (ds : List StyleDeclaration) :
    (e.shareIn ds).styling = none ↔ e.styling = none := by
  rw [← Option.map_eq_none_iff (f := (·.style)), style_shareIn, Option.map_eq_none_iff]

namespace StyleSheet

/-- Each chain has an entry in the sheet, with sharing or without, which is bare just where the chain
is not styled. -/
theorem exists_entry_bare_iff {w : Widget} (hids : (w.contents.map (·.id)).Nodup)
    (p : StylePreferences) (n : Namer) (sharing : Bool) {c : Chain} (hc : c ∈ w.chains .root) :
    ∃ e, entry? (ofMap (n.styleMap p w).1 sharing) c.id = some e ∧
      (e.styling = none ↔ c.Unstyled) := by
  obtain ⟨name, hentry⟩ := Namer.exists_entry hids p n hc
  rw [← c.css?_eq_none_iff, ← c.styling_entry_eq_none_iff p name]
  cases sharing with
  | false => exact ⟨_, (lookup_ofMap_unshared ..).trans hentry, Iff.rfl⟩
  | true =>
    exact ⟨_, entry?_eq_some_iff.mpr ⟨_, hentry, rfl⟩, StyleEntry.styling_shareIn_eq_none_iff ..⟩

end StyleSheet

/-! ### Declarations -/

/-- **A declaration styles an element** that is named like the component, or has the class that the
rule is for. -/
def Declaration.Styles (start : StartTag) : Declaration → Prop
  | .styledComponent component _ _ => start.name = component
  | .cssRule selector _ => ∃ className, .ofText "class" className ∈ start.attributes ∧
    selector = "." ++ className

/-- **What a module declares for the element of a chain.** One that is not styled is styled by nothing;
any other has a declaration that sets what its style sets, and nothing if that is empty. -/
structure DeclaredFor (m : Module) (c : Chain) (start : StartTag) : Prop where
  unstyled : c.Unstyled → ∀ d ∈ m.declarations, ¬ d.Styles start
  styled : ∀ css, c.css? = some css → ∃ d ∈ m.declarations, d.Styles start ∧
    (∀ p, p ∈ d.style.toList ↔ p ∈ css.toList) ∧ (css.isEmpty = true → d.style.isEmpty = true)

/-- A record with the pairs of an empty one is empty. -/
theorem Record.isEmpty_of_mem_iff {α : Type} {r s : Record α}
    (h : ∀ p, p ∈ r.toList ↔ p ∈ s.toList) (hs : s.isEmpty = true) : r.isEmpty = true := by
  rw [isEmpty, List.isEmpty_iff] at hs ⊢
  refine List.eq_nil_iff_forall_not_mem.mpr fun p hp => ?_
  rw [h, hs] at hp
  exact List.not_mem_nil hp

/-- Styled components are told apart by tags: a plain tag is not the name of one. -/
theorem React.Tagged.declaredFor {m : Module} {ds : List StyleDeclaration} {c : Chain}
    {start : StartTag} (h : m.declarations = ds.map styledComponent)
    (hnames : ∀ d ∈ ds, IsIdentifier d.name) (htagged : Tagged ds c start) :
    DeclaredFor m c start := by
  refine ⟨fun hunstyled declaration hdeclared hstyles => ?_, fun css hcss => ?_⟩
  · rw [h] at hdeclared
    obtain ⟨d, hd, rfl⟩ := List.mem_map.mp hdeclared
    -- The plain tag would be an identifier, as all names of components are.
    have hname : start.name = d.name := hstyles
    rw [htagged.bare (c.css?_eq_none_iff.mpr hunstyled)] at hname
    exact c.head.not_isIdentifier_start (hname ▸ hnames d hd)
  · obtain ⟨d, hd, hname, -, hpairs⟩ := htagged.styled css hcss
    exact ⟨styledComponent d, h ▸ List.mem_map_of_mem hd, hname, hpairs,
      Record.isEmpty_of_mem_iff hpairs⟩

/-- Rules are told apart by classes: an element without a style has none. -/
theorem Page.Labelled.declaredFor {m : Module} {ds : List StyleDeclaration} {c : Chain}
    {start : StartTag} (h : m.declarations = ds.map classRule) (hlabelled : Labelled ds c start) :
    DeclaredFor m c start := by
  refine ⟨fun hunstyled declaration hdeclared hstyles => ?_, fun css hcss => ?_⟩
  · rw [h] at hdeclared
    obtain ⟨d, -, rfl⟩ := List.mem_map.mp hdeclared
    obtain ⟨className, hclass, -⟩ := hstyles
    -- There would be a class after all, whichever rule it is for.
    have hnone := hlabelled.bare (c.css?_eq_none_iff.mpr hunstyled)
    rw [List.filter_eq_nil_iff] at hnone
    exact hnone _ hclass (by rfl)
  · obtain ⟨d, hd, hclass, hpairs⟩ := hlabelled.styled css hcss
    have hmem : Attribute.ofText "class" (className d.name) ∈
        start.attributes.filter (·.name == "class") := hclass ▸ List.mem_cons_self
    exact ⟨classRule d, h ▸ List.mem_map_of_mem hd, ⟨_, (List.mem_filter.mp hmem).1, rfl⟩, hpairs,
      Record.isEmpty_of_mem_iff hpairs⟩

/-! ### The law -/

/-- **No style is kept apart from an empty style,** for every widget of a tree: in the style map, in
the sheets that are made from it, and in modules that declare styles. -/
structure Widget.KeepsUnstyled (w : Widget) : Prop where
  chains : (w.chains .root).map (·.widget) = w.contents
  map : ∀ p (n : Namer), ∀ c ∈ w.chains .root, ∃ e, (n.styleMap p w).1.get? c.id = some e ∧
    (e.styling = none ↔ c.Unstyled)
  sheet : ∀ p (n : Namer) sharing, ∀ c ∈ w.chains .root, ∃ e,
    StyleSheet.entry? (.ofMap (n.styleMap p w).1 sharing) c.id = some e ∧
      (e.styling = none ↔ c.Unstyled)
  components : ∀ (o : ReactOptions) package, o.styling = .styledComponents package → ∃ tree,
    (React.emit o w).body = [.markup tree] ∧
      Stands React.sharedBinding (DeclaredFor (React.emit o w)) ⟨w, .root⟩ tree
  classes : ∀ o : PageOptions, o.styling = .classes → ∃ tree,
    (Page.emit o w).body = [.markup tree] ∧
      Stands Page.classBinding (DeclaredFor (Page.emit o w)) ⟨w, .root⟩ tree

/-- **A chain has no style exactly if it is not styled, and that is never mixed up with an empty
style** in a tree with distinct ids. -/
theorem unstyled_apart :
    (∀ c : Chain, c.css? = none ↔ c.Unstyled) ∧
      ∀ w : Widget, (w.contents.map (·.id)).Nodup → w.KeepsUnstyled := by
  refine ⟨Chain.css?_eq_none_iff, fun w hids => ⟨w.map_widget_chains .root, ?_, ?_, ?_, ?_⟩⟩
  · -- The entry in the map is made from the computed style,
    intro p n c hc
    obtain ⟨name, hentry⟩ := Namer.exists_entry hids p n hc
    exact ⟨_, hentry, (c.styling_entry_eq_none_iff p name).trans c.css?_eq_none_iff⟩
  · -- sharing only replaces declarations by others,
    exact fun p n sharing c hc => StyleSheet.exists_entry_bare_iff hids p n sharing hc
  · -- and each way to write a shared style goes by the entry.
    intro o package hstyling
    obtain ⟨-, hdeclarations, hbody⟩ := React.emit_styledComponents hstyling w
    have hnames : ∀ d ∈ (React.sheet w).uniques, IsIdentifier d.name :=
      StyleSheet.isIdentifier_uniques hids ⟨true, true⟩ (React.namer w)
    exact ⟨_, hbody, StyleBinding.stands_markup ⟨w, .root⟩ fun c hc =>
      (React.tagged_chainTag hids hc).declaredFor hdeclarations hnames⟩
  · intro o hstyling
    obtain ⟨hdeclarations, hbody⟩ := Page.emit_classes hstyling w
    exact ⟨_, hbody, StyleBinding.stands_markup ⟨w, .root⟩ fun c hc =>
      (Page.labelled_chainTag hids hc).declaredFor hdeclarations⟩

/-- A drawing and an empty box in a row. -/
def glyphAndSpacer : Widget :=
  .box ⟨"1", "Card", none⟩ (.sized 100 100) (.flex ⟨.row, .min, .min, 0⟩ true)
    [⟨0, 0, .leaf ⟨"2", "Glyph", none⟩ (.sized 8 8) (.vector ⟨[], none, none, 8, 8⟩)⟩,
      ⟨0, 0, .box ⟨"3", "Spacer", none⟩ {} (.container .rectangle false) []⟩]

/-- In the row, one element has no style and one has an empty style. -/
theorem unstyled_apart_glyphAndSpacer :
    (glyphAndSpacer.contents.map (·.id)).Nodup ∧
      (glyphAndSpacer.chains .root).map (fun c => c.css?.map (·.isEmpty)) =
        [some false, none, some true] ∧
      glyphAndSpacer.KeepsUnstyled := by
  have hids : (glyphAndSpacer.contents.map (·.id)).Nodup := by decide
  exact ⟨hids, rfl, unstyled_apart.2 glyphAndSpacer hids⟩

end DesignCompiler
