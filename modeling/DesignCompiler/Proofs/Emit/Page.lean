import DesignCompiler.Emit.Page
import DesignCompiler.Code.Print
import DesignCompiler.Proofs.Emit.Web
import DesignCompiler.Proofs.Style.Sheet
/-!
# What a page is written with

Every widget of a tree has its element in the page that is made from it, and the attributes that the
element has by itself are all there, as the page writes them (`Page.attribute_infix_source`). Among
them are the addresses of the images that are shown.
-/

namespace DesignCompiler

namespace Page

variable {w : Widget}

/-- The style sheet of a page with classes. -/
def sheet (w : Widget) : StyleSheet :=
  .ofMap ((w.componentName .none).2.styleMap ⟨false, true⟩ w).1 true

/-- A page is in HTML. -/
theorem language_emit (o : PageOptions) (w : Widget) : (emit o w).language = .html := by
  unfold emit
  rcases w.componentName .none with ⟨name, namer⟩
  simp only [Module.withReturn, Module.withExport]
  cases o.styling <;> rfl

/-- A page is written as its rules, then its markup. -/
theorem source_of_html {m : Module} {tree : Markup} (hlanguage : m.language = .html)
    (himports : m.imports = []) (hbody : m.body = [.markup tree]) :
    ∃ rules, m.source = rules ++ tree.write .html 0 := by
  have himportLines : m.importLines.isEmpty = true := by rw [Module.importLines, himports]; rfl
  have hmarkup : m.markup = tree.write .html 0 := by
    rw [Module.markup, hbody]
    simp [Expr.writeLines]
  rw [Module.source, if_pos himportLines, Module.code, hlanguage]
  exact ⟨_, congrArg (_ ++ ·) hmarkup⟩

/-- The source of a page with classes is its rules and then its markup. -/
theorem source_emit (w : Widget) : ∃ rules,
    (emit {} w).source = rules ++ (classBinding.markup (sheet w) w).write .html 0 := by
  unfold emit sheet
  rcases w.componentName .none with ⟨name, namer⟩
  exact source_of_html rfl rfl rfl

/-- The start tag of a chain has the attributes of its element, as a page writes them. -/
theorem mem_attributes_chainTag (hids : (w.contents.map (·.id)).Nodup) {c : Chain}
    (hc : c ∈ w.chains .root) {a : Attribute} (ha : a ∈ c.element.start.attributes) :
    a.plain ∈ (classBinding.chainTag (sheet w) c).attributes := by
  obtain ⟨name, hentry⟩ :=
    Namer.exists_entry hids ⟨false, true⟩ (w.componentName .none).2 hc
  -- Sharing changes the declaration of an entry, but none of its attributes.
  have hsheet := StyleSheet.entry?_eq_some_iff.mpr ⟨_, hentry, rfl⟩
  unfold StyleBinding.chainTag StyleBinding.startTag
  rw [sheet, hsheet]
  refine List.mem_append_left _ (List.mem_map.mpr ⟨a, ?_, rfl⟩)
  rw [StyleEntry.attributes_shareIn, Chain.attributes_entry]
  exact ha

/-- **The attributes of every element** are in the page. -/
theorem attribute_infix_source (hids : (w.contents.map (·.id)).Nodup) {c : Chain}
    (hc : c ∈ w.chains .root) {a : Attribute} (ha : a ∈ c.element.start.attributes) :
    (a.plain.write .html).toList <:+: (emit {} w).source.toList := by
  obtain ⟨rules, hsource⟩ := source_emit w
  obtain ⟨inner, hinner⟩ : ∃ inner, .element (classBinding.chainTag (sheet w) c) inner ∈
      (classBinding.markup (sheet w) w).elements :=
    StyleBinding.exists_mem_elements ⟨w, .root⟩ c hc
  rw [hsource]
  exact infix_append_text (Or.inr
    (Markup.attribute_infix_write hinner (mem_attributes_chainTag hids hc ha) 0))

end Page

end DesignCompiler
