import DesignCompiler.Proofs.Style.CanonicalKey
import DesignCompiler.Proofs.Style.Merge
/-!
# The style of a filled box

The fill of a box is one pair of its style, the CSS notation of the color under `background-color`,
and neither a wrapper nor the place of the box writes that property. So boxes that differ in nothing
else have one style if and only if their fills are written alike (`alike_filledBox_iff`).
-/

namespace DesignCompiler

/-- A box without children that is filled with a color. -/
def filledBox (key : WidgetKey) (s : Style) (c : Color) : Widget :=
  .box key { s with background := some (.color c) } (.container .rectangle false) []

/-- What a box declares after its fill. -/
def Style.trimDeclarations (s : Style) : Declarations :=
  declare? "border" Border.value s.border ++ declare? "border-radius" cornersValue s.borderRadius ++
  s.shadowDeclarations ++
  (match s.padding with
    | some insets => [("padding", insetsValue insets), ("box-sizing", "border-box")]
    | none => [])

variable {head head' : Widget} {placement : Placement} {key key' : WidgetKey} {s : Style}
  {c d : Color}

/-- A filled box declares its size, its fill and its trim, in that order. -/
theorem ownDeclarations?_filledBox : (filledBox key s c).ownDeclarations? =
    some (s.sizeDeclarations ++ ("background-color", c.cssText) :: s.trimDeclarations) := by
  have hcolor : (Background.color c).declarations = [("background-color", c.cssText)] := rfl
  change some ((((_ ++ (Background.color c).declarations) ++ _ ++ _ ++ _ ++ _) ++ [] ++ []) ++ []) = _
  rw [hcolor, Style.trimDeclarations]
  simp only [List.append_assoc, List.append_nil, List.singleton_append]
  rfl

theorem fill_not_mem_declare {α : Type} {property : String} {write : α → String}
    (value : Option α) (h : property ≠ "background-color") :
    "background-color" ∉ (declare? property write value).map Prod.fst := by
  cases value <;> simp [declare?, h.symm]

/-- No trim declares a fill. -/
theorem fill_not_mem_trim (s : Style) : "background-color" ∉ s.trimDeclarations.map Prod.fst := by
  simp only [Style.trimDeclarations, List.map_append, List.mem_append, not_or]
  refine ⟨⟨⟨fill_not_mem_declare _ (by decide), fill_not_mem_declare _ (by decide)⟩, ?_⟩, ?_⟩
  · unfold Style.shadowDeclarations
    split <;> simp
  · cases s.padding <;> simp

/-- Nor do wrappers and placement. -/
theorem fill_not_mem_around (ws : List Wrapper) (placement : Placement) : "background-color" ∉
    (ws.flatMap (·.declarations placement) ++ placement.declarations).map Prod.fst := by
  rw [List.map_append, List.mem_append, not_or]
  constructor
  · intro h
    obtain ⟨d, hd, hkey⟩ := List.mem_map.mp h
    have hproperty := mem_wrapperProperties hd
    rw [hkey] at hproperty
    exact absurd hproperty (by decide)
  · cases placement <;> simp [Placement.declarations]

/-- **The fill is in the style** as its CSS notation. -/
theorem get?_css_filledBox (h : head.unwrapped = filledBox key s c) {css : Css}
    (hcss : head.css? placement = some css) : css.get? "background-color" = some c.cssText := by
  rw [Widget.get?_css (by decide) hcss, Widget.declared, h, ownDeclarations?_filledBox,
    Option.getD_some, Declarations.last?_append,
    Declarations.last?_eq_none (fill_not_mem_around _ _), Option.none_or, Declarations.last?_append,
    Declarations.last?_cons, Declarations.last?_eq_none (fill_not_mem_trim s)]
  simp

/-- Fills that are written alike leave no difference. -/
theorem css?_filledBox_congr (h : head.unwrapped = filledBox key s c)
    (h' : head'.unwrapped = filledBox key' s d) (hwrappers : head.wrappers = head'.wrappers)
    (htext : c.cssText = d.cssText) : head.css? placement = head'.css? placement := by
  unfold Widget.css?
  rw [h, h', ownDeclarations?_filledBox, ownDeclarations?_filledBox, hwrappers, htext]

/-- A filled box has a style. -/
theorem exists_css_filledBox (h : head.unwrapped = filledBox key s c) (placement : Placement) :
    ∃ css, head.css? placement = some css :=
  Widget.exists_css_of_own (h ▸ ownDeclarations?_filledBox) placement

/-- **Filled boxes have one style if and only if their fills are written alike.** -/
theorem alike_filledBox_iff (h : head.unwrapped = filledBox key s c)
    (h' : head'.unwrapped = filledBox key' s d) (hwrappers : head.wrappers = head'.wrappers)
    {css css' : Css} (hcss : head.css? placement = some css)
    (hcss' : head'.css? placement = some css') :
    (∀ p, p ∈ css.toList ↔ p ∈ css'.toList) ↔ c.cssText = d.cssText := by
  constructor
  · -- The fill is found under one property on both sides.
    intro hpairs
    have hfill := (hpairs _).mp (Record.get?_eq_some_iff.mp (get?_css_filledBox h hcss))
    rw [← Record.get?_eq_some_iff, get?_css_filledBox h' hcss'] at hfill
    exact (Option.some.inj hfill).symm
  · intro htext p
    rw [css?_filledBox_congr h h' hwrappers htext, hcss'] at hcss
    rw [Option.some.inj hcss]

end DesignCompiler
