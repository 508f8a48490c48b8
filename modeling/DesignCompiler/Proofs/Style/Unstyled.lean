import DesignCompiler.Proofs.Lowering.Recorded
import DesignCompiler.Proofs.Style.Chains
/-!
# Chains without a style

A computed style may be absent, and it may be there without any declarations. The two come about in
different ways. Only a drawing has no declarations of its own to begin with, and it stays without a
style as long as nothing around it adds any. All other widgets have a style, if an empty one.

What is around a drawing is its place and its wrappers. An offset always adds something, and so does
every wrapper but one: filling the parent across its line means nothing where there is no line
(`Wrapper.SilentAt`). `Chain.css?_eq_none_iff` is the condition that follows.
-/

namespace DesignCompiler

/-! ### Records without pairs -/

@[simp] theorem Record.isEmpty_put {α : Type} (r : Record α) (k : String) (v : α) :
    (r.put k v).isEmpty = false := by
  rw [isEmpty, toList_put]
  cases r.toList with
  | nil => rfl
  | cons p rest =>
    obtain ⟨l, w⟩ := p
    rw [putPair]
    split <;> rfl

/-- Only writing nothing into an empty record leaves it empty. -/
theorem Css.isEmpty_setAll (css : Css) (ds : Declarations) :
    (css.setAll ds).isEmpty = (css.isEmpty && ds.isEmpty) := by
  induction ds generalizing css with
  | nil => simp
  | cons d rest ih => simp [ih]

/-! ### What is around a widget -/

/-- **A wrapper that adds nothing** at a place: it fills the parent across its line, and the parent
has none. -/
def Wrapper.SilentAt (placement : Placement) (wrapper : Wrapper) : Prop :=
  wrapper = .stretched .cross ∧ ∀ direction, placement ≠ .flex direction

/-- An axis declares nothing only if it is the one across a line that is not there. -/
theorem StretchAxis.declarations_eq_nil_iff {placement : Placement} {axis : StretchAxis} :
    axis.declarations placement = [] ↔
      axis = .cross ∧ ∀ direction, placement ≠ .flex direction := by
  cases axis with
  | cross => cases placement <;> simp [declarations]
  | _ => simp [declarations]

/-- A wrapper adds nothing exactly when it is silent. -/
theorem Wrapper.isEmpty_addTo {placement : Placement} {css : Css} (wrapper : Wrapper) :
    (wrapper.addTo placement css).isEmpty = true ↔
      css.isEmpty = true ∧ wrapper.SilentAt placement := by
  cases wrapper with
  | stretched axis =>
    rw [addTo, Css.isEmpty_setAll, Bool.and_eq_true, List.isEmpty_iff,
      StretchAxis.declarations_eq_nil_iff, SilentAt, stretched.injEq]
  | _ => simp [addTo, SilentAt]

/-- A chain of wrappers adds nothing if none of them does. -/
theorem isEmpty_foldl_addTo {placement : Placement} (ws : List Wrapper) (css : Css) :
    (ws.foldl (Wrapper.addTo placement) css).isEmpty = true ↔
      css.isEmpty = true ∧ ∀ e ∈ ws, e.SilentAt placement := by
  induction ws generalizing css with
  | nil => simp
  | cons e rest ih =>
    rw [List.foldl_cons, ih, Wrapper.isEmpty_addTo, List.forall_mem_cons, and_assoc]

/-- Only an absolute placement declares anything. -/
theorem Placement.declarations_eq_nil_iff {placement : Placement} :
    placement.declarations = [] ↔ ∀ x y, placement ≠ .absolute x y := by
  cases placement <;> simp [declarations]

/-- There is no extra css exactly when all wrappers are silent and nothing is placed. -/
theorem isEmpty_extraCss_iff {placement : Placement} {ws : List Wrapper} :
    (extraCss ws placement).isEmpty = true ↔
      (∀ e ∈ ws, e.SilentAt placement) ∧ ∀ x y, placement ≠ .absolute x y := by
  have hempty : (Record.empty : Css).isEmpty = true := rfl
  rw [extraCss, Css.isEmpty_setAll, Bool.and_eq_true, isEmpty_foldl_addTo, List.isEmpty_iff,
    Placement.declarations_eq_nil_iff, hempty, eq_self_iff_true, true_and]

/-! ### Chains -/

/-- Drawings are the widgets that have no declarations of their own. -/
theorem Widget.ownDeclarations?_eq_none_iff (w : Widget) :
    w.ownDeclarations? = none ↔ w.IsDrawn := by
  cases w with
  | leaf key style content =>
    cases content <;> simp [ownDeclarations?, Leaf.declarations?, IsDrawn, kindName]
  | box key style arrangement children =>
    cases arrangement <;> simp [ownDeclarations?, IsDrawn, kindName]
  | wrap key style wrapper child =>
    cases wrapper <;> simp [ownDeclarations?, IsDrawn, kindName]

/-- **A chain that is not styled:** it ends in a drawing, and neither its place nor any of its
wrappers adds anything. -/
structure Chain.Unstyled (c : Chain) : Prop where
  drawn : c.widget.IsDrawn
  notPlaced : ∀ x y, c.placement ≠ .absolute x y
  silent : ∀ wrapper ∈ c.head.wrappers, wrapper.SilentAt c.placement

/-- **A chain has no style exactly if it is not styled;** an empty style is one. -/
theorem Chain.css?_eq_none_iff (c : Chain) : c.css? = none ↔ c.Unstyled := by
  unfold css? Widget.css?
  constructor
  · intro h
    -- A widget with declarations of its own always has css, be it empty.
    cases hown : c.head.unwrapped.ownDeclarations? with
    | some own =>
      simp only [hown] at h
      cases h
    | none =>
      simp only [hown, ite_eq_left_iff, reduceCtorEq, imp_false, Decidable.not_not] at h
      obtain ⟨hsilent, hplaced⟩ := isEmpty_extraCss_iff.mp h
      exact ⟨(Widget.ownDeclarations?_eq_none_iff _).mp hown, hplaced, hsilent⟩
  · intro h
    have hown : c.head.unwrapped.ownDeclarations? = none :=
      (Widget.ownDeclarations?_eq_none_iff _).mpr h.drawn
    have hextra : (extraCss c.head.wrappers c.placement).isEmpty = true :=
      isEmpty_extraCss_iff.mpr ⟨h.silent, h.notPlaced⟩
    simp only [hown, hextra, if_true]

end DesignCompiler
