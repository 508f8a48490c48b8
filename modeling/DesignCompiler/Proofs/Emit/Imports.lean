import DesignCompiler.Proofs.Emit.Capture
/-!
# What a module of calls takes from elsewhere

The stock widgets are imported in any case. The filters of blurs and the package for drawings are
imported where a blur or a drawing is in the tree, which is asked of the widgets and not of the calls
that are made for them. Between the two stand all of the ways to place, stretch, clip and share out a
child, so it is a question whether the call is made when there is such a widget, and only then.

`Flutter.mem_callees_iff` has the answer, for any function that is no constructor of a look, of a box
or of an effect: an expression calls it if a widget of the walk stands for such a call. What is
imported is what is called follows (`Flutter.importsTightly_emit`).
-/

namespace DesignCompiler

/-- The stock widgets. -/
def Import.material : Import := { source := "package:flutter/material.dart" }

/-- The filters, which go by the name `ui`. -/
def Import.filters : Import := { source := "dart:ui", qualifier := some "ui" }

/-- The package for drawings. -/
def Import.drawings : Import := { source := "package:flutter_svg/flutter_svg.dart" }

/-- **What it means that a module imports what it calls:** the stock widgets, and filters and
drawings if and only if there is a call for them; each once, and nothing more. -/
structure Module.ImportsTightly (m : Module) : Prop where
  material : Import.material ∈ m.imports
  filters : Import.filters ∈ m.imports ↔ "ui.ImageFilter.blur" ∈ m.callees
  drawings : Import.drawings ∈ m.imports ↔ "SvgPicture.string" ∈ m.callees
  imports : m.imports ⊆ [Import.material, Import.filters, Import.drawings]
  sources : (m.imports.map (·.source)).Nodup
  flutter : "flutter" ∈ m.dependencies
  package : "flutter_svg" ∈ m.dependencies ↔ "SvgPicture.string" ∈ m.callees
  dependencies : m.dependencies ⊆ ["flutter", "flutter_svg"]
  packages : m.dependencies.Nodup

namespace Flutter

/-! ### Calls and widgets -/

/-- **An expression calls what its widgets stand for,** boxes, effects and looks apart. -/
theorem mem_callees_iff {callee : String} (h : callee ∉ lookCallees ++ boxCallees) (w : Widget)
    (parent : Option Direction) : callee ∈ (expr parent w).callees ↔
      ∃ v ∈ w.walk, ∃ call ∈ ownCalls v, call.callee? = some callee := by
  -- What is neither a look nor a box is called by leaves and blurs only, and these stand in the
  -- tree.
  have hp : Apart (· == callee) := by
    intro other hother
    exact beq_eq_false_iff_ne.mpr fun heq => h (heq ▸ hother)
  have hfound : ∀ call : Expr,
      call.callee?.any (· == callee) = true ↔ call.callee? = some callee := by
    intro call
    cases call.callee? <;> simp
  calc
    callee ∈ (expr parent w).callees
    _ ↔ ∃ call ∈ (expr parent w).subterms, call.callee? = some callee := List.mem_filterMap
    _ ↔ ∃ call, call ∈ (expr parent w).callsOf (· == callee) := by
        simp only [Expr.callsOf, List.mem_filter, hfound]
    _ ↔ ∃ call, call ∈ w.walk.flatMap ownCalls ∧ call.callee? = some callee := by
        simp only [callsOf_expr hp, List.mem_filter, hfound]
    _ ↔ ∃ v ∈ w.walk, ∃ call ∈ ownCalls v, call.callee? = some callee := by
        simp only [List.mem_flatMap]
        constructor
        · rintro ⟨call, ⟨v, hv, hcall⟩, hcallee⟩
          exact ⟨v, hv, call, hcall, hcallee⟩
        · rintro ⟨v, hv, call, hcall, hcallee⟩
          exact ⟨call, ⟨v, hv, hcall⟩, hcallee⟩

/-- Blurs are the widgets that stand for a filter. -/
theorem isBlur_iff (v : Widget) :
    isBlur v = true ↔ ∃ call ∈ ownCalls v, call.callee? = some "ui.ImageFilter.blur" := by
  cases v with
  | leaf key s content =>
    -- A leaf calls one of four functions, and none of them makes a filter.
    rcases content with _ | _ | ⟨_ | _, _, _, _⟩ | _ | _ <;>
      simp [isBlur, ownCalls, leafCall, icon, svg, Expr.callee?]
  | box => simp [isBlur, ownCalls]
  | wrap key s w child => cases w <;> simp [isBlur, ownCalls, filters, blurFilter, Expr.callee?]

/-- Drawings are the widgets that stand for a picture. -/
theorem isDrawing_iff (v : Widget) :
    isDrawing v = true ↔ ∃ call ∈ ownCalls v, call.callee? = some "SvgPicture.string" := by
  cases v with
  | leaf key s content =>
    rcases content with _ | _ | ⟨_ | _, _, _, _⟩ | _ | _ <;>
      simp [isDrawing, ownCalls, leafCall, icon, svg, Expr.callee?]
  | box => simp [isDrawing, ownCalls]
  | wrap key s w child =>
    cases w <;> simp [isDrawing, ownCalls, filters, blurFilter, Expr.callee?]

/-- What is asked of the widgets holds if and only if there is a call for it. -/
theorem any_walk_iff {callee : String} {p : Widget → Bool} (h : callee ∉ lookCallees ++ boxCallees)
    (hown : ∀ v, p v = true ↔ ∃ call ∈ ownCalls v, call.callee? = some callee) (w : Widget) :
    w.walk.any p = true ↔ callee ∈ (emit w).callees := by
  rw [Module.callees, body_emit, List.flatMap_singleton, mem_callees_iff h, List.any_eq_true]
  simp only [hown]

/-! ### Imports -/

/-- What is imported is decided by two questions about the tree. -/
theorem imports_emit (w : Widget) : (emit w).imports = [Import.material] ++
    (if w.walk.any isBlur then [Import.filters] else []) ++
    (if w.walk.any isDrawing then [Import.drawings] else []) := by
  rw [emit_eq]
  rfl

theorem dependencies_emit (w : Widget) : (emit w).dependencies =
    ["flutter"] ++ if w.walk.any isDrawing then ["flutter_svg"] else [] := by
  rw [emit_eq]

/-- **A filter is called exactly if there is a blur in the tree.** -/
theorem mem_callees_filters (w : Widget) :
    w.walk.any isBlur = true ↔ "ui.ImageFilter.blur" ∈ (emit w).callees :=
  any_walk_iff (by decide) isBlur_iff w

/-- **A picture is called exactly if there is a drawing in the tree.** -/
theorem mem_callees_drawings (w : Widget) :
    w.walk.any isDrawing = true ↔ "SvgPicture.string" ∈ (emit w).callees :=
  any_walk_iff (by decide) isDrawing_iff w

/-- **A module of calls imports exactly what it calls,** for every tree. -/
theorem importsTightly_emit (w : Widget) : (emit w).ImportsTightly where
  material := by
    rw [imports_emit]
    exact List.mem_append_left _ (List.mem_append_left _ (List.mem_singleton_self _))
  -- With the calls known, each field is a matter of the two questions, and so of four cases.
  filters := by
    rw [imports_emit, ← mem_callees_filters]
    cases w.walk.any isBlur <;> cases w.walk.any isDrawing <;> decide
  drawings := by
    rw [imports_emit, ← mem_callees_drawings]
    cases w.walk.any isBlur <;> cases w.walk.any isDrawing <;> decide
  imports := by
    rw [imports_emit]
    cases w.walk.any isBlur <;> cases w.walk.any isDrawing <;> decide
  sources := by
    rw [imports_emit]
    cases w.walk.any isBlur <;> cases w.walk.any isDrawing <;> decide
  flutter := by
    rw [dependencies_emit]
    exact List.mem_append_left _ (List.mem_singleton_self _)
  package := by
    rw [dependencies_emit, ← mem_callees_drawings]
    cases w.walk.any isDrawing <;> decide
  dependencies := by
    rw [dependencies_emit]
    cases w.walk.any isDrawing <;> decide
  packages := by
    rw [dependencies_emit]
    cases w.walk.any isDrawing <;> decide

end Flutter

end DesignCompiler
