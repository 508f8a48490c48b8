import DesignCompiler.Proofs.Style.Chains
import DesignCompiler.Proofs.Style.Merge
/-!
# Offsets count from the parent

On the web an offset counts from the nearest element around it that has a position. A child that is
placed at an offset is meant to be placed within its parent, so the element of the parent has to
have a position itself; else the offset would count from some element further out.

`positioned_styleMap` says that this holds for every style map of a tree with distinct ids. A box
that places its children says so in its own declarations (`mem_ownDeclarations_position`). Nothing
around it takes the position away again, for wrappers do not set one (`wrapperProperties`) and a
placement at most makes it absolute.
-/

namespace DesignCompiler

/-! ### Styles with a position -/

namespace Css

/-- A style that puts the element at an offset. -/
structure IsAt (css : Css) (x y : Float) : Prop where
  position : css.get? "position" = some "absolute"
  left : css.get? "left" = some (px x)
  top : css.get? "top" = some (px y)

/-- A style from whose element the offsets beneath it count. -/
def IsPositioned (css : Css) : Prop :=
  css.get? "position" = some "relative" ∨ css.get? "position" = some "absolute"

/-- A style that leaves the element where it is. -/
structure HasNoOffset (css : Css) : Prop where
  left : css.get? "left" = none
  top : css.get? "top" = none

end Css

/-- Whether a box places its children at offsets. -/
def Arrangement.places : Arrangement → Bool
  | .container .. | .group | .stack _ => true
  | .flex .. => false

/-- An arrangement that places its children places each one at its offset. -/
theorem Arrangement.placement_of_places {a : Arrangement} (h : a.places = true)
    (d : Placed Widget) : a.placement d = .absolute d.x d.y := by
  cases a with
  | flex => cases h
  | _ => rfl

/-- **A box that places children has a position of its own.** -/
theorem mem_ownDeclarations_position {a : Arrangement} (h : a.places = true) (s : Style) :
    ("position", "relative") ∈ a.declarations s false := by
  cases a with
  | flex => cases h
  | _ => simp [Arrangement.declarations]

/-! ### What a placement makes of a chain -/

namespace Chain

variable {c : Chain}

/-- Where an element is placed at an offset, that is the last word on its position. -/
theorem exists_css_at {x y : Float} (h : c.placement = .absolute x y) :
    ∃ css, c.css? = some css ∧ css.IsAt x y := by
  have hposition : (c.head.declared c.placement).last? "position" = some "absolute" := by
    simp [Widget.declared, h, Placement.declarations, Declarations.last?_cons]
  obtain ⟨css, hcss, hvalue⟩ := Widget.exists_css (by decide) hposition
  refine ⟨css, hcss, hvalue, ?_, ?_⟩ <;> rw [Widget.get?_css (by decide) hcss] <;>
    simp [Widget.declared, h, Placement.declarations, Declarations.last?_cons]

/-- An element around placed ones has a position, at an offset or not. -/
theorem exists_css_positioned {key : WidgetKey} {s : Style} {a : Arrangement}
    {children : List (Placed Widget)} (h : c.widget = .box key s a children)
    (hplaces : a.places = true) (hne : children ≠ []) :
    ∃ css, c.css? = some css ∧ css.IsPositioned := by
  have hempty : children.isEmpty = false := List.isEmpty_eq_false_iff.mpr hne
  have hown : c.head.unwrapped.ownDeclarations?.getD [] = a.declarations s false := by
    rw [show c.head.unwrapped = _ from h, Widget.ownDeclarations?, hempty, Option.getD_some]
  -- Of what a widget declares itself, nothing but this is about its position.
  have hlook : "position" ∉ lookProperties := by decide
  have hrelative : (a.declarations s false).last? "position" = some "relative" := by
    refine Declarations.last?_eq_some (mem_ownDeclarations_position hplaces s) fun u hu => ?_
    rcases isOwn_arrangement s false a _ hu with hmem | heq
    · exact absurd hmem hlook
    · exact congrArg Prod.snd heq
  have hwrappers : Declarations.last?
      (c.head.wrappers.flatMap (·.declarations c.placement)) "position" = none :=
    last?_wrappers_eq_none (by decide) c.placement c.head.wrappers
  cases hplacement : c.placement with
  | absolute x y =>
    obtain ⟨css, hcss, hat⟩ := exists_css_at hplacement
    exact ⟨css, hcss, Or.inr hat.position⟩
  | root | flex =>
    rw [hplacement] at hwrappers
    have hposition : (c.head.declared c.placement).last? "position" = some "relative" := by
      rw [Widget.declared, hown, Declarations.last?_append, Declarations.last?_append, hplacement,
        hwrappers, Placement.declarations, Declarations.last?_nil, hrelative]
      rfl
    obtain ⟨css, hcss, hvalue⟩ := Widget.exists_css (by decide) hposition
    exact ⟨css, hcss, Or.inl hvalue⟩

/-- Only a placement sets an offset. -/
theorem hasNoOffset (h : c.placement.declarations = []) {css : Css} (hcss : c.css? = some css) :
    css.HasNoOffset := by
  -- Neither a widget nor the wrappers above it declare any other property than theirs.
  have hnone : ∀ k ∉ blurProperties, k ∉ lookProperties → k ≠ "position" →
      k ∉ wrapperProperties → css.get? k = none := by
    intro k hblur hlook hposition hwrapper
    rw [Widget.get?_css hblur hcss, Widget.declared, h, List.append_nil, Declarations.last?_append,
      last?_wrappers_eq_none hwrapper, c.head.unwrapped.last?_own_eq_none hlook hposition]
    rfl
  exact ⟨hnone _ (by decide) (by decide) (by decide) (by decide),
    hnone _ (by decide) (by decide) (by decide) (by decide)⟩

end Chain

/-! ### Style maps -/

/-- An entry that is styled, and declares its style as it is. -/
def StyleEntry.IsStyled (e : StyleEntry) (css : Css) : Prop :=
  ∃ d, e.styling = some ⟨css, d⟩ ∧ d.style = css

/-- The entry of a styled chain holds its css, whatever its name. -/
theorem Chain.isStyled_entry {c : Chain} {css : Css} (h : c.css? = some css)
    (p : StylePreferences) (name : String) : (c.entry p name).IsStyled css := by
  unfold Chain.entry
  rw [h]
  exact ⟨_, rfl, rfl⟩

/-- The element of an id is styled so that something holds of the style. -/
def Record.Styles (map : Record StyleEntry) (id : String) (holds : Css → Prop) : Prop :=
  ∃ e css, map.get? id = some e ∧ e.IsStyled css ∧ holds css

/-- The element of an id is left where it is, be it styled or not. -/
def Record.LeavesInPlace (map : Record StyleEntry) (id : String) : Prop :=
  ∃ e, map.get? id = some e ∧ (e.styling = none ∨ ∃ css, e.IsStyled css ∧ css.HasNoOffset)

/-- **A style map whose offsets count from the parent.** -/
structure Positioned (map : Record StyleEntry) (w : Widget) : Prop where
  /-- A child that is placed is at its offset, and this counts from the element of the box. -/
  placed : ∀ key style arrangement children, .box key style arrangement children ∈ w.contents →
    arrangement.places = true → ∀ d ∈ children,
      map.Styles d.item.unwrapped.id (·.IsAt d.x d.y) ∧ map.Styles key.id (·.IsPositioned)
  /-- A child in a line has no offset. -/
  inLine : ∀ key style line isRoot children,
    .box key style (.flex line isRoot) children ∈ w.contents → ∀ d ∈ children,
      map.LeavesInPlace d.item.unwrapped.id
  /-- Nor has the topmost element. -/
  topmost : map.LeavesInPlace w.unwrapped.id

namespace Namer

variable {w : Widget} (hids : (w.contents.map (·.id)).Nodup) (p : StylePreferences) (n : Namer)

include hids

/-- The style map styles every chain that has css. -/
theorem styles_of_chain {c : Chain} (hc : c ∈ w.chains .root) {holds : Css → Prop}
    (h : ∃ css, c.css? = some css ∧ holds css) : (n.styleMap p w).1.Styles c.id holds := by
  obtain ⟨css, hcss, hholds⟩ := h
  obtain ⟨name, hentry⟩ := exists_entry hids p n hc
  exact ⟨_, css, hentry, Chain.isStyled_entry hcss p name, hholds⟩

/-- A chain whose placement declares nothing is left in place. -/
theorem leavesInPlace_of_chain {c : Chain} (hc : c ∈ w.chains .root)
    (h : c.placement.declarations = []) : (n.styleMap p w).1.LeavesInPlace c.id := by
  obtain ⟨name, hentry⟩ := exists_entry hids p n hc
  refine ⟨_, hentry, ?_⟩
  cases hcss : c.css? with
  | none =>
    refine Or.inl ?_
    unfold Chain.entry
    rw [hcss]
  | some css =>
    exact Or.inr ⟨css, Chain.isStyled_entry hcss p name, Chain.hasNoOffset h hcss⟩

/-- **In the style map of a tree with distinct ids, offsets count from the parent:** every child of
a container, group or stack is at its offset, and the element around it has a position. Children in
a line have no offset, nor has the topmost element. -/
theorem positioned_styleMap : Positioned (n.styleMap p w).1 w := by
  -- A box of the tree ends a chain, and each of its children starts one right beneath that.
  have hbeneath : ∀ key style arrangement children,
      .box key style arrangement children ∈ w.contents → ∃ c ∈ w.chains .root,
        c.widget = .box key style arrangement children ∧
        ∀ d ∈ children, ⟨d.item, arrangement.placement d⟩ ∈ w.chains .root := by
    intro key style arrangement children hbox
    obtain ⟨c, hc, hwidget⟩ := Widget.exists_chain hbox .root
    exact ⟨c, hc, hwidget, fun d hd =>
      Widget.mem_chains_of_mem_children hc (Chain.mem_children hwidget hd)⟩
  constructor
  case placed =>
    intro key style arrangement children hbox hplaces d hd
    obtain ⟨c, hc, hwidget, hchildren⟩ := hbeneath key style arrangement children hbox
    constructor
    · exact styles_of_chain hids p n (hchildren d hd)
        (Chain.exists_css_at (Arrangement.placement_of_places hplaces d))
    · rw [show key.id = c.id from (congrArg Widget.id hwidget).symm]
      exact styles_of_chain hids p n hc
        (Chain.exists_css_positioned hwidget hplaces (List.ne_nil_of_mem hd))
  case inLine =>
    intro key style line isRoot children hbox d hd
    obtain ⟨-, -, -, hchildren⟩ := hbeneath key style (.flex line isRoot) children hbox
    exact leavesInPlace_of_chain hids p n (hchildren d hd) rfl
  case topmost =>
    exact leavesInPlace_of_chain hids p n (Widget.mem_chains_self w .root) rfl

end Namer

/-- A column with a turned group in it, which has a dot at an offset. -/
def turnedBadge : Widget :=
  .box ⟨"1", "Column", none⟩ (.sized 40 80) (.flex ⟨.column, .min, .min, 0⟩ true)
    [⟨0, 0, badge.wrapped ⟨"2.rotated", "Badge rotated", none⟩ (.rotation 1)⟩]
where
  badge : Widget := .box ⟨"2", "Badge", none⟩ (.sized 40 40) .group [⟨4, 8, dot⟩]
  dot : Widget := .box ⟨"3", "Dot", none⟩ (.sized 8 8) (.container .circle false) []

theorem Namer.positioned_turnedBadge :
    (turnedBadge.contents.map (·.id)).Nodup ∧
      Positioned (Namer.styleMap ⟨"1", .react, [], {}⟩ {} turnedBadge).1 turnedBadge :=
  ⟨by decide, Namer.positioned_styleMap (by decide) _ _⟩

end DesignCompiler
