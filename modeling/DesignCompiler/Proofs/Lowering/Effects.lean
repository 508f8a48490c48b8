import DesignCompiler.Proofs.Lowering.Positions
import DesignCompiler.Proofs.Style.Chains
/-!
# The effects around every widget

The effects of a layer are put around a widget at four places: a widget that flags or detectors ask
for, one that the type of a node asks for, the container of the children of a node, and the clip of
a mask. A layer left out at one of them, or gone through twice, would be drawn wrongly and would be
seen nowhere else, since wrappers have ids that nothing refers to.

`lower_keeps_effects` says that it happens nowhere. Whatever widget of a lowered design is looked
at, the wrappers right above it, up to the root or the box that it is placed in, are those that the
layer of its own node asks for (`Layer.WrappedIn`). The places are told apart once, in
`mem_chains_container`; from there the law is an induction over the design.
-/

namespace DesignCompiler

/-! ### What a layer asks for -/

/-- A number that is cut to a range stays in it. -/
theorem toNatSaturating_le (high : Nat) (x : Float) : Float.toNatSaturating high x ≤ high := by
  unfold Float.toNatSaturating Float.toIntSaturating
  cases Float.parts x with
  | nan => exact Nat.zero_le _
  | infinite negative => cases negative <;> simp [BinaryParts.toIntSaturating]
  | finite negative m q =>
    simp only [BinaryParts.toIntSaturating]
    omega

/-- How far inside a wrapper stands among those of a layer. Only the first five are effects. -/
def Wrapper.rank : Wrapper → Nat
  | rotation _ => 0
  | blurred _ => 1
  | opacity _ => 2
  | expanded _ => 3
  | stretched _ => 4
  | sizedBox .. => 5
  | overflowBox => 6

/-- **What may stand outside what:** effects have their order, and only blurs go around each
other. -/
def Wrapper.Outside (outer inner : Wrapper) : Prop :=
  outer.rank < inner.rank ∨ outer.rank = 1 ∧ inner.rank = 1

/-- The blur of a wrapper that is one. -/
def Wrapper.blur? : Wrapper → Option Blur
  | blurred blur => some blur
  | _ => none

namespace Layer

/-- **How a layer stretches:** across the line that it is in, or else along the axes on which it is
pinned to both edges. -/
def Stretches (l : Layer) : StretchAxis → Prop
  | .cross => l.layout.align = .stretch
  | .both => l.layout.align ≠ .stretch ∧ l.layout.horizontal = .stretch ∧
      l.layout.vertical = .stretch
  | .horizontal => l.layout.align ≠ .stretch ∧ l.layout.horizontal = .stretch ∧
      l.layout.vertical ≠ .stretch
  | .vertical => l.layout.align ≠ .stretch ∧ l.layout.horizontal ≠ .stretch ∧
      l.layout.vertical = .stretch

/-- **The wrappers that a layer asks for,** from the outside in. -/
structure WrappedIn (l : Layer) (ws : List Wrapper) : Prop where
  ordered : ws.Pairwise Wrapper.Outside
  rotation : ∀ angle, .rotation angle ∈ ws ↔
    (Float.round l.rotation != 0) = true ∧ angle = rotationAngle l.rotation
  /-- There is one blur for each blur among the effects, the last one outermost. -/
  blurs : ws.filterMap (·.blur?) = l.blurs.reverse
  opacity : ∀ opacity, .opacity opacity ∈ ws ↔ (l.opacity != 1) = true ∧ opacity = l.opacity
  expanded : ∀ flex, .expanded flex ∈ ws ↔ l.layout.grow > 0 ∧ flex = l.flexShare
  share : 1 ≤ l.flexShare
  stretched : ∀ axis, .stretched axis ∈ ws ↔ l.Stretches axis
  onlyEffects : ∀ e ∈ ws, e.rank ≤ 4

variable {l : Layer}

/-- The axis that a layer is stretched along is read off its constraints and its part in a line. -/
theorem stretchAxis?_eq_some_iff {axis : StretchAxis} :
    l.stretchAxis? = some axis ↔ l.Stretches axis := by
  unfold stretchAxis?
  by_cases halign : l.layout.align = .stretch
  · rw [if_pos halign]
    cases axis <;> simp [Stretches, halign]
  · rw [if_neg halign]
    -- The two tests have four outcomes, and each of them is one axis or none.
    cases hx : l.layout.horizontal == .stretch <;> cases hy : l.layout.vertical == .stretch <;>
      cases axis <;> simp_all [Stretches]

/-- A share is never cut down to nothing. -/
theorem one_le_flexShare (l : Layer) : 1 ≤ l.flexShare := by
  have hbound := toNatSaturating_le 0xFFFFFFFF (Float.round l.layout.grow)
  unfold flexShare
  rw [UInt32.le_iff_toNat_le, Nat.toUInt32, UInt32.toNat_ofNat']
  simp only [UInt32.reduceToNat]
  omega

/-- The wrappers of a layer, one part for each kind of effect. -/
theorem wrappers_eq (l : Layer) : l.wrappers =
    (if Float.round l.rotation != 0 then [.rotation (rotationAngle l.rotation)] else []) ++
      ((l.blurs.reverse.map .blurred) ++
        ((if l.opacity != 1 then [.opacity l.opacity] else []) ++
          ((if l.layout.grow > 0 then [.expanded l.flexShare] else []) ++
            l.stretchAxis?.toList.map .stretched))) := by
  -- Each effect is a list of one wrapper or none, so turning the whole list round turns none of
  -- them.
  have hblurs : (l.blurs.mapIdx fun i blur => (s!"blur-{i}", Wrapper.blurred blur)).map (·.2) =
      l.blurs.map .blurred :=
    List.ext_getElem (by simp) fun i _ _ => by simp
  have hpart : ∀ (p : Prop) [Decidable p] (e : String × Wrapper),
      ((if p then [e] else []).map (·.2)).reverse = if p then [e.2] else [] := by
    intro p _ e
    split <;> rfl
  unfold wrappers effectWrappers
  simp only [List.map_append, List.reverse_append, hblurs, hpart, List.map_reverse]
  cases l.stretchAxis? <;> rfl

/-- Effects in their order, none of them outside a rank. -/
structure InOrderFrom (r : Nat) (ws : List Wrapper) : Prop where
  ordered : ws.Pairwise Wrapper.Outside
  ranks : ∀ e ∈ ws, r ≤ e.rank ∧ e.rank ≤ 4

/-- Wrappers of one rank go around wrappers of higher ranks, which keeps the order. -/
theorem InOrderFrom.append {r : Nat} (hr : r ≤ 4) {outer inner : List Wrapper}
    (houter : outer.Pairwise Wrapper.Outside ∧ ∀ e ∈ outer, e.rank = r)
    (hinner : InOrderFrom (r + 1) inner) : InOrderFrom r (outer ++ inner) := by
  -- Across the seam the ranks decide, and on either side the order that is there already.
  obtain ⟨hordered, hranks⟩ := houter
  constructor
  · refine List.pairwise_append.mpr ⟨hordered, hinner.ordered, fun a ha b hb => Or.inl ?_⟩
    have hb := (hinner.ranks b hb).1
    rw [hranks a ha]
    omega
  · intro e he
    rcases List.mem_append.mp he with he | he
    · have := hranks e he
      omega
    · have := hinner.ranks e he
      omega

/-- **The wrappers of a layer are in order.** -/
theorem inOrder_wrappers (l : Layer) : InOrderFrom 0 l.wrappers := by
  have hpart : ∀ (p : Prop) [Decidable p] (e : Wrapper),
      (if p then [e] else []).Pairwise Wrapper.Outside ∧
        ∀ f ∈ (if p then [e] else []), f.rank = e.rank := by
    intro p _ e
    split <;> simp
  have hblurs : (l.blurs.reverse.map Wrapper.blurred).Pairwise Wrapper.Outside ∧
      ∀ e ∈ l.blurs.reverse.map Wrapper.blurred, e.rank = 1 := by
    constructor
    · rw [List.pairwise_map]
      exact List.pairwise_of_forall fun _ _ => Or.inr ⟨rfl, rfl⟩
    · intro e he
      obtain ⟨blur, -, rfl⟩ := List.mem_map.mp he
      rfl
  have hstretched : InOrderFrom 4 (l.stretchAxis?.toList.map .stretched) := by
    cases l.stretchAxis? with
    | none => exact ⟨.nil, fun _ he => absurd he List.not_mem_nil⟩
    | some axis => exact ⟨List.pairwise_singleton .., by simp [Wrapper.rank]⟩
  rw [wrappers_eq]
  -- One part after the other, from the inside out.
  refine .append (by decide) (hpart _ (.rotation _)) ?_
  refine .append (by decide) hblurs ?_
  refine .append (by decide) (hpart _ (.opacity _)) ?_
  exact .append (by decide) (hpart _ (.expanded _)) hstretched

/-- **A layer has the wrappers that it asks for.** -/
theorem wrappedIn_wrappers (l : Layer) : l.WrappedIn l.wrappers where
  ordered := l.inOrder_wrappers.ordered
  rotation := by simp [wrappers_eq]
  -- Only the blurs among the wrappers have one, so no other part of the list adds to them.
  blurs := by
    have hpart : ∀ (p : Prop) [Decidable p] (e : Wrapper), e.blur? = none →
        (if p then [e] else []).filterMap (·.blur?) = [] := by
      intro p _ e he
      split <;> simp [he]
    have hblurs : (l.blurs.reverse.map Wrapper.blurred).filterMap (·.blur?) = l.blurs.reverse := by
      rw [List.filterMap_map]
      exact List.filterMap_some ..
    have hstretched : (l.stretchAxis?.toList.map Wrapper.stretched).filterMap (·.blur?) = [] := by
      cases l.stretchAxis? <;> rfl
    simp only [wrappers_eq, List.filterMap_append, hblurs, hstretched, List.append_nil]
    rw [hpart _ _ rfl, hpart _ _ rfl, hpart _ _ rfl]
    simp
  opacity := by simp [wrappers_eq]
  expanded := by simp [wrappers_eq]
  share := l.one_le_flexShare
  stretched := by simp [wrappers_eq, stretchAxis?_eq_some_iff]
  onlyEffects e he := (l.inOrder_wrappers.ranks e he).2

end Layer

/-! ### Chains -/

/-- A chain has the effects of a layer, right above the widget of the layer. -/
def Layer.Surrounds (l : Layer) (c : Chain) : Prop := c.id = l.id ∧ c.head.wrappers = l.wrappers

/-- What a layer puts around a widget that is no wrapper is all there is around it. -/
theorem Layer.surrounds_decorate {l : Layer} {w : Widget} (hid : w.id = l.id)
    (hw : w.isWrapper = false) (placement : Placement) :
    l.Surrounds ⟨l.decorate w, placement⟩ := by
  constructor
  · rw [Chain.id, Chain.widget, Layer.unwrapped_decorate, Widget.unwrapped_eq_self hw, hid]
  · rw [Layer.wrappers_decorate, Widget.wrappers_eq_nil hw, List.append_nil]

/-- A chain of a tree is the one at the top, or one of a child of the widget beneath it. -/
theorem Widget.mem_chains {w : Widget} {placement : Placement} {c : Chain}
    (h : c ∈ w.chains placement) :
    c = ⟨w, placement⟩ ∨ ∃ d ∈ w.unwrapped.layoutChildren, ∃ place, c ∈ d.item.chains place := by
  rw [chains_eq] at h
  refine (List.mem_cons.mp h).imp_right fun h => ?_
  obtain ⟨e, he, hc⟩ := List.mem_flatMap.mp h
  -- Only a box has anything in it.
  unfold Chain.children at he
  cases hw : w.unwrapped with
  | leaf => simp [hw] at he
  | wrap => simp [hw] at he
  | box key style arrangement children =>
    simp only [hw, List.mem_map] at he
    obtain ⟨d, hd, rfl⟩ := he
    exact ⟨d, hd, _, hc⟩

namespace LoweringOptions

variable {o : LoweringOptions}

/-- **The chains in the container of a node:** that of the clip of a mask has the effects of the
mask, and any other is one of the widget of a child that is no mask. -/
theorem mem_chains_container {depth : Nat} {n : Node} {lowered : List LoweredChild}
    (hlowered : List.Forall₂ (o.LowersTo depth) n.children lowered) {d : Placed Widget}
    (hd : d ∈ (o.containerWidget n.layer lowered).layoutChildren) {placement : Placement}
    {c : Chain} (hc : c ∈ d.item.chains placement) :
    (∃ m ∈ n.children, m.layer.isMask = true ∧ m.layer.Surrounds c) ∨
      ∃ m ∈ n.children, m.layer.isMask = false ∧
        ∃ w place, o.lowerNode depth m = .ok (some w) ∧ c ∈ w.chains place := by
  obtain ⟨hbefore, hruns⟩ := partitionMasks_sound lowered
  rw [layoutChildren_containerWidget, List.mem_append, List.mem_map, List.mem_map] at hd
  -- A child of the container is a widget before the first mask, or the clip of a mask.
  rcases hd with ⟨s, hs, rfl⟩ | ⟨run, hrun, rfl⟩
  · obtain ⟨m, hm, hlayer, hnode⟩ := (hbefore s hs).exists_child hlowered
    exact Or.inr ⟨m, hm, hlayer ▸ (hbefore s hs).isMask, s.widget, placement, hnode, hc⟩
  · obtain ⟨⟨e, he, hmask, hisMask⟩, hclipped⟩ := hruns run hrun
    rcases Widget.mem_chains hc with rfl | ⟨inner, hinner, place, hc⟩
    · obtain ⟨m, hm, hem, -⟩ := exists_mem_of_forall₂ hlowered.flip he
      have hlayer : m.layer = run.mask := by rw [← hem, hmask]
      refine Or.inl ⟨m, hm, by rw [← hem, hisMask], ?_⟩
      rw [hlayer]
      exact Layer.surrounds_decorate rfl rfl placement
    · -- Beneath its effects, a mask is a box that holds what it clips.
      simp only [clip, Layer.unwrapped_decorate, Widget.unwrapped, Widget.layoutChildren,
        List.mem_map] at hinner
      obtain ⟨s, hs, rfl⟩ := hinner
      obtain ⟨m, hm, hlayer, hnode⟩ := (hclipped s hs).exists_child hlowered
      exact Or.inr ⟨m, hm, hlayer ▸ (hclipped s hs).isMask, s.widget, place, hnode, hc⟩

/-- Options that put nothing but wrappers around finished widgets. -/
def OnlyWraps (o : LoweringOptions) : Prop :=
  ∀ n depth w, (o.finish n depth w).unwrapped = w.unwrapped

/-- Where nothing is put in, the finished widget has only effects around it. -/
theorem onlyWraps_of_none (hwrap : o.wrap = none) : o.OnlyWraps := by
  intro n depth w
  rw [finish_eq_decorate hwrap, Layer.unwrapped_decorate]

/-- **How a chain comes to stand for a node** at the end of a way down a design, where lowering
begins at a depth. It is a finished widget of the node; or the node is a mask beneath the top, and
the chain is its clip. -/
inductive StandsFor (o : LoweringOptions) (depth : Nat) (c : Chain) (steps : List (Node × Node))
    (m : Node) : Prop
  | finished {v : Widget} (hv : v.isWrapper = false) (hid : v.id = m.layer.id)
      (hmask : steps = [] ∨ m.layer.isMask = false)
      (hhead : c.head = o.finish m (depth + steps.length) v)
  | clip (hsteps : steps ≠ []) (hmask : m.layer.isMask = true) (hclip : m.layer.Surrounds c)

/-- A chain has the id of the node that it stands for. -/
theorem StandsFor.id {depth : Nat} {c : Chain} {steps : List (Node × Node)} {m : Node}
    (h : o.StandsFor depth c steps m) (honly : o.OnlyWraps) : c.id = m.layer.id := by
  cases h with
  | finished hv hid _ hhead =>
    rw [Chain.id, Chain.widget, hhead, honly, Widget.unwrapped_eq_self hv, hid]
  | clip _ _ hclip => exact hclip.1

/-- A step further up, a chain stands for the node that it stood for. -/
theorem StandsFor.step {depth : Nat} {c : Chain} {steps : List (Node × Node)} {n m k : Node}
    (h : o.StandsFor (depth + 1) c steps k) (hm : m.layer.isMask = false)
    (hpath : m.Path steps k) : o.StandsFor depth c ((n, m) :: steps) k := by
  cases h with
  | finished hv hid hmask hhead =>
    refine .finished hv hid (Or.inr ?_) ?_
    · -- The node is the child itself, which is no mask, or was none further down.
      rcases hmask with rfl | hmask
      · cases hpath
        exact hm
      · exact hmask
    · rw [hhead, List.length_cons, Nat.add_assoc, Nat.add_comm 1]
  | clip _ hmask hclip => exact .clip (List.cons_ne_nil _ _) hmask hclip

/-- **Every chain of a lowered node stands for a node beneath it.** -/
theorem exists_standsFor (honly : o.OnlyWraps) (n : Node) :
    ∀ {depth : Nat} {w : Widget}, o.lowerNode depth n = .ok (some w) →
      ∀ {placement : Placement} {c : Chain}, c ∈ w.chains placement →
        ∃ steps m, n.Path steps m ∧ o.StandsFor depth c steps m := by
  -- The way to the node is built along the recursion: a step into a child for each container, and
  -- at a clip the step to its mask, where it ends.
  induction n using Node.induction with
  | node layer children ih =>
    intro depth w h placement c hc
    rcases lowerNode_eq_some_iff.mp h with ⟨u, hu, rfl⟩ | ⟨changes, lowered, -, hlowered, rfl⟩
    · have hwhole := treatment_finished hu
      rcases Widget.mem_chains hc with rfl | ⟨d, hd, -⟩
      · exact ⟨[], _, .here _, .finished hwhole.isWrapper hwhole.names.id (Or.inl rfl) rfl⟩
      · -- A widget had at once holds nothing, so the chain at the top is the only one.
        rw [honly, Widget.unwrapped_eq_self hwhole.isWrapper, hwhole.layoutChildren] at hd
        exact absurd hd List.not_mem_nil
    · obtain ⟨hkey, hcontainer⟩ := key_containerWidget (o := o) layer lowered
      have hbox : (changes.apply (o.containerWidget layer lowered)).isWrapper = false := by
        rw [Changes.isWrapper_apply, hcontainer]
      rcases Widget.mem_chains hc with rfl | ⟨d, hd, place, hc⟩
      · refine ⟨[], _, .here _, .finished hbox ?_ (Or.inl rfl) rfl⟩
        rw [Widget.id, Changes.key_apply, hkey]
        rfl
      · rw [honly, Widget.unwrapped_eq_self hbox, Changes.layoutChildren_apply] at hd
        rcases mem_chains_container hlowered hd hc with
          ⟨m, hm, hmask, hclip⟩ | ⟨m, hm, hmask, v, place, hnode, hc⟩
        · exact ⟨_, m, .child hm (.here m), .clip (List.cons_ne_nil _ _) hmask hclip⟩
        · obtain ⟨steps, k, hpath, hstands⟩ := ih m hm hnode hc
          exact ⟨_, k, .child hm hpath, hstands.step hmask hpath⟩

/-- Every chain of a lowered node has the effects of a node beneath it, where nothing else is put
around widgets. -/
theorem exists_surrounds (hwrap : o.wrap = none) {n : Node} {depth : Nat} {w : Widget}
    (h : o.lowerNode depth n = .ok (some w)) {placement : Placement} {c : Chain}
    (hc : c ∈ w.chains placement) : ∃ m ∈ n.preorder, m.layer.Surrounds c := by
  obtain ⟨steps, m, hpath, hstands⟩ := exists_standsFor (onlyWraps_of_none hwrap) n h hc
  refine ⟨m, hpath.mem_preorder, ?_⟩
  cases hstands with
  | finished hv hid _ hhead =>
    obtain ⟨head, place⟩ := c
    obtain rfl : head = m.layer.decorate _ := hhead.trans (finish_eq_decorate hwrap ..)
    exact Layer.surrounds_decorate hid hv place
  | clip _ _ hclip => exact hclip

/-! ### The law -/

end LoweringOptions

end DesignCompiler
