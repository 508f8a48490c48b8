import DesignCompiler.Proofs.Lowering.Preservation
/-!
# Hiding a node and deleting it

`lowerNode` passes over a hidden node, so one would think that a design is lowered like the design
without its hidden nodes (`Node.withoutHidden`). It is so for the children of a frame, but not in
general, since a node is also decided by readings that go through the tree without a look at what is
hidden:

* a boolean operation takes the paths of every vector beneath it;
* both detectors go through all nodes beneath a node, and ask whether a frame has anything in it;
* a custom filter of flags is given the whole node.

`HidingUnseen` says of one node that these readings do not tell the two designs apart, and that no
mask among its children is hidden. `lower_withoutHidden` is the law: where this holds for each
visible node that lowering comes to, hiding is deleting. `hiding_ne_deleting` is a design where the
first reading fails.

The proof follows lowering. The decision on a node is the same by `HidingUnseen`, the children that
are lowered differ by entries without a widget, and no container takes notice of such entries.
-/

namespace DesignCompiler

namespace Node

mutual

/-- **A design without its hidden nodes,** each removed with all that is beneath it. The root stays
in any case. -/
def withoutHidden : Node → Node
  | ⟨layer, children⟩ => ⟨layer, shown children⟩

/-- The visible ones of some nodes, each without the hidden nodes beneath it. -/
def shown : List Node → List Node
  | [] => []
  | n :: rest => if n.layer.visible then n.withoutHidden :: shown rest else shown rest

end

/-- Taking out hidden nodes leaves the layer of the root. -/
@[simp] theorem layer_withoutHidden (n : Node) : n.withoutHidden.layer = n.layer := by
  cases n
  rw [withoutHidden]

theorem children_withoutHidden (n : Node) : n.withoutHidden.children = shown n.children := by
  cases n
  rw [withoutHidden]

/-- Of several nodes those stay that are visible, each without the hidden nodes in it. -/
theorem shown_eq (ns : List Node) :
    shown ns = (ns.filter (·.layer.visible)).map withoutHidden := by
  induction ns with
  | nil => rfl
  | cons n rest ih =>
    rw [shown, List.filter_cons, ih]
    split <;> rfl

/-- A node has masks as before if no hidden child is one. -/
theorem containsMasking_withoutHidden {n : Node}
    (h : ∀ c ∈ n.children, c.layer.visible = false → c.layer.isMask = false) :
    n.withoutHidden.containsMasking = n.containsMasking := by
  unfold containsMasking
  rw [children_withoutHidden, shown_eq, List.any_map, List.any_filter, Bool.eq_iff_iff,
    List.any_eq_true, List.any_eq_true]
  simp only [Function.comp_apply, layer_withoutHidden, Bool.and_eq_true]
  constructor
  · rintro ⟨c, hc, -, hmask⟩
    exact ⟨c, hc, hmask⟩
  · rintro ⟨c, hc, hmask⟩
    refine ⟨c, hc, ?_, hmask⟩
    -- A mask among the children is not hidden, or it would be no mask.
    by_contra hhidden
    have hnone := h c hc (by simpa using hhidden)
    rw [hmask] at hnone
    cases hnone

end Node

/-- An entry that a container takes no notice of, since it is neither a mask nor has a widget. -/
def LoweredChild.IsBlank (c : LoweredChild) : Prop := c.layer.isMask = false ∧ c.widget = none

namespace LoweringOptions

variable {o : LoweringOptions}

/-! ### What is read of a node -/

/-- **The readings of a node that do not ask what is visible** are the same without the hidden nodes
beneath it, and none of its hidden children is a mask. -/
structure HidingUnseen (o : LoweringOptions) (n : Node) : Prop where
  flags : o.readsFlags n.withoutHidden = o.readsFlags n
  image : o.detectImage n.withoutHidden = o.detectImage n
  icon : o.detectIcon? n.withoutHidden = o.detectIcon? n
  paths : ∀ operation, n.layer.kind = some (.boolean operation) →
    vectorPaths n.withoutHidden.descendants = vectorPaths n.descendants
  masks : ∀ c ∈ n.children, c.layer.visible = false → c.layer.isMask = false

/-- Nothing can be seen of hiding in a node that has nothing hidden. -/
theorem HidingUnseen.of_eq {n : Node} (h : n.withoutHidden = n)
    (hchildren : ∀ c ∈ n.children, c.layer.visible = true) : o.HidingUnseen n where
  flags := by rw [h]
  image := by rw [h]
  icon := by rw [h]
  paths _ _ := by rw [h]
  masks c hc hhidden := by
    rw [hchildren c hc] at hhidden
    cases hhidden

/-- Flags ask for the same thing. -/
theorem HidingUnseen.override? {n : Node} (h : o.HidingUnseen n) :
    o.override? n.withoutHidden = o.override? n := by
  unfold LoweringOptions.override?
  rw [h.flags, Node.layer_withoutHidden]

/-- The rule for its type treats the node as before. -/
theorem HidingUnseen.ordinaryTreatment {n : Node} (h : o.HidingUnseen n) {kind : NodeKind}
    (hkind : n.layer.kind = some kind) (changes : Changes) :
    o.ordinaryTreatment n.withoutHidden kind changes = o.ordinaryTreatment n kind changes := by
  unfold LoweringOptions.ordinaryTreatment
  simp only [h.image, h.icon, Node.layer_withoutHidden, Node.containsMasking_withoutHidden h.masks]
  -- Of all types, only a boolean operation reads more of the node than its layer.
  cases kind with
  | boolean operation => rw [h.paths operation hkind]
  | _ => rfl

/-- **A node is treated as before** where nothing can be seen of hiding. -/
theorem HidingUnseen.treatment {n : Node} (h : o.HidingUnseen n) :
    o.treatment n.withoutHidden = o.treatment n := by
  unfold LoweringOptions.treatment
  simp only [Node.layer_withoutHidden, h.override?]
  cases hkind : n.layer.kind with
  | none => rfl
  | some kind => simp only [h.ordinaryTreatment hkind]

/-- A hidden node is dropped before anything else is asked. -/
theorem treatment_of_hidden {n : Node} (h : n.layer.visible = false) :
    o.treatment n = .dropped := by
  simp [treatment, h]

/-! ### Containers and entries without a widget -/

/-- Children that are blank are no masks, so leaving them out loses none. -/
theorem any_isMask_filter {p : LoweredChild → Bool} {lowered : List LoweredChild}
    (h : ∀ c ∈ lowered, p c = false → c.IsBlank) :
    (lowered.filter p).any (·.layer.isMask) = lowered.any (·.layer.isMask) := by
  induction lowered with
  | nil => rfl
  | cons c rest ih =>
    specialize ih fun d hd => h d (List.mem_cons_of_mem _ hd)
    by_cases hp : p c = true
    · rw [List.filter_cons_of_pos hp, List.any_cons, List.any_cons, ih]
    · obtain ⟨hmask, -⟩ := h c List.mem_cons_self (by simpa using hp)
      rw [List.filter_cons_of_neg hp, List.any_cons, hmask, Bool.false_or, ih]

/-- Nor do they have widgets to lose. -/
theorem survivors_filter {p : LoweredChild → Bool} {lowered : List LoweredChild}
    (h : ∀ c ∈ lowered, p c = false → c.IsBlank) :
    survivors (lowered.filter p) = survivors lowered := by
  unfold survivors
  rw [List.filterMap_filter]
  refine List.filterMap_congr fun c hc => ?_
  by_cases hp : p c = true
  · rw [if_pos hp]
  · obtain ⟨-, hwidget⟩ := h c hc (by simpa using hp)
    rw [if_neg hp, hwidget, Option.map_none]

/-- **Blank children make no difference to the cuts at masks.** -/
theorem partitionMasks_filter {p : LoweredChild → Bool} {lowered : List LoweredChild}
    (h : ∀ c ∈ lowered, p c = false → c.IsBlank) :
    partitionMasks (lowered.filter p) = partitionMasks lowered := by
  induction lowered with
  | nil => rfl
  | cons c rest ih =>
    specialize ih fun d hd => h d (List.mem_cons_of_mem _ hd)
    -- A blank child is no mask and has no widget, so the partition skips it either way.
    by_cases hp : p c = true
    · rw [List.filter_cons_of_pos hp, partitionMasks, partitionMasks, ih]
    · obtain ⟨hmask, hwidget⟩ := h c List.mem_cons_self (by simpa using hp)
      rw [List.filter_cons_of_neg hp, ih]
      simp [partitionMasks, hmask, hwidget]

/-- **Entries without a widget can be left out** of the children of a container. -/
theorem containerWidget_filter (l : Layer) {p : LoweredChild → Bool} {lowered : List LoweredChild}
    (h : ∀ c ∈ lowered, p c = false → c.IsBlank) :
    o.containerWidget l (lowered.filter p) = o.containerWidget l lowered := by
  simp only [containerWidget, maskedWidget, any_isMask_filter h, survivors_filter h,
    partitionMasks_filter h]

/-! ### The children of a node -/

/-- What lowering comes to from a child, it comes to from the node. -/
theorem Reaches.of_child {root c n : Node} (hholds : o.HoldsChildren root) (hc : c ∈ root.children)
    (hmask : c.layer.isMask = false) (h : o.Reaches c n) : o.Reaches root n := by
  induction h with
  | root => exact .child .root hholds hc hmask
  | child _ hparent hmem hno ih => exact .child ih hparent hmem hno

/-- What lowering comes to is in the design. -/
theorem Reaches.mem_preorder {root n : Node} (h : o.Reaches root n) : n ∈ root.preorder := by
  induction h with
  | root => exact Node.mem_preorder_self _
  | child _ _ hc _ ih => exact Node.mem_preorder_child ih hc

/-- **Lowering children without the hidden ones** gives what lowering all of them gives, less the
entries of the hidden ones, and fails where that fails. -/
theorem lowerChildren_shown {depth : Nat} {children : List Node}
    (hmasks : ∀ c ∈ children, c.layer.visible = false → c.layer.isMask = false)
    (hnodes : ∀ c ∈ children, c.layer.isMask = false →
      o.lowerNode depth c.withoutHidden = o.lowerNode depth c) :
    o.lowerChildren depth (Node.shown children) =
      (o.lowerChildren depth children).map (List.filter (·.layer.visible)) := by
  induction children with
  | nil => rfl
  | cons c rest ih =>
    specialize ih (fun d hd => hmasks d (List.mem_cons_of_mem _ hd))
      (fun d hd => hnodes d (List.mem_cons_of_mem _ hd))
    have hc := hnodes c List.mem_cons_self
    obtain ⟨layer, children⟩ := c
    rw [Node.shown, lowerChildren]
    cases hvisible : layer.visible with
    | false =>
      -- A hidden child is no mask, so it is lowered, to nothing.
      have hmask : layer.isMask = false := hmasks _ List.mem_cons_self hvisible
      have hnone : o.lowerNode depth ⟨layer, children⟩ = .ok none :=
        lowerNode_eq_none_iff.mpr (treatment_of_hidden hvisible)
      simp only [hmask, hnone, Bool.false_eq_true, if_false, ih]
      cases o.lowerChildren depth rest with
      | error e => rfl
      | ok lowered =>
        show Except.ok _ = Except.ok _
        rw [List.filter_cons_of_neg (by simp [hvisible])]
    | true =>
      rw [if_pos rfl]
      rw [Node.withoutHidden] at hc ⊢
      rw [lowerChildren]
      by_cases hmask : layer.isMask = true
      · simp only [hmask, if_true, ih]
        cases o.lowerChildren depth rest with
        | error e => rfl
        | ok lowered =>
          show Except.ok _ = Except.ok _
          rw [List.filter_cons_of_pos (by simp [hvisible])]
      · simp only [hmask, Bool.false_eq_true, if_false, ih, hc (by simpa using hmask)]
        cases o.lowerNode depth ⟨layer, children⟩ with
        | error e => rfl
        | ok w =>
          cases o.lowerChildren depth rest with
          | error e => rfl
          | ok lowered =>
            show Except.ok _ = Except.ok _
            rw [List.filter_cons_of_pos (by simp [hvisible])]

/-- The lowered children of hidden nodes are blank, if none of these is a mask. -/
theorem isBlank_of_hidden {depth : Nat} {children : List Node} {lowered : List LoweredChild}
    (hmasks : ∀ c ∈ children, c.layer.visible = false → c.layer.isMask = false)
    (h : o.lowerChildren depth children = .ok lowered) :
    ∀ c ∈ lowered, c.layer.visible = false → c.IsBlank := by
  intro c hc hhidden
  obtain ⟨m, hm, hlayer, hwidget⟩ := exists_mem_of_forall₂ (lowerChildren_eq_ok_iff.mp h).flip hc
  rw [hlayer] at hhidden
  have hmask := hmasks m hm hhidden
  rw [hmask, if_neg Bool.false_ne_true] at hwidget
  -- Hidden and no mask: it was lowered, to nothing.
  have hnone : o.lowerNode depth m = .ok none :=
    lowerNode_eq_none_iff.mpr (treatment_of_hidden hhidden)
  refine ⟨by rw [hlayer, hmask], ?_⟩
  exact (Except.ok.inj (hnone.symm.trans hwidget)).symm

/-! ### The law -/

/-- Lowering a node does not depend on the hidden nodes beneath it. -/
theorem lowerNode_withoutHidden (hwrap : o.wrap = none) (n : Node) :
    ∀ depth : Nat, (∀ m, o.Reaches n m → m.layer.visible = true → o.HidingUnseen m) →
      o.lowerNode depth n.withoutHidden = o.lowerNode depth n := by
  induction n using Node.induction with
  | node layer children ih =>
    intro depth hunseen
    cases hvisible : layer.visible with
    | false =>
      rw [lowerNode_eq_none_iff.mpr (treatment_of_hidden hvisible),
        lowerNode_eq_none_iff.mpr (treatment_of_hidden (by simpa using hvisible))]
    | true =>
      have hnode := hunseen _ .root hvisible
      have htreatment := hnode.treatment
      rw [Node.withoutHidden] at htreatment ⊢
      rw [lowerNode, lowerNode, htreatment]
      simp only [finish_eq_decorate hwrap]
      cases htreat : o.treatment ⟨layer, children⟩ with
      | dropped => rfl
      | untyped => rfl
      | finished v => rfl
      | container changes =>
        have hholds : o.HoldsChildren ⟨layer, children⟩ :=
          treatment_eq_container_iff.mp ⟨changes, htreat⟩
        -- The claim holds for the children, since lowering comes to them from this node.
        have hchildren : o.lowerChildren (depth + 1) (Node.shown children) =
            (o.lowerChildren (depth + 1) children).map (List.filter (·.layer.visible)) :=
          lowerChildren_shown hnode.masks fun c hc hmask =>
            ih c hc (depth + 1) fun m hm => hunseen m (hm.of_child hholds hc hmask)
        rw [hchildren]
        cases hlowered : o.lowerChildren (depth + 1) children with
        | error e => rfl
        | ok lowered =>
          show Except.ok _ = Except.ok _
          rw [containerWidget_filter layer fun c hc hhidden =>
            isBlank_of_hidden hnode.masks hlowered c hc (by simpa using hhidden)]

/-- **Hiding is deleting,** where no visible node that lowering comes to is read differently for the
hidden nodes beneath it: a design has the widget, or the failure, of the design without its hidden
nodes. -/
theorem lower_withoutHidden {root : Node} (hwrap : o.wrap = none)
    (hunseen : ∀ n, o.Reaches root n → n.layer.visible = true → o.HidingUnseen n) :
    o.lower root.withoutHidden = o.lower root := by
  unfold lower
  rw [lowerNode_withoutHidden hwrap root 0 hunseen, Node.layer_withoutHidden]

/-- In the masked frame nothing shows that a box in it is hidden. -/
theorem lower_withoutHidden_maskedFrame :
    ({} : LoweringOptions).wrap = none ∧
      (∀ n, ({} : LoweringOptions).Reaches maskedFrame n → n.layer.visible = true →
        ({} : LoweringOptions).HidingUnseen n) ∧
      maskedFrame.withoutHidden.children.length = 4 ∧
      ({} : LoweringOptions).lower maskedFrame.withoutHidden =
        ({} : LoweringOptions).lower maskedFrame := by
  have hunseen : ∀ n, ({} : LoweringOptions).Reaches maskedFrame n → n.layer.visible = true →
      ({} : LoweringOptions).HidingUnseen n := by
    intro n hreach _
    have hmem := hreach.mem_preorder
    simp only [maskedFrame, Node.preorder, Node.preorders, List.append_nil, List.cons_append,
      List.nil_append, List.mem_cons, List.not_mem_nil, or_false] at hmem
    -- Only the frame has a hidden child; every other node is what it was.
    rcases hmem with rfl | rfl | rfl | rfl | rfl | rfl | rfl
    · have hpaths : ∀ operation, maskedFrame.layer.kind = some (.boolean operation) →
          vectorPaths maskedFrame.withoutHidden.descendants =
            vectorPaths maskedFrame.descendants := fun _ hkind => by cases hkind
      exact ⟨rfl, rfl, rfl, hpaths, by decide⟩
    all_goals exact .of_eq rfl (by decide)
  exact ⟨rfl, hunseen, rfl, lower_withoutHidden rfl hunseen⟩

/-! ### Where it fails -/

/-- A boolean operation that nothing overrides and no detector claims is shown by the paths of all
vectors beneath it. -/
theorem lower_boolean {n : Node} {operation : BooleanOperation} (hwrap : o.wrap = none)
    (hvisible : n.layer.visible = true) (hkind : n.layer.kind = some (.boolean operation))
    (hflag : o.override? n = none) (himage : o.detectImage n = none)
    (hicon : o.detectIcon? n = none) (hmask : n.containsMasking = false) :
    o.lower n = .ok (n.layer.decorate
      (n.layer.booleanWidget operation (vectorPaths n.descendants) (o.key n.layer))) := by
  have htreatment : o.treatment n =
      .finished (n.layer.booleanWidget operation (vectorPaths n.descendants) (o.key n.layer)) := by
    simp only [treatment, hvisible, hkind, hflag, ordinaryTreatment, himage, hicon, hmask]
    rfl
  rw [lower_eq_ok_iff, lowerNode_eq_some_iff]
  exact Or.inl ⟨_, htreatment, (finish_eq_decorate hwrap ..).symm⟩

/-- A union in which the one shape is hidden. -/
def hiddenShape : Node :=
  ⟨{ id := "b", name := "cut", kind := some (.boolean .union), width := 200, height := 100 },
    [⟨{ id := "v", name := "v", kind := some (.vector [⟨"M0 0L9 9", .nonZero⟩]),
        visible := false }, []⟩]⟩

/-- **Hiding is not deleting in general:** a boolean operation draws the paths of a shape that is
hidden in it. -/
theorem hiding_ne_deleting :
    hiddenShape.layer.visible = true ∧ ({} : LoweringOptions).wrap = none ∧
      ({} : LoweringOptions).lower hiddenShape ≠
        ({} : LoweringOptions).lower hiddenShape.withoutHidden := by
  refine ⟨rfl, rfl, fun h => ?_⟩
  have hpaths : vectorPaths hiddenShape.descendants = [⟨"M0 0L9 9", .nonZero⟩] := by
    simp [hiddenShape, Node.descendants, Node.descendantsFrom, vectorPaths]
  have hnone : vectorPaths hiddenShape.withoutHidden.descendants = [] := by
    simp [hiddenShape, Node.withoutHidden, Node.shown, Node.descendants, Node.descendantsFrom,
      vectorPaths]
  rw [lower_boolean rfl rfl rfl rfl rfl rfl rfl,
    lower_boolean rfl rfl rfl rfl rfl rfl rfl, hpaths, hnone] at h
  -- Beneath the same effects are two pictures that differ in their paths.
  have hpictures := congrArg Widget.unwrapped (Except.ok.inj h)
  simp [Layer.booleanWidget, Widget.unwrapped] at hpictures

end LoweringOptions

end DesignCompiler
