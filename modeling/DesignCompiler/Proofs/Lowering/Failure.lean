import DesignCompiler.Proofs.Lowering.Steps
/-!
# When lowering fails

A node without a type is a fault only where lowering comes to it. It does not go into what is
hidden, into masks, or into a node whose widget is had at once, because flags or a detector ask for
it or the type of the node has no children; whatever stands there may lack its type.

`VisitsAt` says which nodes lowering comes to, and numbers them by their places in the design, so
that the *first* of several faults can be spoken of: two nodes of a design may be alike, but no two
are at one place. `lower_fails_exactly` is the law. A design fails for an empty root exactly when
its root is hidden or ignored, for a missing type exactly when there is a fault, and then at the
first one; otherwise it is lowered.

The step is `exists_of_lowerChildren_error`: children fail at the first one that fails. That no
earlier fault has been passed over is then a matter of places, since everything beneath a child
comes before the next child.
-/

namespace DesignCompiler

namespace LoweringOptions

variable {o : LoweringOptions}

/-! ### Places -/

/-- **The nodes that lowering comes to,** with their places among the nodes of the design: the root,
and each child that is shown and no mask of a node that holds its children. -/
inductive VisitsAt (o : LoweringOptions) : Node → Nat → Node → Prop
  | here (n : Node) : VisitsAt o n 0 n
  | child {n c m : Node} {before after : List Node} {k : Nat} : o.HoldsChildren n →
      n.children = before ++ c :: after → c.layer.visible = true → c.layer.isMask = false →
      VisitsAt o c k m → VisitsAt o n ((Node.preorders before).length + k + 1) m

theorem preorders_append (before after : List Node) :
    Node.preorders (before ++ after) = Node.preorders before ++ Node.preorders after := by
  simp only [Node.preorders_eq_flatMap, List.flatMap_append]

/-- The number of a node that is visited is its place in the design. -/
theorem VisitsAt.getElem?_preorder {n m : Node} {k : Nat} (h : o.VisitsAt n k m) :
    n.preorder[k]? = some m := by
  induction h with
  | here n => rw [Node.preorder_eq, List.getElem?_cons_zero]
  | @child n c m before after k _ hsplit _ _ _ ih =>
    have hk : k < c.preorder.length := (List.getElem?_eq_some_iff.mp ih).1
    rw [Node.preorder_eq, List.getElem?_cons_succ, hsplit, preorders_append,
      List.getElem?_append_right (Nat.le_add_right _ _), Nat.add_sub_cancel_left, Node.preorders,
      List.getElem?_append_left hk, ih]

/-- A visit is at a place of the walk. -/
theorem VisitsAt.lt_length {n m : Node} {k : Nat} (h : o.VisitsAt n k m) :
    k < n.preorder.length :=
  (List.getElem?_eq_some_iff.mp h.getElem?_preorder).1

/-! ### Faults -/

/-- **A fault:** a node that lowering comes to, and that is shown and has no type. -/
structure FaultAt (o : LoweringOptions) (root : Node) (k : Nat) (m : Node) : Prop where
  visits : o.VisitsAt root k m
  visible : m.layer.visible = true
  untyped : m.layer.kind = none

/-- The first fault of a design, in the order of its nodes. -/
def FirstFault (o : LoweringOptions) (root m : Node) : Prop :=
  ∃ k, o.FaultAt root k m ∧ ∀ j d, o.FaultAt root j d → k ≤ j

/-- A node is a fault at once when it is shown and has no type. -/
theorem treatment_eq_untyped_iff {n : Node} :
    o.treatment n = .untyped ↔ n.layer.visible = true ∧ n.layer.kind = none := by
  constructor
  · intro h
    constructor
    · by_contra hhidden
      rw [Bool.not_eq_true] at hhidden
      simp [treatment, hhidden] at h
    · by_contra htyped
      exact treatment_ne_untyped (Option.isSome_iff_ne_none.mpr htyped) h
  · rintro ⟨hvisible, hkind⟩
    simp [treatment, hvisible, hkind]

/-- **A node without a widget:** one that is hidden, or has a type and is to be ignored. -/
def Drops (o : LoweringOptions) (n : Node) : Prop :=
  n.layer.visible = false ∨
    n.layer.kind.isSome = true ∧ o.readsFlags n = true ∧ n.layer.override? = .ok (some .ignore)

/-- **Nodes are dropped exactly if** they are hidden, or typed and ignored by a flag. -/
theorem treatment_eq_dropped_iff {n : Node} : o.treatment n = .dropped ↔ o.Drops n := by
  constructor
  · intro h
    by_cases hvisible : n.layer.visible = true
    · right
      constructor
      · -- An untyped node fails, flag or not, so one that is dropped has a type.
        by_contra huntyped
        have hkind : n.layer.kind = none := by simpa using huntyped
        rw [treatment_eq_untyped_iff.mpr ⟨hvisible, hkind⟩] at h
        cases h
      · exact (treatment_dropped h).resolve_left (by simp [hvisible])
    · exact Or.inl (by simpa using hvisible)
  · rintro (hhidden | ⟨htyped, hflag⟩)
    · simp [treatment, hhidden]
    · obtain ⟨kind, hkind⟩ := Option.isSome_iff_exists.mp htyped
      cases hvisible : n.layer.visible <;>
        simp [treatment, hvisible, hkind, override?_eq_some_iff.mpr hflag]

/-- **The faults of a node** are the node itself and those of its children, where it holds them. -/
theorem faultAt_cases {n m : Node} {k : Nat} (h : o.FaultAt n k m) :
    (k = 0 ∧ m = n ∧ o.treatment n = .untyped) ∨
      o.HoldsChildren n ∧ ∃ before c after j, n.children = before ++ c :: after ∧
        c.layer.isMask = false ∧ o.FaultAt c j m ∧ k = (Node.preorders before).length + j + 1 := by
  obtain ⟨hvisits, hvisible, huntyped⟩ := h
  cases hvisits with
  | here => exact Or.inl ⟨rfl, rfl, treatment_eq_untyped_iff.mpr ⟨hvisible, huntyped⟩⟩
  | child hholds hsplit _ hmask htail =>
    exact Or.inr ⟨hholds, _, _, _, _, hsplit, hmask, ⟨htail, hvisible, huntyped⟩, rfl⟩

/-- A child with a fault is shown, so the fault is one of the node that holds the child. -/
theorem FaultAt.of_child {n c m : Node} {before after : List Node} {k : Nat}
    (h : o.FaultAt c k m) (hholds : o.HoldsChildren n) (hsplit : n.children = before ++ c :: after)
    (hmask : c.layer.isMask = false) :
    o.FaultAt n ((Node.preorders before).length + k + 1) m := by
  have hshown : c.layer.visible = true := by
    rcases faultAt_cases h with ⟨-, -, huntyped⟩ | ⟨hholds, -⟩
    · exact (treatment_eq_untyped_iff.mp huntyped).1
    · exact hholds.visible
  exact ⟨.child hholds hsplit hshown hmask h.visits, h.visible, h.untyped⟩

/-! ### Failures -/

/-- Of two items of a list, one comes before the other, or they are at one place. -/
theorem split_cases {before before' after after' : List Node} {c c' : Node}
    (h : before ++ c :: after = before' ++ c' :: after') :
    c' ∈ before ∨ (before = before' ∧ c = c') ∨ ∃ between, before' = before ++ c :: between := by
  -- One of the two cuts is not behind the other; what lies between them tells the cases apart.
  rcases List.append_eq_append_iff.mp h with ⟨mid, rfl, hrest⟩ | ⟨mid, rfl, hrest⟩
  · cases mid with
    | nil => exact Or.inr (Or.inl ⟨by simp, (List.cons.inj hrest).1⟩)
    | cons d mid =>
      obtain ⟨rfl, -⟩ := List.cons.inj hrest
      exact Or.inr (Or.inr ⟨mid, rfl⟩)
  · cases mid with
    | nil => exact Or.inr (Or.inl ⟨by simp, (List.cons.inj hrest).1.symm⟩)
    | cons d mid =>
      obtain ⟨rfl, -⟩ := List.cons.inj hrest
      exact Or.inl (List.mem_append_right _ List.mem_cons_self)

/-- **Lowering children fails at the first child that fails.** -/
theorem exists_of_lowerChildren_error {depth : Nat} {children : List Node} {e : LoweringError}
    (h : o.lowerChildren depth children = .error e) :
    ∃ before c after, children = before ++ c :: after ∧ c.layer.isMask = false ∧
      o.lowerNode depth c = .error e ∧
      ∀ d ∈ before, d.layer.isMask = false → ∃ r, o.lowerNode depth d = .ok r := by
  induction children with
  | nil => cases h
  | cons c rest ih =>
    -- Where the failure is one of the rest, the first child is a mask or has been lowered.
    have hlater : (c.layer.isMask = false → ∃ r, o.lowerNode depth c = .ok r) →
        o.lowerChildren depth rest = .error e → ∃ before d after, c :: rest = before ++ d :: after ∧
          d.layer.isMask = false ∧ o.lowerNode depth d = .error e ∧
          ∀ d ∈ before, d.layer.isMask = false → ∃ r, o.lowerNode depth d = .ok r := by
      intro hc hrest
      obtain ⟨before, d, after, rfl, hmask, hfails, hbefore⟩ := ih hrest
      exact ⟨c :: before, d, after, rfl, hmask, hfails, List.forall_mem_cons.mpr ⟨hc, hbefore⟩⟩
    obtain ⟨layer, children⟩ := c
    rw [lowerChildren] at h
    by_cases hmask : layer.isMask = true
    · refine hlater (fun hno => absurd (hmask.symm.trans hno) Bool.noConfusion) ?_
      cases hrest : o.lowerChildren depth rest with
      | error e' => simpa [hmask, hrest] using h
      | ok lowered => simp [hmask, hrest] at h
    · cases hnode : o.lowerNode depth ⟨layer, children⟩ with
      | error e' =>
        obtain rfl : e' = e := by simpa [hmask, hnode] using h
        exact ⟨[], _, rest, rfl, by simpa using hmask, hnode,
          fun _ hd => absurd hd List.not_mem_nil⟩
      | ok r =>
        refine hlater (fun _ => ⟨r, hnode⟩) ?_
        cases hrest : o.lowerChildren depth rest with
        | error e' => simpa [hmask, hnode, hrest] using h
        | ok lowered => simp [hmask, hnode, hrest] at h

/-- What is lowered has no fault. -/
theorem not_faultAt_of_lowerNode (n : Node) :
    ∀ {depth : Nat} {r : Option Widget}, o.lowerNode depth n = .ok r →
      ∀ k m, ¬o.FaultAt n k m := by
  induction n using Node.induction with
  | node layer children ih =>
    intro depth r h k m hfault
    rcases faultAt_cases hfault with
      ⟨-, -, huntyped⟩ | ⟨hholds, before, c, after, j, hsplit, hmask, hbeneath, -⟩
    · rw [lowerNode, huntyped] at h
      cases h
    · obtain ⟨changes, htreat⟩ := treatment_eq_container_iff.mpr hholds
      obtain rfl : children = before ++ c :: after := hsplit
      have hc : c ∈ before ++ c :: after := List.mem_append_right _ List.mem_cons_self
      rw [lowerNode, htreat] at h
      -- All children have been lowered, and this one is no mask, so it has no fault either.
      cases hlowered : o.lowerChildren (depth + 1) (before ++ c :: after) with
      | error e => simp [hlowered] at h
      | ok lowered =>
        obtain ⟨d, -, -, hnode⟩ := exists_mem_of_forall₂ (lowerChildren_eq_ok_iff.mp hlowered) hc
        rw [hmask, if_neg Bool.false_ne_true] at hnode
        exact ih c hc hnode j m hbeneath

/-- **What fails has a fault,** and fails with the first one. -/
theorem exists_firstFault_of_lowerNode (n : Node) :
    ∀ {depth : Nat} {e : LoweringError}, o.lowerNode depth n = .error e →
      ∃ m, o.FirstFault n m ∧ e = .missingType m.layer.id m.layer.name := by
  induction n using Node.induction with
  | node layer children ih =>
    intro depth e h
    rw [lowerNode] at h
    cases htreat : o.treatment ⟨layer, children⟩ with
    | dropped => simp [htreat] at h
    | finished w => simp [htreat] at h
    | untyped =>
      obtain ⟨hvisible, hkind⟩ := treatment_eq_untyped_iff.mp htreat
      rw [htreat] at h
      cases h
      exact ⟨_, ⟨0, ⟨.here _, hvisible, hkind⟩, fun _ _ _ => Nat.zero_le _⟩, rfl⟩
    | container changes =>
      have hholds := treatment_eq_container_iff.mp ⟨changes, htreat⟩
      cases hlowered : o.lowerChildren (depth + 1) children with
      | ok lowered => simp [htreat, hlowered] at h
      | error e' =>
        obtain rfl : e' = e := by simpa [htreat, hlowered] using h
        obtain ⟨before, c, after, rfl, hmask, hfails, hbefore⟩ :=
          exists_of_lowerChildren_error hlowered
        have hc : c ∈ before ++ c :: after := List.mem_append_right _ List.mem_cons_self
        obtain ⟨m, ⟨k, hfault, hfirst⟩, rfl⟩ := ih c hc hfails
        refine ⟨m, ⟨_, hfault.of_child hholds rfl hmask, fun j d hd => ?_⟩, rfl⟩
        -- Another fault is in this child and not before it, or in a child that comes later.
        rcases faultAt_cases hd with
          ⟨-, -, huntyped⟩ | ⟨-, before', c', after', i, hsplit, hmask', hbeneath, rfl⟩
        · rw [htreat] at huntyped
          cases huntyped
        · have hlt : k < c.preorder.length := hfault.visits.lt_length
          rcases split_cases hsplit with hearlier | ⟨rfl, rfl⟩ | ⟨between, rfl⟩
          · obtain ⟨r, hr⟩ := hbefore c' hearlier hmask'
            exact absurd hbeneath (not_faultAt_of_lowerNode c' hr i d)
          · have hle := hfirst i d hbeneath
            omega
          · -- All of this child comes before the later one.
            rw [preorders_append, Node.preorders, List.length_append, List.length_append]
            omega

/-! ### The law -/

/-- **How the outcome of lowering is told by the design.** It fails for an empty root when the root
is hidden or ignored, and for a missing type when there is a fault, and then at the first one. -/
structure FailsExactly (o : LoweringOptions) (root : Node) : Prop where
  emptyRoot : ∀ id, o.lower root = .error (.emptyRoot id) ↔ o.Drops root ∧ id = root.layer.id
  missingType : (∃ id name, o.lower root = .error (.missingType id name)) ↔
    ∃ k m, o.FaultAt root k m
  firstFault : ∀ id name, o.lower root = .error (.missingType id name) ↔
    ∃ m, o.FirstFault root m ∧ id = m.layer.id ∧ name = m.layer.name
  /-- The number of a fault is its place in the design. -/
  places : ∀ k m, o.FaultAt root k m → root.preorder[k]? = some m
  otherwise : (∃ w, o.lower root = .ok w) ↔ ¬o.Drops root ∧ ¬∃ k m, o.FaultAt root k m
  typed : (∀ n ∈ root.preorder, n.layer.kind.isSome = true) → ¬o.Drops root →
    ∃ w, o.lower root = .ok w

/-- There is at most one first fault. -/
theorem FirstFault.unique {root m d : Node} (hm : o.FirstFault root m) (hd : o.FirstFault root d) :
    m = d := by
  obtain ⟨k, hk, hkfirst⟩ := hm
  obtain ⟨j, hj, hjfirst⟩ := hd
  obtain rfl : k = j := Nat.le_antisymm (hkfirst j d hj) (hjfirst k m hk)
  have hsame := hk.visits.getElem?_preorder.symm.trans hj.visits.getElem?_preorder
  exact Option.some.inj hsame

/-- **Lowering fails exactly where a design has a fault, or its root is dropped.** -/
theorem lower_fails_exactly (o : LoweringOptions) (root : Node) : o.FailsExactly root := by
  have hplaces : ∀ k m, o.FaultAt root k m → root.preorder[k]? = some m :=
    fun _ _ h => h.visits.getElem?_preorder
  have htyped : (∀ n ∈ root.preorder, n.layer.kind.isSome = true) → ¬o.Drops root →
      ∃ w, o.lower root = .ok w :=
    fun htyped hroot => exists_lower htyped fun h => hroot (treatment_eq_dropped_iff.mp h)
  have hdrops : o.Drops root ↔ o.lowerNode 0 root = .ok none := by
    rw [lowerNode_eq_none_iff, treatment_eq_dropped_iff]
  -- The root is at fault somewhere, or dropped, or has a widget.
  cases hnode : o.lowerNode 0 root with
  | error e =>
    obtain ⟨m, hm, rfl⟩ := exists_firstFault_of_lowerNode root hnode
    have hlower : o.lower root = .error (.missingType m.layer.id m.layer.name) := by
      simp [lower, hnode]
    have hfault : ∃ k d, o.FaultAt root k d := by
      obtain ⟨k, hk, -⟩ := hm
      exact ⟨k, m, hk⟩
    refine ⟨?_, ?_, ?_, hplaces, ?_, htyped⟩
    · simp [hlower, hdrops, hnode]
    · exact ⟨fun _ => hfault, fun _ => ⟨_, _, hlower⟩⟩
    · intro id name
      rw [hlower]
      constructor
      · intro h
        cases h
        exact ⟨m, hm, rfl, rfl⟩
      · rintro ⟨d, hd, rfl, rfl⟩
        rw [hm.unique hd]
    · simp [hlower, hfault]
  | ok r =>
    have hnone := not_faultAt_of_lowerNode root hnode
    have hnofirst : ∀ m, ¬o.FirstFault root m := by
      rintro m ⟨k, hk, -⟩
      exact hnone k m hk
    cases r with
    | none =>
      have hlower : o.lower root = .error (.emptyRoot root.layer.id) := by
        simp [lower, hnode]
      refine ⟨?_, ?_, ?_, hplaces, ?_, htyped⟩
      · simp [hlower, hdrops, hnode, eq_comm]
      · simp [hlower, hnone]
      · simp [hlower, hnofirst]
      · simp [hlower, hdrops, hnode]
    | some w =>
      have hlower := lower_eq_ok_iff.mpr hnode
      refine ⟨?_, ?_, ?_, hplaces, ?_, htyped⟩
      · simp [hlower, hdrops, hnode]
      · simp [hlower, hnone]
      · simp [hlower, hnofirst]
      · simp [hlower, hdrops, hnode, hnone]

/-- A frame with nodes that have no type: one is hidden, one is a mask, one is in a rectangle, and
only the last one is come to. -/
def untypedFrame : Node :=
  let untyped id name : Layer := { id := id, name := name, kind := none }
  ⟨{ id := "f", name := "frame", kind := some .frame, width := 90, height := 90 },
    [⟨{ untyped "1" "hidden" with visible := false }, []⟩,
      ⟨{ untyped "2" "mask" with isMask := true }, []⟩,
      ⟨{ untyped "3" "box" with kind := some .rectangle }, [⟨untyped "4" "beneath", []⟩]⟩,
      ⟨untyped "5" "late", []⟩]⟩

example : ({} : LoweringOptions).lower untypedFrame = .error (.missingType "5" "late") := rfl

end LoweringOptions

end DesignCompiler
