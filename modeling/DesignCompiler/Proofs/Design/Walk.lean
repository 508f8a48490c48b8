import DesignCompiler.Design.Node
import Mathlib.Data.List.Basic
/-!
# The walk over a design

`Node.descendants` walks with a stack of the trees that are still to be visited, which grows and
shrinks as it goes. What is left to be given out is always the nodes of the pending trees, tree by
tree (`Node.descendantsFrom_eq_preorders`), so the walk is the recursive `Node.preorder`.

* `Node.induction` is the induction over a design that goes with it;
* `Node.Yields` runs the walk turn by turn up to an empty stack, so a list that it gives out is one
  that the walk comes to the end of;
* `Node.places` are the ways down to the nodes of a tree, parents first, and
  `Node.yields_descendants` says that the walk gives out the node at each of them.
-/

namespace DesignCompiler

namespace Node

/-! ### Nodes of a design -/

/-- Induction over a design, where a node has the claim for each of its children. -/
@[elab_as_elim]
theorem induction {motive : Node → Prop}
    (node : ∀ layer children, (∀ c ∈ children, motive c) → motive ⟨layer, children⟩)
    (n : Node) : motive n := by
  -- A list of children has the claim if all of them have it.
  refine Node.rec (motive_1 := motive) (motive_2 := fun children => ∀ c ∈ children, motive c)
    node ?_ ?_ n
  · intro c hc
    exact absurd hc List.not_mem_nil
  · intro c rest hc hrest d hd
    rcases List.mem_cons.mp hd with rfl | hd
    · exact hc
    · exact hrest d hd

theorem preorder_eq (n : Node) : n.preorder = n :: preorders n.children := by
  cases n
  rw [preorder]

/-- The walk over several trees goes through one after the other. -/
theorem preorders_eq_flatMap (ns : List Node) : preorders ns = ns.flatMap preorder := by
  induction ns with
  | nil => rfl
  | cons n ns ih => rw [preorders, List.flatMap_cons, ih]

theorem mem_preorder_self (n : Node) : n ∈ n.preorder := by
  rw [preorder_eq]
  exact List.mem_cons_self

/-- The nodes of a child are nodes of the tree. -/
theorem mem_preorder_of_child {n c m : Node} (hc : c ∈ n.children) (hm : m ∈ c.preorder) :
    m ∈ n.preorder := by
  rw [preorder_eq, preorders_eq_flatMap]
  exact List.mem_cons_of_mem _ (List.mem_flatMap.mpr ⟨c, hc, hm⟩)

/-- The children of a node of a design are nodes of the design. -/
theorem mem_preorder_child {root n c : Node} (h : n ∈ root.preorder) (hc : c ∈ n.children) :
    c ∈ root.preorder := by
  induction root using Node.induction with
  | node layer children ih =>
    rw [preorder_eq, preorders_eq_flatMap] at h
    rcases List.mem_cons.mp h with rfl | h
    · exact mem_preorder_of_child hc (mem_preorder_self c)
    · obtain ⟨d, hd, hn⟩ := List.mem_flatMap.mp h
      exact mem_preorder_of_child hd (ih d hd hn)

/-! ### The stack -/

/-- **A turn of the loop** gives out the node on top and puts its children in its place. -/
theorem descendantsFrom_cons (n : Node) (pending : List Node) :
    descendantsFrom (n :: pending) = n :: descendantsFrom (n.children ++ pending) := by
  cases n
  rw [descendantsFrom]

/-- **A walk gives out the nodes of the pending trees,** tree by tree. -/
theorem descendantsFrom_eq_preorders (pending : List Node) :
    descendantsFrom pending = preorders pending := by
  induction pending using descendantsFrom.induct with
  | case1 => rw [descendantsFrom, preorders]
  | case2 layer children pending ih =>
    -- The children are pushed in front of what is pending, which is where they stand in the list.
    calc descendantsFrom (⟨layer, children⟩ :: pending)
        = ⟨layer, children⟩ :: preorders (children ++ pending) := by rw [descendantsFrom, ih]
      _ = preorders (⟨layer, children⟩ :: pending) := by
        rw [preorders_append, preorders, preorder, List.cons_append]

/-- **The loop gives out the nodes in the order of the walk.** -/
theorem descendants_eq_preorder (n : Node) : n.descendants = n.preorder := by
  rw [descendants, descendantsFrom_eq_preorders, preorders, preorders, List.append_nil]

/-- The nodes strictly beneath a node are those of its children. -/
theorem properDescendants_eq_preorders (n : Node) : n.properDescendants = preorders n.children := by
  rw [properDescendants, descendants_eq_preorder, preorder_eq, List.drop_one, List.tail_cons]

/-! ### Turn by turn -/

/-- One turn of the walk: the topmost tree is taken off the stack, its node is given out, and its
children are put on in its place. There is no turn for an empty stack. -/
def turn? : List Node → Option (Node × List Node)
  | [] => none
  | n :: pending => some (n, n.children ++ pending)

/-- **What the turns give out** from a stack on until it is empty. Turns that went on for ever would
give out no such list. -/
inductive Yields : List Node → List Node → Prop
  | done {pending : List Node} (hturn : turn? pending = none) : Yields pending []
  | turn {pending rest out : List Node} {n : Node} (hturn : turn? pending = some (n, rest))
      (hrest : Yields rest out) : Yields pending (n :: out)

/-- **The turns end,** and what they give out is what the walk lists. -/
theorem yields_iff {pending out : List Node} :
    Yields pending out ↔ out = descendantsFrom pending := by
  constructor
  · intro h
    induction h with
    | @done pending hturn =>
      cases pending with
      | nil => rw [descendantsFrom]
      | cons n pending => cases hturn
    | @turn pending rest out n hturn _ ih =>
      cases pending with
      | nil => cases hturn
      | cons m pending =>
        cases hturn
        rw [ih, descendantsFrom_cons]
  · rintro rfl
    -- The walk recurses along the turns, and the pending trees hold one node less after each.
    induction pending using descendantsFrom.induct with
    | case1 =>
      rw [descendantsFrom]
      exact .done rfl
    | case2 layer children pending ih =>
      rw [descendantsFrom]
      exact .turn rfl ih

/-! ### Places -/

/-- The node at a place, which is given by the indices of the children on the way down to it. -/
def nodeAt? : Node → List Nat → Option Node
  | n, [] => some n
  | n, i :: place => n.children[i]?.bind fun c => c.nodeAt? place

mutual

/-- **The places of a tree:** the root, then the places beneath each child. -/
def places : Node → List (List Nat)
  | ⟨_, children⟩ => [] :: placesFrom 0 children

/-- The places beneath the children from the one with the index `i` on. -/
def placesFrom (i : Nat) : List Node → List (List Nat)
  | [] => []
  | c :: rest => c.places.map (i :: ·) ++ placesFrom (i + 1) rest

end

/-- The places beneath a list of children, counted from a number. -/
theorem placesFrom_eq_flatMap (i : Nat) (children : List Node) :
    placesFrom i children =
      (children.zipIdx i).flatMap fun child => child.1.places.map (child.2 :: ·) := by
  induction children generalizing i with
  | nil => rfl
  | cons c rest ih => rw [placesFrom, ih, List.zipIdx_cons, List.flatMap_cons]

/-- The places of a tree are its root and those of its children, each behind the number of the
child. -/
theorem places_eq (n : Node) :
    n.places = [] :: n.children.zipIdx.flatMap fun child =>
      child.1.places.map (child.2 :: ·) := by
  cases n
  rw [places, placesFrom_eq_flatMap]

/-- **A place of a tree is one with a node at it.** -/
theorem mem_places_iff {n : Node} {place : List Nat} :
    place ∈ n.places ↔ (n.nodeAt? place).isSome = true := by
  -- A place is followed down: its first number picks a child, and the rest is a place in that.
  induction place generalizing n with
  | nil =>
    rw [places_eq, nodeAt?]
    exact iff_of_true List.mem_cons_self rfl
  | cons i place ih =>
    rw [places_eq, List.mem_cons, or_iff_right (List.cons_ne_nil _ _), List.mem_flatMap, nodeAt?]
    constructor
    · rintro ⟨⟨c, j⟩, hchild, hplace⟩
      obtain ⟨below, hbelow, heq⟩ := List.mem_map.mp hplace
      cases heq
      rw [List.mk_mem_zipIdx_iff_getElem?.mp hchild]
      exact ih.mp hbelow
    · intro hsome
      cases hchild : n.children[i]? with
      | none => simp [hchild] at hsome
      | some c =>
        rw [hchild] at hsome
        exact ⟨(c, i), List.mk_mem_zipIdx_iff_getElem?.mpr hchild,
          List.mem_map.mpr ⟨place, ih.mpr hsome, rfl⟩⟩

/-- **Places are in lexicographic order:** a node before those beneath it, and those beneath one
child before those beneath the next one. So none of them comes twice. -/
theorem pairwise_places (n : Node) : n.places.Pairwise (· < ·) := by
  induction n using Node.induction with
  | node layer children ih =>
    rw [places_eq, List.pairwise_cons]
    constructor
    · intro place hplace
      obtain ⟨child, -, hplace⟩ := List.mem_flatMap.mp hplace
      obtain ⟨below, -, rfl⟩ := List.mem_map.mp hplace
      exact List.nil_lt_cons _ _
    · rw [List.pairwise_flatMap]
      constructor
      · rintro ⟨c, i⟩ hchild
        rw [List.pairwise_map]
        refine (ih c ?_).imp fun hlt => List.cons_lt_cons_iff.mpr (Or.inr ⟨rfl, hlt⟩)
        exact List.mem_of_getElem? (List.mk_mem_zipIdx_iff_getElem?.mp hchild)
      · -- The children come in the order of their indices.
        have hindices : (children.zipIdx.map Prod.snd).Pairwise (· < ·) := by
          rw [List.zipIdx_map_snd]
          exact List.pairwise_lt_range'
        refine (List.pairwise_map.mp hindices).imp fun hlt p hp q hq => ?_
        obtain ⟨_, -, rfl⟩ := List.mem_map.mp hp
        obtain ⟨_, -, rfl⟩ := List.mem_map.mp hq
        exact List.cons_lt_cons_iff.mpr (Or.inl hlt)

/-- **The nodes at the places** are the nodes of the tree, parents first. -/
theorem map_nodeAt?_places (n : Node) : n.places.map n.nodeAt? = n.preorder.map some := by
  induction n using Node.induction with
  | node layer children ih =>
    have hchild : ∀ child ∈ children.zipIdx,
        (child.1.places.map (child.2 :: ·)).map (nodeAt? ⟨layer, children⟩) =
          child.1.preorder.map some := by
      rintro ⟨c, i⟩ hmem
      have hc := List.mk_mem_zipIdx_iff_getElem?.mp hmem
      rw [← ih c (List.mem_of_getElem? hc), List.map_map]
      refine List.map_congr_left fun place _ => ?_
      rw [Function.comp_apply, nodeAt?, hc]
      rfl
    -- The indices are what leads to the children, and are gone when their nodes are looked at.
    have hchildren : children.zipIdx.flatMap (fun child => child.1.preorder.map some) =
        children.flatMap fun c => c.preorder.map some := by
      conv_rhs => rw [← List.zipIdx_map_fst 0 children, List.flatMap_map]
    rw [places_eq, preorder_eq, preorders_eq_flatMap, List.map_cons, List.map_cons, nodeAt?,
      List.map_flatMap, List.map_flatMap, List.flatMap_congr hchild, hchildren]

/-- **The walk is the pre-order of the tree.** Turn by turn it comes to an end, with the list of
descendants given out: the node itself, then the descendants of each child. These are the nodes at
the places of the tree, each place being taken once and in its order. -/
theorem yields_descendants (n : Node) :
    (∀ out, Yields [n] out ↔ out = n.descendants) ∧
      n.descendants = n :: n.children.flatMap descendants ∧
      n.descendants.map some = n.places.map n.nodeAt? ∧
      n.places.Pairwise (· < ·) ∧
      ∀ place, place ∈ n.places ↔ (n.nodeAt? place).isSome = true := by
  have hdescendants : descendants = preorder := funext descendants_eq_preorder
  refine ⟨fun out => yields_iff, ?_, ?_, pairwise_places n, fun place => mem_places_iff⟩
  · rw [hdescendants, preorder_eq, preorders_eq_flatMap]
  · rw [descendants_eq_preorder, map_nodeAt?_places]

end Node

end DesignCompiler
