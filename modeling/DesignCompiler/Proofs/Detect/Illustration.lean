import DesignCompiler.Detect.Image
import DesignCompiler.Proofs.Design.Walk
import DesignCompiler.Proofs.Number.Order
/-!
# Illustrations

A frame or a group is an illustration if it is large enough and made of shapes and boxes alone
(`ImageDetector.Admits`), with shapes enough among them. Shapes nest: a boolean operation has its
operands beneath it, which are shapes themselves. The limit of the detector is meant for the leaves,
the shapes without a shape beneath them, and what is counted is all shapes
(`ImageDetector.detect_illustration_iff`). The two numbers agree exactly where no shape has another
one beneath it (`Node.length_leafShapes_eq_iff`), and where they do not, a limit between them lets
too few leaves pass.
-/

namespace DesignCompiler

/-! ### Shapes and parts -/

/-- **The types that are drawn as one shape.** -/
def NodeKind.isShape : NodeKind → Bool
  | .vector _ | .boolean _ | .ellipse _ => true
  | _ => false

namespace Node

/-- Whether a node is a shape. -/
def isShape (n : Node) : Bool := n.layer.kind.any (·.isShape)

/-- The nodes beneath a node. -/
def beneath (n : Node) : List Node := preorders n.children

/-- The shapes beneath a node. -/
def shapes (n : Node) : List Node := n.beneath.filter (·.isShape)

/-- The shapes beneath a node that have no shape beneath them. -/
def leafShapes (n : Node) : List Node := n.shapes.filter (·.shapes.isEmpty)

/-- **There are as many leaves as shapes** exactly if no shape is beneath another one. -/
theorem length_leafShapes_eq_iff (n : Node) :
    n.leafShapes.length = n.shapes.length ↔ ∀ m ∈ n.shapes, m.shapes = [] := by
  rw [leafShapes, List.length_filter_eq_length_iff]
  exact forall₂_congr fun m _ => List.isEmpty_iff

end Node

/-- **What may be part of an illustration:** neither text nor line nor anything unknown, and nothing
that is filled with an image. -/
structure Layer.FitsIllustration (l : Layer) : Prop where
  typed : l.kind ≠ none
  not_text : ∀ characters style, l.kind ≠ some (.text characters style)
  not_line : l.kind ≠ some .line
  recognized : ∀ tag, l.kind ≠ some (.unrecognized tag)
  no_image : l.hasImageFill = false

/-- What may be a part is counted if it is a shape. -/
theorem Node.shapeCount?_eq_some_iff {n : Node} {k : Nat} :
    n.layer.shapeCount? = some k ↔
      n.layer.FitsIllustration ∧ k = if n.isShape then 1 else 0 := by
  unfold Layer.shapeCount? Node.isShape
  constructor
  · intro h
    split at h
    · cases h
    · next himage =>
      split at h
      all_goals cases h
      -- What is left are the shapes and the boxes.
      all_goals
        next hkind =>
        rw [hkind]
        refine ⟨⟨?_, ?_, ?_, ?_, by simpa using himage⟩, rfl⟩
        all_goals simp [hkind]
  · rintro ⟨hfits, rfl⟩
    rw [hfits.no_image, if_neg Bool.false_ne_true]
    rcases hkind : n.layer.kind with _ | kind
    · exact absurd hkind hfits.typed
    · cases kind with
      | text characters style => exact absurd hkind (hfits.not_text characters style)
      | line => exact absurd hkind hfits.not_line
      | unrecognized tag => exact absurd hkind (hfits.recognized tag)
      | _ => rfl

/-- **The count of shapes,** where all nodes may be parts. -/
theorem countShapes?_eq_some_iff {ns : List Node} {k : Nat} :
    countShapes? ns = some k ↔
      (∀ n ∈ ns, n.layer.FitsIllustration) ∧ k = (ns.filter (·.isShape)).length := by
  induction ns generalizing k with
  | nil => simp [countShapes?, eq_comm]
  | cons n rest ih =>
    have hlength : ((n :: rest).filter (·.isShape)).length =
        (if n.isShape then 1 else 0) + (rest.filter (·.isShape)).length := by
      rw [List.filter_cons]
      split <;> simp [Nat.add_comm]
    rw [List.forall_mem_cons, hlength]
    -- Counting fails at the first node that does not fit, so a count is one of nodes that all do.
    constructor
    · intro h
      obtain ⟨here, hhere, hrest⟩ := Option.bind_eq_some_iff.mp h
      obtain ⟨others, hothers, hsum⟩ := Option.bind_eq_some_iff.mp hrest
      cases hsum
      obtain ⟨hn, rfl⟩ := Node.shapeCount?_eq_some_iff.mp hhere
      obtain ⟨hall, rfl⟩ := ih.mp hothers
      exact ⟨⟨hn, hall⟩, rfl⟩
    · rintro ⟨⟨hn, hall⟩, rfl⟩
      rw [countShapes?, Node.shapeCount?_eq_some_iff.mpr ⟨hn, rfl⟩, ih.mpr ⟨hall, rfl⟩]
      rfl

/-- **A frame or a group of parts of an illustration.** -/
structure Node.IsArtwork (n : Node) : Prop where
  holds : n.layer.kind = some .frame ∨ n.layer.kind = some .group
  parts : ∀ m ∈ n.beneath, m.layer.FitsIllustration

namespace ImageDetector

variable {d : ImageDetector} {n : Node}

/-- **What a detector takes for an illustration,** the number of shapes apart: artwork with a side
that is long enough. -/
structure Admits (d : ImageDetector) (n : Node) : Prop extends n.IsArtwork where
  large : d.minSize ≤ n.layer.width ∨ d.minSize ≤ n.layer.height

/-- The picture of an illustration is the node as a whole. -/
def picture (n : Node) : ImageMatch := ⟨.reserved n.layer.id, .cover, true⟩

/-- A box that is painted with an image is not drawn as a whole. -/
theorem illustration_imageBox {found : ImageMatch} (h : n.imageBox? = some found) :
    found.illustration = false := by
  unfold Node.imageBox? at h
  split at h
  · cases h
  · split at h
    · cases h
    · split at h
      · cases h
        rfl
      · cases h

/-- A frame with something in it and a group are no boxes painted with an image. -/
theorem imageBox?_eq_none (hholds : n.layer.kind = some .frame ∨ n.layer.kind = some .group)
    (h : 0 < n.shapes.length) : n.imageBox? = none := by
  have hplain : n.isPlainBox = false := by
    rcases hholds with hkind | hkind <;> rw [Node.isPlainBox, hkind]
    -- A frame without children has no shapes.
    obtain ⟨layer, _ | ⟨c, rest⟩⟩ := n
    · exact absurd h (by simp [Node.shapes, Node.beneath, Node.preorders])
    · rfl
  rw [Node.imageBox?, hplain]
  rfl

/-- **Where a node is drawn as a whole,** it is artwork of the size asked for and has the leaves. -/
def FindsLeaves (d : ImageDetector) (n : Node) : Prop :=
  ∀ found, d.detect n = some found → found.illustration = true →
    d.Admits n ∧ d.minVectors ≤ n.leafShapes.length

section Numbers

variable (hwidth : n.layer.width.isNaN = false) (hheight : n.layer.height.isNaN = false)
  (hleast : d.minSize.isNaN = false)

include hwidth hheight hleast

/-- **All shapes are counted,** leaves or not. -/
theorem illustration?_eq_some_iff {found : ImageMatch} :
    d.illustration? n = some found ↔
      (d.Admits n ∧ d.minVectors ≤ n.shapes.length) ∧ found = picture n := by
  have hlongest : n.layer.longestSide.isNaN = false := by
    unfold Layer.longestSide Float.larger
    split <;> assumption
  have hlarge : (!decide (n.layer.longestSide < d.minSize)) = true ↔
      d.minSize ≤ n.layer.width ∨ d.minSize ≤ n.layer.height := by
    rw [Bool.not_eq_true', decide_eq_false_iff_not, Float.not_lt hlongest hleast]
    exact Float.le_larger_iff hwidth hheight
  have hcount : (countShapes? n.properDescendants).any (d.minVectors ≤ ·) = true ↔
      (∀ m ∈ n.beneath, m.layer.FitsIllustration) ∧ d.minVectors ≤ n.shapes.length := by
    rw [Option.any_eq_true, Node.properDescendants_eq_preorders]
    constructor
    · rintro ⟨k, hk, hle⟩
      obtain ⟨hparts, rfl⟩ := countShapes?_eq_some_iff.mp hk
      exact ⟨hparts, of_decide_eq_true hle⟩
    · rintro ⟨hparts, hle⟩
      exact ⟨_, countShapes?_eq_some_iff.mpr ⟨hparts, rfl⟩, decide_eq_true hle⟩
  -- A frame or a group is asked for its size and its count, and nothing else is asked at all.
  by_cases hholds : n.layer.kind = some .frame ∨ n.layer.kind = some .group
  · have hasked : d.illustration? n =
        if (!decide (n.layer.longestSide < d.minSize)) &&
          (countShapes? n.properDescendants).any (d.minVectors ≤ ·) then some (picture n)
        else none := by
      rcases hholds with hkind | hkind <;> rw [illustration?, hkind] <;> rfl
    rw [hasked, Option.ite_none_right_eq_some, Bool.and_eq_true, hlarge, hcount,
      Option.some.injEq, eq_comm (a := picture n)]
    constructor
    · rintro ⟨⟨hsize, hparts, hle⟩, hfound⟩
      exact ⟨⟨⟨⟨hholds, hparts⟩, hsize⟩, hle⟩, hfound⟩
    · rintro ⟨⟨⟨⟨-, hparts⟩, hsize⟩, hle⟩, hfound⟩
      exact ⟨⟨hsize, hparts, hle⟩, hfound⟩
  · have hnone : d.illustration? n = none := by
      unfold illustration?
      split
      · next hkind => exact absurd (Or.inl hkind) hholds
      · next hkind => exact absurd (Or.inr hkind) hholds
      · rfl
    rw [hnone]
    exact iff_of_false (nomatch ·) fun h => hholds h.1.1.holds

/-- What is drawn as a whole, and as what. -/
theorem detect_eq_illustration_iff :
    (∃ found, d.detect n = some found ∧ found.illustration = true) ↔
      n.imageBox? = none ∧ d.Admits n ∧ d.minVectors ≤ n.shapes.length := by
  have hiff : ∀ found, d.illustration? n = some found ↔
      (d.Admits n ∧ d.minVectors ≤ n.shapes.length) ∧ found = picture n :=
    fun _ => illustration?_eq_some_iff hwidth hheight hleast
  unfold detect
  rcases hbox : n.imageBox? with _ | box
  · change (∃ found, d.illustration? n = some found ∧ _) ↔ _
    constructor
    · rintro ⟨found, hfound, -⟩
      exact ⟨rfl, ((hiff found).mp hfound).1⟩
    · rintro ⟨-, hcounted⟩
      exact ⟨picture n, (hiff _).mpr ⟨hcounted, rfl⟩, rfl⟩
  · -- A painted box comes before an illustration.
    refine iff_of_false ?_ (nomatch ·.1)
    rintro ⟨found, hfound, hwhole⟩
    cases hfound
    exact Bool.noConfusion ((illustration_imageBox hbox).symm.trans hwhole)

/-- **Leaves are too few** exactly where the limit is above their number, and shapes with others
beneath them make up for it. -/
theorem findsLeaves_iff_not :
    d.FindsLeaves n ↔ ¬(d.Admits n ∧ n.leafShapes.length < d.minVectors ∧
      d.minVectors ≤ n.shapes.length) := by
  have hdetect := detect_eq_illustration_iff hwidth hheight hleast
  -- The only gap is a node that is let in by the shapes that are counted, with too few leaves among
  -- them.
  constructor
  · rintro hleaves ⟨hadmits, hfew, hle⟩
    have hbox : n.imageBox? = none := imageBox?_eq_none hadmits.holds (by omega)
    obtain ⟨found, hfound, hwhole⟩ := hdetect.mpr ⟨hbox, hadmits, hle⟩
    have henough := (hleaves found hfound hwhole).2
    omega
  · intro hgap found hfound hwhole
    obtain ⟨-, hadmits, hle⟩ := hdetect.mp ⟨found, hfound, hwhole⟩
    refine ⟨hadmits, ?_⟩
    by_contra hfew
    exact hgap ⟨hadmits, Nat.lt_of_not_le hfew, hle⟩

end Numbers

/-- **What illustrations are made of.** A node of numeric size is drawn as a whole if it is artwork
of the size asked for with shapes enough, where all shapes count. So it has leaves enough unless the
limit is above their number and not above that of the shapes, and it has them for whatever limit
exactly if no shape of the artwork has another one beneath it. -/
theorem findsLeaves_iff (hwidth : n.layer.width.isNaN = false)
    (hheight : n.layer.height.isNaN = false) :
    (∀ d : ImageDetector, d.minSize.isNaN = false →
      ((∃ found, d.detect n = some found ∧ found.illustration = true) ↔
        n.imageBox? = none ∧ d.Admits n ∧ d.minVectors ≤ n.shapes.length) ∧
      (d.FindsLeaves n ↔ ¬(d.Admits n ∧ n.leafShapes.length < d.minVectors ∧
        d.minVectors ≤ n.shapes.length))) ∧
    ((∀ d : ImageDetector, d.minSize.isNaN = false → d.FindsLeaves n) ↔
      (n.IsArtwork → ∀ m ∈ n.shapes, m.shapes = [])) := by
  have hfewer : n.leafShapes.length ≤ n.shapes.length := List.length_filter_le _ _
  refine ⟨fun d hleast => ⟨detect_eq_illustration_iff hwidth hheight hleast,
    findsLeaves_iff_not hwidth hheight hleast⟩, ?_⟩
  rw [← Node.length_leafShapes_eq_iff]
  constructor
  · intro hall hart
    -- A detector that asks for as many shapes as there are.
    have hnumber : (⟨n.shapes.length, n.layer.width⟩ : ImageDetector).minSize.isNaN = false :=
      hwidth
    have hleaves := (findsLeaves_iff_not hwidth hheight hnumber).mp (hall _ hnumber)
    by_contra hne
    exact hleaves ⟨⟨hart, Or.inl (Float.le_refl hwidth)⟩, lt_of_le_of_ne hfewer hne, Nat.le_refl _⟩
  · intro hflat d hleast
    rw [findsLeaves_iff_not hwidth hheight hleast]
    rintro ⟨hadmits, hfew, hle⟩
    have hsame := hflat hadmits.toIsArtwork
    omega

/-- A group of the size of a banner that holds one boolean operation of some vectors. -/
def banner (operands : Nat) : Node :=
  let node id kind children : Node :=
    ⟨{ id := id, name := id, kind := kind, width := 300, height := 200 }, children⟩
  node "banner" (some .group)
    [node "union" (some (.boolean .union))
      (List.replicate operands (node "piece" (some (.vector [])) []))]

/-- Seven operands and the operation are counted as eight, and the seven are the leaves. -/
theorem isArtwork_banner : (banner 7).IsArtwork ∧ (banner 7).leafShapes.length = 7 ∧
    (banner 7).shapes.length = 8 := by
  refine ⟨⟨Or.inr rfl, fun m hm => ?_⟩, by decide, by decide⟩
  have hfits : countShapes? (banner 7).beneath = some 8 := by decide
  exact (countShapes?_eq_some_iff.mp hfits).1 m hm

/-- The law at a banner whose union is counted beside the vectors in it. -/
theorem findsLeaves_banner : (banner 7).layer.width.isNaN = false ∧
    (banner 7).layer.height.isNaN = false ∧
    (∀ d : ImageDetector, d.minSize.isNaN = false →
      ((∃ found, d.detect (banner 7) = some found ∧ found.illustration = true) ↔
        (banner 7).imageBox? = none ∧ d.Admits (banner 7) ∧
          d.minVectors ≤ (banner 7).shapes.length) ∧
      (d.FindsLeaves (banner 7) ↔ ¬(d.Admits (banner 7) ∧
        (banner 7).leafShapes.length < d.minVectors ∧ d.minVectors ≤ (banner 7).shapes.length))) ∧
    ((∀ d : ImageDetector, d.minSize.isNaN = false → d.FindsLeaves (banner 7)) ↔
      ((banner 7).IsArtwork → ∀ m ∈ (banner 7).shapes, m.shapes = [])) := by
  have hwidth : (banner 7).layer.width.isNaN = false := by decide +kernel
  have hheight : (banner 7).layer.height.isNaN = false := by decide +kernel
  exact ⟨hwidth, hheight, findsLeaves_iff hwidth hheight⟩

/-- **Seven leaves pass for eight shapes** where the operation that holds them is counted too. -/
theorem not_findsLeaves_banner : ({} : ImageDetector).minSize.isNaN = false ∧
    (banner 7).layer.width.isNaN = false ∧ (banner 7).layer.height.isNaN = false ∧
    ¬({} : ImageDetector).FindsLeaves (banner 7) := by
  have hwidth : (banner 7).layer.width.isNaN = false := by decide +kernel
  have hheight : (banner 7).layer.height.isNaN = false := by decide +kernel
  have hleast : ({} : ImageDetector).minSize.isNaN = false := by decide +kernel
  obtain ⟨hart, hleaves, hshapes⟩ := isArtwork_banner
  have hlarge : ({} : ImageDetector).minSize ≤ (banner 7).layer.width := by decide +kernel
  refine ⟨hleast, hwidth, hheight, fun h => ?_⟩
  have hgap : (banner 7).leafShapes.length < 8 := by omega
  exact (findsLeaves_iff_not hwidth hheight hleast).mp h ⟨⟨hart, Or.inl hlarge⟩, hgap, hshapes.ge⟩

end ImageDetector

end DesignCompiler
