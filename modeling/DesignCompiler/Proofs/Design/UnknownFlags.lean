import DesignCompiler.Lowering.Masking
import DesignCompiler.Proofs.Related
/-!
# Names that differ in unknown flags

A token of a name that starts with two hyphens is a flag, and one whose key is none of `flagKeys` is
an *unknown* flag. Names written for other tools hold such tokens. Here two designs are related,
`Node.Reflagged`, that are the same up to unknown flags in the names of their layers.

Most readings of a name pass over unknown flags. What the flags ask for and the alternative text are
the same for such designs, and so is all that does not read names at all: the paths, the images that
the detector finds, the masks. Icons are left out here on purpose. Their detector searches the name
as it is written, unknown flags and all.
-/

namespace DesignCompiler

/-! ### Unknown flags -/

/-- The keys of the flags that have a meaning. -/
def flagKeys : List String :=
  ["ignore", "artwork", "as-image", "max-width", "min-width", "as-icon"] ++
    TextTag.all.map fun tag => "as-" ++ tag.html

/-- Whether a token is a flag with a key that has no meaning. -/
def isUnknownFlag (token : List Char) : Bool :=
  isFlagToken token && !flagKeys.contains (splitFlag token).1

/-- The tokens of a name that are no unknown flags: its words, and the flags with a meaning. -/
def knownTokens (name : String) : List (List Char) :=
  (tokens name.toList).filter (!isUnknownFlag ·)

/-- The keys that are for no tag are those that are not built from one. -/
theorem textTag?_eq_none_iff {key : String} :
    textTag? key = none ↔ key ∉ TextTag.all.map fun tag => "as-" ++ tag.html := by
  unfold textTag?
  rw [List.find?_eq_none, List.mem_map]
  constructor
  · rintro h ⟨tag, htag, rfl⟩
    exact h tag htag (beq_self_eq_true _)
  · intro h tag htag heq
    exact h ⟨tag, htag, (beq_iff_eq.mp heq).symm⟩

/-- The flag for a width is never taken for an unknown one. -/
theorem map_readWidth_ne {key : String} {value : Option String} (flag : Float → Flag) :
    (readWidth key value).map (some ∘ flag) ≠ .ok none := by
  -- A width is read or it is a fault, but it is never passed over.
  cases readWidth key value <;> simp [Except.map]

/-- **A flag is passed over exactly when its key is none of the known ones.** -/
theorem readFlag_eq_none_iff {key : String} {value : Option String} :
    readFlag key value = .ok none ↔ key ∉ flagKeys := by
  unfold readFlag flagKeys
  rw [List.mem_append, not_or, ← textTag?_eq_none_iff]
  -- One question after the other, in the order in which they are asked.
  by_cases hignore : key = "ignore"
  · simp [hignore]
  by_cases hartwork : key = "artwork" ∨ key = "as-image"
  · rcases hartwork with rfl | rfl <;> simp
  by_cases hmax : key = "max-width"
  · simp [hmax, map_readWidth_ne]
  by_cases hmin : key = "min-width"
  · simp [hmin, map_readWidth_ne]
  by_cases hicon : key = "as-icon"
  · rcases value with _ | glyph
    · simp [hicon]
    · by_cases hempty : glyph = "" <;> simp [hicon, hempty]
  · rw [not_or] at hartwork
    simp [hignore, hartwork, hmax, hmin, hicon]

/-- **An unknown flag is passed over,** and is no fault either. -/
theorem readToken_of_unknown {token : List Char} (h : isUnknownFlag token = true) :
    readToken token = .ok none := by
  obtain ⟨hflag, hkey⟩ : isFlagToken token = true ∧ (splitFlag token).1 ∉ flagKeys := by
    simpa [isUnknownFlag] using h
  unfold readToken
  rw [if_pos hflag]
  exact readFlag_eq_none_iff.mpr hkey

/-- Tokens that mean nothing may be left out. -/
theorem readTokens_filter {p : List Char → Bool}
    (h : ∀ token, p token = false → readToken token = .ok none) (ts : List (List Char)) :
    readTokens (ts.filter p) = readTokens ts := by
  induction ts with
  | nil => rfl
  | cons token rest ih =>
    cases hp : p token with
    | false =>
      rw [List.filter_cons_of_neg (by simp [hp]), ih, readTokens, h token hp]
      -- Nothing is added to the flags of the rest, nor is a fault among them mended.
      cases readTokens rest <;> rfl
    | true => rw [List.filter_cons_of_pos hp, readTokens, readTokens, ih]

/-- The flags of a name are those of its known tokens. -/
theorem parseFlags_eq (name : String) : parseFlags name = readTokens (knownTokens name) :=
  (readTokens_filter (fun _ h => readToken_of_unknown (by simpa using h)) _).symm

/-- A name without its flags is made of its known tokens. -/
theorem stripFlags_eq (name : String) :
    stripFlags name =
      String.ofList (joinTokens ((knownTokens name).filter (!isFlagToken ·))) := by
  unfold stripFlags knownTokens
  rw [List.filter_filter]
  congr 2
  refine List.filter_congr fun token _ => ?_
  cases hflag : isFlagToken token <;> simp [isUnknownFlag, hflag]

/-! ### Layers -/

namespace Layer

/-- The layer under another name. -/
def named (l : Layer) (name : String) : Layer := { l with name := name }

/-- **A layer with other unknown flags:** only the names differ, and only in unknown flags. -/
def Reflagged (l l' : Layer) : Prop :=
  ∃ name, knownTokens l.name = knownTokens name ∧ l' = l.named name

variable {l l' : Layer}

/-- What is read of a layer, but not of its name, is the same. -/
theorem Reflagged.read_eq {α : Type} (h : l.Reflagged l') (read : Layer → α)
    (hread : ∀ l name, read (l.named name) = read l) : read l' = read l := by
  obtain ⟨name, -, rfl⟩ := h
  exact hread l name

theorem Reflagged.override? (h : l.Reflagged l') : l'.override? = l.override? := by
  obtain ⟨name, htokens, rfl⟩ := h
  simp only [Layer.override?, named, parseFlags_eq, htokens]

theorem Reflagged.altText (h : l.Reflagged l') : l'.altText = l.altText := by
  obtain ⟨name, htokens, rfl⟩ := h
  simp only [Layer.altText, named, stripFlags_eq, htokens]

end Layer

/-! ### Designs -/

namespace Node

/-- **A design with other unknown flags:** the same tree of layers, each of which may have other
unknown flags. -/
inductive Reflagged : Node → Node → Prop
  | node {l l' : Layer} {children children' : List Node} : l.Reflagged l' →
      List.Forall₂ Reflagged children children' → Reflagged ⟨l, children⟩ ⟨l', children'⟩

variable {n n' : Node}

theorem Reflagged.layer (h : n.Reflagged n') : n.layer.Reflagged n'.layer := by
  cases h with
  | node hlayer _ => exact hlayer

/-- Their children differ in unknown flags pair by pair. -/
theorem Reflagged.children (h : n.Reflagged n') :
    List.Forall₂ Reflagged n.children n'.children := by
  cases h with
  | node _ hchildren => exact hchildren

/-- The walk comes to the nodes of both designs in step. -/
theorem forall₂_descendantsFrom {pending : List Node} :
    ∀ {pending' : List Node}, List.Forall₂ Reflagged pending pending' →
      List.Forall₂ Reflagged (descendantsFrom pending) (descendantsFrom pending') := by
  induction pending using descendantsFrom.induct with
  | case1 =>
    intro pending' h
    cases h
    rw [descendantsFrom]
    exact .nil
  | case2 layer children pending ih =>
    -- The children come in front of what is pending, and they are as many in both designs.
    intro pending' h
    obtain ⟨n', rest', hnode, hrest, rfl⟩ := List.forall₂_cons_left_iff.mp h
    cases hnode with
    | node hlayer hchildren =>
      rw [descendantsFrom, descendantsFrom]
      exact .cons (.node hlayer hchildren) (ih (List.rel_append hchildren hrest))

theorem Reflagged.descendants (h : n.Reflagged n') :
    List.Forall₂ Reflagged n.descendants n'.descendants :=
  forall₂_descendantsFrom (.cons h .nil)

/-- What is read off layers without their names is the same for both lists. -/
theorem map_eq_of_reflagged {α : Type} (read : Layer → α) {ns ns' : List Node}
    (hread : ∀ l name, read (l.named name) = read l) (h : List.Forall₂ Reflagged ns ns') :
    ns'.map (read ·.layer) = ns.map (read ·.layer) :=
  (map_eq_map_of_forall₂ (h.imp fun _ _ hn => (hn.layer.read_eq read hread).symm)).symm

/-- Masks are no matter of names. -/
theorem Reflagged.containsMasking (h : n.Reflagged n') :
    n'.containsMasking = n.containsMasking := by
  have hmasks := map_eq_of_reflagged (fun l => l.isMask) (fun _ _ => rfl) h.children
  unfold Node.containsMasking
  calc n'.children.any (·.layer.isMask)
      = (n'.children.map (·.layer.isMask)).any id := by simp
    _ = (n.children.map (·.layer.isMask)).any id := by rw [hmasks]
    _ = n.children.any (·.layer.isMask) := by simp

/-- Nor are the paths of vectors. -/
theorem vectorPaths_of_reflagged {ns ns' : List Node} (h : List.Forall₂ Reflagged ns ns') :
    vectorPaths ns' = vectorPaths ns := by
  induction h with
  | nil => rfl
  | cons hn _ ih =>
    obtain ⟨name, -, hlayer⟩ := hn.layer
    rw [vectorPaths, vectorPaths, List.flatMap_cons, List.flatMap_cons, hlayer]
    exact congrArg _ ih

/-- Nor is the number of shapes. -/
theorem countShapes?_of_reflagged {ns ns' : List Node} (h : List.Forall₂ Reflagged ns ns') :
    countShapes? ns' = countShapes? ns := by
  induction h with
  | nil => rfl
  | cons hn _ ih =>
    obtain ⟨name, -, hlayer⟩ := hn.layer
    rw [countShapes?, countShapes?, ih, hlayer]
    rfl

/-- Nor is the number of vectors. -/
theorem countVectors?_of_reflagged {ns ns' : List Node} (h : List.Forall₂ Reflagged ns ns') :
    countVectors? ns' = countVectors? ns := by
  induction h with
  | nil => rfl
  | cons hn _ ih =>
    obtain ⟨name, -, hlayer⟩ := hn.layer
    rw [countVectors?, countVectors?, ih, hlayer]
    rfl

/-- Nor is the first color that anything is filled with. -/
theorem Reflagged.firstFillColor? (h : n.Reflagged n') :
    n'.firstFillColor? = n.firstFillColor? := by
  have hcolors := map_eq_of_reflagged Layer.fillColor? (fun _ _ => rfl) h.descendants
  unfold Node.firstFillColor?
  calc n'.descendants.findSome? (·.layer.fillColor?)
      = (n'.descendants.map (·.layer.fillColor?)).findSome? id := by simp [List.findSome?_map]
    _ = (n.descendants.map (·.layer.fillColor?)).findSome? id := by rw [hcolors]
    _ = n.descendants.findSome? (·.layer.fillColor?) := by simp [List.findSome?_map]

/-- The detector of images reads no names. -/
theorem Reflagged.detectImage (h : n.Reflagged n') (d : ImageDetector) :
    d.detect n' = d.detect n := by
  obtain ⟨name, -, hlayer⟩ := h.layer
  have hempty : n'.children.isEmpty = n.children.isEmpty := by
    rw [Bool.eq_iff_iff, List.isEmpty_iff, List.isEmpty_iff, ← List.length_eq_zero_iff,
      ← List.length_eq_zero_iff, h.children.length_eq]
  have hshapes : countShapes? n'.properDescendants = countShapes? n.properDescendants :=
    countShapes?_of_reflagged (List.forall₂_drop 1 h.descendants)
  -- A box is looked at by itself, and an illustration for the shapes beneath it.
  have hbox : n'.imageBox? = n.imageBox? := by
    simp only [imageBox?, isPlainBox, hasVisibleStroke, hlayer, hempty]
    rfl
  have hillustration : d.illustration? n' = d.illustration? n := by
    simp only [ImageDetector.illustration?, hlayer, hshapes]
    rfl
  rw [ImageDetector.detect, ImageDetector.detect, hbox, hillustration]

/-- The detector of icons reads names, but not in order to know a shape. -/
theorem Reflagged.isShapedLikeIcon (h : n.Reflagged n') :
    n'.isShapedLikeIcon = n.isShapedLikeIcon := by
  obtain ⟨name, -, hlayer⟩ := h.layer
  rw [Node.isShapedLikeIcon, Node.isShapedLikeIcon, countVectors?_of_reflagged h.descendants,
    hlayer]
  rfl

end Node

end DesignCompiler
