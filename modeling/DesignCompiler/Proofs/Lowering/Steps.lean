import DesignCompiler.Proofs.Design.Walk
import DesignCompiler.Proofs.Related
import DesignCompiler.Proofs.Widget.Contents
/-!
# One step of lowering

What lowering does at one node, said once, so that a property of whole designs needs nothing but an
induction over the design:

* `lowerChildren_eq_ok_iff` — lowering the children of a node is lowering each of them, with masks
  passed over;
* `lowerNode_eq_some_iff` — a node with a widget either had it at once or is a container of its
  lowered children;
* `treatment_finished` — a widget had at once holds nothing, and is named after its node;
* `treatment_eq_container_iff` — the nodes that hold the widgets of their children
  (`HoldsChildren`);
* `exists_lower` — a design whose nodes all have a type is lowered, unless its root is dropped.
-/

namespace DesignCompiler

namespace LoweringOptions

variable (o : LoweringOptions)

/-! ### Names -/

/-- **The key of the widget of a layer:** its id, name and component. The name of a layer with a tag
without handling may be followed by the mark for such a tag. -/
def Names (l : Layer) (k : WidgetKey) : Prop :=
  k = o.key l ∨
    (∃ tag, l.kind = some (.unrecognized tag)) ∧
      k = { o.key l with originName := l.name ++ " " ++ Layer.unhandledMarker }

variable {o}

theorem Names.id {l : Layer} {k : WidgetKey} (h : o.Names l k) : k.id = l.id := by
  rcases h with rfl | ⟨-, rfl⟩ <;> rfl

theorem Names.component {l : Layer} {k : WidgetKey} (h : o.Names l k) :
    k.component = if o.skipComponents then none else l.component := by
  rcases h with rfl | ⟨-, rfl⟩ <;> rfl

/-- The name is that of the layer, and only an unhandled tag may add its mark to it. -/
theorem Names.originName {l : Layer} {k : WidgetKey} (h : o.Names l k) :
    k.originName = l.name ∨
      (∃ tag, l.kind = some (.unrecognized tag)) ∧
        k.originName = l.name ++ " " ++ Layer.unhandledMarker := by
  rcases h with rfl | ⟨hkind, rfl⟩
  · exact Or.inl rfl
  · exact Or.inr ⟨hkind, rfl⟩

/-! ### Widgets that hold nothing -/

/-- A widget for a node alone: no wrapper, without children, and named after the node. -/
structure IsWhole (o : LoweringOptions) (l : Layer) (w : Widget) : Prop where
  names : o.Names l w.key
  isWrapper : w.isWrapper = false
  layoutChildren : w.layoutChildren = []

/-- Changes touch the style and the tag of a widget, so it stays whole. -/
theorem IsWhole.apply {l : Layer} {w : Widget} (h : o.IsWhole l w) (c : Changes) :
    o.IsWhole l (c.apply w) where
  names := by rw [Changes.key_apply]; exact h.names
  isWrapper := by rw [Changes.isWrapper_apply]; exact h.isWrapper
  layoutChildren := by rw [Changes.layoutChildren_apply]; exact h.layoutChildren

theorem IsWhole.leaf (l : Layer) (style : Style) (content : Leaf) :
    o.IsWhole l (.leaf (o.key l) style content) := ⟨Or.inl rfl, rfl, rfl⟩

theorem IsWhole.emptyBox (l : Layer) (style : Style) (arrangement : Arrangement) :
    o.IsWhole l (.box (o.key l) style arrangement []) := ⟨Or.inl rfl, rfl, rfl⟩

/-- An ellipse is an empty box, and an arc is a picture: both are whole. -/
theorem IsWhole.ellipse (l : Layer) (arc : Arc) : o.IsWhole l (l.ellipseWidget arc (o.key l)) := by
  unfold Layer.ellipseWidget
  split
  · exact .emptyBox ..
  · exact .leaf ..

theorem IsWhole.unhandled {l : Layer} {tag : String} (h : l.kind = some (.unrecognized tag)) :
    o.IsWhole l (l.unhandledPicture (o.key l)) := ⟨Or.inr ⟨⟨tag, h⟩, rfl⟩, rfl, rfl⟩

/-! ### The treatment of a node -/

/-- What the flags of a node ask for counts where they are read and well formed. -/
theorem override?_eq_some_iff {n : Node} {f : Override} :
    o.override? n = some f ↔ o.readsFlags n = true ∧ n.layer.override? = .ok (some f) := by
  unfold override?
  by_cases hreads : o.readsFlags n = true
  · rw [if_pos hreads]
    cases n.layer.override? with
    | error e => simp [hreads]
    | ok found => simp [hreads]
  · rw [if_neg hreads]
    simp [hreads]

/-- The detectors that nodes are shown to are those that come with lowering; no others are put in. -/
structure KeepsDetectors (o : LoweringOptions) : Prop where
  image : o.detectImage = o.imageDetector.detect
  icon : o.detectIcon = o.iconDetector.detect

/-- **All that can be decided for a node,** with what it is decided by. -/
inductive Treats (o : LoweringOptions) (n : Node) : Treatment → Prop
  | hidden (hvisible : n.layer.visible = false) : Treats o n .dropped
  | untyped (hkind : n.layer.kind = none) : Treats o n .untyped
  | ignored (hflag : o.override? n = some .ignore) : Treats o n .dropped
  | artwork (hflag : o.override? n = some .artwork) :
      Treats o n (.finished (n.layer.picture (o.key n.layer)))
  | icon {glyph : String} (hflag : o.override? n = some (.icon glyph)) :
      Treats o n (.finished (n.layer.iconWidget (n.layer.flaggedIcon glyph) (o.key n.layer)))
  | ordinary {kind : NodeKind} {changes : Changes} (hvisible : n.layer.visible = true)
      (hkind : n.layer.kind = some kind)
      (hflag : ∀ f, o.override? n = some f → ∃ tag least greatest, f = .modify tag least greatest) :
      Treats o n (o.ordinaryTreatment n kind changes)

/-- The treatment of every node is decided in one of these ways. -/
theorem treats (o : LoweringOptions) (n : Node) : o.Treats n (o.treatment n) := by
  unfold treatment
  simp only
  -- The cases are those of the definition, in its order.
  cases hvisible : n.layer.visible with
  | false => exact .hidden hvisible
  | true =>
    cases hkind : n.layer.kind with
    | none => exact .untyped hkind
    | some kind =>
      cases hflag : o.override? n with
      | none => exact .ordinary hvisible hkind fun f hf => absurd (hflag.symm.trans hf) nofun
      | some f =>
        cases f with
        | ignore => exact .ignored hflag
        | artwork => exact .artwork hflag
        | icon glyph => exact .icon hflag
        | modify tag least greatest =>
          exact .ordinary hvisible hkind fun f hf =>
            ⟨tag, least, greatest, (Option.some.inj (hflag.symm.trans hf)).symm⟩

/-! ### Widgets had at once -/

/-- The widgets that the types of nodes stand for, where they are no containers. -/
inductive MadeByType (o : LoweringOptions) (n : Node) : NodeKind → Widget → Prop
  | text (characters : String) (style : TextStyle) :
      MadeByType o n (.text characters style)
        (n.layer.textWidget characters style (o.key n.layer))
  | rectangle : MadeByType o n .rectangle (n.layer.rectangleWidget (o.key n.layer))
  | ellipse (arc : Arc) : MadeByType o n (.ellipse arc) (n.layer.ellipseWidget arc (o.key n.layer))
  | line : MadeByType o n .line (n.layer.lineWidget (o.key n.layer))
  | vector (paths : List VectorPath) :
      MadeByType o n (.vector paths) (n.layer.vectorWidget paths (o.key n.layer))
  | boolean (operation : BooleanOperation) :
      MadeByType o n (.boolean operation)
        (n.layer.booleanWidget operation (vectorPaths n.descendants) (o.key n.layer))
  | unrecognized (tag : String) :
      MadeByType o n (.unrecognized tag) (n.layer.unhandledPicture (o.key n.layer))

/-- **All the widgets that a node can have at once,** with what it has them by. A flag comes first,
then the detectors, and the type is asked last. -/
inductive Finishes (o : LoweringOptions) (n : Node) : Widget → Prop
  | artwork (hflag : o.override? n = some .artwork) :
      Finishes o n (n.layer.picture (o.key n.layer))
  | flagged {glyph : String} (hflag : o.override? n = some (.icon glyph)) :
      Finishes o n (n.layer.iconWidget (n.layer.flaggedIcon glyph) (o.key n.layer))
  | image {found : ImageMatch} (himage : o.detectImage n = some found) (changes : Changes) :
      Finishes o n (changes.apply (n.layer.imageWidget found (o.key n.layer)))
  | icon {found : IconMatch} (hicon : o.detectIcon? n = some found) (changes : Changes) :
      Finishes o n (changes.apply (n.layer.iconWidget found (o.key n.layer)))
  | typed {kind : NodeKind} {w : Widget} (hicon : o.detectIcon? n = none)
      (hkind : n.layer.kind = some kind) (hmade : o.MadeByType n kind w) (changes : Changes) :
      Finishes o n (changes.apply w)

/-- What the rule for a type can finish a node with. -/
theorem finishes_ordinary {n : Node} {kind : NodeKind} {changes : Changes} {w : Widget}
    (hkind : n.layer.kind = some kind) (h : o.ordinaryTreatment n kind changes = .finished w) :
    o.Finishes n w := by
  unfold ordinaryTreatment at h
  cases himage : o.detectImage n with
  | some found =>
    simp only [himage] at h
    cases h
    exact .image himage changes
  | none =>
    simp only [himage] at h
    cases hicon : o.detectIcon? n with
    | some found =>
      simp only [hicon] at h
      cases h
      exact .icon hicon changes
    | none =>
      simp only [hicon] at h
      -- A node with masks in it is a container, whatever its type.
      by_cases hmask : n.containsMasking = true
      · simp [hmask] at h
      · simp only [hmask, Bool.false_eq_true, if_false] at h
        cases kind with
        | frame => cases h
        | group => cases h
        | text characters style => cases h; exact .typed hicon hkind (.text ..) changes
        | rectangle => cases h; exact .typed hicon hkind .rectangle changes
        | ellipse arc => cases h; exact .typed hicon hkind (.ellipse arc) changes
        | line => cases h; exact .typed hicon hkind .line changes
        | vector paths => cases h; exact .typed hicon hkind (.vector paths) changes
        | boolean operation => cases h; exact .typed hicon hkind (.boolean operation) changes
        | unrecognized tag => cases h; exact .typed hicon hkind (.unrecognized tag) changes

/-- **A widget had at once is had in one of these ways.** -/
theorem finishes {n : Node} {w : Widget} (h : o.treatment n = .finished w) : o.Finishes n w := by
  have htreats := o.treats n
  rw [h] at htreats
  generalize htreatment : Treatment.finished w = t at htreats
  -- Flags that leave the node to its type come to the last case, and all others are settled here.
  cases htreats with
  | hidden => cases htreatment
  | untyped => cases htreatment
  | ignored => cases htreatment
  | artwork hflag =>
    cases htreatment
    exact .artwork hflag
  | icon hflag =>
    cases htreatment
    exact .flagged hflag
  | ordinary _ hkind => exact finishes_ordinary hkind htreatment.symm

/-- **A widget had at once** holds nothing, and is named after its node. -/
theorem treatment_finished {n : Node} {w : Widget} (h : o.treatment n = .finished w) :
    o.IsWhole n.layer w := by
  cases finishes h with
  | artwork => exact .leaf ..
  | flagged => exact .leaf ..
  | image _ changes => exact IsWhole.apply (.leaf ..) changes
  | icon _ changes => exact IsWhole.apply (.leaf ..) changes
  | typed _ hkind hmade changes =>
    refine IsWhole.apply ?_ changes
    -- A tag without handling is the one type whose widget does not bear the plain name.
    cases hmade with
    | text => exact .leaf ..
    | rectangle => exact .emptyBox ..
    | ellipse => exact .ellipse ..
    | line => exact .emptyBox ..
    | vector => exact .leaf ..
    | boolean => exact .leaf ..
    | unrecognized => exact .unhandled hkind

/-! ### Nodes that hold their children -/

/-- **The nodes whose widget holds the widgets of their children.** They are shown and have a type,
no flag puts anything in their place, no detector claims them, and they have a mask among their
children or are a frame or a group. -/
structure HoldsChildren (o : LoweringOptions) (n : Node) : Prop where
  visible : n.layer.visible = true
  unflagged : ∀ f, o.override? n = some f → ∃ tag least greatest, f = .modify tag least greatest
  noImage : o.detectImage n = none
  noIcon : o.detectIcon? n = none
  kind : n.layer.kind = some .frame ∨ n.layer.kind = some .group ∨
    n.containsMasking = true ∧ n.layer.kind.isSome = true

/-- **The rule for a type makes a container** of the nodes that no detector claims and that are
frames or groups or have a mask in them. -/
theorem ordinaryTreatment_eq_container_iff {n : Node} {kind : NodeKind} {changes c : Changes} :
    o.ordinaryTreatment n kind changes = .container c ↔
      c = changes ∧ o.detectImage n = none ∧ o.detectIcon? n = none ∧
        (kind = .frame ∨ kind = .group ∨ n.containsMasking = true) := by
  unfold ordinaryTreatment
  cases himage : o.detectImage n with
  | some found => simp
  | none =>
    cases hicon : o.detectIcon? n with
    | some found => simp
    | none =>
      -- No detector claims the node, so masks in it decide, and after them its type.
      by_cases hmask : n.containsMasking = true
      · simp [hmask, eq_comm]
      · cases kind <;> simp [hmask, eq_comm]

/-- A node of a type has a widget at once, or is a container. -/
theorem ordinaryTreatment_cases (o : LoweringOptions) (n : Node) (kind : NodeKind)
    (changes : Changes) : (∃ w, o.ordinaryTreatment n kind changes = .finished w) ∨
      o.ordinaryTreatment n kind changes = .container changes := by
  unfold ordinaryTreatment
  simp only
  repeat' split
  all_goals simp

/-- **The nodes that lowering goes into** are those that hold their children. -/
theorem treatment_eq_container_iff {n : Node} :
    (∃ changes, o.treatment n = .container changes) ↔ o.HoldsChildren n := by
  have htreats := o.treats n
  generalize o.treatment n = t at htreats
  -- Only an ordinary treatment can be a container; each other one contradicts a field.
  cases htreats with
  | hidden hvisible => exact ⟨nofun, fun h => absurd h.visible (by simp [hvisible])⟩
  | untyped hkind => exact ⟨nofun, fun h => absurd h.kind (by simp [hkind])⟩
  | ignored hflag => exact ⟨nofun, fun h => absurd (h.unflagged _ hflag) (by simp)⟩
  | artwork hflag => exact ⟨nofun, fun h => absurd (h.unflagged _ hflag) (by simp)⟩
  | icon hflag => exact ⟨nofun, fun h => absurd (h.unflagged _ hflag) (by simp)⟩
  | ordinary hvisible hkind hflag =>
    simp only [ordinaryTreatment_eq_container_iff]
    constructor
    · rintro ⟨-, -, himage, hicon, hholds⟩
      exact ⟨hvisible, hflag, himage, hicon, by simpa [hkind] using hholds⟩
    · intro h
      exact ⟨_, rfl, h.noImage, h.noIcon, by simpa [hkind] using h.kind⟩

/-- A node is dropped when it is hidden or its flags say so. -/
theorem treatment_dropped {n : Node} (h : o.treatment n = .dropped) :
    n.layer.visible = false ∨ o.readsFlags n = true ∧ n.layer.override? = .ok (some .ignore) := by
  have htreats := o.treats n
  rw [h] at htreats
  generalize htreatment : Treatment.dropped = t at htreats
  cases htreats with
  | hidden hvisible => exact Or.inl hvisible
  | ignored hflag => exact Or.inr (override?_eq_some_iff.mp hflag)
  -- No other treatment drops a node.
  | untyped => cases htreatment
  | artwork => cases htreatment
  | icon => cases htreatment
  | @ordinary kind changes =>
    rcases o.ordinaryTreatment_cases n kind changes with ⟨w, hordinary⟩ | hordinary
    · cases htreatment.trans hordinary
    · cases htreatment.trans hordinary

/-! ### Nodes and their children -/

/-- A child with its widget: that of a mask is made by its parent, any other is the lowered child. -/
def LowersTo (o : LoweringOptions) (depth : Nat) (c : Node) (lowered : LoweredChild) : Prop :=
  lowered.layer = c.layer ∧
    if c.layer.isMask then lowered.widget = none else o.lowerNode depth c = .ok lowered.widget

/-- **Children are lowered one by one, in order.** -/
theorem lowerChildren_eq_ok_iff {depth : Nat} {children : List Node}
    {lowered : List LoweredChild} :
    o.lowerChildren depth children = .ok lowered ↔
      List.Forall₂ (o.LowersTo depth) children lowered := by
  induction children generalizing lowered with
  | nil => cases lowered <;> simp [lowerChildren]
  | cons c rest ih =>
    obtain ⟨layer, children⟩ := c
    rw [List.forall₂_cons_left_iff, lowerChildren]
    -- A mask keeps its place in the list and has no widget yet.
    by_cases hmask : layer.isMask = true
    · simp only [hmask, if_true]
      cases hrest : o.lowerChildren depth rest with
      | error e => simp [← ih, hrest]
      | ok others =>
        simp only [← ih, hrest, LowersTo, hmask, if_true, Except.ok.injEq]
        constructor
        · rintro rfl
          exact ⟨_, _, ⟨rfl, rfl⟩, rfl, rfl⟩
        · rintro ⟨⟨_, _⟩, _, ⟨rfl, rfl⟩, rfl, rfl⟩
          rfl
    · simp only [hmask, Bool.false_eq_true, if_false]
      cases hnode : o.lowerNode depth ⟨layer, children⟩ with
      | error e => simp [LowersTo, hmask, hnode]
      | ok w =>
        -- The child is lowered before the rest, so its fault comes first.
        cases hrest : o.lowerChildren depth rest with
        | error e => simp [← ih, hrest]
        | ok others =>
          simp only [← ih, hrest, LowersTo, hmask, hnode, Bool.false_eq_true, if_false,
            Except.ok.injEq]
          constructor
          · rintro rfl
            exact ⟨_, _, ⟨rfl, rfl⟩, rfl, rfl⟩
          · rintro ⟨⟨_, _⟩, _, ⟨rfl, rfl⟩, rfl, rfl⟩
            rfl

/-- Children that are lowered alike one by one are lowered alike as a list. -/
theorem lowerChildren_congr {o' : LoweringOptions} {depth depth' : Nat} {children : List Node}
    (h : ∀ c ∈ children, o'.lowerNode depth' c = o.lowerNode depth c) :
    o'.lowerChildren depth' children = o.lowerChildren depth children := by
  induction children with
  | nil => rfl
  | cons c rest ih =>
    obtain ⟨layer, children⟩ := c
    rw [lowerChildren, lowerChildren, h _ List.mem_cons_self,
      ih fun d hd => h d (List.mem_cons_of_mem _ hd)]

/-- **A node with a widget** had it at once, or is a container of its lowered children. -/
theorem lowerNode_eq_some_iff {depth : Nat} {n : Node} {w : Widget} :
    o.lowerNode depth n = .ok (some w) ↔
      (∃ v, o.treatment n = .finished v ∧ w = o.finish n depth v) ∨
        ∃ changes lowered, o.treatment n = .container changes ∧
          List.Forall₂ (o.LowersTo (depth + 1)) n.children lowered ∧
          w = o.finish n depth (changes.apply (o.containerWidget n.layer lowered)) := by
  obtain ⟨layer, children⟩ := n
  rw [lowerNode]
  cases htreat : o.treatment ⟨layer, children⟩ with
  | dropped => simp
  | untyped => simp
  | finished v => simp [eq_comm]
  | container changes =>
    -- A container has a widget exactly if all of its children are lowered.
    simp only [← lowerChildren_eq_ok_iff]
    cases hchildren : o.lowerChildren (depth + 1) children with
    | error e => simp
    | ok lowered => simp [eq_comm]

/-- A node without a widget is one that is dropped. -/
theorem lowerNode_eq_none_iff {depth : Nat} {n : Node} :
    o.lowerNode depth n = .ok none ↔ o.treatment n = .dropped := by
  obtain ⟨layer, children⟩ := n
  rw [lowerNode]
  cases htreat : o.treatment ⟨layer, children⟩ with
  | dropped => simp
  | untyped => simp
  | finished v => simp
  | container changes => cases o.lowerChildren (depth + 1) children <;> simp

/-- A design is lowered to the widget that its root is lowered to at depth zero. -/
theorem lower_eq_ok_iff {root : Node} {w : Widget} :
    o.lower root = .ok w ↔ o.lowerNode 0 root = .ok (some w) := by
  unfold lower
  rcases o.lowerNode 0 root with e | _ | v <;> simp

/-- A node that has a type is not at fault. -/
theorem treatment_ne_untyped {n : Node} (h : n.layer.kind.isSome = true) :
    o.treatment n ≠ .untyped := by
  intro htreatment
  have htreats := o.treats n
  rw [htreatment] at htreats
  generalize huntyped : Treatment.untyped = t at htreats
  cases htreats with
  | untyped hkind => rw [hkind] at h; cases h
  -- The rest are treatments of another kind, whatever the type.
  | hidden => cases huntyped
  | ignored => cases huntyped
  | artwork => cases huntyped
  | icon => cases huntyped
  | @ordinary kind changes =>
    rcases o.ordinaryTreatment_cases n kind changes with ⟨w, hordinary⟩ | hordinary
    · cases huntyped.trans hordinary
    · cases huntyped.trans hordinary

/-- Where every node has a type, nothing fails. -/
theorem exists_lowerNode (n : Node) :
    ∀ depth : Nat, (∀ m ∈ n.preorder, m.layer.kind.isSome = true) →
      ∃ r, o.lowerNode depth n = .ok r := by
  induction n using Node.induction with
  | node layer children ih =>
    intro depth htyped
    -- Everything beneath the node is typed, so the children are lowered by induction, masks aside.
    rw [Node.preorder_eq, Node.preorders_eq_flatMap] at htyped
    have hchildren : ∃ lowered, o.lowerChildren (depth + 1) children = .ok lowered := by
      simp only [lowerChildren_eq_ok_iff]
      refine exists_forall₂ fun c hc => ?_
      by_cases hmask : c.layer.isMask = true
      · exact ⟨⟨c.layer, none⟩, rfl, by rw [if_pos hmask]⟩
      · obtain ⟨r, hr⟩ := ih c hc (depth + 1) fun m hm =>
          htyped m (List.mem_cons_of_mem _ (List.mem_flatMap.mpr ⟨c, hc, hm⟩))
        exact ⟨⟨c.layer, r⟩, rfl, by rw [if_neg hmask]; exact hr⟩
    obtain ⟨lowered, hlowered⟩ := hchildren
    rw [lowerNode]
    cases htreat : o.treatment ⟨layer, children⟩ with
    | dropped => exact ⟨_, rfl⟩
    | untyped => exact absurd htreat (treatment_ne_untyped (htyped _ List.mem_cons_self))
    | finished v => exact ⟨_, rfl⟩
    | container changes =>
      rw [hlowered]
      exact ⟨_, rfl⟩

/-- **A design of typed nodes is lowered,** unless its root is dropped. -/
theorem exists_lower {root : Node} (htyped : ∀ n ∈ root.preorder, n.layer.kind.isSome = true)
    (hroot : o.treatment root ≠ .dropped) : ∃ w, o.lower root = .ok w := by
  obtain ⟨r, hr⟩ := exists_lowerNode (o := o) root 0 htyped
  cases r with
  | none => exact absurd (lowerNode_eq_none_iff.mp hr) hroot
  | some w => exact ⟨w, lower_eq_ok_iff.mpr hr⟩

/-- A design of typed nodes is lowered if its root is visible and has no flags. -/
theorem exists_lower_of_silent {root : Node}
    (htyped : ∀ n ∈ root.preorder, n.layer.kind.isSome = true) (hvisible : root.layer.visible = true)
    (hsilent : root.layer.override? = .ok none) : ∃ w, o.lower root = .ok w := by
  refine exists_lower htyped fun hdropped => ?_
  rcases treatment_dropped hdropped with hhidden | ⟨-, hignored⟩
  · rw [hvisible] at hhidden
    cases hhidden
  · rw [hsilent] at hignored
    cases hignored

/-- Without a wrapping of its own, lowering puts nothing but the effects of the layer around a
widget. -/
theorem finish_eq_decorate (h : o.wrap = none) (n : Node) (depth : Nat) (w : Widget) :
    o.finish n depth w = n.layer.decorate w := by
  simp [finish, h]

end LoweringOptions

end DesignCompiler
