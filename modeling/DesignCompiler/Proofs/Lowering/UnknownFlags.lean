import DesignCompiler.Proofs.Design.UnknownFlags
import DesignCompiler.Proofs.Lowering.Preservation
import DesignCompiler.Proofs.Widget.Nameless
/-!
# What unknown flags do to a lowered design

Unknown flags are to be ignored, so a design and the same design with other unknown flags should be
lowered to the same widgets, up to the names that the widgets came with. The law holds as far as
names are read for flags and for alternative texts.

It fails where a node is looked at for an icon. `isNamedLikeIcon` and `glyphName?` read a name with
all of its tokens, so that `box --iconify` is an icon for the `icon` in a flag that means nothing,
and the glyph of `icon/close --locked` is `close_locked`. `IconsAlike` says that no node which
lowering looks at for an icon is told apart in this way. `lower_unknownFlags_iff` is the law: two
designs that differ in unknown flags have the same outcome if their icons are alike, and only then
if the first of them has a widget at all.

A detector that is put in from outside can make anything of a name, so the law asks for detectors
that see no more of an unknown flag than that (`DetectsAlike`). The detectors that come with
lowering always do (`KeepsDetectors.detectsAlike`).

The two runs are followed side by side (`ReachesPair`). That alike icons make alike widgets is an
induction over the design, with the equations for erased names at each step. The way back goes by
the list of glyphs that a widget tree shows. It has one entry for each node, so as long as the nodes
before were alike, the lists of both runs are in step, and equal lists have equal glyphs.
-/

namespace DesignCompiler

/-! ### Outcomes up to names -/

/-- A failure without the name of the node. -/
def LoweringError.nameless : LoweringError → LoweringError
  | missingType id _ => missingType id ""
  | emptyRoot id => emptyRoot id

/-- **An outcome without names,** where `erase` takes them out of a result. -/
def withoutNames {α : Type} (erase : α → α) : Except LoweringError α → Except LoweringError α
  | .ok a => .ok (erase a)
  | .error e => .error e.nameless

/-- Outcomes that are equal without names are both results or both failures. -/
theorem withoutNames_cases {α : Type} {erase : α → α} {r r' : Except LoweringError α}
    (h : withoutNames erase r' = withoutNames erase r) :
    (∃ a a', r = .ok a ∧ r' = .ok a' ∧ erase a' = erase a) ∨
      ∃ e e', r = .error e ∧ r' = .error e' ∧ e'.nameless = e.nameless := by
  rcases r with e | a <;> rcases r' with e' | a'
  · exact Or.inr ⟨e, e', rfl, rfl, Except.error.inj h⟩
  · cases h
  · cases h
  · exact Or.inl ⟨a, a', rfl, rfl, Except.ok.inj h⟩

/-- A treatment without names. -/
def Treatment.nameless : Treatment → Treatment
  | finished w => finished w.nameless
  | t => t

namespace Treatment

variable {t : Treatment}

/-- Without names, a node is dropped exactly if it was dropped before. -/
theorem nameless_eq_dropped : t.nameless = .dropped ↔ t = .dropped := by
  cases t <;> simp [nameless]

/-- The same for a node without a type. -/
theorem nameless_eq_untyped : t.nameless = .untyped ↔ t = .untyped := by
  cases t <;> simp [nameless]

theorem nameless_eq_container {changes : Changes} :
    t.nameless = .container changes ↔ t = .container changes := by
  cases t <;> simp [nameless]

theorem nameless_eq_finished {w : Widget} :
    t.nameless = .finished w ↔ ∃ v, t = .finished v ∧ v.nameless = w := by
  cases t <;> simp [nameless]

end Treatment

/-! ### Glyphs -/

namespace Widget

/-- The glyph of an icon, which may have none; what is no icon has not even that. -/
def glyph? : Widget → Option (Option String)
  | leaf _ _ (.icon content) => some content.glyph
  | _ => none

/-- **The glyphs that a tree shows,** with one entry for each widget. -/
def glyphs (w : Widget) : List (Option (Option String)) := w.contents.map glyph?

/-- The glyph of an icon is no name that it came with. -/
@[simp] theorem glyph?_nameless (w : Widget) : w.nameless.glyph? = w.glyph? := by
  rcases w with ⟨_, _, _ | _⟩ | _ | _ <;> rfl

/-- A tree shows the same glyphs without its names. -/
theorem glyphs_nameless (w : Widget) : w.nameless.glyphs = w.glyphs := by
  unfold glyphs
  rw [contents_nameless, List.map_map]
  exact List.map_congr_left fun v _ => v.glyph?_nameless

@[simp] theorem glyph?_apply (c : Changes) (w : Widget) : (c.apply w).glyph? = w.glyph? := by
  rcases w with ⟨_, _, _ | _⟩ | _ | _ <;> rfl

end Widget

namespace LoweringOptions

variable {o : LoweringOptions}

/-- The glyph of the icon that a node is found to be, if it is found to be one. -/
def iconGlyph? (o : LoweringOptions) (n : Node) : Option (Option String) :=
  (o.detectIcon? n).map (·.glyph)

/-- **The nodes that lowering looks at for an icon:** those that are shown, that no flag puts
anything in the place of, and that are no images. -/
structure AsksForIcon (o : LoweringOptions) (n : Node) : Prop where
  visible : n.layer.visible = true
  unflagged : ∀ f, o.override? n = some f → ∃ tag least greatest, f = .modify tag least greatest
  noImage : o.detectImage n = none

/-- **What lowering comes to in two designs at once,** side by side. -/
inductive ReachesPair (o : LoweringOptions) (root root' : Node) : Node → Node → Prop
  | root : ReachesPair o root root' root root'
  | child {n n' c c' : Node} : ReachesPair o root root' n n' → o.HoldsChildren n →
      (c, c') ∈ n.children.zip n'.children → c.layer.isMask = false → ReachesPair o root root' c c'

/-- No flag filter tells two designs apart. -/
def FlagsAlike (o : LoweringOptions) (root root' : Node) : Prop :=
  ∀ n n', o.ReachesPair root root' n n' → o.readsFlags n' = o.readsFlags n

/-- **The detectors see two nodes alike,** but for whether they are icons, and with which glyph. -/
structure SeesAlike (o : LoweringOptions) (n n' : Node) : Prop where
  image : o.detectImage n' = o.detectImage n
  icon : o.iconGlyph? n' = o.iconGlyph? n → o.detectIcon? n' = o.detectIcon? n

/-- No detector tells two designs apart but for their icons and the glyphs of these. -/
def DetectsAlike (o : LoweringOptions) (root root' : Node) : Prop :=
  ∀ n n', o.ReachesPair root root' n n' → o.SeesAlike n n'

/-- **Two designs have their icons in the same places,** and with the same glyphs, among the nodes
that lowering looks at for icons. -/
def IconsAlike (o : LoweringOptions) (root root' : Node) : Prop :=
  ∀ n n', o.ReachesPair root root' n n' → o.AsksForIcon n → o.iconGlyph? n' = o.iconGlyph? n

/-! ### One node -/

/-- What is come to from a pair of children is come to from their parents. -/
theorem ReachesPair.of_child {root root' c c' n n' : Node} (hholds : o.HoldsChildren root)
    (hc : (c, c') ∈ root.children.zip root'.children) (hmask : c.layer.isMask = false)
    (h : o.ReachesPair c c' n n') : o.ReachesPair root root' n n' := by
  induction h with
  | root => exact .child .root hholds hc hmask
  | child _ hparent hmem hno ih => exact .child ih hparent hmem hno

/-- What is come to is the pair itself, or is come to from a pair of its children. -/
theorem ReachesPair.cases {root root' n n' : Node} (h : o.ReachesPair root root' n n') :
    (n = root ∧ n' = root') ∨ o.HoldsChildren root ∧
      ∃ c c', (c, c') ∈ root.children.zip root'.children ∧ c.layer.isMask = false ∧
        o.ReachesPair c c' n n' := by
  induction h with
  | root => exact Or.inl ⟨rfl, rfl⟩
  | @child n n' d d' _ hparent hmem hno ih =>
    rcases ih with ⟨rfl, rfl⟩ | ⟨hholds, c, c', hc, hmask, hreach⟩
    · exact Or.inr ⟨hparent, d, d', hmem, hno, .root⟩
    · exact Or.inr ⟨hholds, c, c', hc, hmask, .child hreach hparent hmem hno⟩

variable {n n' : Node}

/-- What is come to side by side differs in unknown flags only. -/
theorem ReachesPair.reflagged {root root' : Node} (h : root.Reflagged root')
    (hreach : o.ReachesPair root root' n n') : n.Reflagged n' := by
  induction hreach with
  | root => exact h
  | child _ _ hc _ ih => exact (List.forall₂_iff_zip.mp ih.children).2 hc

/-- Flags ask for the same thing in a node under other unknown flags. -/
theorem override?_of_reflagged (h : n.Reflagged n') (hreads : o.readsFlags n' = o.readsFlags n) :
    o.override? n' = o.override? n := by
  unfold override?
  rw [hreads, h.layer.override?]

/-- Whether a node is looked at for an icon does not depend on its unknown flags. -/
theorem AsksForIcon.of_reflagged (h : n.Reflagged n') (hreads : o.readsFlags n' = o.readsFlags n)
    (hsees : o.SeesAlike n n') (hasks : o.AsksForIcon n) : o.AsksForIcon n' where
  visible := (h.layer.read_eq (·.visible) fun _ _ => rfl).trans hasks.visible
  unflagged := by
    rw [override?_of_reflagged h hreads]
    exact hasks.unflagged
  noImage := hsees.image.trans hasks.noImage

/-! ### The detectors that come with lowering -/

/-- All of an icon but its glyph is made of the node without its name. -/
theorem KeepsDetectors.eq_of_detectIcon (hkeeps : o.KeepsDetectors) {found : IconMatch}
    (h : o.detectIcon? n = some found) :
    found = ⟨found.glyph, n.layer.longestSide, n.firstFillColor?, .reserved n.layer.id⟩ := by
  -- The glyph is all that is read off the name; size, color and image are those of the node.
  rw [detectIcon?, hkeeps.icon] at h
  unfold IconDetector.detect at h
  split at h
  · cases h
  · simp only at h
    split at h
    · cases h
      rfl
    · cases h

/-- Whether a node is an icon, and with which glyph, is all that unknown flags can change. -/
theorem KeepsDetectors.detectIcon?_of_reflagged (hkeeps : o.KeepsDetectors) (h : n.Reflagged n')
    (hicon : o.iconGlyph? n' = o.iconGlyph? n) : o.detectIcon? n' = o.detectIcon? n := by
  unfold iconGlyph? at hicon
  cases hfound : o.detectIcon? n with
  | none =>
    rw [hfound] at hicon
    exact Option.map_eq_none_iff.mp hicon
  | some found =>
    rw [hfound] at hicon
    -- Both nodes are icons with one glyph, and the rest of an icon is not read off the name.
    obtain ⟨found', hfound', hglyph⟩ := Option.map_eq_some_iff.mp hicon
    obtain ⟨name, -, hlayer⟩ := h.layer
    rw [hfound', hkeeps.eq_of_detectIcon hfound', hkeeps.eq_of_detectIcon hfound, hglyph,
      h.firstFillColor?, hlayer]
    rfl

/-- Of a name, it can only matter whether there is a word for icons in it, and which glyph follows
such a word. -/
theorem KeepsDetectors.iconGlyph?_of_names (hkeeps : o.KeepsDetectors) (h : n.Reflagged n')
    (hnamed : isNamedLikeIcon n'.layer.name = isNamedLikeIcon n.layer.name)
    (hglyph : glyphName? n'.layer.name = glyphName? n.layer.name) :
    o.iconGlyph? n' = o.iconGlyph? n := by
  have hshaped := h.isShapedLikeIcon
  have hcolor := h.firstFillColor?
  obtain ⟨name, -, hlayer⟩ := h.layer
  -- The detector reads shape, color and name; the first two never see flags.
  unfold iconGlyph? detectIcon?
  rw [hkeeps.icon]
  unfold IconDetector.detect
  rw [hshaped, hcolor, hnamed, hglyph, hlayer]
  rfl

/-- **The detectors that come with lowering** see no more of an unknown flag than an icon. -/
theorem KeepsDetectors.detectsAlike (hkeeps : o.KeepsDetectors) {root root' : Node}
    (h : root.Reflagged root') : o.DetectsAlike root root' := fun _ _ hreach =>
  have hpair := hreach.reflagged h
  ⟨by rw [hkeeps.image, hpair.detectImage], hkeeps.detectIcon?_of_reflagged hpair⟩

/-- Icons are alike where no name differs in its words for icons and in what follows them. -/
theorem KeepsDetectors.iconsAlike_of_names (hkeeps : o.KeepsDetectors) {root root' : Node}
    (h : root.Reflagged root')
    (hnames : ∀ n n', o.ReachesPair root root' n n' →
      isNamedLikeIcon n'.layer.name = isNamedLikeIcon n.layer.name ∧
        glyphName? n'.layer.name = glyphName? n.layer.name) : o.IconsAlike root root' := by
  intro n n' hreach _
  obtain ⟨hnamed, hglyph⟩ := hnames n n' hreach
  exact hkeeps.iconGlyph?_of_names (hreach.reflagged h) hnamed hglyph

/-! ### Alike treatments -/

/-- Widgets that are equal without names stay so under the same changes. -/
theorem nameless_finished {v w : Widget} (h : v.nameless = w.nameless) (changes : Changes) :
    (Treatment.finished (changes.apply v)).nameless =
      (Treatment.finished (changes.apply w)).nameless := by
  simp only [Treatment.nameless, Changes.nameless_apply, h]

/-- A picture shows no unknown flag of its layer. -/
theorem nameless_picture {l l' : Layer} (h : l.Reflagged l') {k k' : WidgetKey}
    (hkey : k'.nameless = k.nameless) : (l'.picture k').nameless = (l.picture k).nameless := by
  -- Besides the key, a picture has the name in its text, and there without any flags.
  have halt := h.altText
  obtain ⟨name, -, rfl⟩ := h
  simp only [Layer.picture, Widget.nameless, halt, hkey]
  rfl

/-- **The rule for a type treats a node alike** under other unknown flags, where they do not make or
change an icon. -/
theorem nameless_ordinaryTreatment (h : n.Reflagged n') (hsees : o.SeesAlike n n')
    (kind : NodeKind) (changes : Changes)
    (hicon : o.detectImage n = none → o.iconGlyph? n' = o.iconGlyph? n) :
    (o.ordinaryTreatment n' kind changes).nameless =
      (o.ordinaryTreatment n kind changes).nameless := by
  have hpicture : ∀ {k k' : WidgetKey}, k'.nameless = k.nameless →
      (n'.layer.picture k').nameless = (n.layer.picture k).nameless := nameless_picture h.layer
  have halt := h.layer.altText
  obtain ⟨name, -, hlayer⟩ := h.layer
  unfold ordinaryTreatment
  rw [hsees.image, h.containsMasking, Node.vectorPaths_of_reflagged h.descendants]
  rw [hlayer] at halt hpicture ⊢
  cases himage : o.detectImage n with
  | some found =>
    refine nameless_finished ?_ changes
    simp only [Layer.imageWidget, Widget.nameless, halt]
    rfl
  | none =>
    rw [hsees.icon (hicon himage)]
    cases o.detectIcon? n with
    | some found => exact nameless_finished rfl changes
    | none =>
      by_cases hmask : n.containsMasking = true
      · simp only [hmask, if_true]
      · simp only [hmask, Bool.false_eq_true, if_false]
        -- An arc and a tag without handling are shown as pictures; no other rule reads the name.
        cases kind with
        | frame => rfl
        | group => rfl
        | ellipse arc =>
          refine nameless_finished ?_ changes
          unfold Layer.ellipseWidget
          split
          · rfl
          · exact hpicture rfl
        | unrecognized tag => exact nameless_finished (hpicture rfl) changes
        | _ => exact nameless_finished rfl changes

/-- **A node is treated alike under other unknown flags,** unless it is looked at for an icon and
they make a difference there. -/
theorem nameless_treatment (h : n.Reflagged n') (hreads : o.readsFlags n' = o.readsFlags n)
    (hsees : o.SeesAlike n n')
    (hicon : o.AsksForIcon n → o.iconGlyph? n' = o.iconGlyph? n) :
    (o.treatment n').nameless = (o.treatment n).nameless := by
  have hflag := override?_of_reflagged h hreads
  -- Only the rule for its type looks at a node for an icon, and it looks where it has no image.
  have hordinary : ∀ kind changes, n.layer.visible = true →
      (∀ f, o.override? n = some f → ∃ tag least greatest, f = .modify tag least greatest) →
      (o.ordinaryTreatment n' kind changes).nameless =
        (o.ordinaryTreatment n kind changes).nameless := fun kind changes hvisible hunflagged =>
    nameless_ordinaryTreatment h hsees kind changes fun himage =>
      hicon ⟨hvisible, hunflagged, himage⟩
  have hpicture : (o.key n'.layer).nameless = (o.key n.layer).nameless →
      (n'.layer.picture (o.key n'.layer)).nameless = (n.layer.picture (o.key n.layer)).nameless :=
    nameless_picture h.layer
  have hvisible' : n'.layer.visible = n.layer.visible := h.layer.read_eq (·.visible) fun _ _ => rfl
  have hkind' : n'.layer.kind = n.layer.kind := h.layer.read_eq (·.kind) fun _ _ => rfl
  obtain ⟨name, -, hlayer⟩ := h.layer
  unfold treatment
  simp only [hflag, hvisible', hkind']
  cases hvisible : n.layer.visible with
  | false => rfl
  | true =>
    cases hkind : n.layer.kind with
    | none => rfl
    | some kind =>
      cases hf : o.override? n with
      | none => exact hordinary kind {} hvisible fun f hf' => absurd (hf.symm.trans hf') nofun
      | some f =>
        cases f with
        | ignore => rfl
        | artwork => exact congrArg Treatment.finished (hpicture (by rw [hlayer]; rfl))
        | icon glyph => rw [hlayer]; rfl
        | modify tag least greatest =>
          exact hordinary kind _ hvisible fun f hf' =>
            ⟨tag, least, greatest, (Option.some.inj (hf.symm.trans hf')).symm⟩

/-! ### From alike icons to alike widgets -/

/-- Effects are put around widgets without a look at the name of the layer. -/
theorem nameless_finish (hwrap : o.wrap = none) (hlayer : n'.layer.nameless = n.layer.nameless)
    {v v' : Widget} (hv : v'.nameless = v.nameless) (depth : Nat) :
    (o.finish n' depth v').nameless = (o.finish n depth v).nameless := by
  rw [finish_eq_decorate hwrap, finish_eq_decorate hwrap]
  calc (n'.layer.decorate v').nameless
      = (n'.layer.nameless.decorate v'.nameless).nameless := (Layer.nameless_decorate ..).symm
    _ = (n.layer.nameless.decorate v.nameless).nameless := by rw [hlayer, hv]
    _ = (n.layer.decorate v).nameless := Layer.nameless_decorate ..

/-- A container shows no names but its own and those in its children. -/
theorem nameless_container {l l' : Layer} {lowered lowered' : List LoweredChild}
    (hlayer : l'.nameless = l.nameless)
    (hlowered : lowered'.map LoweredChild.nameless = lowered.map LoweredChild.nameless) :
    (o.containerWidget l' lowered').nameless = (o.containerWidget l lowered).nameless :=
  calc (o.containerWidget l' lowered').nameless
      = (o.containerWidget l'.nameless (lowered'.map LoweredChild.nameless)).nameless :=
        (o.nameless_containerWidget ..).symm
    _ = (o.containerWidget l.nameless (lowered.map LoweredChild.nameless)).nameless := by
        rw [hlayer, hlowered]
    _ = (o.containerWidget l lowered).nameless := o.nameless_containerWidget ..

/-- **Children that are lowered alike one by one** are lowered alike as a list, failures included.
-/
theorem nameless_lowerChildren {depth : Nat} {children children' : List Node}
    (h : List.Forall₂ (fun c c' => c'.layer.nameless = c.layer.nameless ∧
      (c.layer.isMask = false →
        withoutNames (Option.map Widget.nameless) (o.lowerNode depth c') =
          withoutNames (Option.map Widget.nameless) (o.lowerNode depth c))) children children') :
    withoutNames (List.map LoweredChild.nameless) (o.lowerChildren depth children') =
      withoutNames (List.map LoweredChild.nameless) (o.lowerChildren depth children) := by
  -- Child by child, in the order of the walk: where one run fails, the other fails at that child.
  induction h with
  | nil => rfl
  | @cons c c' rest rest' hc _ ih =>
    obtain ⟨hlayer, hnode⟩ := hc
    have hmask' : c'.layer.isMask = c.layer.isMask := by
      rw [← Layer.isMask_nameless, hlayer, Layer.isMask_nameless]
    obtain ⟨layer, children⟩ := c
    obtain ⟨layer', children'⟩ := c'
    rw [lowerChildren, lowerChildren]
    simp only at hlayer hmask' hnode
    rw [hmask']
    cases hmask : layer.isMask with
    | true =>
      simp only [if_true]
      rcases withoutNames_cases ih with ⟨a, a', ha, ha', heq⟩ | ⟨e, e', he, he', heq⟩
      · simp [ha, ha', withoutNames, heq, LoweredChild.nameless, hlayer]
      · simp [he, he', withoutNames, heq]
    | false =>
      simp only [Bool.false_eq_true, if_false]
      rcases withoutNames_cases (hnode hmask) with
        ⟨w, w', hw, hw', hwidget⟩ | ⟨e, e', he, he', heq⟩
      · rw [hw, hw']
        rcases withoutNames_cases ih with ⟨a, a', ha, ha', heq⟩ | ⟨e, e', he, he', heq⟩
        · simp [ha, ha', withoutNames, heq, LoweredChild.nameless, hlayer, hwidget]
        · simp [he, he', withoutNames, heq]
      · simp [he, he', withoutNames, heq]

/-- **A node is lowered alike under other unknown flags,** if the icons beneath it are alike. -/
theorem nameless_lowerNode (hwrap : o.wrap = none) (n : Node) :
    ∀ {n' : Node} (depth : Nat), n.Reflagged n' → o.FlagsAlike n n' → o.DetectsAlike n n' →
      o.IconsAlike n n' → withoutNames (Option.map Widget.nameless) (o.lowerNode depth n') =
        withoutNames (Option.map Widget.nameless) (o.lowerNode depth n) := by
  induction n using Node.induction with
  | node layer children ih =>
    intro n' depth h hflags hdetects hicons
    have htreatment :=
      nameless_treatment h (hflags _ _ .root) (hdetects _ _ .root) (hicons _ _ .root)
    have hlayer : n'.layer.nameless = layer.nameless :=
      h.layer.read_eq Layer.nameless fun _ _ => rfl
    obtain ⟨layer', children'⟩ := n'
    rw [lowerNode, lowerNode]
    cases htreat : o.treatment ⟨layer, children⟩ with
    | dropped =>
      rw [htreat] at htreatment
      rw [Treatment.nameless_eq_dropped.mp htreatment]
    | untyped =>
      rw [htreat] at htreatment
      rw [Treatment.nameless_eq_untyped.mp htreatment]
      have hid := congrArg Layer.id hlayer
      exact congrArg (fun id => Except.error (LoweringError.missingType id "")) hid
    | finished v =>
      rw [htreat] at htreatment
      obtain ⟨v', hv', hv⟩ := Treatment.nameless_eq_finished.mp htreatment
      rw [hv']
      exact congrArg (Except.ok ∘ some) (nameless_finish hwrap hlayer hv depth)
    | container changes =>
      rw [htreat] at htreatment
      rw [Treatment.nameless_eq_container.mp htreatment]
      have hholds : o.HoldsChildren ⟨layer, children⟩ :=
        treatment_eq_container_iff.mp ⟨changes, htreat⟩
      -- Lowering goes into both nodes, so what is alike beneath them is alike beneath the children.
      have hchildren : withoutNames (List.map LoweredChild.nameless)
          (o.lowerChildren (depth + 1) children') =
          withoutNames (List.map LoweredChild.nameless)
            (o.lowerChildren (depth + 1) children) := by
        obtain ⟨hlength, hpairs⟩ := List.forall₂_iff_zip.mp h.children
        refine nameless_lowerChildren (List.forall₂_iff_zip.mpr ⟨hlength, ?_⟩)
        intro c c' hc
        have hreflagged := hpairs hc
        refine ⟨hreflagged.layer.read_eq Layer.nameless fun _ _ => rfl, fun hmask => ?_⟩
        exact ih c (List.of_mem_zip hc).1 (depth + 1) hreflagged
          (fun m m' hm => hflags m m' (hm.of_child hholds hc hmask))
          (fun m m' hm => hdetects m m' (hm.of_child hholds hc hmask))
          (fun m m' hm => hicons m m' (hm.of_child hholds hc hmask))
      rcases withoutNames_cases hchildren with ⟨a, a', ha, ha', heq⟩ | ⟨e, e', he, he', heq⟩
      · rw [ha, ha']
        refine congrArg (Except.ok ∘ some) (nameless_finish hwrap hlayer ?_ depth)
        rw [Changes.nameless_apply, Changes.nameless_apply, nameless_container hlayer heq]
      · rw [he, he']
        exact congrArg Except.error heq

/-! ### From alike widgets to alike icons -/

/-- The glyphs that a lowered child adds to those of a container. -/
def childGlyphs : LoweredChild → List (Option (Option String)) :=
  childReadings (fun _ => none) Widget.glyph?

theorem eq_none_of_dropped {depth : Nat} {r : Option Widget} (htreat : o.treatment n = .dropped)
    (h : o.lowerNode depth n = .ok r) : r = none :=
  Except.ok.inj (h.symm.trans (lowerNode_eq_none_iff.mpr htreat))

/-- A widget had at once adds one entry. -/
theorem glyphs_of_finished (hwrap : o.wrap = none) {v : Widget} {depth : Nat} {r : Option Widget}
    (htreat : o.treatment n = .finished v) (h : o.lowerNode depth n = .ok r) :
    r.toList.flatMap Widget.glyphs = [v.glyph?] := by
  have hwhole := treatment_finished htreat
  have hr : o.lowerNode depth n = .ok (some (o.finish n depth v)) :=
    lowerNode_eq_some_iff.mpr (Or.inl ⟨v, htreat, rfl⟩)
  obtain rfl := Except.ok.inj (h.symm.trans hr)
  rw [Option.toList_some, List.flatMap_singleton, Widget.glyphs, finish_eq_decorate hwrap,
    Widget.contents_decorate, Widget.contents_eq, Widget.unwrapped_eq_self hwhole.isWrapper,
    hwhole.layoutChildren]
  rfl

/-- A container is no icon. -/
theorem glyph?_containerWidget (l : Layer) (lowered : List LoweredChild) :
    (o.containerWidget l lowered).glyph? = none := by
  unfold containerWidget
  split
  · rfl
  · simp only
    split <;> rfl

/-- A container adds one entry for itself, which is no icon, and then those of its children. -/
theorem exists_glyphs_of_container (hwrap : o.wrap = none) {changes : Changes} {depth : Nat}
    {r : Option Widget} (htreat : o.treatment n = .container changes)
    (h : o.lowerNode depth n = .ok r) :
    ∃ lowered, List.Forall₂ (o.LowersTo (depth + 1)) n.children lowered ∧
      r.toList.flatMap Widget.glyphs = none :: lowered.flatMap childGlyphs := by
  obtain ⟨w, rfl⟩ := (treatment_eq_container_iff.mp ⟨changes, htreat⟩).exists_widget h
  rcases lowerNode_eq_some_iff.mp h with ⟨v, hv, -⟩ | ⟨changes', lowered, -, hlowered, rfl⟩
  · cases htreat.symm.trans hv
  · refine ⟨lowered, hlowered, ?_⟩
    obtain ⟨-, hcontainer⟩ := key_containerWidget (o := o) n.layer lowered
    -- The effects around the container and the changes in it show nothing, so its own entry is
    -- first.
    rw [Option.toList_some, List.flatMap_singleton, Widget.glyphs, finish_eq_decorate hwrap,
      Widget.contents_decorate, Widget.contents_eq,
      Widget.unwrapped_eq_self (by rw [Changes.isWrapper_apply, hcontainer]), List.map_cons,
      List.map_flatMap, Widget.glyph?_apply, glyph?_containerWidget, Changes.layoutChildren_apply,
      map_contents_containerWidget (fun _ _ _ _ => rfl)]
    rfl

/-- What a node that is looked at for an icon is shown as at once is the icon that it is found to be,
if it is one. -/
theorem AsksForIcon.glyph?_finished (hasks : o.AsksForIcon n) {v : Widget}
    (h : o.treatment n = .finished v) : v.glyph? = o.iconGlyph? n := by
  cases finishes h with
  | artwork hflag => exact absurd (hasks.unflagged _ hflag) (by simp)
  | flagged hflag => exact absurd (hasks.unflagged _ hflag) (by simp)
  | image himage => cases hasks.noImage.symm.trans himage
  | icon hicon changes =>
    rw [Widget.glyph?_apply, iconGlyph?, hicon]
    rfl
  | typed hicon _ hmade changes =>
    rw [Widget.glyph?_apply, iconGlyph?, hicon]
    -- No rule for a type makes an icon.
    cases hmade with
    | ellipse arc =>
      unfold Layer.ellipseWidget
      split <;> rfl
    | _ => rfl

/-- A node that is looked at for an icon is treated by the rule for its type, if it has one. -/
theorem AsksForIcon.treatment (hasks : o.AsksForIcon n) :
    o.treatment n = .untyped ∨
      ∃ kind changes, o.treatment n = o.ordinaryTreatment n kind changes := by
  have htreats := o.treats n
  generalize o.treatment n = t at htreats
  -- Whatever else is done with a node is for one that is hidden or that a flag overrides.
  cases htreats with
  | hidden hvisible => exact absurd hasks.visible (by simp [hvisible])
  | untyped => exact Or.inl rfl
  | ignored hflag => exact absurd (hasks.unflagged _ hflag) (by simp)
  | artwork hflag => exact absurd (hasks.unflagged _ hflag) (by simp)
  | icon hflag => exact absurd (hasks.unflagged _ hflag) (by simp)
  | ordinary => exact Or.inr ⟨_, _, rfl⟩

/-- The first entry for a node that is looked at for an icon says whether it is one. -/
theorem AsksForIcon.exists_glyphs (hwrap : o.wrap = none) (hasks : o.AsksForIcon n) {depth : Nat}
    {r : Option Widget} (h : o.lowerNode depth n = .ok r) :
    ∃ rest, r.toList.flatMap Widget.glyphs = o.iconGlyph? n :: rest := by
  -- An untyped node fails; any other has its widget at once, or is a container and so no icon.
  rcases hasks.treatment with huntyped | ⟨kind, changes, hordinary⟩
  · obtain ⟨layer, children⟩ := n
    rw [lowerNode, huntyped] at h
    cases h
  · rcases o.ordinaryTreatment_cases n kind changes with ⟨v, hv⟩ | hcontainer
    · refine ⟨[], ?_⟩
      have hfinished := hordinary.trans hv
      rw [glyphs_of_finished hwrap hfinished h, hasks.glyph?_finished hfinished]
    · have htreat := hordinary.trans hcontainer
      have hnone : o.iconGlyph? n = none := by
        rw [iconGlyph?, (treatment_eq_container_iff.mp ⟨changes, htreat⟩).noIcon]
        rfl
      obtain ⟨lowered, -, hglyphs⟩ := exists_glyphs_of_container hwrap htreat h
      exact ⟨_, hnone ▸ hglyphs⟩

/-- **Two nodes keep the lists of both runs in step:** where the lists begin alike, the icons
beneath the nodes are alike, and so are the lists behind them. -/
def InStep (o : LoweringOptions) (depth : Nat) (n n' : Node) : Prop :=
  ∀ r r' tail tail', o.lowerNode depth n = .ok r → o.lowerNode depth n' = .ok r' →
    r.toList.flatMap Widget.glyphs ++ tail = r'.toList.flatMap Widget.glyphs ++ tail' →
    o.IconsAlike n n' ∧ tail = tail'

/-- **Children keep both runs in step if each pair of them does:** cutting the entries of one child
after the other off both lists, the icons beneath each pair are found alike, and what is left behind
the last child is the same. -/
theorem iconsAlike_children {depth : Nat} {children children' : List Node}
    (hpairs : List.Forall₂ Node.Reflagged children children')
    (hsteps : ∀ c c', (c, c') ∈ children.zip children' → c.layer.isMask = false →
      o.InStep depth c c') :
    ∀ {lowered lowered' : List LoweredChild} {tail tail' : List (Option (Option String))},
      List.Forall₂ (o.LowersTo depth) children lowered →
      List.Forall₂ (o.LowersTo depth) children' lowered' →
      lowered.flatMap childGlyphs ++ tail = lowered'.flatMap childGlyphs ++ tail' →
      (∀ c c', (c, c') ∈ children.zip children' → c.layer.isMask = false → o.IconsAlike c c') ∧
        tail = tail' := by
  induction hpairs with
  | nil =>
    intro lowered lowered' tail tail' h h' heq
    cases h
    cases h'
    exact ⟨fun c c' hc => absurd hc List.not_mem_nil, heq⟩
  | @cons c c' rest rest' hc _ ih =>
    intro lowered lowered' tail tail' h h' heq
    obtain ⟨a, others, ha, hothers, rfl⟩ := List.forall₂_cons_left_iff.mp h
    obtain ⟨a', others', ha', hothers', rfl⟩ := List.forall₂_cons_left_iff.mp h'
    obtain ⟨hlayer, hwidget⟩ := ha
    obtain ⟨hlayer', hwidget'⟩ := ha'
    have hmasks : c'.layer.isMask = c.layer.isMask := hc.layer.read_eq (·.isMask) fun _ _ => rfl
    have hlater : ∀ d d', (d, d') ∈ rest.zip rest' → d.layer.isMask = false → o.InStep depth d d' :=
      fun d d' hd => hsteps d d' (List.mem_cons_of_mem _ hd)
    rw [List.flatMap_cons, List.flatMap_cons, List.append_assoc, List.append_assoc, childGlyphs,
      childReadings, childReadings, hlayer, hlayer', hmasks] at heq
    rw [hmasks] at hwidget'
    cases hmask : c.layer.isMask with
    | true =>
      -- A mask has its one entry in both lists.
      simp only [hmask, if_true] at heq
      obtain ⟨hicons, htail⟩ := ih hlater hothers hothers' (List.append_cancel_left heq)
      refine ⟨fun d d' hd hno => ?_, htail⟩
      rcases List.mem_cons.mp hd with hd | hd
      · cases hd
        cases hmask.symm.trans hno
      · exact hicons d d' hd hno
    | false =>
      simp only [hmask, Bool.false_eq_true, if_false] at heq hwidget hwidget'
      obtain ⟨hfirst, heq⟩ :=
        hsteps c c' List.mem_cons_self hmask _ _ _ _ hwidget hwidget' heq
      obtain ⟨hicons, htail⟩ := ih hlater hothers hothers' heq
      refine ⟨fun d d' hd hno => ?_, htail⟩
      rcases List.mem_cons.mp hd with hd | hd
      · cases hd
        exact hfirst
      · exact hicons d d' hd hno

/-- Icons are alike beneath a node if they are at the node itself and beneath its children. -/
theorem iconsAlike_node (hicon : o.AsksForIcon n → o.iconGlyph? n' = o.iconGlyph? n)
    (hchildren : o.HoldsChildren n → ∀ c c', (c, c') ∈ n.children.zip n'.children →
      c.layer.isMask = false → o.IconsAlike c c') : o.IconsAlike n n' := by
  intro m m' hreach hasks
  rcases hreach.cases with ⟨rfl, rfl⟩ | ⟨hholds, c, c', hc, hmask, hreach⟩
  · exact hicon hasks
  · exact hchildren hholds c c' hc hmask m m' hreach hasks

/-- **Lists of glyphs that begin alike come from alike icons,** and what follows them is the same:
where two runs differ in an icon, their lists differ at its entry, if not before. -/
theorem inStep (hwrap : o.wrap = none) (n : Node) :
    ∀ {n' : Node} {depth : Nat}, n.Reflagged n' → o.FlagsAlike n n' → o.DetectsAlike n n' →
      o.InStep depth n n' := by
  induction n using Node.induction with
  | node layer children ih =>
    intro n' depth h hflags hdetects r r' tail tail' hr hr' heq
    have hreads := hflags _ _ .root
    have hsees := hdetects _ _ .root
    have hicon : o.AsksForIcon ⟨layer, children⟩ →
        o.iconGlyph? n' = o.iconGlyph? ⟨layer, children⟩ := by
      intro hasks
      obtain ⟨rest, hrest⟩ := hasks.exists_glyphs hwrap hr
      obtain ⟨rest', hrest'⟩ := (hasks.of_reflagged h hreads hsees).exists_glyphs hwrap hr'
      rw [hrest, hrest'] at heq
      exact (List.cons.inj heq).1.symm
    -- The node itself is treated alike, so both runs go on in the same way.
    have htreatment := nameless_treatment h hreads hsees hicon
    have hgoes := treatment_eq_container_iff (o := o) (n := ⟨layer, children⟩)
    cases htreat : o.treatment ⟨layer, children⟩ with
    | dropped =>
      rw [htreat] at htreatment hgoes
      obtain rfl := eq_none_of_dropped htreat hr
      obtain rfl := eq_none_of_dropped (Treatment.nameless_eq_dropped.mp htreatment) hr'
      exact ⟨iconsAlike_node hicon fun hholds => absurd (hgoes.mpr hholds) (by simp), heq⟩
    | untyped =>
      rw [lowerNode, htreat] at hr
      cases hr
    | finished v =>
      rw [htreat] at htreatment hgoes
      obtain ⟨v', hv', -⟩ := Treatment.nameless_eq_finished.mp htreatment
      -- Each run has one entry for the node, and none for what is beneath it.
      rw [glyphs_of_finished hwrap htreat hr, glyphs_of_finished hwrap hv' hr'] at heq
      exact ⟨iconsAlike_node hicon fun hholds => absurd (hgoes.mpr hholds) (by simp),
        (List.cons.inj heq).2⟩
    | container changes =>
      have hholds := hgoes.mp ⟨changes, htreat⟩
      rw [htreat] at htreatment
      obtain ⟨lowered, hlowered, hglyphs⟩ := exists_glyphs_of_container hwrap htreat hr
      obtain ⟨lowered', hlowered', hglyphs'⟩ :=
        exists_glyphs_of_container hwrap (Treatment.nameless_eq_container.mp htreatment) hr'
      rw [hglyphs, hglyphs', List.cons_append, List.cons_append] at heq
      have hsteps : ∀ c c', (c, c') ∈ children.zip n'.children → c.layer.isMask = false →
          o.InStep (depth + 1) c c' := fun c c' hc hmask =>
        ih c (List.of_mem_zip hc).1 ((List.forall₂_iff_zip.mp h.children).2 hc)
          (fun m m' hm => hflags m m' (hm.of_child hholds hc hmask))
          fun m m' hm => hdetects m m' (hm.of_child hholds hc hmask)
      obtain ⟨hicons, htail⟩ :=
        iconsAlike_children h.children hsteps hlowered hlowered' (List.cons.inj heq).2
      exact ⟨iconsAlike_node hicon fun _ => hicons, htail⟩

/-! ### The law -/

variable {root root' : Node}

/-- **Alike icons make alike designs.** -/
theorem lower_of_iconsAlike (hwrap : o.wrap = none) (h : root.Reflagged root')
    (hflags : o.FlagsAlike root root') (hdetects : o.DetectsAlike root root')
    (hicons : o.IconsAlike root root') :
    withoutNames Widget.nameless (o.lower root') = withoutNames Widget.nameless (o.lower root) := by
  have hid : root'.layer.id = root.layer.id := h.layer.read_eq (·.id) fun _ _ => rfl
  -- Where the roots have widgets they are alike, and an empty root or a fault is named by its id.
  rcases withoutNames_cases (nameless_lowerNode hwrap root 0 h hflags hdetects hicons) with
    ⟨r, r', hr, hr', heq⟩ | ⟨e, e', he, he', heq⟩
  · unfold lower
    rw [hr, hr']
    cases r with
    | none =>
      cases Option.map_eq_none_iff.mp heq
      simp only [withoutNames, hid]
    | some w =>
      obtain ⟨w', rfl, hw⟩ := Option.map_eq_some_iff.mp heq
      exact congrArg Except.ok hw
  · unfold lower
    rw [he, he']
    exact congrArg Except.error heq

/-- **Alike designs have alike icons:** their widgets show the same list of glyphs. -/
theorem iconsAlike_of_lower (hwrap : o.wrap = none) (h : root.Reflagged root')
    (hflags : o.FlagsAlike root root') (hdetects : o.DetectsAlike root root') {w : Widget}
    (hw : o.lower root = .ok w)
    (heq : withoutNames Widget.nameless (o.lower root') =
      withoutNames Widget.nameless (o.lower root)) : o.IconsAlike root root' := by
  -- Erasing names keeps glyphs, and equal glyphs in equal trees keep the nodes in step.
  rcases withoutNames_cases heq with ⟨v, v', hv, hv', hnames⟩ | ⟨e, -, he, -⟩
  · have hglyphs : v.glyphs = v'.glyphs := by
      rw [← v.glyphs_nameless, ← v'.glyphs_nameless, hnames]
    refine (inStep hwrap root h hflags hdetects (some v) (some v') [] [] (lower_eq_ok_iff.mp hv)
      (lower_eq_ok_iff.mp hv') ?_).1
    simpa using hglyphs
  · cases hw.symm.trans he

/-- **What unknown flags do to a lowered design:** nothing but change its names, if the icons are
alike, and then failures are alike as well; and if the design has a widget, only then. -/
theorem lower_unknownFlags_iff (hwrap : o.wrap = none) (h : root.Reflagged root')
    (hflags : o.FlagsAlike root root') (hdetects : o.DetectsAlike root root') :
    (o.IconsAlike root root' →
      withoutNames Widget.nameless (o.lower root') = withoutNames Widget.nameless (o.lower root)) ∧
    ∀ w, o.lower root = .ok w →
      (withoutNames Widget.nameless (o.lower root') = withoutNames Widget.nameless (o.lower root) ↔
        o.IconsAlike root root') := by
  have hforth := lower_of_iconsAlike hwrap h hflags hdetects
  exact ⟨hforth, fun w hw => ⟨iconsAlike_of_lower hwrap h hflags hdetects hw, hforth⟩⟩

/-- A card with a heading and a shape that is taken for an icon, under some names. -/
def starCard (card title star : String) : Node :=
  ⟨{ id := "c", name := card, kind := some .frame, width := 90, height := 60 },
    [⟨{ id := "t", name := title, kind := some (.text "Stars" {}), width := 90, height := 20 }, []⟩,
      ⟨{ id := "s", name := star, kind := some (.vector [⟨"M0 0L9 9", .nonZero⟩]), width := 24,
          height := 24 }, []⟩]⟩

/-- The card under names with the one flag that counts. -/
def plainCard : Node := starCard "Card" "Title --as-h1" "Star"

/-- The card under names with unknown flags besides. -/
def pinnedCard : Node := starCard "Card --pin" "Title --lang=de --as-h1" "Star --fav"

/-- The two cards differ in unknown flags only. -/
theorem reflagged_pinnedCard : plainCard.Reflagged pinnedCard :=
  .node ⟨"Card --pin", by decide, rfl⟩
    (.cons (.node ⟨"Title --lang=de --as-h1", by decide, rfl⟩ .nil)
      (.cons (.node ⟨"Star --fav", by decide, rfl⟩ .nil) .nil))

/-- The icons of the two cards are alike. -/
theorem iconsAlike_pinnedCard : ({} : LoweringOptions).IconsAlike plainCard pinnedCard := by
  -- No name of the card has a word for icons in it, with its unknown flags or without them.
  refine KeepsDetectors.iconsAlike_of_names ⟨rfl, rfl⟩ reflagged_pinnedCard fun n n' hreach => ?_
  rcases hreach.cases with ⟨rfl, rfl⟩ | ⟨-, c, c', hc, -, hreach⟩
  · decide +kernel
  · rcases List.mem_cons.mp hc with hc | hc
    · cases hc
      rcases hreach.cases with ⟨rfl, rfl⟩ | ⟨-, d, d', hd, -⟩
      · decide +kernel
      · exact absurd hd List.not_mem_nil
    · cases List.mem_singleton.mp hc
      rcases hreach.cases with ⟨rfl, rfl⟩ | ⟨-, d, d', hd, -⟩
      · decide +kernel
      · exact absurd hd List.not_mem_nil

/-- The two cards are lowered, and to the same widgets but for their names. -/
theorem lower_unknownFlags_pinnedCard : ({} : LoweringOptions).wrap = none ∧
    plainCard.Reflagged pinnedCard ∧ ({} : LoweringOptions).FlagsAlike plainCard pinnedCard ∧
    ({} : LoweringOptions).DetectsAlike plainCard pinnedCard ∧
    ({} : LoweringOptions).IconsAlike plainCard pinnedCard ∧
    ∃ w w', ({} : LoweringOptions).lower plainCard = .ok w ∧
      ({} : LoweringOptions).lower pinnedCard = .ok w' ∧ w'.nameless = w.nameless := by
  have hflags : ({} : LoweringOptions).FlagsAlike plainCard pinnedCard := fun _ _ _ => rfl
  have hdetects : ({} : LoweringOptions).DetectsAlike plainCard pinnedCard :=
    KeepsDetectors.detectsAlike ⟨rfl, rfl⟩ reflagged_pinnedCard
  have htyped : ∀ n ∈ plainCard.preorder, n.layer.kind.isSome = true := by decide
  obtain ⟨w, hw⟩ := exists_lower_of_silent (o := {}) htyped rfl rfl
  refine ⟨rfl, reflagged_pinnedCard, hflags, hdetects, iconsAlike_pinnedCard, w, ?_⟩
  have heq :=
    (lower_unknownFlags_iff rfl reflagged_pinnedCard hflags hdetects).1 iconsAlike_pinnedCard
  -- The first card has a widget, so neither outcome is a failure.
  rcases withoutNames_cases heq with ⟨v, v', hv, hv', hnames⟩ | ⟨e, -, he, -⟩
  · cases hw.symm.trans hv
    exact ⟨v', hw, hv', hnames⟩
  · cases hw.symm.trans he

/-- A box of the size of an icon. -/
def smallBox (name : String) : Node :=
  ⟨{ id := "1", name := name, kind := some .rectangle, width := 24, height := 24 }, []⟩

theorem reflagged_smallBox : (smallBox "box").Reflagged (smallBox "box --iconify") :=
  .node ⟨"box --iconify", by decide, rfl⟩ .nil

/-- **An unknown flag makes an icon:** the box is lowered to a box, and with a flag that means
nothing it is lowered to an icon. -/
theorem lower_iconify : (smallBox "box").Reflagged (smallBox "box --iconify") ∧
    ({} : LoweringOptions).wrap = none ∧
    ({} : LoweringOptions).FlagsAlike (smallBox "box") (smallBox "box --iconify") ∧
    ({} : LoweringOptions).DetectsAlike (smallBox "box") (smallBox "box --iconify") ∧
    withoutNames Widget.nameless (({} : LoweringOptions).lower (smallBox "box --iconify")) ≠
      withoutNames Widget.nameless (({} : LoweringOptions).lower (smallBox "box")) := by
  have hflags : ({} : LoweringOptions).FlagsAlike (smallBox "box") (smallBox "box --iconify") :=
    fun _ _ _ => rfl
  have hasks : ({} : LoweringOptions).AsksForIcon (smallBox "box") := ⟨rfl, nofun, rfl⟩
  have hdetects := (KeepsDetectors.mk (o := {}) rfl rfl).detectsAlike reflagged_smallBox
  refine ⟨reflagged_smallBox, rfl, hflags, hdetects, fun heq => ?_⟩
  have htyped : ∀ n ∈ (smallBox "box").preorder, n.layer.kind.isSome = true := by decide
  obtain ⟨w, hw⟩ := exists_lower_of_silent (o := {}) htyped rfl rfl
  -- The box is looked at for an icon, and is one for the flag alone.
  have hglyph := iconsAlike_of_lower rfl reflagged_smallBox hflags hdetects hw heq _ _ .root hasks
  revert hglyph
  decide +kernel

end LoweringOptions

end DesignCompiler
