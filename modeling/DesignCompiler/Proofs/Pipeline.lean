import DesignCompiler.Pipeline
import DesignCompiler.Proofs.Asset.Survival
import DesignCompiler.Proofs.Emit.Page
import DesignCompiler.Proofs.Lowering.Preservation
/-!
# The whole way from a design to code

A run that gives code has found an emitter and has lowered the design, and its output is the text of
the module, finished unless that is switched off (`designToCode_eq_ok_iff`). It fails for want of an
emitter or of a widget, and for nothing else (`designToCode_ends`).

Finished code is free of the prefix of reserved references but for what `Survives` describes
(`designToCode_holdsPrefix_iff`). A picture of a layer without an id is such a case: its address is
the prefix and nothing more, so no key is found there to put an image in for.
-/

namespace DesignCompiler

variable {root : Node} {f : Framework} {build : BuildOptions}

/-- **A build succeeds exactly if** the framework has an emitter and the design has a widget. -/
theorem designToCode_eq_ok_iff {assets : AssetOptions} {r : BuildResult} :
    designToCode root f build assets = .ok r ↔
      ∃ emit w, emitterFor f = .ok emit ∧ build.lowering.lower root = .ok w ∧
        r = ⟨if assets.skip then moduleOutput f w (emit w)
          else (moduleOutput f w (emit w)).finalize assets.source, w⟩ := by
  unfold designToCode
  constructor
  · intro h
    -- The framework is looked at before the design.
    cases hemit : emitterFor f with
    | error e => rw [hemit] at h; cases h
    | ok emit =>
      cases hlower : build.lowering.lower root with
      | error e => rw [hemit, hlower] at h; cases h
      | ok w =>
        rw [hemit, hlower] at h
        cases h
        exact ⟨emit, w, rfl, rfl, rfl⟩
  · rintro ⟨emit, w, hemit, hlower, rfl⟩
    rw [hemit, hlower]
    rfl

/-! ### How a run ends -/

/-- The frameworks that are known by name only. -/
def Framework.IsUnsupported (f : Framework) : Prop := f = .reactNative ∨ f = .vue

/-- The frameworks without an emitter are those that are not supported. -/
theorem emitterFor_eq_error_iff {e : BuildError} :
    emitterFor f = .error e ↔ f.IsUnsupported ∧ e = .unsupported f.name := by
  unfold emitterFor Framework.IsUnsupported
  cases f <;> simp [Framework.emit?, eq_comm]

/-- Whatever the switches of a run are, what is put around a widget keeps it. -/
theorem BuildOptions.unwrapped_finish (b : BuildOptions) (n : Node) (depth : Nat) (w : Widget) :
    (b.lowering.finish n depth w).unwrapped = w.unwrapped := by
  unfold LoweringOptions.finish lowering
  cases b.fixRootSize with
  | false => simp
  | true =>
    simp only [if_true, fixRoot]
    split
    · simp [fixSize]
    · simp

/-- The widget of a root has the id of the root, whatever is put around it. -/
theorem BuildOptions.id_lower {w : Widget} (h : build.lowering.lower root = .ok w) :
    w.unwrapped.id = root.layer.id := by
  obtain ⟨v, hv, hnames, rfl⟩ :=
    LoweringOptions.exists_finish (LoweringOptions.lower_eq_ok_iff.mp h)
  rw [unwrapped_finish, Widget.unwrapped_eq_self hv]
  exact hnames.id

/-- A run ends in one of three ways, by its framework and by what becomes of the design. -/
theorem designToCode_cases (root : Node) (f : Framework) (build : BuildOptions)
    (assets : AssetOptions) :
    (f.IsUnsupported ∧ designToCode root f build assets = .error (.unsupported f.name)) ∨
    (¬f.IsUnsupported ∧ ∃ fault, build.lowering.lower root = .error fault ∧
      designToCode root f build assets = .error (.lowering fault)) ∨
    ¬f.IsUnsupported ∧ ∃ w r, build.lowering.lower root = .ok w ∧
      designToCode root f build assets = .ok r ∧ r.output.id = w.unwrapped.id := by
  unfold designToCode
  cases hemit : emitterFor f with
  | error e =>
    obtain ⟨hnone, rfl⟩ := emitterFor_eq_error_iff.mp hemit
    exact Or.inl ⟨hnone, rfl⟩
  | ok emit =>
    have hsome : ¬f.IsUnsupported := by
      intro hnone
      cases hemit.symm.trans (emitterFor_eq_error_iff.mpr ⟨hnone, rfl⟩)
    cases build.lowering.lower root with
    | error fault => exact Or.inr (Or.inl ⟨hsome, fault, rfl, rfl⟩)
    | ok w =>
      refine Or.inr (Or.inr ⟨hsome, w, _, rfl, rfl, ?_⟩)
      -- Images are put into the texts of an output, and leave the rest of it.
      cases assets.skip <;> rfl

/-- **Only two things make a run fail.** A framework without an emitter does, and is what is
reported whatever the design is; with an emitter, a run fails where lowering does and with the fault
of that. Neither the emitters nor the images add to this, and code that is given goes by the id of
the root. -/
theorem designToCode_ends (root : Node) (f : Framework) (build : BuildOptions)
    (assets : AssetOptions) :
    (∀ e, designToCode root f build assets = .error e ↔
      f.IsUnsupported ∧ e = .unsupported f.name ∨
        ¬f.IsUnsupported ∧ ∃ fault, build.lowering.lower root = .error fault ∧
          e = .lowering fault) ∧
    ((∃ r, designToCode root f build assets = .ok r) ↔
      ¬f.IsUnsupported ∧ ∃ w, build.lowering.lower root = .ok w) ∧
    ∀ r, designToCode root f build assets = .ok r → r.output.id = root.layer.id := by
  -- The framework is looked at before the design, so its error comes first.
  rcases designToCode_cases root f build assets with ⟨hnone, hends⟩ |
    ⟨hsome, fault, hlower, hends⟩ | ⟨hsome, w, r, hlower, hends, hid⟩
  · simp [hends, hnone, eq_comm]
  · simp [hends, hsome, hlower, eq_comm]
  · simp [hends, hsome, hlower, hid, BuildOptions.id_lower hlower]

/-! ### Reserved references in finished code -/

/-- What finishing does to code is all that the switch for it does. -/
theorem exists_raw {source : Option AssetSource} {r : BuildResult}
    (h : designToCode root f build ⟨source, false⟩ = .ok r) :
    ∃ raw, designToCode root f build ⟨source, true⟩ = .ok raw ∧
      r.output = raw.output.finalize source := by
  obtain ⟨emit, w, hemit, hlower, rfl⟩ := designToCode_eq_ok_iff.mp h
  exact ⟨_, designToCode_eq_ok_iff.mpr ⟨emit, w, hemit, hlower, rfl⟩, rfl⟩

/-- **The prefix survives in finished code** just where it stood without a key before the images
were put in, or was spelled anew by them. -/
theorem designToCode_holdsPrefix_iff {source : Option AssetSource} {r : BuildResult}
    (hbuild : designToCode root f build ⟨source, false⟩ = .ok r)
    (hvalues : ∀ s ∈ source, ∀ key image, s.fetch key = .ok image → ¬ HoldsPrefix image) :
    ∃ raw, designToCode root f build ⟨source, true⟩ = .ok raw ∧
      (HoldsPrefix r.output.code ↔ Survives source raw.output.code) ∧
      (HoldsPrefix r.output.scaffold ↔ Survives source raw.output.scaffold) := by
  obtain ⟨raw, hraw, houtput⟩ := exists_raw hbuild
  -- Code and scaffold are finalized together, with one table for both.
  refine ⟨raw, hraw, ?_, ?_⟩
  · rw [houtput, CodeOutput.finalize]
    exact holdsPrefix_substitute_iff hvalues List.mem_cons_self
  · rw [houtput, CodeOutput.finalize]
    exact holdsPrefix_substitute_iff hvalues (List.mem_cons_of_mem _ List.mem_cons_self)

/-- A picture without an id. -/
def unnamedPicture : Node :=
  ⟨{ id := "", name := "star --artwork", kind := some .rectangle, width := 24, height := 24 }, []⟩

theorem treatment_unnamedPicture : ({} : BuildOptions).lowering.treatment unnamedPicture =
    .finished (unnamedPicture.layer.picture
      (({} : BuildOptions).lowering.key unnamedPicture.layer)) := rfl

/-- A source that has one image. -/
def oneImage : AssetSource :=
  ⟨false, fun key => if key = "7:12" then .ok "https://images/star.png" else .error (.notFound key)⟩

/-- The law at the picture without an id, with a source that has one image. -/
theorem designToCode_holdsPrefix_iff_unnamedPicture : ∃ r raw,
    designToCode unnamedPicture (.vanilla {}) {} ⟨some oneImage, false⟩ = .ok r ∧
    designToCode unnamedPicture (.vanilla {}) {} ⟨some oneImage, true⟩ = .ok raw ∧
      (HoldsPrefix r.output.code ↔ Survives (some oneImage) raw.output.code) ∧
      (HoldsPrefix r.output.scaffold ↔ Survives (some oneImage) raw.output.scaffold) := by
  have hlower := LoweringOptions.lower_eq_ok_iff.mpr
    (LoweringOptions.lowerNode_eq_some_iff.mpr (Or.inl ⟨_, treatment_unnamedPicture, rfl⟩))
  obtain ⟨r, hr⟩ : ∃ r,
      designToCode unnamedPicture (.vanilla {}) {} ⟨some oneImage, false⟩ = .ok r :=
    ⟨_, designToCode_eq_ok_iff.mpr ⟨_, _, rfl, hlower, rfl⟩⟩
  -- The one image of the source is at an address of its own.
  have hvalues : ∀ s ∈ some oneImage, ∀ key image,
      s.fetch key = .ok image → ¬ HoldsPrefix image := by
    rintro s ⟨⟩ key image h
    simp only [oneImage] at h
    split at h
    · cases h
      decide +kernel
    · cases h
  obtain ⟨raw, hraw, hholds⟩ := designToCode_holdsPrefix_iff hr hvalues
  exact ⟨r, raw, hr, hraw, hholds⟩

/-! ### A picture without an id -/

/-- A page writes the prefix as it is, between quotes. -/
theorem enclosed_infix_write (name : String) :
    '"' :: (reservationPrefix.toList ++ ['"']) <:+:
      ((Attribute.ofText name (reservationPrefix ++ "")).plain.write .html).toList := by
  -- There is nothing in the prefix that would be escaped.
  have hescaped : markupEscaped (reservationPrefix ++ "") = reservationPrefix := by decide +kernel
  have hwritten : (Attribute.ofText name (reservationPrefix ++ "")).plain.write .html =
      name ++ "=" ++ inQuotes reservationPrefix := by
    rw [← hescaped]
    rfl
  have hquoted : (inQuotes reservationPrefix).toList =
      '"' :: (reservationPrefix.toList ++ ['"']) := by
    simp [inQuotes]
  rw [hwritten, ← hquoted]
  exact infix_append_text (Or.inr List.infix_rfl)

/-- **A picture without an id** has the prefix alone for its address, and keeps it in a page. -/
theorem exists_holdsPrefix_of_picture {key : WidgetKey} (hid : root.layer.id = "")
    (hpicture : build.lowering.treatment root = .finished (root.layer.picture key))
    (source : Option AssetSource) :
    ∃ r, designToCode root (.vanilla {}) build ⟨source, false⟩ = .ok r ∧
      HoldsPrefix r.output.code := by
  obtain ⟨w, hw⟩ : ∃ w, w = build.lowering.finish root 0 (root.layer.picture key) := ⟨_, rfl⟩
  have hlower : build.lowering.lower root = .ok w :=
    LoweringOptions.lower_eq_ok_iff.mpr
      (LoweringOptions.lowerNode_eq_some_iff.mpr (Or.inl ⟨_, hpicture, hw⟩))
  have hunwrapped : w.unwrapped = root.layer.picture key := by
    rw [hw, BuildOptions.unwrapped_finish]
    rfl
  -- The page has one element, that of the picture.
  have hids : (w.contents.map (·.id)).Nodup := by
    rw [Widget.contents_eq, hunwrapped]
    exact List.nodup_singleton _
  have haddress : Attribute.ofText "src" (reservationPrefix ++ "") ∈
      (Chain.element ⟨w, .root⟩).start.attributes := by
    rw [Chain.element, ← Widget.element_unwrapped, hunwrapped, ← hid]
    exact List.mem_cons_self
  have hsource := Page.attribute_infix_source hids (w.mem_chains_self .root) haddress
  refine ⟨_, designToCode_eq_ok_iff.mpr ⟨_, w, rfl, hlower, rfl⟩, ?_⟩
  -- The address stands between its quotes.
  refine holdsPrefix_substitute_of_enclosed (c := '"') (d := '"') (by decide) (by decide)
    List.mem_cons_self (List.IsInfix.trans ?_ hsource)
  exact enclosed_infix_write "src"

/-- **A reference with an empty key survives** in the code that is written. -/
theorem holdsPrefix_unnamedPicture : ∃ r,
    designToCode unnamedPicture (.vanilla {}) {} {} = .ok r ∧ HoldsPrefix r.output.code :=
  exists_holdsPrefix_of_picture rfl treatment_unnamedPicture none

end DesignCompiler
