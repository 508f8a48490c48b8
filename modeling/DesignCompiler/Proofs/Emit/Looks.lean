import DesignCompiler.Emit.Flutter
import DesignCompiler.Proofs.Code.Lines
/-!
# How something looks, in calls

In an expression of constructor calls, what says how something looks is told from the widgets
themselves: it is built from a few constructors (`lookCallees`), and nothing is shown in it. Every
text in it is tame but for the strings that come with the design, which are the names of fonts and
the addresses of images.
-/

namespace DesignCompiler

namespace Expr

variable {S : String → Prop} {callees : List String}

/-- An argument is built if its value is and its label is tame. -/
def BuiltArgument (S : String → Prop) (callees : List String) (a : Argument Expr) : Prop :=
  (∀ label, a.label = some label → Tame label) ∧ a.value.Built S callees

/-- Some arguments are built. -/
def BuiltArguments (S : String → Prop) (callees : List String) (arguments : List (Argument Expr)) :
    Prop :=
  ∀ a ∈ arguments, BuiltArgument S callees a

/-- A call is built if its arguments are. -/
theorem built_call {callee : String} {arguments : List (Argument Expr)}
    (hcallee : callee ∈ callees) (h : BuiltArguments S callees arguments) :
    (call callee arguments).Built S callees :=
  .call hcallee (fun a ha => (h a ha).1) fun a ha => (h a ha).2

/-- What is built stays so with more that may be called. -/
theorem Built.mono {others : List String} (hsub : callees ⊆ others) {e : Expr}
    (h : e.Built S callees) : e.Built S others := by
  induction h with
  | literal htext => exact .literal htext
  | call hcallee hlabels _ ih => exact .call (hsub hcallee) hlabels ih
  | list _ ih => exact .list ih

/-- So do arguments. -/
theorem BuiltArguments.mono {others : List String} (hsub : callees ⊆ others)
    {arguments : List (Argument Expr)} (h : BuiltArguments S callees arguments) :
    BuiltArguments S others arguments :=
  fun a ha => ⟨(h a ha).1, (h a ha).2.mono hsub⟩

/-- A literal is built if it is tame or has the property. -/
@[simp] theorem built_literal {text : String} : (literal text).Built S callees ↔ Tame text ∨ S text := by
  constructor
  · intro h
    cases h
    assumption
  · exact .literal

@[simp] theorem builtArguments_nil : BuiltArguments S callees [] :=
  fun _ h => absurd h List.not_mem_nil

@[simp] theorem builtArguments_cons {a : Argument Expr} {rest : List (Argument Expr)} :
    BuiltArguments S callees (a :: rest) ↔ BuiltArgument S callees a ∧ BuiltArguments S callees rest :=
  List.forall_mem_cons

@[simp] theorem builtArguments_append {as bs : List (Argument Expr)} :
    BuiltArguments S callees (as ++ bs) ↔ BuiltArguments S callees as ∧ BuiltArguments S callees bs :=
  List.forall_mem_append

end Expr

open DesignCompiler.Expr

namespace Flutter

variable {S : String → Prop} {callees : List String}

/-! ### Arguments -/

@[simp] theorem builtArgument_named {label : String} {e : Expr} :
    BuiltArgument S callees (named label e) ↔ Tame label ∧ e.Built S callees := by
  simp [BuiltArgument, named]

@[simp] theorem builtArgument_plain {e : Expr} :
    BuiltArgument S callees (plain e) ↔ e.Built S callees := by
  simp [BuiltArgument, plain]

@[simp] theorem built_number (value : Float) : (number value).Built S callees :=
  .literal (Or.inl (tame_cssNumber value))

theorem built_string {text : String} (h : S (dartQuoted text)) : (string text).Built S callees :=
  .literal (Or.inr h)

@[simp] theorem builtArgument_numbered {label : String} {value : Float} :
    BuiltArgument S callees (numbered label value) ↔ Tame label := by
  simp [numbered]

/-- A member of a type is made of three tame names. -/
@[simp] theorem builtArgument_member {label type name : String} (hlabel : Tame label)
    (htype : Tame type) (hname : Tame name) :
    BuiltArgument S callees (member label type name) := by
  simp +decide [member, hlabel, htype, hname]

/-- An argument that may be missing is built if it is built where it is there. -/
theorem builtArguments_named? {α : Type} {label : String} {f : α → Expr} {value : Option α}
    (hlabel : Tame label) (h : ∀ v, value = some v → (f v).Built S callees) :
    BuiltArguments S callees (named? label f value) := by
  cases value with
  | none => exact builtArguments_nil
  | some v => simpa [named?] using ⟨hlabel, h v rfl⟩

theorem builtArguments_numbered? {label : String} (hlabel : Tame label) (value : Option Float) :
    BuiltArguments S callees (named? label number value) :=
  builtArguments_named? hlabel fun v _ => built_number v

/-! ### Values -/

/-- **The constructors that looks are built from.** -/
def lookCallees : List String :=
  ["EdgeInsets.all", "EdgeInsets.only", "Radius.circular", "BorderRadius.circular",
    "BorderRadius.only", "BoxConstraints", "LinearGradient", "RadialGradient", "DecorationImage",
    "NetworkImage", "Border.all", "BoxShadow", "BoxDecoration", "TextStyle"]

/-- A color is a call of numbers. -/
@[simp] theorem built_color (c : Color) : (color c).Built S callees := by
  have hdigits : Tame c.argbText := by
    refine tame_of_alphanum fun d hd => ?_
    simp only [Color.argbText, Color.lowerHex, String.toList_ofList] at hd
    exact isAlphanum_byteDigits _ d hd
  simp +decide [color, hdigits]

/-- So is an alignment. -/
@[simp] theorem built_alignment (x y : Float) : (alignment x y).Built S callees := by
  simp +decide [alignment]

/-- So are insets. -/
theorem built_insets (i : Insets) : (insets i).Built S lookCallees := by
  unfold insets
  split
  · exact built_call (by decide) (by simp)
  · exact built_call (by decide) (by simp +decide)

/-- So are corners. -/
theorem built_corners (c : Corners) : (corners c).Built S lookCallees := by
  have hcorner : ∀ radius, (corner radius).Built S lookCallees :=
    fun _ => built_call (by decide) (by simp)
  unfold corners
  split
  · exact built_call (by decide) (by simp)
  · exact built_call (by decide) (by simp +decide [hcorner])

/-- A size is two numbers that may be missing. -/
theorem built_sizeArguments (s : Style) : BuiltArguments S callees (sizeArguments s) :=
  builtArguments_append.mpr
    ⟨builtArguments_numbered? (by decide) _, builtArguments_numbered? (by decide) _⟩

/-- So are the bounds of a width. -/
theorem built_widthBounds {s : Style} {e : Expr} (h : widthBounds? s = some e) :
    e.Built S lookCallees := by
  unfold widthBounds? at h
  simp only at h
  split at h
  · cases h
  · cases h
    refine built_call (by decide) (builtArguments_append.mpr ⟨?_, ?_⟩)
    · exact builtArguments_numbered? (by decide) _
    · exact builtArguments_numbered? (by decide) _

/-- **A gradient is built:** of its colors, its positions and numbers. -/
theorem built_gradient {g : Gradient} {e : Expr} (h : gradient? g = some e) :
    e.Built S lookCallees := by
  have hcolors : (Expr.list (g.stops.map fun s => color s.color)).Built S lookCallees := by
    refine .list fun e he => ?_
    obtain ⟨s, -, rfl⟩ := List.mem_map.mp he
    exact built_color _
  have hpositions : Tame (", ".intercalate (g.stops.map fun s => cssNumber s.position)) := by
    refine tame_intercalate (by decide) fun text htext => ?_
    obtain ⟨s, -, rfl⟩ := List.mem_map.mp htext
    exact tame_cssNumber _
  -- The other two gradients have no call.
  cases g with
  | linear angle stops =>
    cases h
    exact built_call (by decide) (by simp +decide [hcolors, hpositions])
  | radial centerX centerY radius stops =>
    cases h
    exact built_call (by decide) (by simp +decide [hcolors, hpositions])
  | angular => cases h
  | diamond => cases h

/-- **A background is built** with its source, if it is an image. -/
theorem built_background {b : Background}
    (h : ∀ ref, b = .image ref → S (dartQuoted ref.source)) :
    BuiltArguments S lookCallees (background b) := by
  -- Of the three kinds, only an image has a free text in it.
  cases b with
  | color c => simp +decide [background]
  | gradient g => exact builtArguments_named? (by decide) fun e he => built_gradient he
  | image ref =>
    have hsource : (string ref.source).Built S lookCallees := built_string (h ref rfl)
    have himage : (Expr.call "NetworkImage" [plain (string ref.source)]).Built S lookCallees :=
      built_call (by decide) (by simp [hsource])
    have hpicture : (Expr.call "DecorationImage"
        [named "image" (.call "NetworkImage" [plain (string ref.source)]),
          member "fit" "BoxFit" "cover"]).Built S lookCallees :=
      built_call (by decide) (by simp +decide [himage])
    simpa [background] using ⟨by decide, hpicture⟩

section Box

variable {s : Style} (h : ∀ ref, s.background = some (.image ref) → S (dartQuoted ref.source))
include h

/-- **What a box looks like is built** with the source of its background. -/
theorem built_decorationArguments (shape : BoxShape) :
    BuiltArguments S lookCallees (decorationArguments s shape) := by
  have hborder : ∀ b, (border b).Built S lookCallees :=
    fun _ => built_call (by decide) (by simp +decide)
  have hshadow : ∀ b, (shadow b).Built S lookCallees :=
    fun _ => built_call (by decide) (by simp +decide)
  unfold decorationArguments
  simp only [builtArguments_append]
  -- Background, border, shape and shadows, in this order.
  refine ⟨⟨⟨?_, builtArguments_named? (by decide) fun b _ => hborder b⟩, ?_⟩, ?_⟩
  · cases hbackground : s.background with
    | none => exact builtArguments_nil
    | some b => exact built_background fun ref hb => h ref (hbackground.trans (hb ▸ rfl))
  · split
    · simp +decide
    · exact builtArguments_named? (by decide) fun c _ => built_corners c
  · split
    · exact builtArguments_nil
    · have hshadows :
          (Expr.list ((s.shadows.filter (!·.inset)).map shadow)).Built S lookCallees := by
        refine .list fun e he => ?_
        obtain ⟨b, -, rfl⟩ := List.mem_map.mp he
        exact hshadow b
      simpa using ⟨by decide, hshadows⟩

/-- So is the decoration that it is put in. -/
theorem built_decoration {shape : BoxShape} {clip : Bool} {e : Expr}
    (he : decoration? s shape clip = some e) : e.Built S lookCallees := by
  unfold decoration? at he
  simp only at he
  split at he
  · cases he
  · cases he
    exact built_call (by decide) (built_decorationArguments h shape)

/-- **The look of a box:** its size, its bounds, its padding and its decoration. -/
theorem builtArguments_looks (shape : BoxShape) (clip : Bool) :
    BuiltArguments S lookCallees (sizeArguments s ++ named? "constraints" id (widthBounds? s) ++
      named? "padding" insets (s.padding.filter (!·.isZero)) ++
      named? "decoration" id (decoration? s shape clip)) := by
  simp only [builtArguments_append]
  refine ⟨⟨⟨built_sizeArguments s, ?_⟩, ?_⟩, ?_⟩
  · exact builtArguments_named? (by decide) fun e he => built_widthBounds he
  · exact builtArguments_named? (by decide) fun i _ => built_insets i
  · exact builtArguments_named? (by decide) fun e he => built_decoration h he

end Box

/-- **The style of a text is built** with the name of its font. -/
theorem built_textStyle {content : TextContent} (h : S (dartQuoted content.style.fontFamily)) :
    (textStyle content).Built S lookCallees := by
  have hfamily : (string content.style.fontFamily).Built S lookCallees := built_string h
  have hweight : Tame ("w" ++ toString (weightStep content.style.fontWeight)) :=
    tame_append.mpr ⟨by decide, tame_repr _⟩
  have hdecoration : ∀ name, decorationName? content.style.decoration = some name → Tame name := by
    intro name hname
    cases hd : content.style.decoration <;> rw [hd] at hname <;> cases hname <;> decide
  unfold textStyle
  refine built_call (by decide) ?_
  simp only [builtArguments_append]
  -- Color, font and size, spacing and height, and the decoration; only the font is a free text.
  refine ⟨⟨⟨⟨builtArguments_named? (by decide) fun _ _ => built_color _, ?_⟩, ?_⟩,
    builtArguments_numbered? (by decide) _⟩, ?_⟩
  · simp +decide only [builtArguments_cons, builtArgument_numbered, builtArgument_named,
      builtArgument_member, hfamily, builtArguments_nil, hweight, and_self]
  · split
    · exact builtArguments_named? (by decide) fun _ _ => built_number _
    · exact builtArguments_nil
  · refine builtArguments_named? (by decide) fun name hname => ?_
    exact .literal (Or.inl (tame_append.mpr ⟨by decide, hdecoration name hname⟩))

end Flutter

end DesignCompiler
