import DesignCompiler.Proofs.Lowering.Steps
import DesignCompiler.Proofs.Text.Tokens
/-!
# The width of a text

A text of several words gets a little room, so that no line breaks early; a single word cannot
break and needs none. Words are counted by the spaces of the text, each of which is taken to stand
between two of them (`paddedWidth_eq`). One that stands in front of a word or behind it is counted
too. So the blanks around a single word decide whether it is left as it is: it gets room exactly if
a space is among them and the text is short (`LeavesRoom`).

A text node that is lowered by its type (`LoweringOptions.LowersText`) has the width that its text
asks for, whatever flags change in it. With the detectors that come with lowering, which look for
nothing in a text, only flags and masks stand before the type (`KeepsDetectors.lowersText`).
-/

namespace DesignCompiler

/-! ### The room for words -/

/-- The room that is added for a text of several words. -/
def room (text : String) : Float :=
  if utf16Length text.toList ≤ 6 ∧ text.toList.count ' ' ≤ 1 then 1 else 2

/-- **The width of a text by its spaces.** -/
theorem paddedWidth_eq (text : String) (width : Float) : paddedWidth text width =
    if ' ' ∈ text.toList ∧ utf16Length text.toList < 30 then width + room text else width := by
  unfold paddedWidth room
  simp only [length_splitOnChar]
  -- There is one piece exactly if there is no space, and two exactly if there is one.
  by_cases hspace : ' ' ∈ text.toList
  · have hone : ¬text.toList.count ' ' + 1 ≤ 1 := by
      have hcount := List.count_pos_iff.mpr hspace
      omega
    have htwo : text.toList.count ' ' + 1 ≤ 2 ↔ text.toList.count ' ' ≤ 1 :=
      Nat.add_le_add_iff_right
    simp only [hone, hspace, htwo, if_false, true_and]
    by_cases hshort : utf16Length text.toList ≤ 6 ∧ text.toList.count ' ' ≤ 1
    · -- A text that is short enough for one unit is short enough for room at all.
      rw [if_pos hshort, if_pos hshort, if_pos (Nat.lt_of_le_of_lt hshort.1 (by decide))]
    · rw [if_neg hshort, if_neg hshort]
  · have hone : text.toList.count ' ' + 1 ≤ 1 := by
      rw [List.count_eq_zero_of_not_mem hspace]
    rw [if_pos hone, if_neg fun h => hspace h.1]

/-- Any room is more than none. -/
theorem zero_add_room_ne (text : String) : 0 + room text ≠ 0 := by
  unfold room
  split <;> decide +kernel

/-- **Whether a text of one word gets room** for the blanks around it: there is a space among them,
and the text has fewer than thirty units. -/
def LeavesRoom (text : String) (before after : List Char) : Prop :=
  ' ' ∈ before ++ after ∧ utf16Length text.toList < 30

instance (text : String) (before after : List Char) : Decidable (LeavesRoom text before after) :=
  inferInstanceAs (Decidable (_ ∧ _))

/-- Around a single word, the blanks decide whether there is room. -/
theorem paddedWidth_of_framesWord {text : String} {before word after : List Char}
    (h : FramesWord text.toList before word after) (width : Float) :
    paddedWidth text width = if LeavesRoom text before after then width + room text else width := by
  rw [paddedWidth_eq]
  exact if_congr (and_congr_left' h.space_mem_iff) rfl rfl

/-! ### Text nodes -/

namespace LoweringOptions

variable {o : LoweringOptions} {n : Node} {text : String}

/-- **The text nodes that are lowered by their type:** they are shown, no flag puts anything in
their place, no detector claims them, and there is no mask in them. -/
structure LowersText (o : LoweringOptions) (n : Node) (text : String) : Prop where
  kind : ∃ style, n.layer.kind = some (.text text style)
  visible : n.layer.visible = true
  unflagged : ∀ f, o.override? n = some f → ∃ tag least greatest, f = .modify tag least greatest
  noImage : o.detectImage n = none
  noIcon : o.detectIcon? n = none
  unmasked : n.containsMasking = false

/-- The detectors that come with lowering look for nothing in a text. -/
theorem KeepsDetectors.lowersText (h : o.KeepsDetectors)
    (hkind : ∃ style, n.layer.kind = some (.text text style)) (hvisible : n.layer.visible = true)
    (hflag : ∀ f, o.override? n = some f → ∃ tag least greatest, f = .modify tag least greatest)
    (hunmasked : n.containsMasking = false) : o.LowersText n text where
  kind := hkind
  visible := hvisible
  unflagged := hflag
  -- An image is a plain box, a frame or a group.
  noImage := by
    obtain ⟨style, hkind⟩ := hkind
    rw [h.image]
    simp [ImageDetector.detect, ImageDetector.illustration?, Node.imageBox?, Node.isPlainBox, hkind]
  -- The detector of icons passes over texts before it reads the name.
  noIcon := by
    obtain ⟨style, hkind⟩ := hkind
    rw [detectIcon?, h.icon]
    simp [IconDetector.detect, NodeKind.isText, hkind]
  unmasked := hunmasked

/-- Nothing comes before the type of such a text. -/
theorem LowersText.ordinaryTreatment (h : o.LowersText n text) (style : TextStyle)
    (changes : Changes) : o.ordinaryTreatment n (.text text style) changes =
      .finished (changes.apply (n.layer.textWidget text style (o.key n.layer))) := by
  unfold LoweringOptions.ordinaryTreatment
  simp only [h.noImage, h.noIcon, h.unmasked, Bool.false_eq_true, if_false]

/-- **The widget of a text node** is as wide as its text asks for. -/
theorem LowersText.exists_leaf (h : o.LowersText n text) : ∃ style content,
    content.data = text ∧ style.width = some (paddedWidth text n.layer.width) ∧
      ∀ depth, o.lowerNode depth n =
        .ok (some (o.finish n depth (.leaf (o.key n.layer) style (.text content)))) := by
  obtain ⟨textStyle, hkind⟩ := h.kind
  obtain ⟨changes, htreatment⟩ : ∃ changes : Changes, o.treatment n = .finished
      (changes.apply (n.layer.textWidget text textStyle (o.key n.layer))) := by
    have htreats := o.treats n
    generalize o.treatment n = t at htreats
    -- Only the ordinary treatment is left to a node that is shown, typed and not replaced.
    cases htreats with
    | hidden hvisible => exact absurd h.visible (by simp [hvisible])
    | untyped huntyped => cases hkind.symm.trans huntyped
    | ignored hflag => exact absurd (h.unflagged _ hflag) (by simp)
    | artwork hflag => exact absurd (h.unflagged _ hflag) (by simp)
    | icon hflag => exact absurd (h.unflagged _ hflag) (by simp)
    | ordinary _ htyped =>
      cases hkind.symm.trans htyped
      exact ⟨_, h.ordinaryTreatment textStyle _⟩
  obtain ⟨layer, children⟩ := n
  refine ⟨changes.applyStyle { Style.sized (paddedWidth text layer.width) layer.height with
      shadows := layer.shadows },
    ⟨text, textStyle, layer.fillColor?, changes.tag <|> none⟩, rfl, rfl, fun depth => ?_⟩
  rw [lowerNode, htreatment]
  rfl

end LoweringOptions

/-- **Single words are left as they are,** unless a space stands in front of one or behind it and
the text has fewer than thirty units. Then room is added, to the width of a text node as well, and
it is no other width only where adding the room makes no difference. -/
theorem paddedWidth_of_word {text : String} (h : (tokens text.toList).length ≤ 1) :
    ∃ before word after, FramesWord text.toList before word after ∧
      ((∀ width, paddedWidth text width = width) ↔ ¬LeavesRoom text before after) ∧
      (∀ width, paddedWidth text width = width ↔
        (LeavesRoom text before after → width + room text = width)) ∧
      ∀ (o : LoweringOptions) (n : Node), o.LowersText n text → ∃ style content,
        content.data = text ∧
        (style.width = some n.layer.width ↔
          (LeavesRoom text before after → n.layer.width + room text = n.layer.width)) ∧
        ∀ depth, o.lowerNode depth n =
          .ok (some (o.finish n depth (.leaf (o.key n.layer) style (.text content)))) := by
  obtain ⟨before, word, after, hframes⟩ := length_tokens_le_one_iff.mp h
  have hwidth : ∀ width, paddedWidth text width = width ↔
      (LeavesRoom text before after → width + room text = width) := by
    intro width
    rw [paddedWidth_of_framesWord hframes]
    by_cases hroom : LeavesRoom text before after <;> simp [hroom]
  refine ⟨before, word, after, hframes, ?_, hwidth, fun o n hlowers => ?_⟩
  · constructor
    · -- At the width of zero, any room makes a difference.
      intro hkept hroom
      exact zero_add_room_ne text ((hwidth 0).mp (hkept 0) hroom)
    · exact fun hroom width => (hwidth width).mpr fun hleaves => absurd hleaves hroom
  · obtain ⟨style, content, hdata, hstyle, hlowered⟩ := hlowers.exists_leaf
    -- The widget has the padded width, so it keeps the width of the node exactly if that is kept.
    refine ⟨style, content, hdata, ?_, hlowered⟩
    rw [hstyle, Option.some.injEq]
    exact hwidth n.layer.width

/-- A text node with a space in front of its word. -/
def greeting : Node :=
  ⟨{ id := "greeting", name := "greeting", kind := some (.text " Hello" {}), width := 50,
     height := 20 }, []⟩

/-- The greeting is lowered by its type. -/
theorem lowersText_greeting : ({} : LoweringOptions).LowersText greeting " Hello" :=
  have hsilent : ({} : LoweringOptions).override? greeting = none := by decide +kernel
  LoweringOptions.KeepsDetectors.lowersText ⟨rfl, rfl⟩ ⟨_, rfl⟩ rfl
    (fun f hf => absurd (hsilent.symm.trans hf) nofun) rfl

/-- The law for a single word with a space in front of it. -/
theorem paddedWidth_greeting : (tokens " Hello".toList).length ≤ 1 ∧
    ∃ before word after, FramesWord " Hello".toList before word after ∧
      ((∀ width, paddedWidth " Hello" width = width) ↔ ¬LeavesRoom " Hello" before after) ∧
      (∀ width, paddedWidth " Hello" width = width ↔
        (LeavesRoom " Hello" before after → width + room " Hello" = width)) ∧
      ∀ (o : LoweringOptions) (n : Node), o.LowersText n " Hello" → ∃ style content,
        content.data = " Hello" ∧
        (style.width = some n.layer.width ↔
          (LeavesRoom " Hello" before after → n.layer.width + room " Hello" = n.layer.width)) ∧
        ∀ depth, o.lowerNode depth n =
          .ok (some (o.finish n depth (.leaf (o.key n.layer) style (.text content)))) := by
  have hone : (tokens " Hello".toList).length ≤ 1 := by decide +kernel
  exact ⟨hone, paddedWidth_of_word hone⟩

/-- **A space in front of a single word pads it,** and so the node that it is the text of. -/
theorem paddedWidth_greeting_ne : (tokens " Hello".toList).length ≤ 1 ∧
    paddedWidth " Hello" 50 ≠ 50 ∧
    ({} : LoweringOptions).LowersText greeting " Hello" ∧
    ∃ style content, ({} : LoweringOptions).lowerNode 0 greeting =
        .ok (some (({} : LoweringOptions).finish greeting 0
          (.leaf ⟨"greeting", "greeting", none⟩ style (.text content)))) ∧
      style.width ≠ some greeting.layer.width := by
  have hpadded : paddedWidth " Hello" 50 ≠ 50 := by decide +kernel
  obtain ⟨style, content, -, hwidth, hlowered⟩ := lowersText_greeting.exists_leaf
  refine ⟨by decide +kernel, hpadded, lowersText_greeting, style, content, hlowered 0, ?_⟩
  rw [hwidth]
  exact fun heq => hpadded (Option.some.inj heq)

end DesignCompiler
