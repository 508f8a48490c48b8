import DesignCompiler.Proofs.Asset.Drawings
import DesignCompiler.Proofs.Asset.Passage
import DesignCompiler.Proofs.Emit.Agreement
/-!
# The images that a tree lists

`Widget.imageRefs` lists the images of a tree, and generated code asks for images by reserved
references. Where nothing in the design garbles references (`Widget.Ordinary`), every reference in the
code is to an image of the list, up to two kinds of *stray* ones (`Framework.StrayKey`):

* the list leaves out an icon with a glyph, as Flutter does. On the web such an icon is an image like
  any other;
* Flutter puts a drawing on one line by leaving out line feeds, and path data with a line feed in the
  prefix has the prefix then.

Both are in the code, so the list covers the code exactly if the stray keys are in it for another
reason (`imageRefs_cover_iff`). A tree without glyphs and without line feeds in its paths has no stray
keys (`imageRefs_cover`).
-/

namespace DesignCompiler

/-- **Images that cover a text:** every reserved reference in the text is to one of them. -/
def Covers (images : List ImageRef) (text : String) : Prop :=
  ∀ key ∈ reservedKeys text, .reserved key ∈ images

/-! ### Ordinary trees -/

/-- **An image that all outputs write as it is:** one under a key of bare characters, or an address
without the prefix. -/
def ImageRef.Ordinary : ImageRef → Prop
  | reserved key => ∀ c ∈ key.toList, isBareKeyChar c = true
  | static url => ¬ HoldsPrefix url

/-- **A tree without anything that garbles references:** the prefix is in no text, and the images are
ordinary. -/
structure Widget.Ordinary (w : Widget) : Prop where
  texts : ∀ v ∈ w.walk, ∀ text ∈ v.texts, ¬ HoldsPrefix text
  images : ∀ v ∈ w.walk, ∀ ref ∈ v.images, ref.Ordinary

instance : DecidablePred ImageRef.Ordinary
  | .reserved key => decidable_of_iff (key.toList.all isBareKeyChar = true) List.all_eq_true
  | .static url => inferInstanceAs (Decidable (¬ HoldsPrefix url))

/-- An ordinary reference is clean if its key has the property. -/
theorem ImageRef.Ordinary.clean {P : String → Prop} {ref : ImageRef} (h : ref.Ordinary)
    (hP : ∀ key, ref = .reserved key → key ≠ "" → P key) : Clean P ref.source := by
  cases ref with
  | reserved key => exact Or.inr ⟨key, rfl, h, hP key rfl⟩
  | static url => exact Or.inl h

/-! ### Stray keys -/

/-- **A key that code may have although the tree does not list it:** in Flutter one that a drawing
spells on its line, elsewhere that of an icon with a glyph. -/
def Framework.StrayKey (f : Framework) (w : Widget) (key : String) : Prop :=
  match f with
  | .flutter => ∃ l ∈ w.leaves, l.isDrawing = true ∧
      key ∈ reservedKeys (Flutter.svgText (l.element ""))
  | _ => key ≠ "" ∧ ∃ content, Leaf.icon content ∈ w.leaves ∧ content.glyph.isSome = true ∧
      content.src = .reserved key

/-- The keys that code has: those that the tree lists and stray ones. -/
def Framework.HasKey (f : Framework) (w : Widget) (key : String) : Prop :=
  .reserved key ∈ w.imageRefs ∨ f.StrayKey w key

variable {w : Widget}

theorem Widget.mem_leaves_of_mem_walk {key : WidgetKey} {style : Style} {content : Leaf}
    (h : .leaf key style content ∈ w.walk) : content ∈ w.leaves :=
  List.mem_filterMap.mpr ⟨_, h, rfl⟩

/-- **The images of a widget on the web** are those that the tree lists, and those of icons with a
glyph. -/
theorem Widget.listed_or_glyph {v : Widget} (hv : v ∈ w.walk) {ref : ImageRef}
    (href : ref ∈ v.images) : ref ∈ w.imageRefs ∨
      ∃ content, Leaf.icon content ∈ w.leaves ∧ content.glyph.isSome = true ∧ content.src = ref := by
  have hlisted : ref ∈ v.ownImageRefs → ref ∈ w.imageRefs := fun h =>
    List.mem_flatMap.mpr ⟨v, hv, h⟩
  -- Every source and every background is listed by its widget, but for the source of an icon with a
  -- glyph.
  cases v with
  | leaf key style content =>
    cases content with
    | image content =>
      exact Or.inl (hlisted (List.mem_append_right _ href))
    | icon content =>
      rw [List.mem_singleton.mp href]
      cases hglyph : content.glyph with
      | none => exact Or.inl (by
          refine List.mem_flatMap.mpr ⟨_, hv, List.mem_append_right _ ?_⟩
          simp [hglyph])
      | some glyph => exact Or.inr ⟨content, mem_leaves_of_mem_walk hv, by simp [hglyph], rfl⟩
    | text => exact absurd href List.not_mem_nil
    | vector => exact absurd href List.not_mem_nil
    | boolean => exact absurd href List.not_mem_nil
  | box key style arrangement children =>
    refine Or.inl (hlisted (List.mem_append_left _ ?_))
    exact href
  | wrap => exact absurd href List.not_mem_nil

/-! ### Every key in the code is known -/

/-- The widgets of an ordinary tree are clean where stray keys are those of icons. -/
theorem Widget.Ordinary.clean (h : w.Ordinary) {f : Framework}
    (hstray : ∀ key content, Leaf.icon content ∈ w.leaves → content.glyph.isSome = true →
      content.src = .reserved key → key ≠ "" → f.StrayKey w key) :
    ∀ v ∈ w.walk, v.Clean (f.HasKey w) := by
  intro v hv
  refine ⟨h.texts v hv, fun ref href => (h.images v hv ref href).clean fun key hkey hne => ?_⟩
  rcases listed_or_glyph hv href with hlisted | ⟨content, hmem, hglyph, hsrc⟩
  · exact Or.inl (hkey ▸ hlisted)
  · exact Or.inr (hstray key content hmem hglyph (hsrc.trans hkey) hne)

/-- **The literals of an ordinary tree** lead, with the keys that its code may have. -/
theorem Flutter.leads_freeLiteral (h : w.Ordinary) {v : Widget} (hv : v ∈ w.walk) {text : String}
    (htext : FreeLiteral v text) : Leads (Framework.flutter.HasKey w) text := by
  have hlisted : ∀ ref ∈ v.images, (ref ∈ v.ownImageRefs) →
      Leads (Framework.flutter.HasKey w) (dartQuoted ref.source) := fun ref href hown =>
    ((h.images v hv ref href).clean fun key hkey _ =>
      Or.inl (hkey ▸ List.mem_flatMap.mpr ⟨v, hv, hown⟩)).leads_dartQuoted
  have hplain : ∀ data ∈ v.texts, Leads (Framework.flutter.HasKey w) (dartQuoted data) :=
    fun data hdata => Clean.leads_dartQuoted (Or.inl (h.texts v hv data hdata))
  have hdrawing : ∀ {l : Leaf}, l ∈ w.leaves → l.isDrawing = true →
      Leads (Framework.flutter.HasKey w) ("'''" ++ svgText (l.element "") ++ "'''") := by
    intro l hl hdrawing
    have hcites : Cites (Framework.flutter.HasKey w) (svgText (l.element "")).toList :=
      cites_iff.mpr fun key hkey => Or.inr ⟨l, hl, hdrawing, hkey⟩
    have hquotes : Leads (Framework.flutter.HasKey w) "'''" := Inert.leads (by decide)
    rw [String.append_assoc]
    exact hquotes.append (leads_closed hcites (by decide) hquotes)
  -- The cases are those of a free literal: texts, sources, drawings and backgrounds.
  unfold FreeLiteral at htext
  split at htext
  · rcases htext with rfl | rfl
    · exact hplain _ (List.mem_cons_of_mem _ List.mem_cons_self)
    · exact hplain _ (List.mem_cons_of_mem _ (List.mem_cons_of_mem _ List.mem_cons_self))
  · exact htext ▸ hlisted _ List.mem_cons_self (List.mem_append_right _ List.mem_cons_self)
  · refine htext.2 ▸ hlisted _ List.mem_cons_self (List.mem_append_right _ ?_)
    simp [htext.1]
  · exact htext ▸ hdrawing (Widget.mem_leaves_of_mem_walk hv) rfl
  · exact htext ▸ hdrawing (Widget.mem_leaves_of_mem_walk hv) rfl
  · obtain ⟨ref, hbackground, rfl⟩ := htext
    refine hlisted ref ?_ (List.mem_append_left _ ?_)
    · simp [Widget.images, hbackground]
    · simp [Widget.style, hbackground]
  · exact htext.elim

/-- **Every key in the code** is listed by the tree, or is a stray one. -/
theorem hasKey_of_mem_reservedKeys {f : Framework} {out : CodeOutput}
    (hids : (w.contents.map (·.id)).Nodup) (hordinary : w.Ordinary)
    (hemit : emitCode w f = .ok out) : ∀ key ∈ reservedKeys out.code, f.HasKey w key := by
  rw [← cites_iff]
  -- On the web, the key of an icon with a glyph may be stray; in Flutter, a key in a drawing.
  cases f with
  | react options =>
    rw [code_of_emitCode rfl hemit]
    have hclean := hordinary.clean fun key content hmem hglyph hsrc hne =>
      show (Framework.react options).StrayKey w key from ⟨hne, content, hmem, hglyph, hsrc⟩
    exact React.cites_emit hids (fun v hv => hclean v (Widget.mem_contents.mp hv).1) options
  | vanilla options =>
    rw [code_of_emitCode rfl hemit]
    have hclean := hordinary.clean fun key content hmem hglyph hsrc hne =>
      show (Framework.vanilla options).StrayKey w key from ⟨hne, content, hmem, hglyph, hsrc⟩
    exact Page.cites_emit hids (fun v hv => hclean v (Widget.mem_contents.mp hv).1) options
  | flutter =>
    rw [code_of_emitCode rfl hemit]
    exact Flutter.cites_emit fun v hv text htext =>
      (Flutter.leads_freeLiteral hordinary hv htext).settles
  | reactNative => cases hemit
  | vue => cases hemit

/-! ### Stray keys are in the code -/

/-- A part between two characters that are in no key has its references in the text. -/
theorem reservedKeys_subset_of_enclosed {c d : Char} (hc : isKeyChar c = false)
    (hd : isKeyChar d = false) {part text : String}
    (h : c :: (part.toList ++ [d]) <:+: text.toList) :
    ∀ key ∈ reservedKeys part, key ∈ reservedKeys text := by
  obtain ⟨before, after, htext⟩ := h
  have hparts : text.toList = before ++ c :: (part.toList ++ d :: after) := by
    rw [← htext]
    simp
  have hall : Cites (· ∈ reservedKeys text) text.toList := cites_iff.mpr fun _ => id
  rw [hparts, cites_append_cons hc, cites_append_cons hd] at hall
  exact cites_iff.mp hall.2.1

namespace Flutter

/-- The content calls of a leaf are in the expression of the tree, in a line or not. -/
theorem contentCalls_leaf_subset {key : WidgetKey} {style : Style} {content : Leaf} (w : Widget) :
    .leaf key style content ∈ w.walk →
      ∀ parent, (leaf key style content).contentCalls ⊆ (expr parent w).contentCalls := by
  -- Around a leaf stand boxes and wrappers, and the calls of a box are those of its children in
  -- order.
  induction w using Widget.induction with
  | leaf key' style' content' =>
    intro h parent
    cases List.mem_singleton.mp h
    rw [expr_leaf]
    exact List.Subset.refl _
  | box key' style' arrangement children ih =>
    intro h parent call hcall
    rw [Widget.walk, Widget.walkAll_eq_flatMap, List.mem_cons] at h
    rcases h with h | h
    · cases h
    · obtain ⟨c, hc, hmem⟩ := List.mem_flatMap.mp h
      rw [contentCalls_expr_box]
      exact List.mem_flatMap.mpr ⟨c, hc, ih c hc hmem _ hcall⟩
  | wrap key' style' wrapper child ih =>
    intro h parent
    rw [expr_wrap, contentCalls_wrapper]
    exact ih ((List.mem_cons.mp h).resolve_left (by simp)) parent

/-- **A drawing stands in the code** as it is put on one line, between quotes. -/
theorem svgText_infix_source {l : Leaf} (hl : l ∈ w.leaves) (hdrawing : l.isDrawing = true) :
    '\'' :: ((svgText (l.element "")).toList ++ ['\'']) <:+: (emit w).source.toList := by
  obtain ⟨v, hv, hleaf⟩ := List.mem_filterMap.mp hl
  -- The call of the leaf is in the expression of the tree, and the drawing is its first argument.
  have hcall : ∃ key style, .leaf key style l ∈ w.walk := by
    cases v with
    | leaf key style content => cases hleaf; exact ⟨key, style, hv⟩
    | box => cases hleaf
    | wrap => cases hleaf
  obtain ⟨key, style, hmem⟩ := hcall
  have hsvg : leaf key style l = svg style (l.element "") := by
    cases l with
    | vector content => rfl
    | boolean content => rfl
    | text => cases hdrawing
    | image => cases hdrawing
    | icon => cases hdrawing
  have hcontent : svg style (l.element "") ∈ (expr none w).contentCalls := by
    refine contentCalls_leaf_subset w hmem none ?_
    rw [hsvg, contentCalls_svg]
    exact List.mem_cons_self
  have hliteral : Expr.literal ("'''" ++ svgText (l.element "") ++ "'''") ∈
      (expr none w).subterms :=
    Expr.subterms_subset (List.mem_of_mem_filter hcontent)
      (Expr.mem_subterms_argument List.mem_cons_self (Expr.mem_subterms_self _))
  refine List.IsInfix.trans ?_ ((Expr.literal_infix_write _ hliteral 2).trans
    (Module.expr_infix_class (language_emit w) (body_emit w)))
  exact ⟨['\'', '\''], ['\'', '\''], by simp⟩

end Flutter

/-- **Every stray key is in the code.** -/
theorem mem_reservedKeys_of_strayKey {f : Framework} {out : CodeOutput}
    (hids : (w.contents.map (·.id)).Nodup) (hordinary : w.Ordinary)
    (hemit : emitCode w f = .ok out) {key : String} (h : f.StrayKey w key) :
    key ∈ reservedKeys out.code := by
  -- The key of an icon is bare, so no output escapes any of it.
  have hicon : ∀ content, Leaf.icon content ∈ w.leaves → content.src = .reserved key →
      ∀ c ∈ key.toList, isBareKeyChar c = true := by
    intro content hmem hsrc
    obtain ⟨v, hv, hleaf⟩ := List.mem_filterMap.mp hmem
    have href : content.src ∈ v.images := by
      cases v with
      | leaf => cases hleaf; exact List.mem_cons_self
      | box => cases hleaf
      | wrap => cases hleaf
    have hbare := hordinary.images v hv _ href
    rwa [hsrc] at hbare
  have hkeyChars : (∀ c ∈ key.toList, isBareKeyChar c = true) →
      ∀ c ∈ key.toList, isKeyChar c = true := fun hbare c hc => isKeyChar_of_bare (hbare c hc)
  cases f with
  | react options =>
    obtain ⟨hne, content, hmem, -, hsrc⟩ := h
    have href : (Leaf.icon content).image? = some (.reserved (String.ofList key.toList)) := by
      rw [String.ofList_toList, Leaf.image?, hsrc]
    have hchars := hkeyChars (hicon content hmem hsrc)
    have hfound := mem_reservedKeys_of_encloses (fun hnil => hne (String.toList_eq_nil_iff.mp hnil))
      hchars (React.encloses_emit hids options hmem href hchars)
    rwa [String.ofList_toList, ← code_of_emitCode rfl hemit] at hfound
  | vanilla options =>
    obtain ⟨hne, content, hmem, -, hsrc⟩ := h
    have href : (Leaf.icon content).image? = some (.reserved (String.ofList key.toList)) := by
      rw [String.ofList_toList, Leaf.image?, hsrc]
    have hbare := hicon content hmem hsrc
    have hwhole : key.toList.flatMap markupEscape = key.toList := by
      rw [← toList_escapeWith, escaping_markup.escape_bare hbare]
    have hencloses := Page.encloses_emit hids options hmem href
    rw [hwhole] at hencloses
    have hfound := mem_reservedKeys_of_encloses (fun hnil => hne (String.toList_eq_nil_iff.mp hnil))
      (hkeyChars hbare) hencloses
    rwa [String.ofList_toList, ← code_of_emitCode rfl hemit] at hfound
  | flutter =>
    obtain ⟨l, hl, hdrawing, hkey⟩ := h
    rw [code_of_emitCode rfl hemit]
    exact reservedKeys_subset_of_enclosed (by decide) (by decide)
      (Flutter.svgText_infix_source hl hdrawing) key hkey
  | reactNative => cases hemit
  | vue => cases hemit

/-! ### Trees without stray keys -/

/-- No text of a leaf of an ordinary tree has the prefix in it. -/
theorem Widget.Ordinary.not_holdsPrefix_texts (h : w.Ordinary) {l : Leaf} (hl : l ∈ w.leaves) :
    ∀ text ∈ l.texts, ¬ HoldsPrefix text := by
  obtain ⟨v, hv, hleaf⟩ := List.mem_filterMap.mp hl
  intro text htext
  refine h.texts v hv text ?_
  cases v with
  | leaf => cases hleaf; exact List.mem_cons_of_mem _ htext
  | box => cases hleaf
  | wrap => cases hleaf

/-- Without line feeds in path data, drawings spell no keys. -/
theorem Flutter.not_strayKey (h : w.Ordinary)
    (hlines : ∀ l ∈ w.leaves, l.isDrawing = true → ∀ data ∈ l.texts, OneLine data)
    (key : String) : ¬ Framework.flutter.StrayKey w key := by
  rintro ⟨l, hl, hdrawing, hkey⟩
  have htexts := h.not_holdsPrefix_texts hl
  -- A drawing on one line each has no reference that is not in its path data.
  cases l with
  | vector content =>
    exact not_mem_reservedKeys_svgText _ _
      (fun path hmem => htexts _ (List.mem_map_of_mem hmem))
      (fun path hmem => hlines _ hl rfl _ (List.mem_map_of_mem hmem)) _ _ _ key hkey
  | boolean content =>
    exact not_mem_reservedKeys_svgText _ _
      (fun path hmem => htexts _ (List.mem_map_of_mem hmem))
      (fun path hmem => hlines _ hl rfl _ (List.mem_map_of_mem hmem)) _ _ _ key hkey
  | text => cases hdrawing
  | image => cases hdrawing
  | icon => cases hdrawing

/-- **Without glyphs, and without line feeds in path data,** the list of images covers the code. -/
theorem imageRefs_cover {f : Framework} {out : CodeOutput}
    (hids : (w.contents.map (·.id)).Nodup) (hordinary : w.Ordinary)
    (hglyphs : ∀ content, Leaf.icon content ∈ w.leaves → content.glyph = none)
    (hlines : ∀ l ∈ w.leaves, l.isDrawing = true → ∀ data ∈ l.texts, OneLine data)
    (hemit : emitCode w f = .ok out) : Covers w.imageRefs out.code := by
  have hnone : ∀ key, ¬ f.StrayKey w key := by
    have hicon : ∀ key, ¬ (key ≠ "" ∧ ∃ content, Leaf.icon content ∈ w.leaves ∧
        content.glyph.isSome = true ∧ content.src = .reserved key) := by
      rintro key ⟨-, content, hmem, hglyph, -⟩
      rw [hglyphs content hmem] at hglyph
      cases hglyph
    -- Without glyphs there is nothing stray on the web, and with drawings on single lines there is
    -- nothing stray in Flutter.
    cases f with
    | flutter => exact Flutter.not_strayKey hordinary hlines
    | react options => exact hicon
    | vanilla options => exact hicon
    | reactNative => exact hicon
    | vue => exact hicon
  intro key hkey
  exact (hasKey_of_mem_reservedKeys hids hordinary hemit key hkey).resolve_right (hnone key)

/-! ### The law -/

/-- **The list of images covers the code** exactly if it has all stray keys too. -/
theorem imageRefs_cover_iff {f : Framework} {out : CodeOutput}
    (hids : (w.contents.map (·.id)).Nodup) (hordinary : w.Ordinary)
    (hemit : emitCode w f = .ok out) :
    Covers w.imageRefs out.code ↔ ∀ key, f.StrayKey w key → .reserved key ∈ w.imageRefs := by
  constructor
  · exact fun hcovers key hstray =>
      hcovers key (mem_reservedKeys_of_strayKey hids hordinary hemit hstray)
  · intro hlisted key hkey
    exact (hasKey_of_mem_reservedKeys hids hordinary hemit key hkey).elim id (hlisted key)

/-- The law at a captioned figure, whose references are all listed. -/
theorem imageRefs_cover_iff_captionedFigure :
    (captionedFigure.contents.map (·.id)).Nodup ∧ captionedFigure.Ordinary ∧
      ∀ o : PageOptions, ∃ out, emitCode captionedFigure (.vanilla o) = .ok out ∧
        Covers captionedFigure.imageRefs out.code := by
  have hids : (captionedFigure.contents.map (·.id)).Nodup := by decide
  have hordinary : captionedFigure.Ordinary := ⟨by decide +kernel, by decide +kernel⟩
  refine ⟨hids, hordinary, fun o =>
    ⟨_, rfl, (imageRefs_cover_iff (f := .vanilla o) hids hordinary rfl).mpr ?_⟩⟩
  -- The one icon of the figure has no glyph.
  rintro key ⟨-, content, hmem, hglyph, -⟩
  have hleaves : captionedFigure.leaves = [_, _, _, _] := rfl
  rw [hleaves] at hmem
  simp only [List.mem_cons, List.not_mem_nil, or_false, reduceCtorEq, false_or,
    Leaf.icon.injEq] at hmem
  rw [hmem] at hglyph
  cases hglyph

/-- An icon that is known by its glyph. -/
def closeIcon : Widget :=
  .leaf ⟨"1:1", "icon/close", none⟩ {} (.icon ⟨some "close", 24, none, .reserved "1:1"⟩)

/-- **An icon with a glyph is not listed,** but a page asks for its image. -/
theorem imageRefs_not_cover_closeIcon :
    (closeIcon.contents.map (·.id)).Nodup ∧ closeIcon.Ordinary ∧
      ∀ o : PageOptions, ∃ out, emitCode closeIcon (.vanilla o) = .ok out ∧
        "1:1" ∈ reservedKeys out.code ∧ .reserved "1:1" ∉ closeIcon.imageRefs := by
  have hids : (closeIcon.contents.map (·.id)).Nodup := by decide
  have hordinary : closeIcon.Ordinary := ⟨by decide +kernel, by decide +kernel⟩
  refine ⟨hids, hordinary, fun o => ⟨_, rfl, ?_, List.not_mem_nil⟩⟩
  refine mem_reservedKeys_of_strayKey (f := .vanilla o) hids hordinary rfl ?_
  exact ⟨by decide, _, List.mem_cons_self, rfl, rfl⟩

end DesignCompiler
