import DesignCompiler.Pipeline
import DesignCompiler.Proofs.Asset.References
import DesignCompiler.Proofs.Asset.Sheets
/-!
# How a key gets into the code

The source of an image is written in the code of every output, each time escaped in another way, and
its key is cut out of the code again by a scan of the text. `emitCode_passesKey` says which key the
scan comes to. It is the key itself unless that has a character in it that the output escapes:

* a page writes `&` as a reference, so the scan finds a longer key;
* a Dart string has a backslash before `$`, so the scan stops there;
* a script writes the characters of keys as they are.

The reserved prefix has no such character. So in all outputs the prefix and what is written for the
key stand between two characters that are in no key (`Encloses`), and what stands so is found
(`mem_reservedKeys_of_encloses`).
-/

namespace DesignCompiler

/-! ### References between ends -/

/-- A text with a reference in it that has no key characters around it. -/
def Encloses (text : List Char) (key : List Char) : Prop :=
  ∃ c d, isKeyChar c = false ∧ isKeyChar d = false ∧
    c :: (reservationPrefix.toList ++ (key ++ [d])) <:+: text

/-- A key that is enclosed in a part is enclosed in the whole. -/
theorem Encloses.mono {part text key : List Char} (h : Encloses part key)
    (hpart : part <:+: text) : Encloses text key := by
  obtain ⟨c, d, hc, hd, hinfix⟩ := h
  exact ⟨c, d, hc, hd, hinfix.trans hpart⟩

/-- **A reference between ends of keys is found,** with its key. -/
theorem mem_reservedKeys_of_encloses {text : String} {key : List Char}
    (hne : key ≠ []) (hkey : ∀ c ∈ key, isKeyChar c = true) (h : Encloses text.toList key) :
    String.ofList key ∈ reservedKeys text := by
  obtain ⟨c, d, hc, hd, before, after, htext⟩ := h
  have hparts : text.toList =
      before ++ c :: (reservationPrefix.toList ++ (key ++ d :: after)) := by
    rw [← htext]
    simp
  -- The text is parted at the first end, and behind it the reference begins.
  have hreferences : references text = referencesFrom 0 before ++ .char c ::
      .reference key :: referencesFrom 0 (d :: after) := by
    rw [references, hparts, referencesFrom_append_cons hc,
      referencesFrom_reference hne hkey (endsKey_cons.mpr hd)]
  rw [reservedKeys, List.mem_eraseDups, List.mem_filterMap, hreferences]
  exact ⟨.reference key, by simp, rfl⟩

/-! ### What is written for a key -/

/-- The characters of keys that an output escapes. -/
def Framework.breaksKey : Framework → Char → Bool
  | .vanilla _, c => c == '&'
  | .flutter, c => c == '$'
  | _, _ => false

/-- **The key as the scan finds it** in the code for a framework. -/
def Framework.writtenKey : Framework → List Char → List Char
  | .vanilla _, key => key.flatMap markupEscape
  | .flutter, key => key.takeWhile (· != '$')
  | _, key => key

/-- Escaping makes no text shorter, and one with an ampersand longer. -/
theorem length_flatMap_markupEscape (text : List Char) :
    text.length + (if '&' ∈ text then 1 else 0) ≤ (text.flatMap markupEscape).length := by
  induction text with
  | nil => simp
  | cons c rest ih =>
    rw [List.flatMap_cons, List.length_append, List.length_cons]
    -- The escaped ampersand is longer by four, and nothing is escaped to less than a character.
    by_cases hc : c = '&'
    · subst hc
      have hescaped : (markupEscape '&').length = 5 := by decide
      rw [hescaped, if_pos List.mem_cons_self]
      omega
    · have hescaped : 1 ≤ (markupEscape c).length := by
        unfold markupEscape
        repeat' split
        all_goals simp
      have hmem : ('&' ∈ c :: rest) = ('&' ∈ rest) := by simp [Ne.symm hc]
      simp only [hmem]
      omega

/-- Of the characters of a key, only the ampersand is escaped in markup. -/
theorem markupEscape_of_isKeyChar {c : Char} (hc : isKeyChar c = true) (hne : c ≠ '&') :
    markupEscape c = [c] := by
  have hnone : c ≠ '<' ∧ c ≠ '>' ∧ c ≠ '"' := by
    refine ⟨?_, ?_, ?_⟩ <;> · rintro rfl; revert hc; decide
  simp [markupEscape, hne, hnone]

/-- **A key is written as it is** exactly if the target breaks none of its characters. -/
theorem Framework.writtenKey_eq_self_iff (f : Framework) {key : List Char}
    (hkey : ∀ c ∈ key, isKeyChar c = true) :
    f.writtenKey key = key ↔ ∀ c ∈ key, f.breaksKey c = false := by
  cases f with
  | react options => simp [writtenKey, breaksKey]
  | reactNative => simp [writtenKey, breaksKey]
  | vue => simp [writtenKey, breaksKey]
  | flutter =>
    simp only [writtenKey, breaksKey, List.takeWhile_eq_self_iff, bne_iff_ne, beq_eq_false_iff_ne]
  | vanilla options =>
    simp only [writtenKey, breaksKey, beq_eq_false_iff_ne]
    constructor
    · intro h c hc hamp
      -- With an ampersand in it, what is written is longer.
      have hlength := length_flatMap_markupEscape key
      rw [h, if_pos (hamp ▸ hc)] at hlength
      omega
    · intro h
      have hsame : ∀ c ∈ key, markupEscape c = [c] := fun c hc =>
        markupEscape_of_isKeyChar (hkey c hc) (h c hc)
      rw [List.flatMap_congr hsame, List.flatMap_singleton']

/-- What is written for a key could be a key. -/
theorem Framework.isKeyChar_writtenKey (f : Framework) {key : List Char}
    (hkey : ∀ c ∈ key, isKeyChar c = true) : ∀ c ∈ f.writtenKey key, isKeyChar c = true := by
  cases f with
  | react options => exact hkey
  | reactNative => exact hkey
  | vue => exact hkey
  | flutter => exact fun c hc => hkey c ((List.takeWhile_sublist _).subset hc)
  -- The escape of an ampersand has only characters that may be in a key, the semicolon among them.
  | vanilla options =>
    intro c hc
    obtain ⟨d, hd, hc⟩ := List.mem_flatMap.mp hc
    by_cases hamp : d = '&'
    · subst hamp
      have hall : (markupEscape '&').all isKeyChar = true := by decide
      exact List.all_eq_true.mp hall c hc
    · rw [markupEscape_of_isKeyChar (hkey d hd) hamp, List.mem_singleton] at hc
      rw [hc]
      exact hkey d hd

/-! ### In markup -/

/-- The image of a leaf has an element with its source in the tree. -/
theorem Module.ShowsInOrder.exists_src {m : Module} {leaves : List Leaf}
    (h : m.ShowsInOrder leaves) {l : Leaf} (hmem : l ∈ leaves) {ref : ImageRef}
    (href : l.image? = some ref) :
    ∃ tree start inner, m.body = [.markup tree] ∧ .element start inner ∈ tree.elements ∧
      Attribute.ofText "src" ref.source ∈ start.attributes := by
  obtain ⟨tree, hbody, hshown⟩ := h
  obtain ⟨node, hnode, hshows⟩ := exists_mem_of_forall₂ hshown hmem
  cases node with
  | text data => cases l <;> exact absurd hshows id
  | element start inner =>
    -- An icon is shown by its image here, like any other image.
    have hattribute : start.attribute? "src" = some (.text ref.source) := by
      cases l with
      | image content => cases href; exact hshows.2
      | icon content => cases href; exact hshows.2
      | text => cases href
      | vector => cases href
      | boolean => cases href
    refine ⟨tree, start, inner, hbody, List.mem_of_mem_filter hnode, ?_⟩
    obtain ⟨a, ha, hvalue⟩ := Option.map_eq_some_iff.mp hattribute
    have hname : a.name = "src" := by simpa using List.find?_some ha
    have hsrc : a = Attribute.ofText "src" ref.source := by
      obtain ⟨name, value⟩ := a
      cases hname
      cases hvalue
      rfl
    exact hsrc ▸ List.mem_of_find?_eq_some ha

/-- In a script a key ends at the quote behind it. -/
theorem encloses_script {language : Language} (hlanguage : language.isScript = true)
    {key : List Char} (hkey : ∀ c ∈ key, isKeyChar c = true) :
    Encloses ((Attribute.ofText "src" (reservationPrefix ++ String.ofList key)).write
      language).toList key := by
  -- Neither the prefix nor a key has a quote in it, so the source is quoted as it is.
  have hquote : (reservationPrefix ++ String.ofList key).toList.contains '"' = false := by
    rw [String.toList_append, String.toList_ofList, List.contains_eq_mem, decide_eq_false_iff_not]
    intro hmem
    have hchar := (List.mem_append.mp hmem).elim (prefix_isKeyChar '"') (hkey '"')
    revert hchar
    decide
  refine ⟨'"', '"', by decide, by decide, ?_⟩
  simp only [Attribute.write, Attribute.ofText, hlanguage, if_true, hquote, Bool.false_eq_true,
    if_false, inQuotes]
  refine infix_append_text (Or.inr ?_)
  simp

/-- A page writes the prefix as it is, and what it has for the key. -/
theorem encloses_page (key : List Char) :
    Encloses ((Attribute.ofText "src" (reservationPrefix ++ String.ofList key)).write .html).toList
      (key.flatMap markupEscape) := by
  have hprefix : reservationPrefix.toList.flatMap markupEscape = reservationPrefix.toList := by
    decide +kernel
  refine ⟨'"', '"', by decide, by decide, ?_⟩
  simp only [Attribute.write, Attribute.ofText, Language.isScript, Bool.false_eq_true, if_false,
    inQuotes]
  refine infix_append_text (Or.inr ?_)
  simp [markupEscaped, hprefix]

/-! ### In calls -/

/-- An image that is shown has a string with its source among the literals of the expression. -/
theorem Module.CallsInOrder.exists_literal {m : Module} {leaves : List Leaf}
    (h : m.CallsInOrder leaves) {content : ImageContent} (hmem : .image content ∈ leaves) :
    ∃ e, m.body = [e] ∧ .literal (dartQuoted content.src.source) ∈ e.subterms := by
  obtain ⟨e, hbody, hcalled⟩ := h
  obtain ⟨node, hnode, hcall⟩ := exists_mem_of_forall₂ hcalled hmem
  -- Of the nodes of an expression only a call can stand for an image, and the source is its first
  -- argument.
  cases node with
  | call callee arguments =>
    obtain ⟨first, hfirst⟩ := List.head?_eq_some_iff.mp hcall.2
    have harg : Flutter.plain (Flutter.string content.src.source) ∈ arguments := by
      rw [hfirst]
      exact List.mem_cons_self
    refine ⟨e, hbody, ?_⟩
    exact Expr.subterms_subset (List.mem_of_mem_filter hnode)
      (Expr.mem_subterms_argument harg (Expr.mem_subterms_self _))
  | markup tree => exact absurd hcall id
  | literal text => exact absurd hcall id
  | list items => exact absurd hcall id

/-- What a Dart string has for a key, with the quote behind it: the key up to a dollar sign, then a
character that is in no key. -/
theorem exists_flatMap_dartEscape {key : List Char} (hkey : ∀ c ∈ key, isKeyChar c = true) :
    ∃ d after, isKeyChar d = false ∧
      key.flatMap dartEscape ++ ['"'] = key.takeWhile (· != '$') ++ d :: after := by
  induction key with
  | nil => exact ⟨'"', [], by decide, rfl⟩
  | cons c rest ih =>
    by_cases hc : c = '$'
    · -- A backslash stands before the dollar sign.
      subst hc
      exact ⟨'\\', '$' :: (rest.flatMap dartEscape ++ ['"']), by decide, rfl⟩
    · obtain ⟨d, after, hd, heq⟩ := ih fun e he => hkey e (List.mem_cons_of_mem _ he)
      have hescape : dartEscape c = [c] := by
        have hchar := hkey c List.mem_cons_self
        have hnone : c ≠ '\\' ∧ c ≠ '"' ∧ c ≠ '\n' := by
          refine ⟨?_, ?_, ?_⟩ <;> · rintro rfl; revert hchar; decide
        simp [dartEscape, hc, hnone]
      refine ⟨d, after, hd, ?_⟩
      rw [List.flatMap_cons, hescape, List.takeWhile_cons_of_pos (by simpa using hc),
        List.append_assoc, heq]
      rfl

/-- A Dart string has the prefix as it is, and the key up to a dollar sign. -/
theorem encloses_dart {key : List Char} (hkey : ∀ c ∈ key, isKeyChar c = true) :
    Encloses (dartQuoted (reservationPrefix ++ String.ofList key)).toList
      (key.takeWhile (· != '$')) := by
  have hprefix : reservationPrefix.toList.flatMap dartEscape = reservationPrefix.toList := by
    decide +kernel
  -- The first dollar sign is escaped, and its backslash ends the key.
  obtain ⟨d, after, hd, heq⟩ := exists_flatMap_dartEscape hkey
  have hwritten : (dartQuoted (reservationPrefix ++ String.ofList key)).toList =
      '"' :: (reservationPrefix.toList ++ (key.flatMap dartEscape ++ ['"'])) := by
    simp [dartQuoted, inQuotes, hprefix]
  refine ⟨'"', d, by decide, hd, [], after, ?_⟩
  rw [hwritten, heq]
  simp

/-! ### The law -/

/-- The code of a framework with an emitter is the source of the module that this makes. -/
theorem code_of_emitCode {w : Widget} {f : Framework} {emit : Widget → Module} {out : CodeOutput}
    (hf : f.emit? = some emit) (h : emitCode w f = .ok out) : out.code = (emit w).source := by
  have hemitter : emitterFor f = .ok emit := by rw [emitterFor, hf]
  have hout : moduleOutput f w (emit w) = out := by
    rw [emitCode, hemitter] at h
    exact Except.ok.inj h
  rw [← hout, moduleOutput]

/-- The source of a leaf stands in a script between ends of keys. -/
theorem React.encloses_emit {w : Widget} (hids : (w.contents.map (·.id)).Nodup) (o : ReactOptions)
    {l : Leaf} (hmem : l ∈ w.leaves) {key : List Char}
    (href : l.image? = some (.reserved (String.ofList key)))
    (hkey : ∀ c ∈ key, isKeyChar c = true) : Encloses (emit o w).source.toList key := by
  obtain ⟨tree, start, inner, hbody, hstart, ha⟩ := (showsInOrder hids o).exists_src hmem href
  have hlanguage := isScript_emit o w
  have hattribute : _ <:+: (tree.write (emit o w).language 2).toList :=
    Markup.attribute_infix_write hstart ha 2
  exact (encloses_script hlanguage hkey).mono
    (hattribute.trans (Module.markup_infix_script hlanguage hbody))

/-- The source of a leaf stands in a page between ends of keys, with its ampersands escaped. -/
theorem Page.encloses_emit {w : Widget} (hids : (w.contents.map (·.id)).Nodup) (o : PageOptions)
    {l : Leaf} (hmem : l ∈ w.leaves) {key : List Char}
    (href : l.image? = some (.reserved (String.ofList key))) :
    Encloses (emit o w).source.toList (key.flatMap markupEscape) := by
  obtain ⟨tree, start, inner, hbody, hstart, ha⟩ := (showsInOrder hids o).exists_src hmem href
  have hattribute : _ <:+: (tree.write .html 0).toList :=
    Markup.attribute_infix_write hstart ha 0
  exact (encloses_page key).mono
    (hattribute.trans (Module.markup_infix_page (language_emit o w) hbody))

/-- **The source of an image stands in the code** between ends of keys, with what the output writes
for its key. -/
theorem encloses_emitCode {w : Widget} {f : Framework} {out : CodeOutput}
    (hids : (w.contents.map (·.id)).Nodup) (hemit : emitCode w f = .ok out)
    {content : ImageContent} (hmem : .image content ∈ w.leaves) {key : List Char}
    (hsrc : content.src = .reserved (String.ofList key))
    (hkey : ∀ c ∈ key, isKeyChar c = true) :
    Encloses out.code.toList (f.writtenKey key) := by
  have href : (Leaf.image content).image? = some (.reserved (String.ofList key)) := by
    rw [Leaf.image?, hsrc]
  -- The frameworks without an emitter make no code.
  cases f with
  | react options =>
    rw [code_of_emitCode rfl hemit]
    exact React.encloses_emit hids options hmem href hkey
  | vanilla options =>
    rw [code_of_emitCode rfl hemit]
    exact Page.encloses_emit hids options hmem href
  | flutter =>
    have hsource : content.src.source = reservationPrefix ++ String.ofList key := by
      rw [hsrc]
      rfl
    obtain ⟨e, hbody, hliteral⟩ := (Flutter.callsInOrder w).exists_literal hmem
    rw [hsource] at hliteral
    have hexpr := Module.expr_infix_class (Flutter.language_emit w) hbody
    rw [code_of_emitCode rfl hemit]
    exact (encloses_dart hkey).mono ((Expr.literal_infix_write e hliteral 2).trans hexpr)
  | reactNative => cases hemit
  | vue => cases hemit

/-- **How a key passes into a text:** whole, if it has none of the characters that the output escapes;
else there is another key in its place, if any. -/
structure PassesKey (f : Framework) (key : String) (text : String) : Prop where
  whole : (∀ c ∈ key.toList, f.breaksKey c = false) → key ∈ reservedKeys text
  written : f.writtenKey key.toList ≠ [] → String.ofList (f.writtenKey key.toList) ∈ reservedKeys text
  changed : ∀ c ∈ key.toList, f.breaksKey c = true → f.writtenKey key.toList ≠ key.toList

/-- **The key of an image passes into the code** whole, unless the output escapes one of its
characters; what the scan finds for it is known in any case. -/
theorem emitCode_passesKey {w : Widget} {f : Framework} {out : CodeOutput}
    (hids : (w.contents.map (·.id)).Nodup) (hemit : emitCode w f = .ok out)
    {content : ImageContent} (hmem : .image content ∈ w.leaves) {key : String}
    (hsrc : content.src = .reserved key) (hne : key ≠ "")
    (hkey : ∀ c ∈ key.toList, isKeyChar c = true) : PassesKey f key out.code := by
  have hencloses : Encloses out.code.toList (f.writtenKey key.toList) :=
    encloses_emitCode hids hemit hmem (by rw [hsrc, String.ofList_toList]) hkey
  have hwritten : f.writtenKey key.toList ≠ [] →
      String.ofList (f.writtenKey key.toList) ∈ reservedKeys out.code := fun hsome =>
    mem_reservedKeys_of_encloses hsome (f.isKeyChar_writtenKey hkey) hencloses
  refine ⟨fun hwhole => ?_, hwritten, fun c hc hbreaks hsame => ?_⟩
  · -- Nothing is escaped, so what is written for the key is the key.
    have hsame := (f.writtenKey_eq_self_iff hkey).mpr hwhole
    have hsome : key.toList ≠ [] := fun hnil => hne (String.toList_inj.mp (by simpa using hnil))
    rw [hsame, String.ofList_toList] at hwritten
    exact hwritten hsome
  · have hnone := (f.writtenKey_eq_self_iff hkey).mp hsame c hc
    rw [hnone] at hbreaks
    cases hbreaks

/-- A picture under a key. -/
def picture (key : String) : Widget :=
  .leaf ⟨"1", "Hero", none⟩ {} (.image ⟨.reserved key, .cover, "Hero"⟩)

/-- The law at a picture in Flutter. -/
theorem emitCode_passesKey_picture : ∃ out, emitCode (picture "hero.png") .flutter = .ok out ∧
    PassesKey .flutter "hero.png" out.code :=
  ⟨_, rfl, emitCode_passesKey (w := picture "hero.png") (by decide) rfl List.mem_cons_self rfl
    (by decide) (List.all_eq_true.mp (by decide))⟩

/-- **A key does not pass whole** through a page with an ampersand in it, nor through a Dart string
with a dollar sign in it. -/
theorem key_not_mem_reservedKeys :
    (∃ out, emitCode (picture "a&b") (.vanilla { styling := .inlineCss }) = .ok out ∧
      "a&b" ∉ reservedKeys out.code) ∧
    ∃ out, emitCode (picture "a$b") .flutter = .ok out ∧ "a$b" ∉ reservedKeys out.code := by
  constructor
  · refine ⟨_, rfl, ?_⟩
    decide +kernel
  · obtain ⟨out, hemit⟩ : ∃ out, emitCode (picture "a$b") .flutter = .ok out := ⟨_, rfl⟩
    refine ⟨out, hemit, fun hmem => ?_⟩
    rw [code_of_emitCode rfl hemit] at hmem
    -- All that is free in the file is the string of the source, and no such key is in that.
    have hcites : Cites (· ≠ "a$b") (Flutter.emit (picture "a$b")).source.toList := by
      refine Flutter.cites_emit fun v hv text htext => ?_
      rw [List.mem_singleton.mp hv] at htext
      rw [show text = dartQuoted _ from htext]
      exact (leads_inQuotes (cites_iff.mpr (by decide +kernel))).settles
    exact cites_iff.mp hcites _ hmem rfl

end DesignCompiler
