import DesignCompiler.Proofs.Asset.Elements
import DesignCompiler.Proofs.Emit.Callees
import DesignCompiler.Proofs.Style.Sheet
/-!
# References in generated code

Every output of a tree is a module whose names are identifiers and whose imports are fixed, so its
references come from the widgets. On the web they come from the images of all widgets, by elements and
by declared styles (`React.cites_emit`, `Page.cites_emit`); in Flutter from the strings and drawings
in the expression (`Flutter.cites_emit`).
-/

namespace DesignCompiler

variable {P : String → Prop}

/-! ### Entries and declarations -/

/-- The entry that a chain is given belongs to it. -/
theorem StyleEntry.belongsTo_entry {p : StylePreferences} {c : Chain} {name : String}
    (hname : ∀ css, c.css? = some css → IsIdentifier name) : (c.entry p name).BelongsTo c := by
  refine ⟨c.attributes_entry p name, ?_, ?_⟩
  · unfold Chain.entry
    cases hcss : c.css? with
    | none => exact Or.inl rfl
    | some css =>
      -- The tag is the name of the declaration, if that is preferred.
      simp only
      split
      · exact Or.inr (hname css hcss)
      · exact Or.inl rfl
  · intro s hs
    unfold Chain.entry at hs
    cases hcss : c.css? with
    | none => simp [hcss] at hs
    | some css =>
      simp only [hcss, Option.some.injEq] at hs
      subst hs
      exact ⟨rfl, hname css hcss⟩

/-- An entry still belongs to its chain when it takes another declaration. -/
theorem StyleEntry.BelongsTo.shareIn {e : StyleEntry} {c : Chain} (h : e.BelongsTo c)
    {ds : List StyleDeclaration} (hds : ∀ d ∈ ds, IsIdentifier d.name) :
    (e.shareIn ds).BelongsTo c := by
  cases hstyling : e.styling with
  | none =>
    rw [StyleEntry.shareIn_of_bare hstyling]
    exact h
  | some s =>
    obtain ⟨hcss, hown⟩ := h.styling s hstyling
    -- The declaration that an entry is moved to is one of those that there are, under a name of its
    -- own.
    have hfirst : IsIdentifier ((s.declaration.firstIn ds).getD s.declaration).name := by
      cases hfound : s.declaration.firstIn ds with
      | none => exact hown
      | some first => exact hds first (List.mem_of_find?_eq_some hfound)
    simp only [StyleEntry.shareIn, hstyling]
    refine ⟨h.attributes, ?_, fun t ht => ?_⟩
    · -- A tag that is the name of the old declaration becomes the name of the new one.
      rw [StyleEntry.redeclare]
      by_cases hold : (e.tag == s.declaration.name) = true
      · rw [if_pos hold]
        exact Or.inr hfirst
      · rw [if_neg hold]
        exact h.tag
    · cases ht
      exact ⟨hcss, hfirst⟩

namespace StyleSheet

variable {w : Widget} (hids : (w.contents.map (·.id)).Nodup) (p : StylePreferences) (n : Namer)
include hids

/-- **Each chain has an entry that belongs to it,** with sharing or without. -/
theorem exists_belongsTo (sharing : Bool) {c : Chain} (hc : c ∈ w.chains .root) :
    ∃ e, entry? (ofMap (n.styleMap p w).1 sharing) c.id = some e ∧ e.BelongsTo c := by
  obtain ⟨name, hentry⟩ := Namer.exists_entry hids p n hc
  have hbelongs : (c.entry p name).BelongsTo c := by
    refine StyleEntry.belongsTo_entry fun css hcss => ?_
    have hdeclared : (c.entry p name).declaration? = some ⟨name, c.element.start.name, css⟩ := by
      rw [Chain.declaration?_entry, hcss]
      rfl
    exact isIdentifier_declarationsOf hids p n _ (mem_declarationsOf hentry hdeclared)
  -- Sharing moves the entry to the first declaration that is alike.
  cases sharing with
  | false => exact ⟨_, (lookup_ofMap_unshared ..).trans hentry, hbelongs⟩
  | true =>
    exact ⟨_, entry?_eq_some_iff.mpr ⟨_, hentry, rfl⟩,
      hbelongs.shareIn (isIdentifier_declarationsOf hids p n)⟩

/-- **A declaration in use** has an identifier for its name, and the tag and the style of a chain. -/
theorem exists_of_mem_uniques {d : StyleDeclaration}
    (hd : d ∈ (ofMap (n.styleMap p w).1 true).uniques) :
    IsIdentifier d.name ∧ ∃ c ∈ w.chains .root, d.htmlTag = c.element.start.name ∧
      c.css? = some d.style := by
  have hdeclared := (uniques_sublist (n.styleMap p w).1.toList []).mem hd
  refine ⟨isIdentifier_uniques hids p n d hd, ?_⟩
  rw [List.nil_append, Namer.toList_styleMap hids] at hdeclared
  -- What is kept was declared by some entry, and every entry was made from a chain.
  obtain ⟨pair, hpair, hown⟩ := List.mem_filterMap.mp hdeclared
  obtain ⟨c, hc, name, rfl⟩ := Namer.mem_entriesAlong hpair
  rw [Chain.declaration?_entry] at hown
  obtain ⟨css, hcss, rfl⟩ := Option.map_eq_some_iff.mp hown
  exact ⟨c, hc, rfl, hcss⟩

end StyleSheet

/-! ### The web -/

theorem IsIdentifier.tame {name : String} (h : IsIdentifier name) : Tame name :=
  tame_of_alphanum h.alphanum

theorem Widget.isIdentifier_componentName (w : Widget) (words : ReservedWords) :
    IsIdentifier (w.componentName words).1 := Namer.isIdentifier_nameIt _ _

section Web

variable {w : Widget} (hids : (w.contents.map (·.id)).Nodup)
  (hclean : ∀ v ∈ w.contents, v.Clean P)
include hids hclean

/-- The markup of a tree has only references of its widgets, with a binding that keeps them. -/
theorem leads_writeLines_markup {language : Language} {b : StyleBinding}
    (hb : b.Leads language P) (p : StylePreferences) (n : Namer) (sharing : Bool) (depth : Nat) :
    Leads P ((Expr.markup (b.markup (.ofMap (n.styleMap p w).1 sharing) w)).writeLines language
      depth) := by
  have hcited : (b.markup (.ofMap (n.styleMap p w).1 sharing) w).Cited language P := by
    refine hb.cited_markup ⟨w, .root⟩ fun c hc => ?_
    have hmem : c.widget ∈ w.contents := by
      rw [← w.map_widget_chains .root]
      exact List.mem_map_of_mem hc
    exact ⟨hclean c.widget hmem, StyleSheet.exists_belongsTo hids p n sharing hc⟩
  exact hcited.leads_write depth

/-- **Shared declarations are clean:** their names are identifiers, and their styles those of
chains. -/
theorem clean_of_mem_uniques {p : StylePreferences} {n : Namer} {d : StyleDeclaration}
    (hd : d ∈ (StyleSheet.ofMap (n.styleMap p w).1 true).uniques) :
    IsIdentifier d.name ∧ Tame d.htmlTag ∧ CleanDeclarations P d.style.toList := by
  obtain ⟨hname, c, hc, htag, hcss⟩ := StyleSheet.exists_of_mem_uniques hids p n hd
  have hmem : c.widget ∈ w.contents := by
    rw [← w.map_widget_chains .root]
    exact List.mem_map_of_mem hc
  exact ⟨hname, htag ▸ c.head.tame_start, c.clean_css (hclean c.widget hmem) hcss⟩

end Web

namespace React

/-- What stands at the top of a script. -/
theorem emit_heading (o : ReactOptions) (w : Widget) :
    (emit o w).name = (w.componentName .react).1 ∧
      (emit o w).exports = [(w.componentName .react).1] ∧
      (emit o w).imports = { source := "react", defaultName := some "React" } ::
        (o.styling.package?.map fun package =>
          { source := package.name, defaultName := some "styled" }).toList := by
  unfold emit
  rcases w.componentName .react with ⟨name, namer⟩
  simp only
  cases o.styling.package? with
  | none => exact ⟨rfl, rfl, rfl⟩
  | some package => cases package <;> exact ⟨rfl, rfl, rfl⟩

/-- The lines of imports are fixed but for the package, and have no part in a reference. -/
theorem inert_imports (o : ReactOptions) (w : Widget) :
    ∀ i ∈ (emit o w).imports, Inert (i.write (emit o w).language ++ "\n") := by
  -- Both languages of scripts write an import in the same way.
  have hlanguage : ∀ i : Import, i.write (emit o w).language = i.script := by
    intro i
    have hscript := isScript_emit o w
    cases h : (emit o w).language with
    | tsx => rfl
    | jsx => rfl
    | dart => rw [h] at hscript; cases hscript
    | html => rw [h] at hscript; cases hscript
  have hstyled : ∀ package : StyledPackage, Inert
      (Import.script { source := package.name, defaultName := some "styled" } ++ "\n") := by
    intro package
    cases package <;> decide +kernel
  intro i hi
  rw [(emit_heading o w).2.2] at hi
  rw [hlanguage]
  rcases List.mem_cons.mp hi with rfl | hi
  · decide +kernel
  · obtain ⟨package, -, rfl⟩ := Option.map_eq_some_iff.mp (Option.mem_toList.mp hi)
    exact hstyled package

/-- **A script has only references of its widgets.** -/
theorem cites_emit {w : Widget} (hids : (w.contents.map (·.id)).Nodup)
    (hclean : ∀ v ∈ w.contents, v.Clean P) (o : ReactOptions) :
    Cites P (emit o w).source.toList := by
  obtain ⟨hname, hexports, -⟩ := emit_heading o w
  have hidentifier := (w.isIdentifier_componentName .react).tame
  have hlanguage := isScript_emit o w
  have hcode : (emit o w).code = (emit o w).script := by
    unfold Module.code
    cases h : (emit o w).language with
    | tsx => rfl
    | jsx => rfl
    | dart => rw [h] at hlanguage; cases hlanguage
    | html => rw [h] at hlanguage; cases hlanguage
  have hcited : (∀ d ∈ (emit o w).declarations, d.Cited P) → (emit o w).Cited P := fun h =>
    ⟨hname ▸ hidentifier, hexports ▸ List.forall_mem_singleton.mpr hidentifier,
      inert_imports o w, h⟩
  -- With inline styles there are no declarations; with styled components the elements have no
  -- styles.
  cases hstyling : o.styling with
  | inlineCss =>
    obtain ⟨hdeclarations, hbody⟩ := emit_inlineCss hstyling w
    have hmodule := hcited (hdeclarations ▸ List.forall_mem_nil _)
    refine hmodule.cites_source (hcode ▸ hmodule.leads_script ?_)
    rw [hbody]
    exact List.forall_mem_singleton.mpr
      (leads_writeLines_markup hids hclean (leads_inlineBinding hlanguage) {} _ false 2)
  | styledComponents package =>
    obtain ⟨-, hdeclarations, hbody⟩ := emit_styledComponents hstyling w
    have hmodule := hcited <| by
      rw [hdeclarations]
      refine List.forall_mem_map.mpr fun d hd => ?_
      obtain ⟨hname, hclean⟩ := clean_of_mem_uniques hids hclean hd
      exact ⟨hname.tame, hclean⟩
    refine hmodule.cites_source (hcode ▸ hmodule.leads_script ?_)
    rw [hbody]
    exact List.forall_mem_singleton.mpr
      (leads_writeLines_markup hids hclean (leads_sharedBinding hlanguage) ⟨true, true⟩ _ true 2)

end React

namespace Page

/-- What stands at the top of a page. -/
theorem emit_heading (o : PageOptions) (w : Widget) :
    (emit o w).name = (w.componentName .none).1 ∧
      (emit o w).exports = [(w.componentName .none).1] ∧ (emit o w).imports = [] := by
  unfold emit
  rcases w.componentName .none with ⟨name, namer⟩
  simp only
  cases o.styling <;> exact ⟨rfl, rfl, rfl⟩

/-- **A page has only references of its widgets.** -/
theorem cites_emit {w : Widget} (hids : (w.contents.map (·.id)).Nodup)
    (hclean : ∀ v ∈ w.contents, v.Clean P) (o : PageOptions) :
    Cites P (emit o w).source.toList := by
  obtain ⟨hname, hexports, himports⟩ := emit_heading o w
  have hidentifier := (w.isIdentifier_componentName .none).tame
  have hcode : (emit o w).code = (emit o w).page := by
    unfold Module.code
    rw [language_emit]
  have hcited : (∀ d ∈ (emit o w).declarations, d.Cited P) → (emit o w).Cited P := fun h =>
    ⟨hname ▸ hidentifier, hexports ▸ List.forall_mem_singleton.mpr hidentifier,
      himports ▸ List.forall_mem_nil _, h⟩
  -- The rules of classes are declared in the sheet of the page, under the names with a dot in
  -- front.
  cases hstyling : o.styling with
  | classes =>
    obtain ⟨hdeclarations, hbody⟩ := emit_classes hstyling w
    have hmodule := hcited <| by
      rw [hdeclarations]
      refine List.forall_mem_map.mpr fun d hd => ?_
      obtain ⟨hname, -, hclean⟩ := clean_of_mem_uniques hids hclean hd
      have hdot : Tame "." := by decide
      exact ⟨tame_append.mpr ⟨hdot, tame_kebabCase hname⟩, hclean⟩
    refine hmodule.cites_source (hcode ▸ hmodule.leads_page ?_)
    rw [hbody]
    exact List.forall_mem_singleton.mpr
      (leads_writeLines_markup hids hclean leads_classBinding ⟨false, true⟩ _ true 0)
  | inlineCss =>
    obtain ⟨hdeclarations, hbody⟩ := emit_inlineCss hstyling w
    have hmodule := hcited (hdeclarations ▸ List.forall_mem_nil _)
    refine hmodule.cites_source (hcode ▸ hmodule.leads_page ?_)
    rw [hbody]
    exact List.forall_mem_singleton.mpr
      (leads_writeLines_markup hids hclean leads_inlineBinding {} _ false 0)

end Page

/-! ### Flutter -/

namespace Flutter

/-- **A module of calls has only references of its strings and drawings.** -/
theorem cites_emit {w : Widget} (h : ∀ v ∈ w.walk, ∀ text, FreeLiteral v text → Settles P text) :
    Cites P (emit w).source.toList := by
  have hidentifier := (w.isIdentifier_componentName .dart).tame
  have hwrite := (built_expr_of_free w h none).settles_write (fun _ => id) tame_callees 2
  -- All that may be imported are three fixed lines.
  have himports : ∀ i ∈ (emit w).imports, Inert (i.write .dart ++ "\n") := by
    have hfixed : ∀ i ∈ ([⟨"package:flutter/material.dart", none, [], none⟩,
        ⟨"dart:ui", none, [], some "ui"⟩,
        ⟨"package:flutter_svg/flutter_svg.dart", none, [], none⟩] : List Import),
        Inert (i.write .dart ++ "\n") := by decide +kernel
    refine fun i hi => hfixed i ?_
    rw [emit_eq] at hi
    simp only [List.mem_append, List.mem_cons, List.not_mem_nil, or_false] at hi ⊢
    rcases hi with (hi | hi) | hi
    · exact Or.inl hi
    · split at hi
      · exact Or.inr (Or.inl (List.mem_singleton.mp hi))
      · exact absurd hi List.not_mem_nil
    · split at hi
      · exact Or.inr (Or.inr (List.mem_singleton.mp hi))
      · exact absurd hi List.not_mem_nil
  have hmodule : (emit w).Cited P := by
    refine ⟨name_emit w ▸ hidentifier, ?_, ?_, ?_⟩
    · rw [emit_eq]
      exact List.forall_mem_singleton.mpr hidentifier
    · rw [language_emit]
      exact himports
    · rw [emit_eq]
      exact List.forall_mem_nil _
  have hcode : (emit w).code = (emit w).dartClass := by
    unfold Module.code
    rw [language_emit]
  refine hmodule.cites_source (hcode ▸ hmodule.leads_dartClass ?_)
  rw [body_emit]
  exact List.forall_mem_singleton.mpr hwrite

end Flutter

end DesignCompiler
