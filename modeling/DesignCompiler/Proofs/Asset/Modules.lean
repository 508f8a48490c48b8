import DesignCompiler.Code.Print
import DesignCompiler.Proofs.Asset.Styles
import DesignCompiler.Proofs.Asset.Trees
/-!
# References in modules

A module is its imports, the styles that it declares and what its component returns, each on lines of
its own. Names and packages have no reference in them, so the source of a module has those of its
styles and of what it returns (`Module.Cited.leads_script`, `leads_page` and `leads_dartClass`). A page
takes its style sheet apart into lines again, which is harmless because no key goes on over the end of
a line (`cites_of_mem_lines`).
-/

namespace DesignCompiler

variable {P : String → Prop}

/-! ### Lines -/

/-- References do not go over a character that is in no key, so cutting there leaves each in its
piece. -/
theorem cites_of_mem_splitOnChar {separator : Char} (hseparator : isKeyChar separator = false)
    {text : List Char} (h : Cites P text) : ∀ piece ∈ splitOnChar separator text, Cites P piece := by
  -- Each part of the text at a separator is shorter than the text.
  induction hlength : text.length using Nat.strong_induction_on generalizing text with
  | _ length ih =>
    by_cases hmem : separator ∈ text
    · obtain ⟨before, after, rfl⟩ := List.append_of_mem hmem
      obtain ⟨hbefore, hafter⟩ := (cites_append_cons hseparator).mp h
      rw [List.length_append, List.length_cons] at hlength
      rw [splitOnChar_append]
      exact List.forall_mem_append.mpr
        ⟨ih before.length (by omega) hbefore rfl, ih after.length (by omega) hafter rfl⟩
    · rw [splitOnChar_of_not_mem hmem]
      exact List.forall_mem_singleton.mpr h

/-- **The lines of a text** have the references of the text. -/
theorem cites_of_mem_lines {text : List Char} (h : Cites P text) :
    ∀ line ∈ lines text, Cites P line := by
  have hpieces := cites_of_mem_splitOnChar (show isKeyChar '\n' = false by decide) h
  -- A carriage return at the end of a line is dropped, and it is in no key either.
  have hdropped : ∀ piece, Cites P piece → Cites P (dropReturn piece) := by
    intro piece hpiece
    unfold dropReturn
    split
    · next hreturn =>
      obtain ⟨before, rfl⟩ := List.getLast?_eq_some_iff.mp (beq_iff_eq.mp hreturn)
      rw [List.dropLast_concat]
      exact ((cites_append_cons (by decide)).mp hpiece).1
    · exact hpiece
  intro line hline
  simp only [lines, List.mem_append, List.mem_map] at hline
  rcases hline with ⟨piece, hpiece, rfl⟩ | hline
  · exact hdropped piece (hpieces piece ((List.dropLast_sublist _).mem hpiece))
  · split at hline
    · exact absurd hline List.not_mem_nil
    · rw [List.mem_singleton.mp hline]
      cases hlast : (splitOnChar '\n' text).getLast? with
      | none => exact cites_nil
      | some last => exact hpieces last (List.mem_of_getLast? hlast)

/-! ### Declarations -/

/-- **A declared style whose references have the property:** it is declared under tame names. -/
def Declaration.Cited (P : String → Prop) : Declaration → Prop
  | styledComponent name tag style => Tame name ∧ Tame tag ∧ CleanDeclarations P style.toList
  | cssRule selector style => Tame selector ∧ CleanDeclarations P style.toList

/-- A declaration leads with the references of its style. -/
theorem Declaration.Cited.leads_write {d : Declaration} (h : d.Cited P) : Leads P d.write := by
  cases d with
  | styledComponent name tag style =>
    obtain ⟨hname, htag, hstyle⟩ := h
    have hbody : Leads P (if style.isEmpty then "" else "\n" ++ style.block 2) := by
      split
      · exact leads_empty
      · exact (Inert.leads (by decide)).append (hstyle.leads_block 2)
    have hstyled : Leads P ("\x60" ++ ((if style.isEmpty then "" else "\n" ++ style.block 2) ++
        "\x60;\n")) :=
      (Inert.leads (by decide)).append (hbody.append (Inert.leads (by decide)))
    -- The tag stands in front of the style, and the name in front of both; neither can end a
    -- reference.
    have htagged := htag.settles _ (Parts.append (by decide) _) hstyled
    rw [write]
    simp only [String.append_assoc]
    refine (Inert.leads (by decide)).append (hname.settles _ (Parts.append (by decide) _) ?_)
    exact (Inert.leads (by decide)).append htagged
  | cssRule selector style =>
    obtain ⟨hselector, hstyle⟩ := h
    have hrules : Leads P (" \x7b\n" ++ (style.block 2 ++ "\x7d\n")) :=
      (Inert.leads (by decide)).append ((hstyle.leads_block 2).append (Inert.leads (by decide)))
    rw [write]
    simp only [String.append_assoc]
    exact hselector.settles _ (Parts.append (by decide) _) hrules

/-! ### Modules -/

/-- **A module whose references have the property.** What it returns is asked for separately, since
each language writes it in its own way. -/
structure Module.Cited (P : String → Prop) (m : Module) : Prop where
  name : Tame m.name
  exports : ∀ name ∈ m.exports, Tame name
  imports : ∀ i ∈ m.imports, Inert (i.write m.language ++ "\n")
  declarations : ∀ d ∈ m.declarations, d.Cited P

namespace Module

variable {m : Module} (h : m.Cited P)
include h

/-- **A script leads** with those of its elements and of its declarations. -/
theorem Cited.leads_script (hbody : ∀ e ∈ m.body, Leads P (e.writeLines m.language 2)) :
    Leads P m.script := by
  have hkeyword : Leads P m.functionKeyword := by
    unfold functionKeyword
    split
    · exact Inert.leads (by decide)
    · cases m.exportStyle <;> exact Inert.leads (by decide)
  have hreturns : Leads P
      (String.join (m.body.map fun e => "  return (\n" ++ e.writeLines m.language 2 ++ "  );\n")) := by
    refine leads_join (List.forall_mem_map.mpr fun e he => ?_)
    exact ((Inert.leads (by decide)).append (hbody e he)).append (Inert.leads (by decide))
  have hdeclarations : Leads P (String.join (m.declarations.map fun d => "\n" ++ d.write)) := by
    refine leads_join (List.forall_mem_map.mpr fun d hd => ?_)
    exact (Inert.leads (by decide)).append (h.declarations d hd).leads_write
  have hmembers : ∀ members : List String, (∀ name ∈ members, Tame name) →
      Leads P (if members.isEmpty then ""
        else "\nexport " ++ inBraces (" " ++ ", ".intercalate members ++ " ") ++ ";\n") := by
    intro members hmembers
    split
    · exact leads_empty
    · have hnames : Tame (", ".intercalate members) := tame_intercalate (by decide) hmembers
      have hend : Leads P (" " ++ ("\x7d" ++ ";\n")) := Inert.leads (by decide)
      rw [inBraces]
      simp only [String.append_assoc]
      exact (Inert.leads (by decide)).append ((Inert.leads (by decide)).append
        ((Inert.leads (by decide)).append (hnames.settles _ (by decide) hend)))
  have hmembers := hmembers (m.exports.filter (· != m.name)) fun name hname =>
    h.exports name (List.mem_of_mem_filter hname)
  have hclose : Leads P "\x7d\n" := Inert.leads (by decide)
  -- The parts of a script lead one by one, from the last to the first.
  have htail := hreturns.append (hclose.append (hdeclarations.append hmembers))
  have hopen : Leads P "() \x7b\n" := Inert.leads (by decide)
  have hnamed := h.name.settles _ (Parts.append (by decide) _) (hopen.append htail)
  rw [script]
  simp only [String.append_assoc]
  exact hkeyword.append ((Inert.leads (by decide)).append hnamed)

/-- **A page leads** with those of its markup and of its sheet. -/
theorem Cited.leads_page (hbody : ∀ e ∈ m.body, Leads P (e.writeLines .html 0)) :
    Leads P m.page := by
  have hsheet : Leads P m.stylesheet :=
    leads_intercalate (Inert.leads (by decide)) (List.forall_mem_map.mpr fun d hd =>
      (h.declarations d hd).leads_write)
  -- The sheet is put into the page line by line.
  have hlines : Leads P (String.join ((String.textLines m.stylesheet).map styleLine)) := by
    refine leads_join (List.forall_mem_map.mpr fun line hline => ?_)
    obtain ⟨chars, hchars, rfl⟩ := List.mem_map.mp hline
    have hcites : Cites P (String.ofList chars).toList := by
      rw [String.toList_ofList]
      exact cites_of_mem_lines hsheet.cites chars hchars
    unfold styleLine
    split
    · exact Inert.leads (by decide)
    · rw [String.append_assoc]
      exact (Inert.leads (by decide)).append
        (leads_closed hcites (by decide) (Inert.leads (by decide)))
  have hmarkup : Leads P m.markup := leads_join (List.forall_mem_map.mpr hbody)
  unfold page
  refine Leads.append ?_ hmarkup
  split
  · exact leads_empty
  · exact ((Inert.leads (by decide)).append hlines).append (Inert.leads (by decide))

/-- **A Dart class leads** with those of the expressions that it returns. -/
theorem Cited.leads_dartClass (hbody : ∀ e ∈ m.body, Settles P (e.write 2)) :
    Leads P m.dartClass := by
  have hreturns : Leads P
      (String.join (m.body.map fun e => "    return " ++ e.write 2 ++ ";\n")) := by
    refine leads_join (List.forall_mem_map.mpr fun e he => ?_)
    rw [String.append_assoc]
    exact (Inert.leads (by decide)).append
      (hbody e he ";\n" (by decide) (Inert.leads (by decide)))
  have hmethod : Leads P ("  @override\n" ++ "  Widget build(BuildContext context) \x7b\n") :=
    Inert.leads (by decide)
  have hend : Leads P ("  \x7d\n" ++ "\x7d\n") := Inert.leads (by decide)
  have hfeed : Leads P "\n" := Inert.leads (by decide)
  have hkey : Leads P "(\x7bKey? key\x7d) : super(key: key);\n" := Inert.leads (by decide)
  have hextends : Leads P (" extends StatelessWidget \x7b\n" ++ "  const ") :=
    Inert.leads (by decide)
  -- The name of the class stands before its constructor and before the class itself, so it settles
  -- twice.
  have hconstructor := h.name.settles _ (Parts.append (by decide) _)
    (hkey.append (hfeed.append (hmethod.append (hreturns.append hend))))
  have hclass := h.name.settles _ (Parts.append (by decide) _) (hextends.append hconstructor)
  unfold dartClass
  simp only [String.append_assoc] at hclass ⊢
  exact (Inert.leads (by decide)).append hclass

/-- **The source of a module** has the references of its code. -/
theorem Cited.cites_source (hcode : Leads P m.code) : Cites P m.source.toList := by
  have himports : Leads P m.importLines :=
    leads_join (List.forall_mem_map.mpr fun i hi => (h.imports i hi).leads)
  unfold source
  split
  · exact hcode.cites
  · exact ((himports.append (Inert.leads (by decide))).append hcode).cites

end Module

end DesignCompiler
