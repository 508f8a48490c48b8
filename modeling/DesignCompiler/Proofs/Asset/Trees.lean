import DesignCompiler.Proofs.Asset.Escapes
import DesignCompiler.Proofs.Code.Lines
/-!
# References in written trees

Markup and expressions are written around the texts that are in them, with marks between these that
are in no key. So a tree has no other references than its parts have: markup its attributes
(`Markup.Cited.leads_write`), an expression its literals (`Expr.Built.settles_write`).
-/

namespace DesignCompiler

variable {P : String → Prop} {language : Language}

/-- Blanks have no part in a reference. -/
theorem leads_indentation (depth : Nat) : Leads P (indentation depth) := by
  refine (inert_of_not_mem fun hletter => ?_).leads
  rw [toList_indentation, List.mem_replicate] at hletter
  exact absurd hletter.2 (by decide)

/-- Texts that settle do so with a joiner between them that parts them. -/
theorem settles_intercalate {joiner : String} (hparts : Parts joiner) (hjoiner : Leads P joiner)
    {texts : List String} (h : ∀ text ∈ texts, Settles P text) :
    Settles P (joiner.intercalate texts) := by
  -- The joiner parts a text from the next one, so what leads behind a text is the joiner and the
  -- rest.
  induction texts with
  | nil => exact leads_empty.settles
  | cons text rest ih =>
    obtain ⟨htext, hrest⟩ := List.forall_mem_cons.mp h
    cases rest with
    | nil =>
      rw [String.intercalate_singleton]
      exact htext
    | cons other others =>
      rw [String.intercalate_cons_cons, String.append_assoc]
      intro next hnext hleads
      rw [String.append_assoc, String.append_assoc]
      exact htext _ (hparts.append _) (hjoiner.append (ih hrest next hnext hleads))

/-! ### Markup -/

/-- A text that does not hold the prefix has no references when it is written. -/
theorem cites_writeText {data : String} (h : ¬ HoldsPrefix data) :
    Cites P (writeText language data).toList := by
  have hclean : Clean P data := Or.inl h
  unfold writeText
  split
  · split
    · have hbraces : Leads P (inBraces (scriptQuoted data)) :=
        ((Inert.leads (by decide)).append hclean.leads_scriptQuoted).append (Inert.leads (by decide))
      exact hbraces.cites
    · exact hclean.cites
  · exact (hclean.escape escaping_markup).cites

/-- **A start tag whose references have the property:** none is in its name, and its attributes
lead. -/
structure StartTag.Cited (language : Language) (P : String → Prop) (t : StartTag) : Prop where
  name : ¬ HoldsPrefix t.name
  attributes : ∀ a ∈ t.attributes, Leads P (a.write language)

/-- A start tag settles with the references of its attributes. -/
theorem StartTag.Cited.settles_write {t : StartTag} (h : t.Cited language P) :
    Settles P (t.write language) := by
  have hspace : Leads P " " := Inert.leads (by decide)
  intro next hparts hnext
  rw [StartTag.write, String.append_assoc]
  -- Behind the name comes an attribute, or what comes behind the tag.
  cases hattributes : t.attributes with
  | nil =>
    rw [List.map_nil, String.join_nil, String.empty_append]
    exact settles_of_not_holdsPrefix h.name next hparts hnext
  | cons a rest =>
    have hjoined : Leads P (String.join ((a :: rest).map fun a => " " ++ a.write language)) := by
      refine leads_join (List.forall_mem_map.mpr fun b hb => ?_)
      exact hspace.append (h.attributes b (hattributes ▸ hb))
    refine settles_of_not_holdsPrefix h.name _ ?_ (hjoined.append hnext)
    rw [List.map_cons, String.join_cons, String.append_assoc, String.append_assoc]
    exact Parts.append (by decide) _

/-- **Markup whose references have the property:** none is in its texts, and start tags have no
others. -/
inductive Markup.Cited (language : Language) (P : String → Prop) : Markup → Prop
  | text {data : String} (hdata : ¬ HoldsPrefix data) : Cited language P (.text data)
  | element {start : StartTag} {children : List Markup} (hstart : start.Cited language P)
      (hchildren : ∀ m ∈ children, Cited language P m) : Cited language P (.element start children)

namespace Markup

/-- Nodes that lead do so one behind the other. -/
theorem leads_writeAll {nodes : List Markup} {depth : Nat}
    (h : ∀ m ∈ nodes, Leads P (m.write language depth)) :
    Leads P (writeAll language depth nodes) := by
  induction nodes with
  | nil => exact leads_empty
  | cons m rest ih =>
    obtain ⟨hm, hrest⟩ := List.forall_mem_cons.mp h
    rw [writeAll]
    exact hm.append (ih hrest)

/-- An element without anything in it has the references of its tag. -/
theorem leads_writeEmpty {start : StartTag} (h : start.Cited language P) :
    Leads P (start.writeEmpty language) := by
  have hopen : Leads P "<" := Inert.leads (by decide)
  have hclose : Leads P (start.name ++ ">") :=
    settles_of_not_holdsPrefix h.name ">" (by decide) (Inert.leads (by decide))
  unfold StartTag.writeEmpty
  simp only [String.append_assoc]
  split
  · exact hopen.append (h.settles_write " />" (by decide) (Inert.leads (by decide)))
  · refine hopen.append (h.settles_write _ (Parts.append (by decide) _) ?_)
    exact (Inert.leads (by decide)).append hclose

/-- A start tag leads on a line of its own, in front of what begins with its bracket. -/
theorem leads_opened {start : StartTag} (h : start.Cited language P) (depth : Nat)
    {behind : String} (hparts : Parts behind) (hbehind : Leads P behind) :
    Leads P (indentation depth ++ ("<" ++ (start.write language ++ behind))) :=
  have hopen : Leads P "<" := Inert.leads (by decide)
  (leads_indentation depth).append (hopen.append (h.settles_write behind hparts hbehind))

/-- The end tag has no references, since none is in the name. -/
theorem leads_endTag {start : StartTag} (h : start.Cited language P) :
    Leads P ("</" ++ (start.name ++ ">\n")) := by
  have hend : Leads P (start.name ++ ">\n") :=
    settles_of_not_holdsPrefix h.name ">\n" (by decide) (Inert.leads (by decide))
  exact (Inert.leads (by decide)).append hend

/-- An element with a text in it is written on one line. -/
theorem leads_textElement {start : StartTag} (h : start.Cited language P) {data : String}
    (hdata : ¬ HoldsPrefix data) (depth : Nat) :
    Leads P ((element start [.text data]).write language depth) := by
  -- The text ends at the end tag, so its references are closed there.
  have hinside : Leads P (writeText language data ++ ("</" ++ (start.name ++ ">\n"))) :=
    leads_closed (cites_writeText hdata) (Closes.append (by decide) _) (leads_endTag h)
  have hbehind : Leads P (">" ++ (writeText language data ++ ("</" ++ (start.name ++ ">\n")))) :=
    (Inert.leads (by decide)).append hinside
  rw [write]
  simp only [String.append_assoc]
  exact leads_opened h depth (Parts.append (by decide) _) hbehind

/-- An element with other nodes in it has them on lines of their own, between both tags. -/
theorem leads_nodesElement {start : StartTag} (h : start.Cited language P) {child : Markup}
    {rest : List Markup} (htext : ∀ data, child = .text data → rest = [] → False) {depth : Nat}
    (hnodes : Leads P (writeAll language (depth + 1) (child :: rest))) :
    Leads P ((element start (child :: rest)).write language depth) := by
  have hbehind : Leads P (">\n" ++ (writeAll language (depth + 1) (child :: rest) ++
      (indentation depth ++ ("</" ++ (start.name ++ ">\n"))))) :=
    (Inert.leads (by decide)).append
      (hnodes.append ((leads_indentation depth).append (leads_endTag h)))
  rw [writeAll] at hbehind
  rw [write]
  · simp only [String.append_assoc] at hbehind ⊢
    exact leads_opened h depth (Parts.append (by decide) _) hbehind
  · exact htext

/-- **Written markup leads,** with the references that its attributes have. -/
theorem Cited.leads_write {m : Markup} (h : m.Cited language P) :
    ∀ depth, Leads P (m.write language depth) := by
  have hfeed : Leads P "\n" := Inert.leads (by decide)
  induction h with
  | @text data hdata =>
    intro depth
    rw [write, String.append_assoc]
    exact (leads_indentation depth).append (leads_closed (cites_writeText hdata) (by decide) hfeed)
  | @element start children hstart hchildren ih =>
    intro depth
    -- The cases are those of the printer: nothing in the element, one text, or nodes in general.
    cases children with
    | nil =>
      rw [write]
      exact ((leads_indentation depth).append (leads_writeEmpty hstart)).append hfeed
    | cons child rest =>
      by_cases htext : ∃ data, child = .text data ∧ rest = []
      · obtain ⟨data, rfl, rfl⟩ := htext
        cases hchildren _ List.mem_cons_self with
        | text hdata => exact leads_textElement hstart hdata depth
      · exact leads_nodesElement hstart (fun data hchild hrest => htext ⟨data, hchild, hrest⟩)
          (leads_writeAll fun m hm => ih m hm (depth + 1))

end Markup

/-! ### Expressions -/

namespace Expr

variable {S : String → Prop} {callees : List String}

/-- A label in front of an argument has no part in a reference. -/
theorem settles_labelled {label : Option String}
    (hlabel : ∀ name, label = some name → Tame name) {value : String} (h : Settles P value) :
    Settles P (labelled label value) := by
  cases label with
  | none => exact h
  | some name =>
    have hname : ¬ HoldsPrefix (name ++ ":") := by
      rw [HoldsPrefix, String.toList_append]
      intro hholds
      have hslash : '/' ∈ reservationPrefix.toList := by decide
      have hcolon : '/' ∉ ":".toList := by decide
      rcases List.mem_append.mp (hholds.subset hslash) with hmem | hmem
      · exact (hlabel name rfl).not_mem (by decide) hmem
      · exact hcolon hmem
    -- The colon is in the prefix, but not the space behind it.
    have hsplit : labelled (some name) value = (name ++ ":") ++ (" " ++ value) := by
      simp only [labelled, String.append_assoc]
      rfl
    have hspace : Parts " " := by decide
    have hvalue : Settles P (" " ++ value) := .append (Inert.leads (by decide)) h
    rw [hsplit]
    intro next hparts hnext
    rw [String.append_assoc]
    exact settles_of_not_holdsPrefix hname _ ((hspace.append value).append next)
      (hvalue next hparts hnext)

/-- A line of a list or of a call. -/
theorem leads_line {depth : Nat} {text : String} (h : Settles P text) :
    Leads P (indentation depth ++ text ++ ",\n") := by
  rw [String.append_assoc]
  exact (leads_indentation depth).append (h ",\n" (by decide) (Inert.leads (by decide)))

/-- The items of a list lead line by line. -/
theorem leads_writeItems {depth : Nat} {items : List Expr}
    (h : ∀ e ∈ items, Settles P (e.write depth)) : Leads P (writeItems depth items) := by
  induction items with
  | nil => exact leads_empty
  | cons item rest ih =>
    obtain ⟨hitem, hrest⟩ := List.forall_mem_cons.mp h
    rw [writeItems]
    exact (leads_line hitem).append (ih hrest)

/-- The arguments of a call lead line by line. -/
theorem leads_writeArgumentLines {depth : Nat} {arguments : List (Argument Expr)}
    (hlabels : ∀ a ∈ arguments, ∀ label, a.label = some label → Tame label)
    (h : ∀ a ∈ arguments, Settles P (a.value.write depth)) :
    Leads P (writeArgumentLines depth arguments) := by
  induction arguments with
  | nil => exact leads_empty
  | cons a rest ih =>
    obtain ⟨hlabel, hothers⟩ := List.forall_mem_cons.mp hlabels
    obtain ⟨ha, hrest⟩ := List.forall_mem_cons.mp h
    rw [writeArgumentLines]
    exact (leads_line (settles_labelled hlabel ha)).append (ih hothers hrest)

/-- On one line, each of them settles. -/
theorem settles_writeArguments {depth : Nat} {arguments : List (Argument Expr)}
    (hlabels : ∀ a ∈ arguments, ∀ label, a.label = some label → Tame label)
    (h : ∀ a ∈ arguments, Settles P (a.value.write depth)) :
    ∀ text ∈ writeArguments depth arguments, Settles P text := by
  induction arguments with
  | nil => exact fun _ h => absurd h List.not_mem_nil
  | cons a rest ih =>
    obtain ⟨hlabel, hothers⟩ := List.forall_mem_cons.mp hlabels
    obtain ⟨ha, hrest⟩ := List.forall_mem_cons.mp h
    rw [writeArguments, List.forall_mem_cons]
    exact ⟨settles_labelled hlabel ha, ih hothers hrest⟩

/-- A call with its arguments on lines of their own. -/
theorem leads_callLines {callee : String} (hcallee : Settles P callee) {depth : Nat}
    {arguments : List (Argument Expr)}
    (hlabels : ∀ a ∈ arguments, ∀ label, a.label = some label → Tame label)
    (h : ∀ a ∈ arguments, Settles P (a.value.write (depth + 1))) :
    Leads P (callee ++ "(\n" ++ writeArgumentLines (depth + 1) arguments ++ indentation depth ++
      ")") := by
  have hclose : Leads P ")" := Inert.leads (by decide)
  have hinside := (leads_writeArgumentLines hlabels h).append
    ((leads_indentation depth).append hclose)
  simp only [String.append_assoc]
  exact hcallee _ (Parts.append (by decide) _) ((Inert.leads (by decide)).append hinside)

/-- A call on one line. -/
theorem leads_callLine {callee : String} (hcallee : Settles P callee) {depth : Nat}
    {arguments : List (Argument Expr)}
    (hlabels : ∀ a ∈ arguments, ∀ label, a.label = some label → Tame label)
    (h : ∀ a ∈ arguments, Settles P (a.value.write depth)) :
    Leads P (callee ++ "(" ++ ", ".intercalate (writeArguments depth arguments) ++ ")") := by
  have hinside : Settles P (", ".intercalate (writeArguments depth arguments)) :=
    settles_intercalate (by decide) (Inert.leads (by decide)) (settles_writeArguments hlabels h)
  have hclose : Leads P ")" := Inert.leads (by decide)
  simp only [String.append_assoc]
  refine hcallee _ (Parts.append (by decide) _) ?_
  exact (Inert.leads (by decide)).append (hinside ")" (by decide) hclose)

/-- A list with its items on lines of their own, or nothing between its brackets. -/
theorem settles_list {items : List Expr} {depth : Nat}
    (h : ∀ e ∈ items, Settles P (e.write (depth + 1))) :
    Settles P ((list items).write depth) := by
  -- An empty list is a pair of brackets.
  cases items with
  | nil =>
    rw [write]
    exact (Inert.leads (by decide)).settles
  | cons item rest =>
    have hopen : Leads P "[\n" := Inert.leads (by decide)
    have hclose : Leads P "]" := Inert.leads (by decide)
    have hitems := leads_writeItems h
    rw [writeItems] at hitems
    rw [write]
    exact (((hopen.append hitems).append (leads_indentation depth)).append hclose).settles

/-- **A written expression settles,** with the references that its literals have. -/
theorem Built.settles_write (hS : ∀ text, S text → Settles P text)
    (hcallees : ∀ callee ∈ callees, Tame callee) {e : Expr} (h : e.Built S callees) :
    ∀ depth, Settles P (e.write depth) := by
  induction h with
  | literal htext =>
    intro depth
    rw [write]
    exact htext.elim Tame.settles (hS _)
  | @call callee arguments hcallee hlabels _ ih =>
    intro depth
    have hname : Settles P callee := (hcallees callee hcallee).settles
    have hlines := leads_callLines hname hlabels fun a ha => ih a ha (depth + 1)
    rw [write]
    simp only
    -- The call is on one line if that is short enough, and its arguments are on one each.
    split
    · split
      · exact (leads_callLine hname hlabels fun a ha => ih a ha depth).settles
      · exact hlines.settles
    · exact hlines.settles
  | list _ ih => exact fun depth => settles_list fun e he => ih e he (depth + 1)

end Expr

end DesignCompiler
