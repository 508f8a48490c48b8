import DesignCompiler.Proofs.Code.Print
import DesignCompiler.Proofs.Text.Tame
/-!
# The lines of written code

Where a line begins decides what a reader of a file takes it for: a declaration begins in the first
column, and everything that belongs to it stands further in. `Indented` says of a text that all its
lines but the first stand further in. An expression is written so (`Expr.Built.indented_write`) if
nothing that it is built from breaks a line, neither its literals nor the names and labels of its
calls. The same predicate on expressions, `Expr.Built`, limits what is called in them.
-/

namespace DesignCompiler

/-! ### Texts without a line feed -/

/-- **A text on one line.** -/
def OneLine (text : String) : Prop := '\n' ∉ text.toList

instance : DecidablePred OneLine := fun text => inferInstanceAs (Decidable ('\n' ∉ text.toList))

@[simp] theorem oneLine_append {a b : String} : OneLine (a ++ b) ↔ OneLine a ∧ OneLine b := by
  simp [OneLine]

theorem Tame.oneLine {text : String} (h : Tame text) : OneLine text := h.not_mem (by decide)

/-- A quoted text is on one line, since line feeds are escaped in it. -/
theorem oneLine_dartQuoted (text : String) : OneLine (dartQuoted text) := by
  have hescape : ∀ c, '\n' ∉ dartEscape c := by
    intro c hc
    unfold dartEscape at hc
    repeat' split at hc
    -- Each escape is two other characters, and what is left as it is is no line feed.
    · exact absurd hc (by decide)
    · exact absurd hc (by decide)
    · exact absurd hc (by decide)
    · exact absurd hc (by decide)
    · next hfeed =>
      rw [List.mem_singleton] at hc
      exact hfeed (beq_iff_eq.mpr hc.symm)
  have hescaped : OneLine (escapeWith dartEscape text) := by
    unfold OneLine
    rw [toList_escapeWith, List.mem_flatMap]
    rintro ⟨c, -, hc⟩
    exact hescape c hc
  simp only [dartQuoted, inQuotes, oneLine_append]
  exact ⟨⟨by decide, hescaped⟩, by decide⟩

/-! ### Texts whose further lines stand further in -/

/-- **A text in which every line but the first begins with a space.** -/
def Indented (text : List Char) : Prop :=
  ∀ before after, text = before ++ '\n' :: after → after.head? = some ' '

theorem OneLine.indented {text : String} (h : OneLine text) : Indented text.toList := by
  intro before after htext
  exact absurd (by simp [htext]) h

/-- Indented texts stay so one behind the other: each line feed has its space in its own text. -/
theorem Indented.append {a b : List Char} (ha : Indented a) (hb : Indented b) :
    Indented (a ++ b) := by
  intro before after h
  rcases List.append_eq_append_iff.mp h with ⟨mid, rfl, hmid⟩ | ⟨mid, rfl, hmid⟩
  · exact hb mid after hmid
  · -- The line feed is the first character of `b`, or in `a`.
    cases mid with
    | nil => exact hb [] after hmid.symm
    | cons c mid =>
      obtain ⟨rfl, rfl⟩ := List.cons.inj hmid
      have hhead := ha before mid rfl
      cases mid with
      | nil => cases hhead
      | cons d mid => exact hhead

/-- A line feed may be put in front of what begins with a blank. -/
theorem Indented.line_feed {text : List Char} (h : Indented text) (hhead : text.head? = some ' ') :
    Indented ('\n' :: text) := by
  intro before after htext
  cases before with
  | nil =>
    obtain ⟨-, rfl⟩ := List.cons.inj htext
    exact hhead
  | cons c before => exact h before after (List.cons.inj htext).2

/-- Every line of a text that begins with a space and goes on so is blank or begins with one. -/
theorem Indented.lines {text : List Char} (h : Indented text) (hhead : text.head? = some ' ') :
    ∀ line ∈ splitOnChar '\n' text, line = [] ∨ line.head? = some ' ' := by
  have hbegins : ∀ line after : List Char, (line ++ after).head? = some ' ' →
      line = [] ∨ line.head? = some ' ' := by
    intro line after h
    cases line with
    | nil => exact Or.inl rfl
    | cons c line => exact Or.inr h
  obtain ⟨first, others, hsplit⟩ := List.exists_cons_of_ne_nil
    (splitOnChar_ne_nil '\n' text)
  obtain ⟨⟨after, hfirst⟩, hothers⟩ := exists_of_splitOnChar hsplit
  rw [hsplit, List.forall_mem_cons]
  -- The first line begins where the text does, and each other one behind a line feed.
  refine ⟨hbegins first after (hfirst ▸ hhead), fun line hline => ?_⟩
  obtain ⟨before, after, htext⟩ := hothers line hline
  exact hbegins line after (h before _ htext)

/-! ### Written expressions -/

namespace Expr

/-- **What an expression is built from:** calls of some functions with tame labels, and literals that
are tame or of a kind `S`. -/
inductive Built (S : String → Prop) (callees : List String) : Expr → Prop
  | literal {text : String} (htext : Tame text ∨ S text) : Built S callees (.literal text)
  | call {callee : String} {arguments : List (Argument Expr)} (hcallee : callee ∈ callees)
      (hlabels : ∀ a ∈ arguments, ∀ label, a.label = some label → Tame label)
      (hvalues : ∀ a ∈ arguments, Built S callees a.value) : Built S callees (.call callee arguments)
  | list {items : List Expr} (hitems : ∀ e ∈ items, Built S callees e) :
      Built S callees (.list items)

variable {S : String → Prop} {callees : List String}

/-- Only the functions that an expression is built from are called in it. -/
theorem Built.mem_callees {e : Expr} (h : e.Built S callees) :
    ∀ callee ∈ e.callees, callee ∈ callees := by
  -- A literal calls nothing, a list what its items call, and a call its own callee besides.
  induction h with
  | literal => exact fun _ h => absurd h List.not_mem_nil
  | @call name arguments hname _ _ ih =>
    intro callee hmem
    simp only [Expr.callees, subterms, List.filterMap_cons, callee?, subtermsArguments_eq_flatMap,
      List.filterMap_flatMap, List.mem_cons] at hmem
    rcases hmem with rfl | hmem
    · exact hname
    · obtain ⟨a, ha, hmem⟩ := List.mem_flatMap.mp hmem
      exact ih a ha callee hmem
  | @list items _ ih =>
    intro callee hmem
    simp only [Expr.callees, subterms, List.filterMap_cons, callee?, subtermsAll_eq_flatMap,
      List.filterMap_flatMap] at hmem
    obtain ⟨e, he, hmem⟩ := List.mem_flatMap.mp hmem
    exact ih e he callee hmem

/-- Some text behind an indentation begins with a space, and is indented if the text is. -/
theorem indented_indentation {depth : Nat} (hdepth : 0 < depth) {text : String}
    (h : Indented text.toList) :
    (indentation depth ++ text).toList.head? = some ' ' ∧
      Indented (indentation depth ++ text).toList := by
  have hspaces : OneLine (indentation depth) := by
    unfold OneLine
    rw [toList_indentation, List.mem_replicate]
    exact fun h => absurd h.2 (by decide)
  rw [String.toList_append]
  refine ⟨?_, hspaces.indented.append h⟩
  rw [toList_indentation]
  -- At a depth above zero there is a space to begin with.
  cases depth with
  | zero => omega
  | succ depth => rfl

/-- A text, the end of a line, and lines that stand further in. -/
theorem indented_line_feed {text behind : String} (h : Indented text.toList)
    (hhead : behind.toList.head? = some ' ') (hbehind : Indented behind.toList) :
    Indented (text ++ "\n" ++ behind).toList := by
  rw [String.toList_append, String.toList_append, List.append_assoc]
  exact h.append (hbehind.line_feed hhead)

/-- Indented texts stay so with a joiner on one line between them. -/
theorem indented_intercalate {joiner : String} (hjoiner : OneLine joiner) {texts : List String}
    (h : ∀ text ∈ texts, Indented text.toList) :
    Indented (joiner.intercalate texts).toList := by
  have happend : ∀ {a b : String}, Indented a.toList → Indented b.toList →
      Indented (a ++ b).toList := by
    intro a b ha hb
    rw [String.toList_append]
    exact ha.append hb
  have hempty : Indented "".toList := (show OneLine "" by decide).indented
  exact intercalate_of_append (P := fun text => Indented text.toList) hempty happend
    hjoiner.indented h

/-- A label brings no line feed in. -/
theorem indented_labelled {label : Option String}
    (hlabel : ∀ name, label = some name → Tame name) {value : String}
    (h : Indented value.toList) : Indented (labelled label value).toList := by
  cases label with
  | none => exact h
  | some name =>
    simp only [labelled, String.toList_append]
    exact ((hlabel name rfl).oneLine.indented.append (show OneLine ": " by decide).indented).append h

/-- Lines of items stand further in, in front of a text that does. -/
theorem indented_writeItems {depth : Nat} (hdepth : 0 < depth) {items : List Expr}
    (h : ∀ e ∈ items, Indented (e.write depth).toList) {behind : String}
    (hhead : behind.toList.head? = some ' ') (hbehind : Indented behind.toList) :
    (writeItems depth items ++ behind).toList.head? = some ' ' ∧
      Indented (writeItems depth items ++ behind).toList := by
  induction items with
  | nil => simpa [writeItems] using ⟨hhead, hbehind⟩
  | cons item rest ih =>
    obtain ⟨hrest, hindented⟩ := ih fun e he => h e (List.mem_cons_of_mem _ he)
    -- An item is its line and the rest, in front of which stands the line feed.
    have hline : writeItems depth (item :: rest) ++ behind =
        indentation depth ++
          (item.write depth ++ "," ++ "\n" ++ (writeItems depth rest ++ behind)) := by
      rw [writeItems]
      simp only [String.append_assoc]
      rfl
    rw [hline]
    refine indented_indentation hdepth (indented_line_feed ?_ hrest hindented)
    rw [String.toList_append]
    exact (h item List.mem_cons_self).append (show OneLine "," by decide).indented

/-- Arguments are written on indented lines, in front of what is indented itself. -/
theorem indented_writeArgumentLines {depth : Nat} (hdepth : 0 < depth)
    {arguments : List (Argument Expr)}
    (hlabels : ∀ a ∈ arguments, ∀ label, a.label = some label → Tame label)
    (h : ∀ a ∈ arguments, Indented (a.value.write depth).toList) {behind : String}
    (hhead : behind.toList.head? = some ' ') (hbehind : Indented behind.toList) :
    (writeArgumentLines depth arguments ++ behind).toList.head? = some ' ' ∧
      Indented (writeArgumentLines depth arguments ++ behind).toList := by
  induction arguments with
  | nil => simpa [writeArgumentLines] using ⟨hhead, hbehind⟩
  | cons a rest ih =>
    obtain ⟨hrest, hindented⟩ := ih (fun b hb => hlabels b (List.mem_cons_of_mem _ hb))
      fun b hb => h b (List.mem_cons_of_mem _ hb)
    -- As for the items of a list, with the label in front of the value.
    have hline : writeArgumentLines depth (a :: rest) ++ behind =
        indentation depth ++ (labelled a.label (a.value.write depth) ++ "," ++ "\n" ++
          (writeArgumentLines depth rest ++ behind)) := by
      rw [writeArgumentLines]
      simp only [String.append_assoc]
      rfl
    rw [hline]
    refine indented_indentation hdepth (indented_line_feed ?_ hrest hindented)
    rw [String.toList_append]
    exact (indented_labelled (hlabels a List.mem_cons_self) (h a List.mem_cons_self)).append
      (show OneLine "," by decide).indented

/-- On one line, each argument is indented as its value is. -/
theorem indented_writeArguments {depth : Nat} {arguments : List (Argument Expr)}
    (hlabels : ∀ a ∈ arguments, ∀ label, a.label = some label → Tame label)
    (h : ∀ a ∈ arguments, Indented (a.value.write depth).toList) :
    ∀ text ∈ writeArguments depth arguments, Indented text.toList := by
  induction arguments with
  | nil => exact fun _ h => absurd h List.not_mem_nil
  | cons a rest ih =>
    rw [writeArguments, List.forall_mem_cons]
    exact ⟨indented_labelled (hlabels a List.mem_cons_self) (h a List.mem_cons_self),
      ih (fun b hb => hlabels b (List.mem_cons_of_mem _ hb))
        fun b hb => h b (List.mem_cons_of_mem _ hb)⟩

/-- **What is written for an expression stands further in,** on all lines but the first. -/
theorem Built.indented_write (hS : ∀ text, S text → OneLine text)
    (hcallees : ∀ callee ∈ callees, OneLine callee) {e : Expr} (h : e.Built S callees) :
    ∀ depth, 0 < depth → Indented (e.write depth).toList := by
  -- The last line of a list or a call closes it.
  have hclose : ∀ depth close, 0 < depth → OneLine close →
      (indentation depth ++ close).toList.head? = some ' ' ∧
        Indented (indentation depth ++ close).toList :=
    fun _ _ hdepth hclose => indented_indentation hdepth hclose.indented
  induction h with
  | literal htext =>
    intro depth _
    rw [write]
    exact (htext.elim Tame.oneLine (hS _)).indented
  | @call callee arguments hcallee hlabels _ ih =>
    intro depth hdepth
    have hname := (hcallees callee hcallee).indented
    have hbroken : Indented (callee ++ "(\n" ++ writeArgumentLines (depth + 1) arguments ++
        indentation depth ++ ")").toList := by
      obtain ⟨hhead, hend⟩ := hclose depth ")" hdepth (by decide)
      obtain ⟨hfirst, hlines⟩ := indented_writeArgumentLines (Nat.succ_pos depth) hlabels
        (fun a ha => ih a ha (depth + 1) (Nat.succ_pos depth)) hhead hend
      have hopen : Indented (callee ++ "(").toList := by
        rw [String.toList_append]
        exact hname.append (show OneLine "(" by decide).indented
      have hsplit := indented_line_feed hopen hfirst hlines
      simp only [String.append_assoc] at hsplit ⊢
      exact hsplit
    have hone : Indented (callee ++ "(" ++ ", ".intercalate (writeArguments depth arguments) ++
        ")").toList := by
      have hinside := indented_intercalate (show OneLine ", " by decide)
        (indented_writeArguments hlabels fun a ha => ih a ha depth hdepth)
      simp only [String.toList_append]
      exact ((hname.append (show OneLine "(" by decide).indented).append hinside).append
        (show OneLine ")" by decide).indented
    rw [write]
    simp only
    split
    · split
      · exact hone
      · exact hbroken
    · exact hbroken
  | @list items _ ih =>
    intro depth hdepth
    cases items with
    | nil =>
      rw [write]
      exact (show OneLine "[]" by decide).indented
    | cons item rest =>
      obtain ⟨hhead, hend⟩ := hclose depth "]" hdepth (by decide)
      obtain ⟨hfirst, hlines⟩ := indented_writeItems (Nat.succ_pos depth)
        (fun e he => ih e he (depth + 1) (Nat.succ_pos depth)) hhead hend
      have hsplit := indented_line_feed (show OneLine "[" by decide).indented hfirst hlines
      rw [write]
      rw [writeItems] at hsplit
      simp only [String.append_assoc] at hsplit ⊢
      exact hsplit

end Expr

end DesignCompiler
