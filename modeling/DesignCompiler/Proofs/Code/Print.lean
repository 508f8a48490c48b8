import DesignCompiler.Code.Print
import DesignCompiler.Proofs.Markup.Print
/-!
# What is written for a module

A literal is written as it stands, on one line or broken over lines, so each literal of an expression
is in what is written for it (`Expr.literal_infix_write`). The text of a module has in it what is
written for the expression that it returns: a tree of markup in a script (`Module.markup_infix_script`)
or a page (`Module.markup_infix_page`), and calls in a class (`Module.expr_infix_class`).
-/

namespace DesignCompiler

/-- What is in a text is in the texts that it is joined with. -/
theorem infix_intercalate {part : List Char} {separator : String} {texts : List String}
    {text : String} (htext : text ∈ texts) (h : part <:+: text.toList) :
    part <:+: (separator.intercalate texts).toList := by
  induction texts with
  | nil => exact absurd htext List.not_mem_nil
  | cons first rest ih =>
    -- The separator stands behind the first text if there is another one.
    by_cases hrest : rest = []
    · rw [hrest, List.mem_singleton] at htext
      rw [hrest, String.intercalate_singleton, ← htext]
      exact h
    · rw [String.intercalate_cons_of_ne_nil hrest]
      rcases List.mem_cons.mp htext with rfl | hmem
      · exact infix_append_text (Or.inl (infix_append_text (Or.inl h)))
      · exact infix_append_text (Or.inr (ih hmem))

namespace Expr

/-- Induction over an expression, where a call has the claim for its arguments. -/
@[elab_as_elim]
theorem induction {motive : Expr → Prop} (markup : ∀ tree, motive (.markup tree))
    (call : ∀ callee arguments, (∀ a ∈ arguments, motive a.value) → motive (.call callee arguments))
    (literal : ∀ text, motive (.literal text))
    (list : ∀ items, (∀ e ∈ items, motive e) → motive (.list items)) (e : Expr) : motive e := by
  -- The recursor has a motive for arguments and for items; both say it of each of them.
  refine Expr.rec (motive_1 := motive) (motive_2 := fun arguments => ∀ a ∈ arguments, motive a.value)
    (motive_3 := fun items => ∀ e ∈ items, motive e) (motive_4 := fun a => motive a.value)
    markup call literal list ?_ ?_ ?_ ?_ ?_ e
  · exact fun _ h => absurd h List.not_mem_nil
  · intro a rest ha hrest b hb
    rcases List.mem_cons.mp hb with rfl | hb
    · exact ha
    · exact hrest b hb
  · exact fun _ h => absurd h List.not_mem_nil
  · intro item rest hitem hrest e he
    rcases List.mem_cons.mp he with rfl | he
    · exact hitem
    · exact hrest e he
  · exact fun _ _ h => h

/-! ### The expressions in an expression -/

/-- The subterms of arguments are those of their values. -/
theorem subtermsArguments_eq_flatMap (arguments : List (Argument Expr)) :
    subtermsArguments arguments = arguments.flatMap (·.value.subterms) := by
  induction arguments with
  | nil => rfl
  | cons a rest ih => rw [subtermsArguments, ih, List.flatMap_cons]

/-- The subterms of several expressions are those of each. -/
theorem subtermsAll_eq_flatMap (items : List Expr) :
    subtermsAll items = items.flatMap (·.subterms) := by
  induction items with
  | nil => rfl
  | cons item rest ih => rw [subtermsAll, ih, List.flatMap_cons]

theorem mem_subterms_self (e : Expr) : e ∈ e.subterms := by
  cases e <;> simp [subterms]

/-- Subterms of an argument are subterms of the call. -/
theorem mem_subterms_argument {callee : String} {arguments : List (Argument Expr)}
    {a : Argument Expr} (ha : a ∈ arguments) {e : Expr} (he : e ∈ a.value.subterms) :
    e ∈ (call callee arguments).subterms := by
  rw [subterms, subtermsArguments_eq_flatMap]
  exact List.mem_cons_of_mem _ (List.mem_flatMap.mpr ⟨a, ha, he⟩)

/-- What is in an expression in an expression is in the whole. -/
theorem subterms_subset {e inner : Expr} (h : inner ∈ e.subterms) :
    inner.subterms ⊆ e.subterms := by
  -- A subterm is the expression itself, or in one of its parts, whose subterms it has by induction.
  induction e using Expr.induction with
  | markup tree =>
    rw [subterms, List.mem_singleton] at h
    rw [h]
    exact List.Subset.refl _
  | literal text =>
    rw [subterms, List.mem_singleton] at h
    rw [h]
    exact List.Subset.refl _
  | call callee arguments ih =>
    rw [subterms, List.mem_cons, subtermsArguments_eq_flatMap] at h
    rcases h with rfl | h
    · exact List.Subset.refl _
    · obtain ⟨a, ha, hinner⟩ := List.mem_flatMap.mp h
      exact fun e he => mem_subterms_argument ha (ih a ha hinner he)
  | list items ih =>
    rw [subterms, List.mem_cons, subtermsAll_eq_flatMap] at h
    rcases h with rfl | h
    · exact List.Subset.refl _
    · obtain ⟨item, hitem, hinner⟩ := List.mem_flatMap.mp h
      intro e he
      rw [subterms, subtermsAll_eq_flatMap]
      exact List.mem_cons_of_mem _ (List.mem_flatMap.mpr ⟨item, hitem, ih item hitem hinner he⟩)

/-! ### What is written -/

variable {part : List Char}

/-- A label leaves the value whole. -/
theorem infix_labelled (label : Option String) {value : String} (h : part <:+: value.toList) :
    part <:+: (labelled label value).toList := by
  cases label with
  | none => exact h
  | some name => exact infix_append_text (Or.inr h)

/-- What is in an argument is in one of the written arguments. -/
theorem infix_writeArguments {a : Argument Expr} {arguments : List (Argument Expr)} {depth : Nat}
    (ha : a ∈ arguments) (h : part <:+: (a.value.write depth).toList) :
    ∃ text ∈ writeArguments depth arguments, part <:+: text.toList := by
  induction arguments with
  | nil => exact absurd ha List.not_mem_nil
  | cons b rest ih =>
    rw [writeArguments]
    rcases List.mem_cons.mp ha with rfl | ha
    · exact ⟨_, List.mem_cons_self, infix_labelled _ h⟩
    · obtain ⟨text, htext, hpart⟩ := ih ha
      exact ⟨text, List.mem_cons_of_mem _ htext, hpart⟩

/-- So it is where they stand on lines of their own. -/
theorem infix_writeArgumentLines {a : Argument Expr} {arguments : List (Argument Expr)}
    {depth : Nat} (ha : a ∈ arguments) (h : part <:+: (a.value.write depth).toList) :
    part <:+: (writeArgumentLines depth arguments).toList := by
  induction arguments with
  | nil => exact absurd ha List.not_mem_nil
  | cons b rest ih =>
    rw [writeArgumentLines]
    refine infix_append_text ?_
    rcases List.mem_cons.mp ha with rfl | ha
    · exact Or.inl (infix_append_text (Or.inl (infix_append_text (Or.inr (infix_labelled _ h)))))
    · exact Or.inr (ih ha)

/-- What is in an item is in the written list. -/
theorem infix_writeItems {item : Expr} {items : List Expr} {depth : Nat} (hitem : item ∈ items)
    (h : part <:+: (item.write depth).toList) : part <:+: (writeItems depth items).toList := by
  induction items with
  | nil => exact absurd hitem List.not_mem_nil
  | cons first rest ih =>
    rw [writeItems]
    refine infix_append_text ?_
    rcases List.mem_cons.mp hitem with rfl | hitem
    · exact Or.inl (infix_append_text (Or.inl (infix_append_text (Or.inr h))))
    · exact Or.inr (ih hitem)

/-- A call has what is written for its arguments in it, on one line or on several. -/
theorem infix_write_call {callee : String} {a : Argument Expr} {arguments : List (Argument Expr)}
    (ha : a ∈ arguments) (h : ∀ depth, part <:+: (a.value.write depth).toList) (depth : Nat) :
    part <:+: ((call callee arguments).write depth).toList := by
  have hbroken : part <:+: (callee ++ "(\n" ++ writeArgumentLines (depth + 1) arguments ++
      indentation depth ++ ")").toList := by
    refine infix_append_text (Or.inl (infix_append_text (Or.inl (infix_append_text (Or.inr ?_)))))
    exact infix_writeArgumentLines ha (h _)
  have hone : part <:+: (callee ++ "(" ++ ", ".intercalate (writeArguments depth arguments) ++
      ")").toList := by
    obtain ⟨text, htext, hpart⟩ := infix_writeArguments ha (h depth)
    exact infix_append_text (Or.inl (infix_append_text (Or.inr (infix_intercalate htext hpart))))
  -- Broken into lines or not, the call has each argument whole.
  rw [write]
  simp only
  split
  · split
    · exact hone
    · exact hbroken
  · exact hbroken

/-- **Every literal of an expression** is in what is written for the expression. -/
theorem literal_infix_write {text : String} (e : Expr) :
    literal text ∈ e.subterms → ∀ depth, text.toList <:+: (e.write depth).toList := by
  induction e using Expr.induction with
  | markup tree =>
    intro h
    rw [subterms, List.mem_singleton] at h
    cases h
  | literal other =>
    intro h depth
    rw [subterms, List.mem_singleton] at h
    cases h
    show text.toList <:+: text.toList
    exact List.infix_rfl
  | call callee arguments ih =>
    intro h depth
    rw [subterms, List.mem_cons, subtermsArguments_eq_flatMap] at h
    rcases h with h | h
    · cases h
    · obtain ⟨a, ha, hinner⟩ := List.mem_flatMap.mp h
      -- One line or several is not known here, so the claim for the argument is at all depths.
      exact infix_write_call ha (ih a ha hinner) depth
  | list items ih =>
    intro h depth
    rw [subterms, List.mem_cons, subtermsAll_eq_flatMap] at h
    rcases h with h | h
    · cases h
    · obtain ⟨item, hitem, hinner⟩ := List.mem_flatMap.mp h
      have hitems := infix_writeItems hitem (ih item hitem hinner (depth + 1))
      cases items with
      | nil => exact absurd hitem List.not_mem_nil
      | cons first rest =>
        rw [writeItems] at hitems
        rw [write]
        exact infix_append_text (Or.inl (infix_append_text (Or.inl (infix_append_text
          (Or.inr hitems)))))

end Expr

/-! ### Modules -/

namespace Module

/-- What is in the code of a module is in its source. -/
theorem infix_source {m : Module} {part : List Char} (h : part <:+: m.code.toList) :
    part <:+: m.source.toList := by
  rw [source]
  split
  · exact h
  · exact infix_append_text (Or.inr h)

/-- The markup of a script is in its source, at the depth of the return. -/
theorem markup_infix_script {m : Module} {tree : Markup} (hlanguage : m.language.isScript = true)
    (hbody : m.body = [.markup tree]) :
    (tree.write m.language 2).toList <:+: m.source.toList := by
  have hscript : m.code = m.script := by
    rw [code]
    cases hl : m.language with
    | tsx => rfl
    | jsx => rfl
    | dart => rw [hl] at hlanguage; cases hlanguage
    | html => rw [hl] at hlanguage; cases hlanguage
  refine infix_source ?_
  rw [hscript, script, hbody, List.map_singleton]
  -- The tree stands in the function, between its name and the declared styles.
  refine infix_append_text (Or.inl (infix_append_text (Or.inl (infix_append_text (Or.inl
    (infix_append_text (Or.inr ?_)))))))
  refine infix_join List.mem_cons_self ?_
  rw [Expr.writeLines]
  exact infix_append_text (Or.inl (infix_append_text (Or.inr List.infix_rfl)))

/-- The markup of a page is in its source. -/
theorem markup_infix_page {m : Module} {tree : Markup} (hlanguage : m.language = .html)
    (hbody : m.body = [.markup tree]) : (tree.write .html 0).toList <:+: m.source.toList := by
  refine infix_source ?_
  rw [code, hlanguage]
  show (tree.write .html 0).toList <:+: m.page.toList
  rw [page, markup, hbody, List.map_singleton]
  refine infix_append_text (Or.inr (infix_join List.mem_cons_self ?_))
  show (tree.write .html 0).toList <:+: (tree.write .html 0).toList
  exact List.infix_rfl

/-- The expression of a Dart class is in its source. -/
theorem expr_infix_class {m : Module} {e : Expr} (hlanguage : m.language = .dart)
    (hbody : m.body = [e]) : (e.write 2).toList <:+: m.source.toList := by
  refine infix_source ?_
  rw [code, hlanguage]
  show (e.write 2).toList <:+: m.dartClass.toList
  unfold dartClass
  simp only [hbody, List.map_singleton]
  refine infix_append_text (Or.inl (infix_append_text (Or.inl (infix_append_text (Or.inr ?_)))))
  refine infix_join List.mem_cons_self ?_
  exact infix_append_text (Or.inl (infix_append_text (Or.inr List.infix_rfl)))

end Module

end DesignCompiler
