import DesignCompiler.Markup.Print
/-!
# What is written for markup

The start tag of every element of a tree is in the text that is written for the tree, whatever is
around it (`Markup.start_infix_write`), and with it are its attributes.
-/

namespace DesignCompiler

/-- A part of one of two texts is a part of the two together. -/
theorem infix_append_text {part : List Char} {a b : String}
    (h : part <:+: a.toList ∨ part <:+: b.toList) : part <:+: (a ++ b).toList := by
  rw [String.toList_append]
  exact h.elim List.infix_append_of_infix_left List.infix_append_of_infix_right

/-- What is in a text is in the joined texts. -/
theorem infix_join {part : List Char} {texts : List String} {text : String} (htext : text ∈ texts)
    (h : part <:+: text.toList) : part <:+: (String.join texts).toList := by
  rw [String.toList_join]
  obtain ⟨before, after, rfl⟩ := List.append_of_mem htext
  rw [List.flatMap_append, List.flatMap_cons]
  exact List.infix_append_of_infix_right (List.infix_append_of_infix_left h)

/-- What a text is put together around is a part of it. -/
theorem infix_of_eq {text part : String} (before after : String)
    (h : text = before ++ part ++ after) : part.toList <:+: text.toList := by
  rw [h, String.toList_append, String.toList_append]
  exact List.infix_append _ _ _

/-- A number of spaces. -/
theorem toList_spaces (n : Nat) : ("".pushn ' ' n).toList = List.replicate n ' ' := by
  induction n with
  | zero => rfl
  | succ n ih =>
    show (("".pushn ' ' n).push ' ').toList = _
    rw [String.toList_push, ih, List.replicate_succ']

theorem toList_indentation (depth : Nat) :
    (indentation depth).toList = List.replicate (2 * depth) ' ' :=
  toList_spaces (2 * depth)

namespace Markup

/-- Induction over markup, where an element has the claim for each node in it. -/
@[elab_as_elim]
theorem induction {motive : Markup → Prop} (text : ∀ data, motive (.text data))
    (element : ∀ start children, (∀ m ∈ children, motive m) → motive (.element start children))
    (m : Markup) : motive m := by
  -- Several nodes have the claim if each of them has it.
  refine Markup.rec (motive_1 := motive) (motive_2 := fun nodes => ∀ m ∈ nodes, motive m)
    text element ?_ ?_ m
  · exact fun _ h => absurd h List.not_mem_nil
  · intro node rest hnode hrest m hm
    rcases List.mem_cons.mp hm with rfl | hm
    · exact hnode
    · exact hrest m hm

/-- The elements of several nodes are those of each. -/
theorem elementsAll_eq_flatMap (nodes : List Markup) :
    elementsAll nodes = nodes.flatMap (·.elements) := by
  induction nodes with
  | nil => rfl
  | cons node rest ih => rw [elementsAll, ih, List.flatMap_cons]

/-- The elements of a node are among those of all. -/
theorem mem_elementsAll_of_mem {m : Markup} {nodes : List Markup} (hm : m ∈ nodes) {e : Markup}
    (he : e ∈ m.elements) : e ∈ elementsAll nodes := by
  rw [elementsAll_eq_flatMap]
  exact List.mem_flatMap.mpr ⟨m, hm, he⟩

variable {language : Language}

/-- A node is written whole among the others. -/
theorem infix_writeAll {m : Markup} {nodes : List Markup} (hm : m ∈ nodes) (depth : Nat) :
    (m.write language depth).toList <:+: (writeAll language depth nodes).toList := by
  induction nodes with
  | nil => exact absurd hm List.not_mem_nil
  | cons node rest ih =>
    rw [writeAll]
    refine infix_append_text ?_
    rcases List.mem_cons.mp hm with rfl | hm
    · exact Or.inl List.infix_rfl
    · exact Or.inr (ih hm)

/-- The tag of an empty element is written whole. -/
theorem infix_writeEmpty (start : StartTag) :
    (start.write language).toList <:+: (start.writeEmpty language).toList := by
  unfold StartTag.writeEmpty
  split
  · exact infix_of_eq "<" " />" rfl
  · exact infix_of_eq "<" ("></" ++ start.name ++ ">") (by simp only [String.append_assoc])

variable (language) in
/-- What is written for an element has its start tag in it, and all that is written for the nodes in
the element, unless that is a text that stays on the line. -/
theorem infix_write_element (start : StartTag) (children : List Markup) (depth : Nat) :
    (start.write language).toList <:+: (write language depth (.element start children)).toList ∧
      ((∀ data, children ≠ [.text data]) →
        (writeAll language (depth + 1) children).toList <:+:
          (write language depth (.element start children)).toList) := by
  -- Nothing, one text, or anything else: the three ways in which an element is written.
  cases children with
  | nil =>
    rw [write, writeAll]
    exact ⟨infix_append_text (Or.inl (infix_append_text (Or.inr (infix_writeEmpty start)))),
      fun _ => List.nil_infix⟩
  | cons child rest =>
    by_cases htext : ∃ data, child = .text data ∧ rest = []
    · obtain ⟨data, rfl, rfl⟩ := htext
      refine ⟨?_, fun h => absurd rfl (h data)⟩
      rw [write]
      exact infix_of_eq (indentation depth ++ "<")
        (">" ++ writeText language data ++ "</" ++ start.name ++ ">\n")
        (by simp only [String.append_assoc])
    · have hwrite : write language depth (.element start (child :: rest)) =
          indentation depth ++ "<" ++ start.write language ++ ">\n" ++
            writeAll language (depth + 1) (child :: rest) ++
            indentation depth ++ "</" ++ start.name ++ ">\n" := by
        rw [write, writeAll]
        exact fun data hchild hrest => htext ⟨data, hchild, hrest⟩
      rw [hwrite]
      constructor
      · exact infix_of_eq (indentation depth ++ "<")
          (">\n" ++ writeAll language (depth + 1) (child :: rest) ++
            indentation depth ++ "</" ++ start.name ++ ">\n")
          (by simp only [String.append_assoc])
      · intro _
        exact infix_of_eq (indentation depth ++ "<" ++ start.write language ++ ">\n")
          (indentation depth ++ "</" ++ start.name ++ ">\n") (by simp only [String.append_assoc])

/-- **The start tag of every element** in a tree is in what is written for the tree. -/
theorem start_infix_write {start : StartTag} {inner : List Markup} (m : Markup) :
    ∀ depth, .element start inner ∈ m.elements →
      (start.write language).toList <:+: (m.write language depth).toList := by
  induction m using Markup.induction with
  | text data => exact fun _ h => absurd h List.not_mem_nil
  | element outer children ih =>
    intro depth h
    obtain ⟨hstart, hchildren⟩ := infix_write_element language outer children depth
    rw [elements, List.mem_cons, elementsAll_eq_flatMap] at h
    rcases h with h | h
    · cases h
      exact hstart
    · -- The element is further down, so there is more in this one than a text on its line.
      obtain ⟨m, hm, hmem⟩ := List.mem_flatMap.mp h
      have hnotText : ∀ data, children ≠ [.text data] := by
        intro data htext
        rw [htext, List.mem_singleton] at hm
        rw [hm] at hmem
        exact absurd hmem List.not_mem_nil
      exact (ih m hm (depth + 1) hmem).trans
        ((infix_writeAll hm (depth + 1)).trans (hchildren hnotText))

/-- An attribute of an element is in what is written for the tree around the element. -/
theorem attribute_infix_write {m : Markup} {start : StartTag} {inner : List Markup}
    {a : Attribute} (hmem : .element start inner ∈ m.elements) (ha : a ∈ start.attributes)
    (depth : Nat) : (a.write language).toList <:+: (m.write language depth).toList := by
  have hstart : (a.write language).toList <:+: (start.write language).toList := by
    refine infix_append_text (Or.inr (infix_join (List.mem_map_of_mem ha) ?_))
    exact infix_append_text (Or.inr List.infix_rfl)
  exact hstart.trans (start_infix_write m depth hmem)

end Markup

end DesignCompiler
