import DesignCompiler.Emit.Web
import DesignCompiler.Proofs.Markup.Print
import DesignCompiler.Proofs.Style.Chains
/-!
# Elements and their chains

The elements of a tree are written by a walk of its own, which looks the entries of the chains up
under their ids. `StyleBinding.markup_head` puts the two together: the element of a chain has the
start tag that the entry leads to, the content of the chain, and the elements of the chains right
beneath it.

* `StyleBinding.stands_markup` — what holds of each chain and its start tag holds all over the tree;
* `StyleBinding.exists_mem_elements` — every chain has its element.
-/

namespace DesignCompiler

/-- **An element stands for a chain** if `P` holds of the chain and its start tag, and after the
content of the chain come elements that stand for the chains right beneath it. -/
inductive Stands (b : StyleBinding) (P : Chain → StartTag → Prop) : Chain → Markup → Prop
  | element {c : Chain} {start : StartTag} {inner : List Markup} (holds : P c start)
      (beneath : List.Forall₂ (Stands b P) c.children inner) :
      Stands b P c (.element start (b.content c.element ++ inner))

namespace StyleBinding

variable {b : StyleBinding} {sheet : StyleSheet}

/-- The start tag that the entry of a chain leads to. -/
def chainTag (b : StyleBinding) (sheet : StyleSheet) (c : Chain) : StartTag :=
  b.startTag sheet c.id c.element.start

/-- The markup of several children is that of each. -/
theorem markupAll_eq_map (children : List (Placed Widget)) :
    b.markupAll sheet children = children.map fun d => b.markup sheet d.item := by
  induction children with
  | nil => rfl
  | cons d rest ih => obtain ⟨x, y, w⟩ := d; rw [markupAll, ih]; rfl

/-- The element that is written on the way down a chain is that of its head. -/
theorem markup_of_unwrapped (w : Widget) :
    ∀ c : Chain, c.head.unwrapped = w.unwrapped →
      b.markup sheet w = .element (b.chainTag sheet c)
        (b.content c.element ++ c.children.map fun d => b.markup sheet d.head) := by
  induction w using Widget.induction with
  | leaf key style content =>
    -- The end of the chain is reached, and what is written there is known from the head.
    intro c h
    have hid : c.id = key.id := congrArg Widget.id h
    have helement : c.element = content.element key.originName := by
      rw [Chain.element, ← Widget.element_unwrapped, h]
      rfl
    have hchildren : c.children = [] := by rw [Chain.children, h]; rfl
    rw [markup, chainTag, hid, helement, hchildren, List.map_nil, List.append_nil]
  | box key style arrangement children _ =>
    intro c h
    have hid : c.id = key.id := congrArg Widget.id h
    have helement : c.element = { start := { name := "div" } } := by
      rw [Chain.element, ← Widget.element_unwrapped, h]
      rfl
    have hchildren : c.children = children.map fun d => ⟨d.item, arrangement.placement d⟩ := by
      rw [Chain.children, h]
      rfl
    rw [markup, chainTag, hid, helement, hchildren, List.map_map, markupAll_eq_map]
    rfl
  | wrap key style wrapper child ih =>
    intro c h
    rw [markup]
    exact ih c h

/-- **The element of a chain:** its start tag, its content, and the elements beneath it. -/
theorem markup_head (c : Chain) :
    b.markup sheet c.head = .element (b.chainTag sheet c)
      (b.content c.element ++ c.children.map fun d => b.markup sheet d.head) :=
  markup_of_unwrapped c.head c rfl

/-- **The markup of a tree stands for its chains,** with whatever holds of each of them and the start
tag that its entry leads to. -/
theorem stands_markup {P : Chain → StartTag → Prop} (c : Chain) :
    (∀ d ∈ c.head.chains c.placement, P d (b.chainTag sheet d)) →
      Stands b P c (b.markup sheet c.head) := by
  induction c using Chain.induction with
  | step c ih =>
    intro hall
    rw [Widget.chains_eq, List.forall_mem_cons] at hall
    rw [markup_head]
    -- The chain itself has what is asked, and each chain beneath it by induction.
    refine .element hall.1 ?_
    rw [List.forall₂_map_right_iff, List.forall₂_same]
    intro d hd
    exact ih d hd fun e he => hall.2 e (List.mem_flatMap.mpr ⟨d, hd, he⟩)

/-- Every chain of a tree has its element in the markup. -/
theorem exists_mem_elements (c : Chain) :
    ∀ d ∈ c.head.chains c.placement,
      ∃ inner, .element (b.chainTag sheet d) inner ∈ (b.markup sheet c.head).elements := by
  induction c using Chain.induction with
  | step c ih =>
    intro d hd
    rw [Widget.chains_eq, List.mem_cons] at hd
    rw [markup_head, Markup.elements]
    rcases hd with rfl | hd
    · exact ⟨_, List.mem_cons_self⟩
    · obtain ⟨e, he, hd⟩ := List.mem_flatMap.mp hd
      obtain ⟨inner, hinner⟩ := ih e he d hd
      -- The element is in that of the chain right beneath, which comes after the content.
      have hnode : b.markup sheet e.head ∈
          b.content c.element ++ c.children.map fun d => b.markup sheet d.head :=
        List.mem_append_right _ (List.mem_map_of_mem he)
      exact ⟨inner, List.mem_cons_of_mem _ (Markup.mem_elementsAll_of_mem hnode hinner)⟩

end StyleBinding

end DesignCompiler
