import DesignCompiler.Proofs.Emit.Callees
/-!
# Shares of the space of a line

A widget that takes a share of the space of a line is an `Expanded` call, which Flutter allows only
for an item of a row or a column. In the widget tree the share stands somewhere in the chain of
wrappers of the item, below a rotation or an opacity. It is dropped at its own place
(`Flutter.wrapper`) and put back around the whole item (`Flutter.flexItem`).

* `Expr.OccursAt` says where an expression stands in another one, and `Expr.Confined` that all
  `Expanded` calls in it are items of lines. All ways to build an expression keep this, and an item
  may be such a call itself as long as it is one of a line (`Flutter.confined_flexLine`);
* `Flutter.effectCalls` lists the calls that a wrapper is written as, and a chain is written as the
  calls of its wrappers in their order (`Flutter.expr_eq_nest`). A share has no calls there, so the
  item of a chain is the share, if it has one, around all others (`Flutter.itemOf_lineItem`).

A second share in a chain is dropped as well: there is only one place for it, and the outermost one
has taken it.
-/

namespace DesignCompiler

/-! ### Places in an expression -/

/-- A step from an expression to one in it. -/
inductive ExprStep where
  /-- To an argument of a call. -/
  | argument (callee : String) (label : Option String)
  /-- To an item of a list. -/
  | item
deriving DecidableEq, Repr

namespace Expr

/-- **Where an expression stands in another one:** the steps that lead to it from the outside. -/
inductive OccursAt : Expr → List ExprStep → Expr → Prop
  | here (e : Expr) : OccursAt e [] e
  | argument {callee : String} {arguments : List (Argument Expr)} {a : Argument Expr}
      {path : List ExprStep} {e : Expr} (ha : a ∈ arguments) (h : OccursAt a.value path e) :
      OccursAt (.call callee arguments) (.argument callee a.label :: path) e
  | item {items : List Expr} {item : Expr} {path : List ExprStep} {e : Expr} (hitem : item ∈ items)
      (h : OccursAt item path e) : OccursAt (.list items) (.item :: path) e

/-- An occurrence in an occurrence is one in the whole, at the longer path. -/
theorem OccursAt.trans {e inner innermost : Expr} {path further : List ExprStep}
    (h : e.OccursAt path inner) (h' : inner.OccursAt further innermost) :
    e.OccursAt (path ++ further) innermost := by
  induction h with
  | here => exact h'
  | argument ha _ ih => exact .argument ha (ih h')
  | item hitem _ ih => exact .item hitem (ih h')

/-- **A place in a line:** an item of the list of children of a row or a column. -/
def InLine (path : List ExprStep) : Prop :=
  ∃ above line, path = above ++ [.argument line (some "children"), .item] ∧
    (line = "Row" ∨ line = "Column")

/-- What is in a line stays so beneath a further step. -/
theorem InLine.cons {path : List ExprStep} (h : InLine path) (step : ExprStep) :
    InLine (step :: path) := by
  obtain ⟨above, line, rfl, hline⟩ := h
  exact ⟨step :: above, line, rfl, hline⟩

/-- Whether an expression takes a share of the space. -/
def isShare (e : Expr) : Bool := e.callee? == some "Expanded"

/-- **All shares in an expression are taken by items of lines.** -/
def Confined (e : Expr) : Prop :=
  ∀ path call, e.OccursAt path call → call.isShare = true → InLine path

/-- An expression whose shares are confined is none itself. -/
theorem Confined.not_isShare {e : Expr} (h : e.Confined) : e.isShare = false := by
  -- The whole expression is not an item of anything.
  by_contra hshare
  obtain ⟨above, line, hpath, -⟩ := h [] e (.here e) (by simpa using hshare)
  simp at hpath

theorem confined_literal (text : String) : (literal text).Confined := by
  rintro path call ⟨⟩ hshare
  cases hshare

/-- A call of something else confines the shares that its arguments confine. -/
theorem confined_call {callee : String} {arguments : List (Argument Expr)}
    (hcallee : callee ≠ "Expanded") (h : ∀ a ∈ arguments, a.value.Confined) :
    (call callee arguments).Confined := by
  intro path found hoccurs hshare
  cases hoccurs with
  | here => exact absurd (by simpa [isShare, callee?] using hshare) hcallee
  | argument ha hinner => exact (h _ ha _ _ hinner hshare).cons _

/-- So does a list, for its items. -/
theorem confined_list {items : List Expr} (h : ∀ e ∈ items, e.Confined) :
    (list items).Confined := by
  intro path found hoccurs hshare
  cases hoccurs with
  | here => cases hshare
  | item hitem hinner => exact (h _ hitem _ _ hinner hshare).cons _

/-- What is built without shares is confined. -/
theorem Built.confined {S : String → Prop} {callees : List String} {e : Expr}
    (h : e.Built S callees) (hcallees : "Expanded" ∉ callees) : e.Confined := by
  induction h with
  | literal => exact confined_literal _
  | call hcallee _ _ ih => exact confined_call (fun heq => hcallees (heq ▸ hcallee)) ih
  | list _ ih => exact confined_list ih

end Expr

open DesignCompiler.Expr

namespace Flutter

/-! ### Calls around a widget -/

/-- Calls around an expression, each with the next one for its child. -/
def nest (calls : List (String × List (Argument Expr))) (e : Expr) : Expr :=
  calls.foldr (fun call inner => around call.1 call.2 inner) e

@[simp] theorem nest_nil (e : Expr) : nest [] e = e := rfl

theorem nest_append (calls others : List (String × List (Argument Expr))) (e : Expr) :
    nest (calls ++ others) e = nest calls (nest others e) :=
  List.foldr_append

/-- A child stands in what is around it. -/
theorem occursAt_around (callee : String) (arguments : List (Argument Expr)) (child : Expr) :
    (around callee arguments child).OccursAt [.argument callee (some "child")] child :=
  .argument (a := named "child" child) (List.mem_append_right _ List.mem_cons_self) (.here child)

/-- It stands in a whole nest of calls. -/
theorem exists_occursAt_nest (calls : List (String × List (Argument Expr))) (e : Expr) :
    ∃ path, (nest calls e).OccursAt path e := by
  induction calls with
  | nil => exact ⟨[], .here e⟩
  | cons call calls ih =>
    obtain ⟨path, h⟩ := ih
    exact ⟨_, (occursAt_around _ _ _).trans h⟩

/-- **The calls that an effect is written as,** outermost first, with their other arguments. -/
def effectCalls (parent : Option Direction) : Wrapper → List (String × List (Argument Expr))
  | .opacity opacity => [("Opacity", [numbered "opacity" opacity])]
  | .stretched axis =>
    match stretchAxis? parent axis with
    | some .horizontal => [("SizedBox", [named "width" (.literal "double.infinity")])]
    | some .vertical => [("SizedBox", [named "height" (.literal "double.infinity")])]
    | some .both | some .cross => [("SizedBox.expand", [])]
    | none => []
  | .expanded _ => []
  | .blurred blur =>
    match blur.kind with
    | .layer => [("ImageFiltered", [named "imageFilter" (blurFilter blur)])]
    | .background => [("ClipRect", []), ("BackdropFilter", [named "filter" (blurFilter blur)])]
  | .rotation angle => [("Transform.rotate", [named "angle" (.literal (Float.text angle))])]
  | .sizedBox width height => [("SizedBox", [numbered "width" width, numbered "height" height])]
  | .overflowBox =>
    [("ClipRect", []), ("OverflowBox", [named "alignment" (.literal "Alignment.topLeft")])]

/-- The share that a wrapper asks for. -/
def share? : Wrapper → Option UInt32
  | .expanded flex => some flex
  | _ => none

/-- The call that takes a share. -/
def shareCall (flex : UInt32) : String × List (Argument Expr) :=
  ("Expanded", [named "flex" (.literal (toString flex.toNat))])

/-- **A wrapper is a nest of its calls.** -/
theorem wrapper_eq_nest (parent : Option Direction) (w : Wrapper) (child : Expr) :
    wrapper parent w child = nest (effectCalls parent w) child := by
  -- Stretching depends on the line around it and a blur on its kind; the others are one call.
  cases w with
  | stretched axis =>
    simp only [wrapper, stretched, effectCalls]
    cases stretchAxis? parent axis with
    | none => rfl
    | some axis => cases axis <;> rfl
  | blurred blur =>
    simp only [wrapper, blurred, effectCalls]
    cases blur.kind <;> rfl
  | _ => rfl

/-- **In a line only a share is left out.** -/
theorem effectCalls_eq_nil_iff (direction : Direction) (w : Wrapper) :
    effectCalls (some direction) w = [] ↔ (share? w).isSome = true := by
  cases w with
  | stretched axis => cases axis <;> cases direction <;> simp [effectCalls, stretchAxis?, share?]
  | blurred blur => cases hkind : blur.kind <;> simp [effectCalls, hkind, share?]
  | _ => simp [effectCalls, share?]

/-- **A chain is written as the calls of its wrappers** in their order, around what is beneath. -/
theorem expr_eq_nest (parent : Option Direction) (w : Widget) :
    expr parent w = nest (w.wrappers.flatMap (effectCalls parent)) (expr parent w.unwrapped) := by
  induction w using Widget.induction with
  | leaf => rfl
  | box => rfl
  | wrap key style wrapper child ih =>
    rw [Widget.wrappers, List.flatMap_cons, nest_append, Widget.unwrapped_wrap, ← ih, expr_wrap,
      wrapper_eq_nest]

/-! ### Items -/

/-- A line with a spacer between each two items that are next to each other, if it has a gap. -/
def spaced (line : FlexLine) (items : List Expr) : List Expr :=
  if line.gap > 0 then items.intersperse (spacer line) else items

/-- **The calls of a chain in a line:** the share that its outermost wrapper of that kind asks for,
then all other wrappers in their order. -/
def itemCalls (direction : Direction) (wrappers : List Wrapper) :
    List (String × List (Argument Expr)) :=
  ((wrappers.findSome? share?).map shareCall).toList ++
    (wrappers.filter (share? · = none)).flatMap (effectCalls (some direction))

/-- A share in a line makes no call of its own. -/
theorem flatMap_effectCalls (direction : Direction) (wrappers : List Wrapper) :
    wrappers.flatMap (effectCalls (some direction)) =
      (wrappers.filter (share? · = none)).flatMap (effectCalls (some direction)) := by
  induction wrappers with
  | nil => rfl
  | cons w rest ih =>
    rw [List.flatMap_cons, ih]
    cases hshare : share? w with
    | none => simp [hshare]
    | some flex =>
      -- A share is written by the item of the line, not as a call around the child.
      have hcalls : effectCalls (some direction) w = [] :=
        (effectCalls_eq_nil_iff direction w).mpr (by simp [hshare])
      simp [hshare, hcalls]

theorem flexShare?_eq (w : Widget) : flexShare? w = w.wrappers.findSome? share? := by
  unfold flexShare?
  congr 1

/-- What a child of a line is written as. -/
def lineItem (direction : Direction) (w : Widget) : Expr :=
  flexItem (flexShare? w) (expr (some direction) w)

/-- **The item of a line is a nest of calls** around the widget beneath the wrappers. -/
theorem lineItem_eq_nest (direction : Direction) (w : Widget) :
    lineItem direction w =
      nest (itemCalls direction w.wrappers) (expr (some direction) w.unwrapped) := by
  rw [lineItem, expr_eq_nest, flatMap_effectCalls, flexShare?_eq, itemCalls, nest_append]
  cases w.wrappers.findSome? share? <;> rfl

/-- Between items there is a space in front of each but the first. -/
theorem intersperse_cons {α : Type} (sep x : α) (items : List α) :
    (x :: items).intersperse sep = x :: items.flatMap fun item => [sep, item] := by
  induction items generalizing x with
  | nil => rfl
  | cons y rest ih => simp [ih]

/-- **A line holds one item for each child,** and the gaps between them. -/
theorem flexItems_eq (line : FlexLine) (children : List (Placed Widget)) :
    flexItems line true children =
      spaced line (children.map fun c => lineItem line.direction c.item) := by
  -- After the first item, each child brings the gap before it.
  have hrest : ∀ rest : List (Placed Widget), flexItems line false rest = rest.flatMap fun c =>
      (if line.gap > 0 then [spacer line] else []) ++ [lineItem line.direction c.item] := by
    intro rest
    induction rest with
    | nil => rfl
    | cons c rest ih =>
      obtain ⟨x, y, w⟩ := c
      rw [flexItems_cons, ih, List.flatMap_cons]
      simp [lineItem]
  cases children with
  | nil => simp [flexItems_nil, spaced]
  | cons c rest =>
    obtain ⟨x, y, w⟩ := c
    rw [flexItems_cons, hrest, spaced]
    by_cases hgap : line.gap > 0
    · simp [hgap, lineItem, intersperse_cons, List.flatMap_map]
    · simp [hgap, lineItem, List.map_eq_flatMap]

/-- **What a child is written as in a line.** -/
structure ItemOf (direction : Direction) (w : Widget) (item : Expr) : Prop where
  /-- The item takes a share exactly if a wrapper of the chain asks for one. -/
  isShare_iff : item.isShare = true ↔ ∃ flex, .expanded flex ∈ w.wrappers
  /-- It is the calls of the chain around what is beneath. -/
  eq_nest : item = nest (itemCalls direction w.wrappers) (expr (some direction) w.unwrapped)
  /-- No wrapper but a share is left out. -/
  ne_nil : ∀ v ∈ w.wrappers, share? v = none → effectCalls (some direction) v ≠ []

/-! ### Places of shares -/

/-- No share in the values of some arguments is outside the lines. -/
def ConfinedArguments (arguments : List (Argument Expr)) : Prop :=
  ∀ a ∈ arguments, a.value.Confined

theorem confinedArguments_of_look {S : String → Prop} {arguments : List (Argument Expr)}
    (h : BuiltArguments S lookCallees arguments) : ConfinedArguments arguments :=
  fun a ha => (h a ha).2.confined (by decide)

/-- What is around a child confines the shares in it. -/
theorem confined_around {callee : String} {arguments : List (Argument Expr)} {child : Expr}
    (hcallee : callee ≠ "Expanded") (h : ConfinedArguments arguments) (hchild : child.Confined) :
    (around callee arguments child).Confined :=
  confined_call hcallee (List.forall_mem_append.mpr ⟨h, by simpa [named] using hchild⟩)

/-- So do the arguments of a child that may be missing. -/
theorem confinedArguments_child {child : Option Expr} (h : ∀ e, child = some e → e.Confined) :
    ConfinedArguments (named? "child" id child) := by
  cases child with
  | none => exact fun _ h => absurd h List.not_mem_nil
  | some e => simpa [ConfinedArguments, named?, named] using h e rfl

/-- So does a container. -/
theorem confined_container (s : Style) (shape : BoxShape) (clip : Bool) {child : Option Expr}
    (h : ∀ e, child = some e → e.Confined) : (container s shape clip child).Confined := by
  have hlooks := builtArguments_looks (S := fun _ => True) (s := s) (fun _ _ => trivial) shape clip
  refine confined_call (by decide) ?_
  refine List.forall_mem_append.mpr ⟨List.forall_mem_append.mpr ⟨?_, ?_⟩, ?_⟩
  · exact confinedArguments_of_look hlooks
  · split
    · simpa [member, named] using confined_literal _
    · simp
  · exact confinedArguments_child h

/-- So does a stack. -/
theorem confined_stack {children : List Expr} (h : ∀ e ∈ children, e.Confined) :
    ∀ e, stack? children = some e → e.Confined := by
  intro e he
  unfold stack? at he
  split at he
  · cases he
  · cases he
    exact confined_call (by decide) (by simpa [named] using confined_list h)

/-- No effect is a share, and there is none in its arguments. -/
theorem confined_effectCalls (parent : Option Direction) (w : Wrapper) :
    ∀ call ∈ effectCalls parent w, call.1 ≠ "Expanded" ∧ ConfinedArguments call.2 := by
  have hliteral := confined_literal
  have hfilter : ∀ blur, (blurFilter blur).Confined := fun blur =>
    confined_call (by decide) (by simp [numbered, named, number, hliteral])
  unfold ConfinedArguments
  -- Axes and blurs may make two calls or none; all others make one.
  cases w with
  | stretched axis =>
    simp only [effectCalls]
    split <;> simp [named, hliteral]
  | blurred blur =>
    simp only [effectCalls]
    split <;> simp [named, hfilter]
  | _ => simp [effectCalls, named, numbered, number, hliteral]

/-- So does a nest of calls. -/
theorem confined_nest {calls : List (String × List (Argument Expr))} {e : Expr}
    (h : ∀ call ∈ calls, call.1 ≠ "Expanded" ∧ ConfinedArguments call.2) (he : e.Confined) :
    (nest calls e).Confined := by
  induction calls with
  | nil => exact he
  | cons call calls ih =>
    obtain ⟨⟨hcallee, harguments⟩, hcalls⟩ := List.forall_mem_cons.mp h
    exact confined_around hcallee harguments (ih hcalls)

/-- **A share in a line** is in one of its items, right beneath the children of the line. -/
theorem occursAt_flexLine {line : FlexLine} {items : List Expr} {path : List ExprStep} {e : Expr}
    (h : (flexLine line items).OccursAt path e) (hshare : e.isShare = true) :
    ∃ item ∈ items, ∃ further,
      path = .argument (lineName line.direction) (some "children") :: .item :: further ∧
        item.OccursAt further e := by
  cases h with
  | here =>
    have hname : lineName line.direction ≠ "Expanded" := by
      cases line.direction <;> decide
    exact absurd (by simpa [isShare, callee?, flexLine] using hshare) hname
  | argument ha hinner =>
    simp only [List.mem_cons, List.not_mem_nil, or_false] at ha
    -- A line has three arguments, and only its children are no literal.
    rcases ha with rfl | rfl | rfl
    · exact absurd hshare (by cases hinner; exact Bool.false_ne_true)
    · exact absurd hshare (by cases hinner; exact Bool.false_ne_true)
    · cases hinner with
      | here => cases hshare
      | item hitem hbeneath => exact ⟨_, hitem, _, rfl, hbeneath⟩

/-- **A line may hold shares,** as items. -/
theorem confined_flexLine (line : FlexLine) {items : List Expr}
    (h : ∀ e ∈ items, ∃ share inner, e = flexItem share inner ∧ inner.Confined) :
    (flexLine line items).Confined := by
  have hline : lineName line.direction = "Row" ∨ lineName line.direction = "Column" := by
    cases line.direction <;> decide
  intro path call hoccurs hshare
  obtain ⟨item, hitem, further, rfl, hbeneath⟩ := occursAt_flexLine hoccurs hshare
  obtain ⟨share, inner, rfl, hinner⟩ := h item hitem
  have hbelow (hconfined : InLine further) :
      InLine (.argument (lineName line.direction) (some "children") :: .item :: further) :=
    (hconfined.cons _).cons _
  cases share with
  | none => exact hbelow (hinner _ _ hbeneath hshare)
  | some flex =>
    -- The share itself, or one beneath it.
    cases hbeneath with
    | here => exact ⟨[], _, rfl, hline⟩
    | argument ha hbeneath =>
      simp only [List.mem_append, List.mem_cons, List.not_mem_nil, or_false] at ha
      rcases ha with rfl | rfl
      · exact absurd hshare (by cases hbeneath; exact Bool.false_ne_true)
      · exact hbelow ((hinner _ _ hbeneath hshare).cons _)

/-- Places confine the shares of the children at them. -/
theorem confined_positionedItems {children : List (Placed Widget)}
    (h : ∀ c ∈ children, ∀ parent, (expr parent c.item).Confined) :
    ∀ e ∈ positionedItems children, e.Confined := by
  rw [positionedItems_eq_map, List.forall_mem_map]
  intro c hc
  refine confined_around (by decide) ?_ (h c hc none)
  simp [ConfinedArguments, numbered, named, number, confined_literal]

/-- Between the items of a line there are spaces only. -/
theorem mem_spaced {line : FlexLine} {items : List Expr} {e : Expr} (h : e ∈ spaced line items) :
    e ∈ items ∨ e = spacer line := by
  unfold spaced at h
  split at h
  · cases items with
    | nil => cases h
    | cons item rest =>
      rw [intersperse_cons] at h
      grind
  · exact Or.inl h

/-- All items are among the spaced ones. -/
theorem mem_spaced_of_mem {line : FlexLine} {items : List Expr} {e : Expr} (h : e ∈ items) :
    e ∈ spaced line items := by
  unfold spaced
  split
  · cases items with
    | nil => cases h
    | cons item rest =>
      rw [intersperse_cons]
      grind
  · exact h

theorem confined_spacer (line : FlexLine) : (spacer line).Confined :=
  confined_call (by decide) (by simp [numbered, named, number, confined_literal])

/-- **All shares in the expression of a widget are taken by items of lines.** -/
theorem confined_expr (w : Widget) : ∀ parent, (expr parent w).Confined := by
  -- For all parents at once, since a line is the parent of its items.
  induction w using Widget.induction with
  | leaf key style content =>
    have hbuilt : (leaf key style content).Built (fun _ => True) leafCallees :=
      built_leaf key style fun _ _ => trivial
    intro parent
    rw [expr_leaf]
    exact hbuilt.confined (by decide)
  | box key style arrangement children ih =>
    intro parent
    have hstack := confined_stack (confined_positionedItems ih)
    cases arrangement with
    | container shape clip =>
      rw [expr_container]
      exact confined_container style shape clip hstack
    | stack isRoot =>
      rw [expr_stack]
      exact confined_container style .rectangle isRoot hstack
    | group =>
      have hsizes : ConfinedArguments (sizeArguments style) :=
        confinedArguments_of_look (built_sizeArguments (S := fun _ => True) style)
      rw [expr_group]
      exact confined_call (by decide)
        (List.forall_mem_append.mpr ⟨hsizes, confinedArguments_child hstack⟩)
    | flex line isRoot =>
      rw [expr_flex]
      refine confined_container style .rectangle isRoot fun e he => ?_
      cases he
      refine confined_flexLine line fun item hitem => ?_
      rw [flexItems_eq] at hitem
      rcases mem_spaced hitem with hitem | rfl
      · obtain ⟨c, hc, rfl⟩ := List.mem_map.mp hitem
        exact ⟨_, _, rfl, ih c hc _⟩
      · exact ⟨none, _, rfl, confined_spacer line⟩
  | wrap key style wrapper child ih =>
    intro parent
    rw [expr_wrap, wrapper_eq_nest]
    exact confined_nest (confined_effectCalls parent wrapper) (ih parent)

/-! ### Items of lines -/

theorem share?_eq_some {w : Wrapper} {flex : UInt32} :
    share? w = some flex ↔ w = .expanded flex := by
  cases w <;> simp [share?]

/-- **The item of a widget has its share and its other wrappers,** each as it is asked for. -/
theorem itemOf_lineItem (direction : Direction) (w : Widget) :
    ItemOf direction w (lineItem direction w) where
  isShare_iff := by
    rw [lineItem, flexShare?_eq]
    -- Without a share among the wrappers, the item is no share either, since shares stand in lines
    -- only.
    cases hshare : w.wrappers.findSome? share? with
    | none =>
      have hnone : ∀ flex, Wrapper.expanded flex ∉ w.wrappers := fun flex hmem => by
        simpa [share?] using List.findSome?_eq_none_iff.mp hshare _ hmem
      simp [flexItem, (confined_expr w _).not_isShare, hnone]
    | some flex =>
      obtain ⟨v, hv, hflex⟩ := List.exists_of_findSome?_eq_some hshare
      have hmem : Wrapper.expanded flex ∈ w.wrappers := share?_eq_some.mp hflex ▸ hv
      exact iff_of_true rfl ⟨flex, hmem⟩
  eq_nest := lineItem_eq_nest direction w
  ne_nil v _ hv h := by simpa [hv] using (effectCalls_eq_nil_iff direction v).mp h

/-! ### Places of widgets -/

theorem occursAt_container (s : Style) (shape : BoxShape) (clip : Bool) (child : Expr) :
    (container s shape clip (some child)).OccursAt [.argument "Container" (some "child")] child :=
  .argument (a := named "child" child) (List.mem_append_right _ List.mem_cons_self) (.here child)

/-- Children stand in their stack. -/
theorem occursAt_stack {children : List Expr} {e : Expr} (h : e ∈ children) :
    ∃ stack path, stack? children = some stack ∧ stack.OccursAt path e := by
  have hne : children.isEmpty = false := by
    cases children with
    | nil => cases h
    | cons => rfl
  exact ⟨_, _, if_neg (by simp [hne]), .argument List.mem_cons_self (.item h (.here e))⟩

/-- Children stand at their places. -/
theorem occursAt_positionedItems {children : List (Placed Widget)} {c : Placed Widget}
    (h : c ∈ children) :
    ∃ e ∈ positionedItems children, ∃ path, e.OccursAt path (expr none c.item) := by
  rw [positionedItems_eq_map]
  exact ⟨_, List.mem_map_of_mem h, _, occursAt_around _ _ _⟩

/-- A widget stands in its item. -/
theorem occursAt_lineItem (direction : Direction) (w : Widget) :
    ∃ path, (lineItem direction w).OccursAt path (expr (some direction) w) := by
  unfold lineItem
  cases flexShare? w with
  | none => exact ⟨_, .here _⟩
  | some flex => exact ⟨_, occursAt_around _ _ _⟩

/-- Items stand in their line. -/
theorem flexLine_occursAt {line : FlexLine} {items : List Expr} {e : Expr} (h : e ∈ items) :
    (flexLine line items).OccursAt
      [.argument (lineName line.direction) (some "children"), .item] e :=
  .argument (a := named "children" (.list items)) (by simp) (.item h (.here e))

/-- Each child of a box is written in the box. -/
theorem occursAt_box (key : WidgetKey) (style : Style) (arrangement : Arrangement)
    {children : List (Placed Widget)} {c : Placed Widget} (h : c ∈ children)
    (parent : Option Direction) :
    ∃ path inside, (expr parent (.box key style arrangement children)).OccursAt path
      (expr inside c.item) := by
  obtain ⟨e, he, inner, hinner⟩ := occursAt_positionedItems h
  obtain ⟨stack, path, hstack, hitem⟩ := occursAt_stack he
  -- In all arrangements but the line, children stand at places in a stack.
  cases arrangement with
  | container shape clip =>
    rw [expr_container, hstack]
    exact ⟨_, _, ((occursAt_container _ _ _ _).trans hitem).trans hinner⟩
  | stack isRoot =>
    rw [expr_stack, hstack]
    exact ⟨_, _, ((occursAt_container _ _ _ _).trans hitem).trans hinner⟩
  | group =>
    rw [expr_group, hstack]
    exact ⟨_, _, ((occursAt_around _ _ _).trans hitem).trans hinner⟩
  | flex line isRoot =>
    rw [expr_flex, flexItems_eq]
    have hmem : lineItem line.direction c.item ∈
        spaced line (children.map fun c => lineItem line.direction c.item) :=
      mem_spaced_of_mem (List.mem_map_of_mem h)
    obtain ⟨above, hitem⟩ := occursAt_lineItem line.direction c.item
    exact ⟨_, _, ((occursAt_container _ _ _ _).trans (flexLine_occursAt hmem)).trans hitem⟩

/-- **Every widget of a tree is written somewhere** in the expression of the tree. -/
theorem occursAt_of_mem_walk {v w : Widget} (h : v ∈ w.walk) (parent : Option Direction) :
    ∃ path inside, (expr parent w).OccursAt path (expr inside v) := by
  -- The path goes down the tree; what is around a child on the way is a box or a nest of calls.
  induction w using Widget.induction generalizing parent with
  | leaf =>
    cases List.mem_singleton.mp h
    exact ⟨_, _, .here _⟩
  | box key style arrangement children ih =>
    rw [Widget.walk, Widget.walkAll_eq_flatMap] at h
    rcases List.mem_cons.mp h with rfl | h
    · exact ⟨_, _, .here _⟩
    · obtain ⟨c, hc, hv⟩ := List.mem_flatMap.mp h
      obtain ⟨path, inside, hbox⟩ := occursAt_box key style arrangement hc parent
      obtain ⟨further, inner, hchild⟩ := ih c hc hv inside
      exact ⟨_, _, hbox.trans hchild⟩
  | wrap key style wrapper child ih =>
    rcases List.mem_cons.mp h with rfl | h
    · exact ⟨_, _, .here _⟩
    · obtain ⟨path, inside, hchild⟩ := ih h parent
      rw [expr_wrap, wrapper_eq_nest]
      obtain ⟨above, hnest⟩ := exists_occursAt_nest (effectCalls parent wrapper) (expr parent child)
      exact ⟨_, _, hnest.trans hchild⟩

/-- **Shares in lines:** what holds of the expression of a widget. -/
structure SharesInLines (w : Widget) (e : Expr) : Prop where
  /-- A share is only taken by an item of a row or a column. -/
  confined : e.Confined
  /-- The line of a box is written somewhere. Between the gaps it has one item for each child. -/
  lines : ∀ key style line isRoot children, .box key style (.flex line isRoot) children ∈ w.walk →
    ∃ path items,
      e.OccursAt path
        (container style .rectangle isRoot (some (flexLine line (spaced line items)))) ∧
      List.Forall₂ (fun c item => ItemOf line.direction c.item item) children items

/-- **Shares of the space of a line are taken where they are allowed, and by the right items.** -/
theorem sharesInLines_emit (w : Widget) : ∃ e, (emit w).body = [e] ∧ SharesInLines w e := by
  refine ⟨_, body_emit w, confined_expr w none, fun key style line isRoot children hmem => ?_⟩
  obtain ⟨path, parent, hoccurs⟩ := occursAt_of_mem_walk hmem none
  rw [expr_flex, flexItems_eq] at hoccurs
  refine ⟨path, _, hoccurs, ?_⟩
  rw [List.forall₂_map_right_iff, List.forall₂_same]
  exact fun c _ => itemOf_lineItem line.direction c.item

end Flutter

end DesignCompiler
