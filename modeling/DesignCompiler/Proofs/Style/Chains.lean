import DesignCompiler.Proofs.Record
import DesignCompiler.Proofs.Related
import DesignCompiler.Proofs.Style.Identifier
import DesignCompiler.Proofs.Widget.Contents
import DesignCompiler.Style.Map
/-!
# Chains and their entries

On the web a widget and the wrappers above it are one element. Such a *chain* is known by the widget
that it starts at and by where it stands in its parent (`Chain`), and the chains of a tree come in
the order of its contents (`Widget.map_widget_chains`).

`Namer.entriesOf` walks down a tree with a namer in its hands. What it makes are the entries of the
chains in their order, and the namer goes along them as along a list (`Namer.entriesOf_eq`). From
there on a style map is followed by induction over a list:

* `Namer.entries_entriesAlong` — each entry is that of its chain, under some name;
* `Namer.names_entriesAlong` — no name is declared twice, and each was free at the start;
* `Namer.toList_styleMap` — where the ids are distinct, a style map holds just these entries.
-/

namespace DesignCompiler

/-! ### Chains -/

/-- **A chain:** the wrappers above a widget and the widget, at a place in their parent. -/
structure Chain where
  head : Widget
  placement : Placement

namespace Chain

/-- The widget beneath the wrappers. -/
def widget (c : Chain) : Widget := c.head.unwrapped

/-- The id that the element of a chain goes by. -/
def id (c : Chain) : String := c.widget.id

/-- The element that a chain stands for. -/
def element (c : Chain) : OwnElement := c.head.element

/-- The computed style of a chain. -/
def css? (c : Chain) : Option Css := c.head.css? c.placement

/-- The chains right beneath a chain. -/
def children (c : Chain) : List Chain :=
  match c.head.unwrapped with
  | .box _ _ arrangement children => children.map fun d => ⟨d.item, arrangement.placement d⟩
  | _ => []

/-- The chains right beneath a chain start at the children of its widget. -/
theorem map_head_children (c : Chain) :
    c.children.map (·.head) = c.head.unwrapped.layoutChildren.map (·.item) := by
  unfold children
  cases c.head.unwrapped <;> simp [Widget.layoutChildren]

/-- Each child of the box that a chain ends at starts a chain right beneath it. -/
theorem mem_children {c : Chain} {key : WidgetKey} {style : Style} {arrangement : Arrangement}
    {boxed : List (Placed Widget)} (h : c.widget = .box key style arrangement boxed)
    {d : Placed Widget} (hd : d ∈ boxed) : ⟨d.item, arrangement.placement d⟩ ∈ c.children := by
  rw [children, show c.head.unwrapped = _ from h]
  exact List.mem_map.mpr ⟨d, hd, rfl⟩

/-- Induction over the chains of a tree: a chain has the claim for those right beneath it. -/
@[elab_as_elim]
theorem induction {motive : Chain → Prop}
    (step : ∀ c, (∀ d ∈ c.children, motive d) → motive c) (c : Chain) : motive c := by
  -- The induction is on the way down the chain; what counts of a chain is where it ends.
  suffices h : ∀ (w : Widget) (c : Chain), c.widget = w.unwrapped → motive c from h c.head c rfl
  intro w
  induction w using Widget.induction with
  | leaf key style content =>
    intro c h
    refine step c fun d hd => ?_
    unfold widget at h
    rw [children, h] at hd
    exact absurd hd List.not_mem_nil
  | box key style arrangement boxed ih =>
    intro c h
    refine step c fun d hd => ?_
    unfold widget at h
    rw [children, h] at hd
    obtain ⟨e, he, rfl⟩ := List.mem_map.mp hd
    exact ih e he _ rfl
  | wrap key style wrapper child ih => exact ih

end Chain

namespace Widget

mutual

/-- The chain that starts at `head`, then the chains beneath it; the widget looked at is the one
that has been reached on the way down to the end of the chain. -/
def chainsFrom (head : Widget) (placement : Placement) : Widget → List Chain
  | wrap _ _ _ child => chainsFrom head placement child
  | leaf .. => [⟨head, placement⟩]
  | box _ _ arrangement children => ⟨head, placement⟩ :: chainsOfAll arrangement children

/-- The chains of the children of a box, child by child. -/
def chainsOfAll (arrangement : Arrangement) : List (Placed Widget) → List Chain
  | [] => []
  | ⟨x, y, w⟩ :: rest =>
    chainsFrom w (arrangement.placement ⟨x, y, w⟩) w ++ chainsOfAll arrangement rest

end

/-- **The chains of a tree** in the order of the walk. -/
def chains (w : Widget) (placement : Placement) : List Chain := chainsFrom w placement w

/-- The chains of a list of children are those of each child in turn. -/
theorem chainsOfAll_eq (arrangement : Arrangement) (children : List (Placed Widget)) :
    chainsOfAll arrangement children =
      children.flatMap fun d => d.item.chains (arrangement.placement d) := by
  induction children with
  | nil => rfl
  | cons d rest ih => obtain ⟨x, y, w⟩ := d; rw [chainsOfAll, ih]; rfl

/-- A chain is followed by those of the children of its last widget, whatever wraps it. -/
theorem chainsFrom_eq {head w : Widget} (h : head.unwrapped = w.unwrapped)
    (placement : Placement) :
    chainsFrom head placement w =
      ⟨head, placement⟩ ::
        (Chain.children ⟨head, placement⟩).flatMap fun d => d.head.chains d.placement := by
  induction w using Widget.induction with
  | leaf => simp [chainsFrom, Chain.children, h, unwrapped]
  | box key style arrangement children _ =>
    simp [chainsFrom, Chain.children, h, unwrapped, chainsOfAll_eq, List.flatMap_map]
  | wrap key style wrapper child ih => rw [chainsFrom, ih h]

/-- **The chains of a tree** are the one that it starts with and those of the chains beneath it. -/
theorem chains_eq (w : Widget) (placement : Placement) :
    w.chains placement =
      ⟨w, placement⟩ ::
        (Chain.children ⟨w, placement⟩).flatMap fun d => d.head.chains d.placement :=
  chainsFrom_eq rfl placement

/-- A widget is the head of the first of its chains. -/
theorem mem_chains_self (w : Widget) (placement : Placement) :
    ⟨w, placement⟩ ∈ w.chains placement := by
  rw [chains_eq]
  exact List.mem_cons_self

/-- With a chain, a tree has those right beneath it. -/
theorem mem_chains_of_mem_children {w : Widget} {placement : Placement} {c d : Chain}
    (hc : c ∈ w.chains placement) (hd : d ∈ c.children) : d ∈ w.chains placement := by
  -- By induction on the chains from the top, so that the induction hypothesis is about the
  -- children.
  suffices h : ∀ top : Chain, c ∈ top.head.chains top.placement →
      d ∈ top.head.chains top.placement from h ⟨w, placement⟩ hc
  clear hc
  intro top
  induction top using Chain.induction with
  | step top ih =>
    intro hc
    rw [chains_eq, List.mem_cons, List.mem_flatMap] at hc ⊢
    refine Or.inr ?_
    rcases hc with rfl | ⟨e, he, hc⟩
    · exact ⟨d, hd, mem_chains_self d.head d.placement⟩
    · exact ⟨e, he, ih e he hc⟩

/-- **There is one chain for each widget that is no wrapper,** in the order of the walk. -/
theorem map_widget_chains (w : Widget) (placement : Placement) :
    (w.chains placement).map (·.widget) = w.contents := by
  suffices h : ∀ c : Chain, (c.head.chains c.placement).map (·.widget) = c.head.contents from
    h ⟨w, placement⟩
  intro c
  induction c using Chain.induction with
  | step c ih =>
    -- Below the head, the chains of the children are walked in the order of the children.
    have hchildren : c.children.flatMap (·.head.contents) =
        c.head.unwrapped.layoutChildren.flatMap (·.item.contents) := by
      have hheads := congrArg (List.flatMap contents) c.map_head_children
      rwa [List.flatMap_map, List.flatMap_map] at hheads
    rw [chains_eq, contents_eq, List.map_cons, List.map_flatMap, ← hchildren]
    exact congrArg _ (List.flatMap_congr ih)

/-- What a tree shows ends a chain of it. -/
theorem exists_chain {v w : Widget} (hv : v ∈ w.contents) (placement : Placement) :
    ∃ c ∈ w.chains placement, c.widget = v := by
  rw [← map_widget_chains w placement] at hv
  exact List.mem_map.mp hv

/-- The ids of the chains of a tree are those of its contents. -/
theorem map_id_chains (w : Widget) (placement : Placement) :
    (w.chains placement).map (·.id) = w.contents.map (·.id) := by
  rw [← map_widget_chains w placement, List.map_map]
  rfl

end Widget

/-! ### Entries -/

/-- The declaration that an entry uses. -/
def StyleEntry.declaration? (e : StyleEntry) : Option StyleDeclaration :=
  e.styling.map (·.declaration)

/-- The declarations that some entries use, in their order. -/
def declarationsOf (pairs : List (String × StyleEntry)) : List StyleDeclaration :=
  pairs.filterMap fun pair => pair.2.declaration?

/-- An entry without css declares nothing. -/
theorem declarationsOf_cons_bare {entry : StyleEntry} (h : entry.declaration? = none)
    (id : String) (rest : List (String × StyleEntry)) :
    declarationsOf ((id, entry) :: rest) = declarationsOf rest := by
  unfold declarationsOf
  rw [List.filterMap_cons, h]

/-- An entry with css declares it under its name. -/
theorem declarationsOf_cons_styled {entry : StyleEntry} {d : StyleDeclaration}
    (h : entry.declaration? = some d) (id : String) (rest : List (String × StyleEntry)) :
    declarationsOf ((id, entry) :: rest) = d :: declarationsOf rest := by
  unfold declarationsOf
  rw [List.filterMap_cons, h]

/-- **The entry of a chain,** whose declaration has the name if it is styled. -/
def Chain.entry (p : StylePreferences) (c : Chain) (name : String) : StyleEntry :=
  match c.css? with
  | none => ⟨c.element.start.name, c.element.start.attributes, none⟩
  | some css =>
    ⟨if p.renameTag then name else c.element.start.name, c.element.start.attributes,
      some ⟨css, ⟨name, c.element.start.name, css⟩⟩⟩

/-- Whatever its name, an entry keeps the attributes of its element. -/
theorem Chain.attributes_entry (p : StylePreferences) (c : Chain) (name : String) :
    (c.entry p name).attributes = c.element.start.attributes := by
  unfold Chain.entry
  split <;> rfl

/-- An entry declares the css of its chain under the name it was given. -/
theorem Chain.declaration?_entry (p : StylePreferences) (c : Chain) (name : String) :
    (c.entry p name).declaration? =
      c.css?.map fun css => ⟨name, c.element.start.name, css⟩ := by
  unfold Chain.entry StyleEntry.declaration?
  cases c.css? <;> rfl

namespace Namer

variable {p : StylePreferences}

/-- The entries of some chains under their ids, with one namer for all of them in their order. -/
def entriesAlong (p : StylePreferences) :
    List Chain → Namer → List (String × StyleEntry) × Namer
  | [], n => ([], n)
  | c :: rest, n =>
    let (entry, n) := n.styleEntry p c.head c.placement
    let (entries, n) := entriesAlong p rest n
    ((c.id, entry) :: entries, n)

/-- Names are given along the chains in turn. -/
theorem entriesAlong_append (cs ds : List Chain) (n : Namer) :
    entriesAlong p (cs ++ ds) n =
      ((entriesAlong p cs n).1 ++ (entriesAlong p ds (entriesAlong p cs n).2).1,
        (entriesAlong p ds (entriesAlong p cs n).2).2) := by
  induction cs generalizing n with
  | nil => rfl
  | cons c cs ih => simp [entriesAlong, ih]

/-- **The entries beneath a chain** are those along the list of its chains. -/
theorem entriesOf_eq (w : Widget) :
    ∀ head placement n, head.unwrapped = w.unwrapped →
      entriesOf p head placement w n = entriesAlong p (Widget.chainsFrom head placement w) n := by
  induction w using Widget.induction with
  | leaf key style content =>
    intro head placement n h
    have hid : Chain.id ⟨head, placement⟩ = key.id := congrArg Widget.id h
    simp only [entriesOf, Widget.chainsFrom, entriesAlong, hid]
  | box key style arrangement children ih =>
    intro head placement n h
    have hid : Chain.id ⟨head, placement⟩ = key.id := congrArg Widget.id h
    -- The children are walked with one namer, so the claim is for every namer they start with.
    have hall : ∀ n, entriesOfAll p arrangement children n =
        entriesAlong p (Widget.chainsOfAll arrangement children) n := by
      clear h hid
      induction children with
      | nil => exact fun _ => rfl
      | cons d rest ihrest =>
        intro n
        have hd := ih d List.mem_cons_self d.item (arrangement.placement d)
        have hrest := ihrest fun e he => ih e (List.mem_cons_of_mem _ he)
        obtain ⟨x, y, w⟩ := d
        simp only [entriesOfAll, Widget.chainsOfAll, entriesAlong_append, hd _ rfl, hrest]
    simp only [entriesOf, Widget.chainsFrom, entriesAlong, hid, hall]
  | wrap key style wrapper child ih =>
    intro head placement n h
    rw [entriesOf, Widget.chainsFrom]
    exact ih head placement n h

/-- What the entry of a chain does to the namer: without a style nothing, else one name is taken. -/
theorem styleEntry_cases (p : StylePreferences) (c : Chain) (n : Namer) :
    (c.css? = none ∧ n.styleEntry p c.head c.placement = (c.entry p "", n)) ∨
    ∃ css wanted, c.css? = some css ∧
      n.styleEntry p c.head c.placement =
        (c.entry p (n.nameIt wanted).1, (n.nameIt wanted).2) := by
  cases hcss : c.css? with
  | none =>
    refine Or.inl ⟨rfl, ?_⟩
    have hcss' : c.head.css? c.placement = none := hcss
    simp only [styleEntry, hcss', Chain.entry, hcss, Chain.element]
  | some css =>
    refine Or.inr ⟨css, p.wantedName c.placement c.head.unwrapped.key, rfl, ?_⟩
    have hcss' : c.head.css? c.placement = some css := hcss
    simp only [styleEntry, hcss', Chain.entry, hcss, Chain.element]

/-- **Each entry is that of its chain,** under the id of the chain and some name. -/
theorem entries_entriesAlong (cs : List Chain) (n : Namer) :
    List.Forall₂ (fun c pair => ∃ name, pair = (c.id, c.entry p name)) cs
      (entriesAlong p cs n).1 := by
  induction cs generalizing n with
  | nil => exact .nil
  | cons c cs ih =>
    simp only [entriesAlong]
    refine .cons ?_ (ih _)
    -- With a style or without one, the entry is that of the chain under some name.
    rcases styleEntry_cases p c n with ⟨-, h⟩ | ⟨css, wanted, -, h⟩ <;> rw [h] <;> exact ⟨_, rfl⟩

/-- Every entry along some chains is that of one of them. -/
theorem mem_entriesAlong {cs : List Chain} {n : Namer} {pair : String × StyleEntry}
    (h : pair ∈ (entriesAlong p cs n).1) : ∃ c ∈ cs, ∃ name, pair = (c.id, c.entry p name) :=
  exists_mem_of_forall₂ (entries_entriesAlong cs n).flip h

/-- **No name is declared twice** along some chains, and each of them was free before. -/
theorem names_entriesAlong (cs : List Chain) (n : Namer) :
    ((declarationsOf (entriesAlong p cs n).1).map (·.name)).Nodup ∧
      ∀ d ∈ declarationsOf (entriesAlong p cs n).1, n.isFree d.name = true := by
  induction cs generalizing n with
  | nil => exact ⟨List.nodup_nil, fun _ h => absurd h List.not_mem_nil⟩
  | cons c cs ih =>
    rcases styleEntry_cases p c n with ⟨hcss, h⟩ | ⟨css, wanted, hcss, h⟩
    · -- The entry is bare: it declares nothing and leaves the namer as it is.
      have hbare : (c.entry p "").declaration? = none := by
        rw [Chain.declaration?_entry, hcss]
        rfl
      simp only [entriesAlong, h, declarationsOf_cons_bare hbare]
      exact ih n
    · -- The name is taken from here on, so all later ones differ from it.
      have hstyled : (c.entry p (n.nameIt wanted).1).declaration? =
          some ⟨(n.nameIt wanted).1, c.element.start.name, css⟩ := by
        rw [Chain.declaration?_entry, hcss]
        rfl
      obtain ⟨hnodup, hfree⟩ := ih (n.nameIt wanted).2
      have hlater : ∀ d ∈ declarationsOf (entriesAlong p cs (n.nameIt wanted).2).1,
          d.name ≠ (n.nameIt wanted).1 ∧ n.isFree d.name = true := by
        intro d hd
        -- What is free later is free now, and is not the name handed out.
        have hname := hfree d hd
        rw [isFree_iff, blocked, reserved_nameIt, taken_nameIt] at hname
        rw [isFree_iff, blocked]
        simp only [List.mem_append, List.mem_cons, not_or] at hname ⊢
        exact ⟨hname.2.1, hname.1, hname.2.2⟩
      simp only [entriesAlong, h, declarationsOf_cons_styled hstyled, List.map_cons,
        List.nodup_cons, List.forall_mem_cons]
      refine ⟨⟨fun hmem => ?_, hnodup⟩, isFree_nameIt n wanted, fun d hd => (hlater d hd).2⟩
      obtain ⟨d, hd, hname⟩ := List.mem_map.mp hmem
      exact (hlater d hd).1 hname

/-- What is declared along some chains has an identifier for its name. -/
theorem isIdentifier_entriesAlong (cs : List Chain) (n : Namer) :
    ∀ d ∈ declarationsOf (entriesAlong p cs n).1, IsIdentifier d.name := by
  induction cs generalizing n with
  | nil => exact fun _ h => absurd h List.not_mem_nil
  | cons c cs ih =>
    -- A bare chain declares nothing; the other ones are given a name by the namer.
    rcases styleEntry_cases p c n with ⟨hcss, h⟩ | ⟨css, wanted, hcss, h⟩
    · have hbare : (c.entry p "").declaration? = none := by
        rw [Chain.declaration?_entry, hcss]
        rfl
      simp only [entriesAlong, h, declarationsOf_cons_bare hbare]
      exact ih n
    · have hstyled : (c.entry p (n.nameIt wanted).1).declaration? =
          some ⟨(n.nameIt wanted).1, c.element.start.name, css⟩ := by
        rw [Chain.declaration?_entry, hcss]
        rfl
      simp only [entriesAlong, h, declarationsOf_cons_styled hstyled, List.forall_mem_cons]
      exact ⟨n.isIdentifier_nameIt wanted, ih _⟩

/-- The ids of the entries along some chains are those of the chains. -/
theorem map_fst_entriesAlong (cs : List Chain) (n : Namer) :
    (entriesAlong p cs n).1.map Prod.fst = cs.map (·.id) := by
  induction cs generalizing n with
  | nil => rfl
  | cons c cs ih => simp [entriesAlong, ih]

/-- **The style map of a tree with distinct ids** holds the entries along its chains. -/
theorem toList_styleMap {w : Widget} (hids : (w.contents.map (·.id)).Nodup)
    (p : StylePreferences) (n : Namer) :
    (n.styleMap p w).1.toList = (entriesAlong p (w.chains .root) n).1 := by
  simp only [styleMap, entriesOf_eq w w .root n rfl]
  refine Record.toList_ofList ?_
  change ((entriesAlong p (w.chains .root) n).1.map Prod.fst).Nodup
  rw [map_fst_entriesAlong, Widget.map_id_chains]
  exact hids

/-- A chain of a tree with distinct ids has the entry of its style in the map. -/
theorem exists_entry {w : Widget} (hids : (w.contents.map (·.id)).Nodup) (p : StylePreferences)
    (n : Namer) {c : Chain} (hc : c ∈ w.chains .root) :
    ∃ name, (n.styleMap p w).1.get? c.id = some (c.entry p name) := by
  obtain ⟨pair, hpair, name, rfl⟩ :=
    exists_mem_of_forall₂ (entries_entriesAlong (w.chains .root) n) hc
  refine ⟨name, Record.get?_eq_some_iff.mpr ?_⟩
  rw [toList_styleMap hids]
  exact hpair

end Namer

end DesignCompiler
