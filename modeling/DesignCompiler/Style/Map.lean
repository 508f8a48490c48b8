import DesignCompiler.Style.Computed
import DesignCompiler.Style.Element
import DesignCompiler.Style.Identifier
/-!
# Style maps

Every element of an output has a `StyleEntry`: its start tag and, where it is styled, the computed
style with a named declaration of that style. `Namer.styleMap` makes the entries of a widget tree,
in the order of the document and under the ids of the widgets beneath their wrappers, and names the
declarations on the way.
-/

namespace DesignCompiler

/-- A style under a name, such as a styled component, for elements of one tag. -/
structure StyleDeclaration where
  name : String
  htmlTag : String
  style : Css

/-- The style of an element as computed and as declared. -/
structure Styling where
  style : Css
  declaration : StyleDeclaration

/-- What is known about the start tag of an element. Without `styling` the element is bare. -/
structure StyleEntry where
  tag : String
  attributes : List Attribute
  styling : Option Styling

/-- How declarations are named and used. -/
structure StylePreferences where
  /-- The tag of a styled element is the name of its declaration. -/
  renameTag : Bool := false
  /-- The declaration of the topmost element is named as the root. -/
  nameRoot : Bool := false

namespace Placement

/-- Whether the element is the topmost one. -/
def isRoot : Placement → Bool
  | root => true
  | absolute .. | flex _ => false

end Placement

/-- The name asked for the declaration of an element, from the key of its widget. -/
def StylePreferences.wantedName (p : StylePreferences) (placement : Placement) (key : WidgetKey) :
    String :=
  if placement.isRoot && p.nameRoot then legalIdentifier ("root wrapper " ++ key.name) else key.name

/-- The entry of the chain that starts at `head`; a name is used up only where there is a style. -/
def Namer.styleEntry (n : Namer) (p : StylePreferences) (head : Widget) (placement : Placement) :
    StyleEntry × Namer :=
  let start := head.element.start
  match head.css? placement with
  | none => (⟨start.name, start.attributes, none⟩, n)
  | some css =>
    let (name, n) := n.nameIt (p.wantedName placement head.unwrapped.key)
    let declaration : StyleDeclaration := ⟨name, start.name, css⟩
    (⟨if p.renameTag then name else start.name, start.attributes, some ⟨css, declaration⟩⟩, n)

mutual

/-- **The entries of a chain and of everything beneath it.** The chain starts at `head`; the widget
looked at is the one that has been reached on the way down to its end. -/
def Namer.entriesOf (p : StylePreferences) (head : Widget) (placement : Placement) :
    Widget → Namer → List (String × StyleEntry) × Namer
  | .wrap _ _ _ child, n => entriesOf p head placement child n
  | .leaf key _ _, n =>
    let (entry, n) := n.styleEntry p head placement
    ([(key.id, entry)], n)
  | .box key _ arrangement children, n =>
    let (entry, n) := n.styleEntry p head placement
    let (entries, n) := entriesOfAll p arrangement children n
    ((key.id, entry) :: entries, n)

/-- The entries of the children of a box, child by child. -/
def Namer.entriesOfAll (p : StylePreferences) (arrangement : Arrangement) :
    List (Placed Widget) → Namer → List (String × StyleEntry) × Namer
  | [], n => ([], n)
  | ⟨x, y, w⟩ :: rest, n =>
    let (first, n) := entriesOf p w (arrangement.placement ⟨x, y, w⟩) w n
    let (others, n) := entriesOfAll p arrangement rest n
    (first ++ others, n)

end

/-- **The style map of a widget tree.** Where an id comes again, the later entry counts. -/
def Namer.styleMap (n : Namer) (p : StylePreferences) (w : Widget) : Record StyleEntry × Namer :=
  let (entries, n) := entriesOf p w .root w n
  (Record.ofList entries, n)

end DesignCompiler
