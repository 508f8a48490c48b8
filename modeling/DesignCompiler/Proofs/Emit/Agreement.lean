import DesignCompiler.Proofs.Emit.Calls
import DesignCompiler.Proofs.Emit.Content
/-!
# All outputs show one content

The web collapses a chain of wrappers into one element, and writes the elements of a tree by looking
styles up under ids. Flutter nests a call for each wrapper, puts children in stacks or lines with
spacers between them, and hoists the share of an item out of its chain. Both go over the same tree,
and `outputs_agree` says that they come past the same leaves in the same order: none is left out,
none shown twice, and none shown with the text or the image of another one.

Either side is compared with the leaves of the tree and not with the other side, so what is new in
one output is settled there.
-/

namespace DesignCompiler

/-- **What every output of a tree shows:** the leaves of the tree, in the order of the walk. -/
structure OutputsAgree (w : Widget) : Prop where
  react : ∀ o : ReactOptions, (React.emit o w).ShowsInOrder w.leaves
  page : ∀ o : PageOptions, (Page.emit o w).ShowsInOrder w.leaves
  flutter : (Flutter.emit w).CallsInOrder w.leaves

/-- **Every output shows the same content in the same order,** however it is styled, where the
widgets of the tree that are no wrappers have ids of their own. -/
theorem outputs_agree {w : Widget} (hids : (w.contents.map (·.id)).Nodup) : OutputsAgree w where
  react := React.showsInOrder hids
  page := Page.showsInOrder hids
  flutter := Flutter.callsInOrder w

/-- A row with a caption that takes a share of its space, and a stack in it with an image, an icon
without a glyph and a faded drawing. -/
def captionedFigure : Widget :=
  .box ⟨"1", "Figure", none⟩ (.sized 200 90) (.flex ⟨.row, .min, .center, 8⟩ false)
    [⟨0, 0, (Widget.leaf ⟨"2", "Caption", none⟩ {} (.text ⟨"A $5 note", {}, none, some .h2⟩)).wrapped
        ⟨"2.expanded", "Caption", none⟩ (.expanded 1)⟩,
      ⟨60, 0, .box ⟨"3", "Plate", none⟩ (.sized 90 90) (.stack false)
        [⟨0, 0, .leaf ⟨"4", "Photo", none⟩ (.sized 90 90) (.image ⟨.reserved "a.png", .cover, "A"⟩)⟩,
          ⟨5, 5, .leaf ⟨"5", "Mark", none⟩ (.sized 8 8) (.icon ⟨none, 8, none, .reserved "5"⟩)⟩,
          ⟨9, 9, (Widget.leaf ⟨"6", "Line", none⟩ (.sized 9 9)
            (.vector ⟨[⟨"M0 0L9 9", .nonZero⟩], none, none, 9, 9⟩)).wrapped
              ⟨"6.opacity", "Line", none⟩ (.opacity 0.5)⟩]⟩]

/-- The outputs agree for a captioned figure, which has four leaves. -/
theorem outputs_agree_captionedFigure :
    (captionedFigure.contents.map (·.id)).Nodup ∧ captionedFigure.leaves.length = 4 ∧
      OutputsAgree captionedFigure :=
  ⟨by decide, by decide, outputs_agree (by decide)⟩

end DesignCompiler
