import DesignCompiler.Pipeline
import DesignCompiler.Template
import DesignCompiler.Proofs.Lowering.Preservation
import DesignCompiler.Proofs.Lowering.Masks
import DesignCompiler.Proofs.Lowering.Hidden
import DesignCompiler.Proofs.Lowering.Positions
import DesignCompiler.Proofs.Record
import DesignCompiler.Proofs.Style.Chains
import DesignCompiler.Proofs.Style.Legible
import DesignCompiler.Proofs.Style.Sharing
import DesignCompiler.Proofs.Style.CanonicalKey
import DesignCompiler.Proofs.Style.Sheet
import DesignCompiler.Proofs.Emit.React
import DesignCompiler.Proofs.Asset.References
import DesignCompiler.Proofs.Asset.Survival
import DesignCompiler.Proofs.Asset.Matches
import DesignCompiler.Proofs.Emit.Page
import DesignCompiler.Proofs.Pipeline
import DesignCompiler.Proofs.Emit.Content
import DesignCompiler.Proofs.Emit.Agreement
import DesignCompiler.Proofs.Asset.Passage
import DesignCompiler.Proofs.Asset.Together
import DesignCompiler.Proofs.Asset.Listing
import DesignCompiler.Proofs.Lowering.Effects
import DesignCompiler.Proofs.Lowering.Merged
import DesignCompiler.Proofs.Lowering.Failure
import DesignCompiler.Proofs.Emit.Imports
import DesignCompiler.Proofs.Emit.Classes
import DesignCompiler.Proofs.Emit.Unstyled
import DesignCompiler.Proofs.Lowering.Overrides
import DesignCompiler.Proofs.Lowering.Sizing
import DesignCompiler.Proofs.Widget.Nameless
import DesignCompiler.Proofs.Design.UnknownFlags
import DesignCompiler.Proofs.Lowering.UnknownFlags
import DesignCompiler.Proofs.Emit.Outline
import DesignCompiler.Proofs.Emit.ReadBack
import DesignCompiler.Proofs.Emit.Fills
import DesignCompiler.Proofs.Lowering.Shown
import DesignCompiler.Proofs.Style.Positioned
import DesignCompiler.Proofs.FixedRoot
import DesignCompiler.Proofs.Lowering.Recorded
import DesignCompiler.Proofs.Markup.ScriptReader
import DesignCompiler.Proofs.Markup.ScriptText
import DesignCompiler.Proofs.Style.Requests
import DesignCompiler.Proofs.Emit.Shares
import DesignCompiler.Proofs.Emit.DrawingReadBack
import DesignCompiler.Proofs.Style.KeyIdentity
import DesignCompiler.Proofs.Style.InlineReadBack
import DesignCompiler.Proofs.Design.WidthFlag
import DesignCompiler.Proofs.Detect.Illustration
import DesignCompiler.Proofs.Emit.WidthBounds
import DesignCompiler.Proofs.Paint.HexColor
import DesignCompiler.Proofs.Lowering.TextWidth
import DesignCompiler.Proofs.Design.Stripped
import DesignCompiler.Proofs.Style.NamedTwice
import DesignCompiler.Proofs.Style.Shorthand
