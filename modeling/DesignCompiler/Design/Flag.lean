import DesignCompiler.Design.Node
import DesignCompiler.Number.Decimal
import DesignCompiler.Text.Blank
/-!
# Flags in layer names

Designers steer the output by tokens such as `--as-h1` or `--max-width=640` in the name of a layer.
A token of a name is a flag token when it starts with two hyphens; what follows, up to an equals
sign, is its key. Flag tokens with other keys mean nothing here and are passed over.

* `parseFlags` reads the flags of a name, up to the first one that is malformed;
* `Layer.override?` is the one thing that the flags of a layer ask for;
* `stripFlags` is the name without flag tokens.
-/

namespace DesignCompiler

/-- One flag. -/
inductive Flag where
  | ignore
  /-- Show the layer as a picture of itself. -/
  | artwork
  | asText (tag : TextTag)
  | maxWidth (width : Float)
  | minWidth (width : Float)
  | asIcon (glyph : String)

/-- Why the flags of a layer have no meaning. -/
inductive FlagError where
  | invalidValue (flag value : String)
  | missingValue (flag : String)
  | notApplicable (flag tag : String)
deriving DecidableEq, Repr

/-- The wording of a fault. -/
def FlagError.message : FlagError → String
  | invalidValue flag value => s!"Invalid value '{value}' for flag '{flag}'"
  | missingValue flag => s!"Flag '{flag}' requires a value"
  | notApplicable flag tag => s!"Flag '{flag}' does not apply to {tag} nodes"

/-- What the flags of a layer ask for in place of the ordinary treatment. -/
inductive Override where
  /-- No widget at all. -/
  | ignore
  /-- A picture of the layer. -/
  | artwork
  /-- An icon with this glyph. -/
  | icon (glyph : String)
  /-- The ordinary widget, with changes. -/
  | modify (tag : Option TextTag) (minWidth maxWidth : Option Float)

/-- Whether a token of a name is meant as a flag. -/
def isFlagToken (token : List Char) : Bool := ['-', '-'].isPrefixOf token

/-- A flag token without its hyphens, cut at the first equals sign into key and value. -/
def splitFlag (token : List Char) : String × Option String :=
  let body := token.drop 2
  let key := String.ofList (body.takeWhile (· != '='))
  match body.dropWhile (· != '=') with
  | [] => (key, none)
  | _ :: value => (key, some (String.ofList value))

/-- Takes every unit `px` off the front of a reversed text. -/
def dropUnits : List Char → List Char
  | 'x' :: 'p' :: rest => dropUnits rest
  | text => text

/-- **Reads a width:** a number that is finite and not negative, with or without the unit `px`. -/
def readWidth (flag : String) : Option String → Except FlagError Float
  | none => .error (.missingValue flag)
  | some raw =>
    match Float.read? (dropUnits raw.toList.reverse).reverse with
    | some width => if width.isFinite && width ≥ 0 then .ok width else .error (.invalidValue flag raw)
    | none => .error (.invalidValue flag raw)

/-- The tag that a key such as `as-h1` asks for. -/
def textTag? (key : String) : Option TextTag := TextTag.all.find? fun tag => key == "as-" ++ tag.html

/-- **Reads one flag** from its key and its value; `none` for a key without a meaning. -/
def readFlag (key : String) (value : Option String) : Except FlagError (Option Flag) :=
  if key == "ignore" then .ok (some .ignore)
  else if key == "artwork" || key == "as-image" then .ok (some .artwork)
  else if key == "max-width" then (readWidth key value).map (some ∘ Flag.maxWidth)
  else if key == "min-width" then (readWidth key value).map (some ∘ Flag.minWidth)
  else if key == "as-icon" then
    match value with
    | some glyph => if glyph.isEmpty then .error (.missingValue key) else .ok (some (.asIcon glyph))
    | none => .error (.missingValue key)
  else .ok ((textTag? key).map .asText)

/-- Reads a token: `none` for one that is not a flag token or has no meaning. -/
def readToken (token : List Char) : Except FlagError (Option Flag) :=
  if isFlagToken token then
    let (key, value) := splitFlag token
    readFlag key value
  else .ok none

/-- The flags among some tokens, or the first fault. -/
def readTokens : List (List Char) → Except FlagError (List Flag)
  | [] => .ok []
  | token :: rest => do
    let flag ← readToken token
    let flags ← readTokens rest
    return flag.toList ++ flags

/-- The flags in a name, or the first fault. -/
def parseFlags (name : String) : Except FlagError (List Flag) := readTokens (tokens name.toList)

/-- A name without its flag tokens, the rest joined by single spaces. -/
def stripFlags (name : String) : String :=
  String.ofList (joinTokens ((tokens name.toList).filter (!isFlagToken ·)))

/-! ### Precedence -/

namespace Flag

/-- The glyph of an icon flag. -/
def glyph? : Flag → Option String
  | asIcon glyph => some glyph
  | _ => none

/-- The tag of a text flag. -/
def tag? : Flag → Option TextTag
  | asText tag => some tag
  | _ => none

/-- The width of a least-width flag. -/
def minWidth? : Flag → Option Float
  | minWidth width => some width
  | _ => none

/-- The width of a greatest-width flag. -/
def maxWidth? : Flag → Option Float
  | maxWidth width => some width
  | _ => none

/-- Whether the layer is to be ignored. -/
def isIgnore : Flag → Bool
  | ignore => true
  | _ => false

/-- Whether the layer is to be shown as a picture. -/
def isArtwork : Flag → Bool
  | artwork => true
  | _ => false

end Flag

/-- The last answer that a question has for any flag of a list. -/
def lastFlag? {α : Type} (ask : Flag → Option α) (flags : List Flag) : Option α :=
  (flags.filterMap ask).getLast?

/-- **What a list of flags asks for.** Ignoring comes first, then the picture, then the first icon;
otherwise the flags change the widget, a later one of a kind taking the place of an earlier one. A
text tag is for texts alone. -/
def resolveFlags (kind : Option NodeKind) (flags : List Flag) : Except FlagError (Option Override) :=
  if flags.isEmpty then .ok none
  else if flags.any (·.isIgnore) then .ok (some .ignore)
  else if flags.any (·.isArtwork) then .ok (some .artwork)
  else
    -- The first icon counts, but of the flags that change a widget the last of each kind does.
    match flags.findSome? (·.glyph?) with
    | some glyph => .ok (some (.icon glyph))
    | none =>
      match flags.findSome? (·.tag?), kind.any (·.isText) with
      | some tag, false =>
        .error (.notApplicable ("as-" ++ tag.html) ((kind.map (·.tag)).getD "untyped"))
      | _, _ =>
        .ok (some (.modify (lastFlag? (·.tag?) flags) (lastFlag? (·.minWidth?) flags)
          (lastFlag? (·.maxWidth?) flags)))

/-- What the flags in the name of a layer ask for, if it has any. -/
def Layer.override? (l : Layer) : Except FlagError (Option Override) := do
  resolveFlags l.kind (← parseFlags l.name)

end DesignCompiler
