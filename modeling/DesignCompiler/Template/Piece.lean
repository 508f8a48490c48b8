import DesignCompiler.Template.Term
import DesignCompiler.Text.Blank
/-!
# Pieces of a template

A template is text with tags between doubled braces. A tag between tripled braces, or with `&` in
front, means the same, since nothing is escaped. A backslash before the braces makes them text; of
several backslashes one is dropped, and the tag stays a tag. A tilde in a tag drops the blanks on
its side of the tag.

* `Template.parse?` reads a template. A tag that does not end, a block and an `else` are refused.
-/

namespace DesignCompiler

/-- A piece of a template: text, a path or a term in parentheses by itself, or a helper with
arguments. -/
inductive TemplatePiece where
  | literal (text : String)
  | plain (term : TemplateTerm)
  | applied (term : TemplateTerm)

/-- A template that has been read. -/
abbrev Template := List TemplatePiece

namespace Template

open TextReader TemplateTerm

/-! ### Tags -/

/-- A path or a term in parentheses. -/
def plainTerm (levels : Nat) : TextReader TemplatePiece :=
  .plain <$> ((.path <$> TemplatePath.reader) <|> inParentheses (argument levels))

/-- What a tag contains. -/
def content (levels : Nat) : TextReader TemplatePiece :=
  (.applied <$> application (argument levels)) <|> plainTerm levels

/-- A part of a template as it is spelled: text, or a tag and whether the blanks before and after it
are dropped. -/
inductive Segment where
  | text (text : List Char)
  | tag (trimBefore trimAfter : Bool) (piece : TemplatePiece)

/-- A tilde, if there is one. -/
def tilde : TextReader Bool := return (← attempt (word "~")).isSome

/-- A tag between such braces. The tildes stand next to the outer ones, and the inner ones, if any,
next to the content. -/
def tagBetween (opening innerOpening innerClosing closing : String)
    (content : TextReader TemplatePiece) : TextReader Segment := do
  word opening
  spacing
  let before ← tilde
  spacing
  word innerOpening
  spacing
  let piece ← content
  spacing
  word innerClosing
  spacing
  let after ← tilde
  spacing
  word closing
  return .tag before after piece

/-- A tag that would go on with the other branch of a block: `else`, or `^`, with or without a
condition. No space is needed before the condition, so `elsewhere` is one too. -/
def elseTag (levels : Nat) : TextReader Unit := do
  word "\x7b\x7b"
  spacing
  let _ ← tilde
  spacing
  word "else" <|> word "^"
  spacing
  let _ ← attempt (identifier *> many (spacing *> placed (argument levels)))
  spacing
  let _ ← tilde
  spacing
  word "\x7d\x7d"

/-- **A tag.** -/
def tag (levels : Nat) : TextReader Segment :=
  (notNext (elseTag levels) *> tagBetween "\x7b\x7b" "" "" "\x7d\x7d" (content levels)) <|>
    tagBetween "\x7b\x7b\x7b" "" "" "\x7d\x7d\x7d" (content levels) <|>
    tagBetween "\x7b\x7b" "\x7b" "\x7d" "\x7d\x7d" (content levels) <|>
    tagBetween "\x7b\x7b" "&" "" "\x7d\x7d" (plainTerm levels)

/-! ### Text -/

/-- Whether a text begins with doubled braces. -/
def atBraces (text : List Char) : Bool := ['\x7b', '\x7b'].isPrefixOf text

/-- **The text before the next tag,** without the backslashes that escape braces, and the rest. -/
def splitText : List Char → List Char × List Char
  | [] => ([], [])
  | '\\' :: '\x7b' :: '\x7b' :: '\x7b' :: '\x7b' :: rest =>
    let (text, after) := splitText rest
    (['\x7b', '\x7b', '\x7b', '\x7b'] ++ text, after)
  | '\\' :: '\x7b' :: '\x7b' :: rest =>
    let (text, after) := splitText rest
    (['\x7b', '\x7b'] ++ text, after)
  | c :: rest =>
    if atBraces (c :: rest) then ([], c :: rest)
    else if c == '\\' && rest.head? == some '\\' && atBraces (rest.dropWhile (· == '\\')) then
      -- The first of several backslashes is dropped, and the tag after them begins.
      (rest.takeWhile (· == '\\'), rest.dropWhile (· == '\\'))
    else
      let (text, after) := splitText rest
      (c :: text, after)

/-- Text before a tag or the end; at least one character. -/
def plainText : TextReader Segment := fun text =>
  match splitText text with
  | ([], _) => none
  | (plain, rest) => some (.text plain, rest)

/-! ### Templates -/

/-- Whether the blanks before such segments are dropped. -/
def trimsBefore : List Segment → Bool
  | .tag before _ _ :: _ => before
  | _ => false

/-- Adds text in front of pieces, unless it is empty. -/
def consLiteral (text : List Char) (pieces : Template) : Template :=
  if text.isEmpty then pieces else .literal (String.ofList text) :: pieces

/-- The pieces of segments, with the blanks dropped that are to be dropped; `trim` says so for those
at the start. -/
def ofSegments (trim : Bool) : List Segment → Template
  | [] => []
  | .tag _ after piece :: rest => piece :: ofSegments after rest
  | .text text :: rest =>
    let started := if trim then trimStart text else text
    consLiteral (if trimsBefore rest then trimEnd started else started) (ofSegments false rest)

/-- The segments of a template. -/
def segments : TextReader (List Segment) := fun text =>
  many (plainText <|> tag (text.length + 1)) text

/-- **Reads a template.** -/
def parse? (text : String) : Option Template :=
  (readAll? segments text.toList).map (ofSegments false)

end Template

end DesignCompiler
