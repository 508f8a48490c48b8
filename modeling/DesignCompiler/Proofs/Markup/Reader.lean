import DesignCompiler.Markup.Tree
import DesignCompiler.Text.Reader
/-!
# Reading markup

A `MarkupReader` takes markup in, one character at a time, and builds the tree. It knows nothing of
how the text was laid out:

* a tag is a name with attributes, whose values stand in double quotes, where an angle bracket does
  not end the tag; a tag that ends in a slash is an element of its own;
* entities stand for the characters that they name, in text and in values;
* an element that has no elements in it has its whole content for its text, blank or not. Between
  elements a text that is only spacing is nothing.

Any other text is refused: tags that do not match, attributes without a value, a tag without an end.
Since reading is a walk over the characters, what two texts do one after the other is what the text
of both does (`MarkupReader.read_append`).
-/

namespace DesignCompiler

/-- Whether a character can be in the name of a tag or an attribute. -/
def isMarkupNameChar (c : Char) : Bool :=
  !TextReader.isSpacing c && !"\"'<>/=&".toList.contains c

/-- A text with the characters that its entities name. -/
def markupDecoded : List Char → List Char
  | '&' :: 'a' :: 'm' :: 'p' :: ';' :: rest => '&' :: markupDecoded rest
  | '&' :: 'l' :: 't' :: ';' :: rest => '<' :: markupDecoded rest
  | '&' :: 'g' :: 't' :: ';' :: rest => '>' :: markupDecoded rest
  | '&' :: 'q' :: 'u' :: 'o' :: 't' :: ';' :: rest => '"' :: markupDecoded rest
  | c :: rest => c :: markupDecoded rest
  | [] => []

/-- What the next character belongs to. -/
inductive MarkupPlace where
  /-- What is between two tags. -/
  | content
  /-- A tag of which only the bracket has been read. -/
  | opened
  /-- The name of a start tag. -/
  | name (read : List Char)
  /-- A start tag, after its name or an attribute. -/
  | tag (start : StartTag)
  /-- The name of an attribute. -/
  | attribute (start : StartTag) (read : List Char)
  /-- An attribute, after its sign of equality. -/
  | equals (start : StartTag) (name : String)
  /-- The value of an attribute. -/
  | value (start : StartTag) (name : String) (read : List Char)
  /-- A start tag, after its slash. -/
  | slash (start : StartTag)
  /-- The name of an end tag. -/
  | ending (read : List Char)
deriving DecidableEq, Repr

/-- What has been made of the characters so far. -/
structure MarkupReader where
  place : MarkupPlace := .content
  /-- The characters since the last tag. -/
  text : List Char := []
  /-- The nodes so far of the innermost element that has begun. -/
  nodes : List Markup := []
  /-- The elements that have begun, innermost first, each with the nodes in front of it. -/
  outer : List (StartTag × List Markup) := []

namespace MarkupReader

/-- The nodes so far, with the text since the last tag if it is more than spacing. -/
def allNodes (r : MarkupReader) : List Markup :=
  r.nodes ++ if r.text.all TextReader.isSpacing then [] else
    [.text (String.ofList (markupDecoded r.text))]

/-- What is in the innermost element where it ends. -/
def inside (r : MarkupReader) : List Markup :=
  if !r.nodes.isEmpty then r.allNodes
  else if r.text.isEmpty then []
  else [.text (String.ofList (markupDecoded r.text))]

/-- An element begins. -/
def begin (r : MarkupReader) (start : StartTag) : MarkupReader :=
  { outer := (start, r.allNodes) :: r.outer }

/-- An element is there as a whole. -/
def add (r : MarkupReader) (m : Markup) : MarkupReader :=
  { nodes := r.allNodes ++ [m], outer := r.outer }

/-- The innermost element ends, if it has this name. -/
def finish? (r : MarkupReader) (name : String) : Option MarkupReader :=
  match r.outer with
  | [] => none
  | (start, before) :: outer =>
    if start.name == name then some { nodes := before ++ [.element start r.inside], outer := outer }
    else none

/-- Takes a character in that is in a start tag, but in no name and no value. -/
def stepTag (r : MarkupReader) (start : StartTag) (c : Char) : Option MarkupReader :=
  if TextReader.isSpacing c then some { r with place := .tag start }
  else if c == '/' then some { r with place := .slash start }
  else if c == '>' then some (r.begin start)
  else if isMarkupNameChar c then some { r with place := .attribute start [c] }
  else none

/-- **Takes a character in.** -/
def step (r : MarkupReader) (c : Char) : Option MarkupReader :=
  match r.place with
  | .content =>
    if c == '<' then some { r with place := .opened } else some { r with text := r.text ++ [c] }
  | .opened =>
    if c == '/' then some { r with place := .ending [] }
    else if isMarkupNameChar c then some { r with place := .name [c] }
    else none
  | .name read =>
    if isMarkupNameChar c then some { r with place := .name (read ++ [c]) }
    else r.stepTag ⟨String.ofList read, []⟩ c
  | .tag start => r.stepTag start c
  | .attribute start read =>
    if isMarkupNameChar c then some { r with place := .attribute start (read ++ [c]) }
    else if c == '=' then some { r with place := .equals start (String.ofList read) }
    else none
  | .equals start name => if c == '"' then some { r with place := .value start name [] } else none
  | .value start name read =>
    if c == '"' then
      let a := Attribute.ofText name (String.ofList (markupDecoded read))
      some { r with place := .tag { start with attributes := start.attributes ++ [a] } }
    else some { r with place := .value start name (read ++ [c]) }
  | .slash start => if c == '>' then some (r.add (.element start [])) else none
  | .ending read =>
    if c == '>' then r.finish? (String.ofList read)
    else if isMarkupNameChar c then some { r with place := .ending (read ++ [c]) }
    else none

/-- Takes some characters in. -/
def read (r : MarkupReader) (text : List Char) : Option MarkupReader := text.foldlM step r

@[simp] theorem read_nil (r : MarkupReader) : r.read [] = some r := rfl

theorem read_cons (r : MarkupReader) (c : Char) (text : List Char) :
    r.read (c :: text) = (r.step c).bind fun r => r.read text := rfl

theorem read_cons_of_eq {r s : MarkupReader} {c : Char} (h : r.step c = some s)
    (text : List Char) : r.read (c :: text) = s.read text := by
  rw [read_cons, h, Option.bind_some]

theorem read_append (r : MarkupReader) (before after : List Char) :
    r.read (before ++ after) = (r.read before).bind fun r => r.read after :=
  List.foldlM_append

/-- One text after the other. -/
theorem read_append_of_eq {r s : MarkupReader} {before after : List Char}
    (h : r.read before = some s) : r.read (before ++ after) = s.read after := by
  rw [read_append, h, Option.bind_some]

/-- Characters that are only put to those before them are read all at once. -/
theorem read_of_step (state : List Char → MarkupReader) (text : List Char)
    (h : ∀ done, ∀ c ∈ text, (state done).step c = some (state (done ++ [c]))) (done : List Char) :
    (state done).read text = some (state (done ++ text)) := by
  induction text generalizing done with
  | nil => rw [read_nil, List.append_nil]
  | cons c rest ih =>
    have hrest := ih fun done d hd => h done d (List.mem_cons_of_mem _ hd)
    rw [read_cons, h done c List.mem_cons_self, Option.bind_some, hrest, List.append_assoc,
      List.singleton_append]

end MarkupReader

/-- **The trees that a text is markup for,** if it is markup. -/
def Markup.readAll? (text : String) : Option (List Markup) :=
  match MarkupReader.read {} text.toList with
  | some r => if r.place = .content && r.outer.isEmpty then some r.allNodes else none
  | none => none

/-- Spacing is nothing next to an element, and the text of an element that has none in it. -/
example : Markup.readAll? "<a> <b/> <i> </i> </a>" =
    some [.element ⟨"a", []⟩ [.element ⟨"b", []⟩ [], .element ⟨"i", []⟩ [.text " "]]] := by rfl

/-- Elements end in the order in which they are nested. -/
example : Markup.readAll? "<a><b></a></b>" = none := by rfl

end DesignCompiler
