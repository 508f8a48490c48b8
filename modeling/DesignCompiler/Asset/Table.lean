import DesignCompiler.Asset.Reservation
/-!
# Assets

The images behind reserved keys come from an `AssetSource`. `resolveAssets` makes the table of the
values for some keys, where a key that cannot be had gets the fallback, and `finalizeAssets` puts
the values into texts that share one table.
-/

namespace DesignCompiler

/-- Why an image cannot be had. -/
inductive AssetError where
  | notFound (key : String)
  | failed (key reason : String)
deriving DecidableEq, Repr

/-- The wording of a failure. -/
def AssetError.message : AssetError → String
  | notFound key => s!"Asset '{key}' not found"
  | failed key reason => s!"Failed to fetch asset '{key}': {reason}"

/-- Where images come from. A source that says that it is empty is not asked. -/
structure AssetSource where
  isEmpty : Bool
  fetch : String → Except AssetError String

/-- The answers of a source for some keys. -/
def AssetSource.fetchAll (s : AssetSource) (keys : List String) :
    Record (Except AssetError String) :=
  Record.ofList (keys.map fun key => (key, s.fetch key))

/-- The answers for some keys, if there is a source to ask. -/
def assetAnswers (source : Option AssetSource) (keys : List String) :
    Record (Except AssetError String) :=
  match source with
  | some s => if s.isEmpty || keys.isEmpty then .empty else s.fetchAll keys
  | none => .empty

/-- The value of an answer. -/
def answerValue : Option (Except AssetError String) → String
  | some (.ok value) => value
  | some (.error _) | none => fallbackSource

/-- **Uses up the answers, key by key:** an answer serves one occurrence of its key. -/
def takeAnswers (answers : Record (Except AssetError String)) : List String → List (String × String)
  | [] => []
  -- A key that comes again finds its answer taken, and gets the fallback.
  | key :: rest => (key, answerValue (answers.get? key)) :: takeAnswers (answers.erase key) rest

/-- The values of some keys. -/
def resolveAssets (source : Option AssetSource) (keys : List String) : Record String :=
  Record.ofList (takeAnswers (assetAnswers source keys) keys)

/-- The keys in several texts, each one once. -/
def allReservedKeys (texts : List String) : List String := (texts.flatMap reservedKeys).eraseDups

/-- **Puts the images of a source into texts.** -/
def finalizeAssets (source : Option AssetSource) (texts : List String) : List String :=
  let table := resolveAssets source (allReservedKeys texts)
  texts.map (substitute table)

end DesignCompiler
