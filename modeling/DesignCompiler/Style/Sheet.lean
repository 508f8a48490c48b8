import DesignCompiler.Style.Map
/-!
# Style sheets

A `StyleSheet` holds the entries of a style map and the list of declarations that they use. Where
sharing is on, elements of one tag with the same set of declarations use one declaration, that of
the first of them.
-/

namespace DesignCompiler

/-- Entries with the declarations that they use. -/
structure StyleSheet where
  entries : Record StyleEntry
  /-- The declarations in the order of their first use. -/
  uniques : List StyleDeclaration

/-- What two declarations are compared by: the tag and the style regardless of order. -/
def StyleDeclaration.shareKey (d : StyleDeclaration) : String :=
  d.htmlTag ++ "|" ++ d.style.canonicalKey

/-- The entry with another declaration; a tag that is the name of the old one changes with it. -/
def StyleEntry.redeclare (e : StyleEntry) (s : Styling) (shared : StyleDeclaration) : StyleEntry :=
  { e with
    tag := if e.tag == s.declaration.name then shared.name else e.tag
    styling := some { s with declaration := shared } }

/-- **Shares declarations.** `seen` are those in use so far, in order. An entry whose declaration
compares equal to one of them takes that one, the first if there are several. -/
def shareDeclarations (sharing : Bool) (seen : List StyleDeclaration) :
    List (String × StyleEntry) → List (String × StyleEntry) × List StyleDeclaration
  | [] => ([], seen)
  | (id, entry) :: rest =>
    match entry.styling with
    | none =>
      let (entries, uniques) := shareDeclarations sharing seen rest
      ((id, entry) :: entries, uniques)
    | some styling =>
      let equal := seen.find? fun d => d.shareKey == styling.declaration.shareKey
      -- Without sharing, a declaration like another one is listed all the same.
      match if sharing then equal else none with
      | some shared =>
        let (entries, uniques) := shareDeclarations sharing seen rest
        ((id, entry.redeclare styling shared) :: entries, uniques)
      | none =>
        let (entries, uniques) := shareDeclarations sharing (seen ++ [styling.declaration]) rest
        ((id, entry) :: entries, uniques)

/-- Sharing keeps every id in its place. -/
theorem map_fst_shareDeclarations (sharing : Bool) (seen : List StyleDeclaration)
    (pairs : List (String × StyleEntry)) :
    ((shareDeclarations sharing seen pairs).1).map Prod.fst = pairs.map Prod.fst := by
  fun_induction shareDeclarations sharing seen pairs <;> simp_all

/-- **The style sheet of a style map.** -/
def StyleSheet.ofMap (map : Record StyleEntry) (sharing : Bool) : StyleSheet where
  entries :=
    { toList := (shareDeclarations sharing [] map.toList).1
      keys_nodup := by rw [map_fst_shareDeclarations]; exact map.keys_nodup }
  uniques := (shareDeclarations sharing [] map.toList).2

/-- The entry under an id. -/
def StyleSheet.entry? (s : StyleSheet) (id : String) : Option StyleEntry := s.entries.get? id

end DesignCompiler
