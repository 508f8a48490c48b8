/-!
# Search in text

Whether one text occurs in another.
-/

namespace DesignCompiler

/-- Whether one text occurs in another. -/
def occursIn (part : List Char) : List Char → Bool
  | [] => part.isEmpty
  | c :: rest => part.isPrefixOf (c :: rest) || occursIn part rest

end DesignCompiler
