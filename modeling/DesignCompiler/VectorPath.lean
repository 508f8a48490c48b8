/-!
# Vector paths

Outlines are kept in the path notation of scalable vector graphics, with the rule that says which
points lie inside, and boolean operations combine them.
-/

namespace DesignCompiler

/-- Which points a path encloses. -/
inductive WindingRule where
  | nonZero
  | evenOdd
deriving DecidableEq, Repr, Inhabited

/-- A path in path notation. -/
structure VectorPath where
  data : String
  winding : WindingRule := .nonZero
deriving DecidableEq, Repr

/-- How a boolean operation combines the shapes beneath it. -/
inductive BooleanOperation where
  | union
  | subtract
  | intersect
  | exclude
deriving DecidableEq, Repr, Inhabited

end DesignCompiler
