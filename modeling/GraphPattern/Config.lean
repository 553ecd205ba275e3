import GraphPattern.Labels
import GraphPattern.Layout

/-!
# Configuration of builders
-/

namespace GraphPattern

/-- How a builder lays out its text, and how it makes labels for blank nodes. -/
structure Config where
  layout : Layout := .lines
  allocator : Allocator := {}
deriving DecidableEq, Repr

/-- Text on one line. -/
def Config.compact : Config := { layout := .oneLine }

end GraphPattern
