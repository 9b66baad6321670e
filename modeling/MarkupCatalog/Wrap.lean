/-
Wraps: markup that stands before and after a block.
-/
import MarkupCatalog.Field

namespace MarkupCatalog

/-- The markup before and after a block. -/
structure Wrap where
  before : Label
  after : Label
deriving DecidableEq, Repr

namespace Wrap

/-- No markup on either side. -/
def empty : Wrap := ⟨.text [], .text []⟩

/-- The same markup on both sides. -/
def both (side : Label) : Wrap := ⟨side, side⟩

/-- A wrap that is used at all: one that has something before the block. -/
def isSet (w : Wrap) : Bool := !w.before.content.isEmpty

/-- The keys of the two sides where a wrap is written as a record. -/
def beforeKey : Text := "before".toText

def afterKey : Text := "after".toText

end Wrap
end MarkupCatalog
