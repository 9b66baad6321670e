/-
What the surroundings of the program may set: the default indentation and the category of blocks
that declare none.
-/
import MarkupCatalog.Text.Basic

namespace MarkupCatalog

structure Settings where
  /-- what stands for the first tab of each line, unless a configuration says otherwise -/
  indent : Text
  /-- the category of an entry before any block has given it one -/
  category : Text
deriving DecidableEq, Repr

/-- The settings where nothing is set. -/
def Settings.standard : Settings := ⟨"    ".toText, "No category".toText⟩

end MarkupCatalog
