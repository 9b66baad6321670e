/-
What is worth telling while headers are read and entries are made. An event is told with a
level, under the name of the part that it comes from, and in words of its own.
-/
import MarkupCatalog.Text.Digit
import MarkupCatalog.Text.Quoted

namespace MarkupCatalog

/-- Something that happened on the way to a result. -/
inductive Event where
  /-- a header has text before its first key, which means nothing -/
  | droppedText (s : Text)
  /-- a block has a header without an `extract` option -/
  | skippedBlock (header : Text)
  /-- a block has become an entry -/
  | madeEntry (name id : Text) (lines : Nat)
  /-- blocks have a beginning but no end marker -/
  | unendedBlocks (count : Nat)
  /-- a document has been read to its end -/
  | readDocument (entries : Nat) (origin : Text)
deriving DecidableEq, Repr

namespace Event

inductive Level where
  | debug
  | info
  | warning
deriving DecidableEq, Repr

def Level.name : Level → Text
  | .debug => "DEBUG".toText
  | .info => "INFO".toText
  | .warning => "WARNING".toText

def level : Event → Level
  | droppedText _ | skippedBlock _ | madeEntry .. => .debug
  | readDocument .. => .info
  | unendedBlocks _ => .warning

/-- The name of the part that the event comes from. -/
def source : Event → Text
  | droppedText _ => "inventory.annotation_parser".toText
  | skippedBlock _ | madeEntry .. => "inventory.block_processor".toText
  | unendedBlocks _ | readDocument .. => "inventory.block_extractor".toText

def message : Event → Text
  | droppedText s => "Dropping annotation text without a key: ".toText ++ Text.quoted s
  | skippedBlock header =>
    "Skipping block without extract option: ".toText ++ Text.quoted header
  | madeEntry name id lines =>
    "Extracted '".toText ++ name ++ "' (id: ".toText ++ id ++ ", ".toText ++ Text.ofNat lines ++
      " lines)".toText
  | unendedBlocks count =>
    "Skipping ".toText ++ Text.ofNat count ++
      " extract block(s) without an endextract marker".toText
  | readDocument entries origin =>
    "Extracted ".toText ++ Text.ofNat entries ++ " entries from ".toText ++
      (if origin.isEmpty then "document".toText else origin)

end Event
end MarkupCatalog
