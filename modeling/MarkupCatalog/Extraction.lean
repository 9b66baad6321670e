/-
Extraction: from the source of a block to its entry, and from a document to the entries of its
blocks. A block fills all fields of an entry but the usage. Where it makes no entry, the entry that
was there before is not touched: its header does not ask for one, there is no header at all, or its
source or its view holds surrogates, so that it cannot be identified.
-/
import MarkupCatalog.Header
import MarkupCatalog.Block
import MarkupCatalog.Entry
import MarkupCatalog.Identifier
import MarkupCatalog.Layout
import MarkupCatalog.Options.Attributes
import MarkupCatalog.Options.View

namespace MarkupCatalog

/-- The source of a block without its end markers, taken apart at its first comment. -/
structure Source where
  text : Text
  header : Text
  body : Text
deriving DecidableEq, Repr

namespace Source

/-- The parts of the source of a block. -/
def read? (src : Text) : Except Fault Source :=
  let text := EndMarker.removeAll src
  (Comment.split? text).map fun p => ⟨text, p.1, p.2⟩

/-- The options of the block under a configuration. -/
def options (s : Source) (config : Config) : Options :=
  (Header.read s.header).options config.wrap

/-- The lines of the block. -/
def lines (s : Source) (config : Config) : List Text := Layout.lines config.indent s.body

/-- The lines as they are shown. -/
def view (s : Source) (config : Config) : Text :=
  Layout.view (Options.View.ofOptions (s.options config)).wrap (s.lines config)

/-- The identifiers of the block: that of its source and that of its view. -/
structure Ids where
  source : Text
  view : Text
deriving DecidableEq, Repr

/-- The identifiers of the block, if it has them. -/
def ids? (s : Source) (config : Config) : Except Fault Ids := do
  let source ← identify? s.text
  let view ← identify? (s.view config)
  return ⟨source, view⟩

end Source

namespace Entry

/-- The entry that a block with these identifiers makes of `e`. Category and group stay what they are
unless the block declares them. -/
def filled (e : Entry) (config : Config) (source : Source) (ids : Source.Ids) : Entry :=
  let options := source.options config
  let declared := Options.View.ofOptions options
  let lines := source.lines config
  let optionsText := Attributes.ofOptions options
  { category := (declared.category.map Value.text).getD e.category
    group := (declared.group.map Value.text).getD e.group
    name := (declared.label.map Value.text).getD e.name
    id := .text ids.source
    viewId := .text ids.view
    lines := .texts lines
    fragment := .text (Text.unlines lines)
    view := .text (source.view config)
    template := .text (Layout.template config.templateWrap optionsText lines)
    options := options.toValue
    optionsText := .text optionsText
    origin := .text config.origin
    resources := .map config.resources
    usage := e.usage }

/-- What is told about the entry that a block has made. -/
def madeEvent (config : Config) (source : Source) (ids : Source.Ids) : Event :=
  .madeEntry ((Options.View.ofOptions (source.options config)).label.getD []) ids.source
    (source.lines config).length

/-- The entry that a block makes of `e`, if it makes one. -/
def process (e : Entry) (config : Config) (src : Text) : Outcome (Option Entry) :=
  match Source.read? src with
  | .error f => .fault f
  | .ok source =>
    let told := (Header.read source.header).events
    if (Options.View.ofOptions (source.options config)).isExtraction then
      match source.ids? config with
      | .error f => ⟨told, .error f⟩
      | .ok ids => ⟨told ++ [madeEvent config source ids], .ok (some (e.filled config source ids))⟩
    else ⟨told ++ [.skippedBlock (Text.preview source.header)], .ok none⟩

/-- The entry that a block makes of `e` under a configuration that is given as a value. -/
def parse (settings : Settings) (e : Entry) (src : Text) (config : Value) :
    Outcome (Option Entry) :=
  match Config.merge? settings config with
  | .error f => .fault f
  | .ok config => e.process config src

end Entry

namespace Extraction

/-- The entries of blocks, each made of a blank entry; the first fault ends them. -/
def entries (settings : Settings) (config : Config) : List Block → Outcome (List Entry)
  | [] => .ok []
  | b :: bs =>
    ((Entry.blank settings).process config b.text).andThen fun made =>
      (entries settings config bs).andThen fun rest => .ok (made.toList ++ rest)

/-- The entries of a document under a configuration. -/
def ofDocument (settings : Settings) (config : Config) (document : Text) : Outcome (List Entry) :=
  let bs := Block.blocks document
  ((entries settings config bs).after (Block.events document bs)).andThen fun es =>
    ⟨[.readDocument es.length config.origin], .ok es⟩

/-- The configuration with an origin, unless it has one. -/
def withOrigin (origin : Text) (config : Config) : Config :=
  if config.origin.isEmpty then { config with origin := origin } else config

/-- The entries of a document under a configuration that is given as a value. -/
def extract (settings : Settings) (document : Text) (config : Value) (origin : Text) :
    Outcome (List Entry) :=
  match Config.merge? settings config with
  | .error f => .fault f
  | .ok config => ofDocument settings (withOrigin origin config) document

end Extraction
end MarkupCatalog
