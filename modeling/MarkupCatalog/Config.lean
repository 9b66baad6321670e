/-
Configurations: how blocks are read and what their entries start from. `read?` reads one from a
value and tells everything that is wrong in it; `merge?` puts what a caller gives on top of the
defaults.
-/
import MarkupCatalog.Record
import MarkupCatalog.Settings
import MarkupCatalog.Wrap.Reading

namespace MarkupCatalog

structure Config where
  /-- what stands for the first tab of each line -/
  indent : Text
  /-- where the blocks come from -/
  origin : Text
  /-- a map with texts as keys -/
  resources : Pairs
  /-- the wrap of blocks that declare none -/
  wrap : Wrap
  /-- the markup around templates -/
  templateWrap : Wrap
deriving Repr

namespace Config

/-! ## Defaults -/

/-- An empty list of files and an empty list of inline parts. -/
def noScripts : Value :=
  .map [(.text "files".toText, .list []), (.text "inline".toText, .list [])]

/-- The resources of a page that needs none. -/
def noResources : Pairs :=
  [(.text "classnames".toText,
      .map [(.text "root".toText, .text []), (.text "body".toText, .text [])]),
   (.text "meta".toText, .list []),
   (.text "scriptsFoot".toText, noScripts),
   (.text "scriptsHead".toText, noScripts),
   (.text "stylesHead".toText, noScripts)]

/-- The configuration where a caller gives none. -/
def standard (settings : Settings) : Config :=
  ⟨settings.indent, [], noResources, .empty, .empty⟩

/-! ## Keys -/

def indentKey : Text := "indent".toText
def originKey : Text := "origin".toText
def resourcesKey : Text := "resources".toText
def wrapKey : Text := "wrap".toText
def templateWrapKey : Text := "template_wrap".toText

/-- The other spelling of the key for the wrap of templates. -/
def templateWrapAlias : Text := "templateWrap".toText

/-- The configuration as a value. -/
def toValue (c : Config) : Value :=
  .config c.indent c.origin c.resources c.wrap c.templateWrap

/-- The fields of the configuration under their keys. -/
def pairs (c : Config) : Pairs :=
  [(.text indentKey, .text c.indent), (.text originKey, .text c.origin),
   (.text resourcesKey, .map c.resources), (.text wrapKey, .wrap c.wrap),
   (.text templateWrapKey, .wrap c.templateWrap)]

/-! ## Reading -/

/-- The indentation; nothing stands for an empty one. -/
def indent? : Value → Except (List Problem) Text
  | .null => .ok []
  | v => Record.text? indentKey v

/-- Resources, with each key as a plain text. -/
def resources? : Value → Except (List Problem) Pairs
  | .map ps =>
    match Record.keyProblems (fun k => ⟨[.key resourcesKey, k, .key "[key]".toText], .noText⟩) ps with
    | [] => .ok (Record.textPairs ps)
    | problems => .error problems
  | _ => .error [⟨[.key resourcesKey], .noMap⟩]

/-- The configuration that a map stands for. Keys without a meaning are passed over. -/
def ofPairs? (settings : Settings) (ps : Pairs) : Except Fault Config := do
  let base := standard settings
  let get (key : Text) (default : Value) : Value := (ps.get? key).getD default
  let indent := indent? (get indentKey (.text base.indent))
  let origin := Record.text? originKey (get originKey (.text base.origin))
  let resources := resources? (get resourcesKey (.map base.resources))
  let wrap ← Wrap.ofValue? (get wrapKey (.wrap base.wrap))
  let templateWrap ← Wrap.ofValue?
    (get templateWrapAlias (get templateWrapKey (.wrap base.templateWrap)))
  match indent, origin, resources with
  | .ok indent, .ok origin, .ok resources => .ok ⟨indent, origin, resources, wrap, templateWrap⟩
  | _, _, _ =>
    .error (.invalid
      (Record.problems indent ++ Record.problems origin ++ Record.problems resources))

/-- The configuration that a value stands for: a map, or a configuration itself. -/
def read? (settings : Settings) : Value → Except Fault Config
  | .config indent origin resources wrap templateWrap =>
    .ok ⟨indent, origin, resources, wrap, templateWrap⟩
  | .map ps => ofPairs? settings ps
  | _ => .error (.invalid [⟨[], .noRecord .config⟩])

/-! ## Merging -/

/-- The key under which a configuration keeps what comes under `key`. -/
def ownKey (key : Value) : Value :=
  if key.sameKey (.text templateWrapAlias) then .text templateWrapKey else key

/-- The fields of a configuration with pairs put on top of them, one after the other. What is put there
is a copy of what is given, and none of the values described here differs from its copy. -/
def overlay (c : Config) (ps : Pairs) : Pairs :=
  ps.foldl (fun m p => m.put (ownKey p.1) p.2) c.pairs

/-- The defaults with what a caller gives on top of them. -/
def merge? (settings : Settings) : Value → Except Fault Config
  | .null => .ok (standard settings)
  | .config indent origin resources wrap templateWrap =>
    .ok ⟨indent, origin, resources, wrap, templateWrap⟩
  | .map ps => ofPairs? settings ((standard settings).overlay ps)
  | v => .error (.noMapping v.kind)

end Config
end MarkupCatalog
