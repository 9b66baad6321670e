/-
Sessions: an entry under steps that set its fields or read a block into it. A step that comes to no
result, or to the result `false`, leaves the entry as it is.
-/
import MarkupCatalog.Extraction

namespace MarkupCatalog.Entry

/-- One step of a session. -/
inductive Step where
  /-- set the field that a value names -/
  | setNamed (name value : Value)
  /-- set a field by type -/
  | setTyped (field : Typed) (value : Value)
  /-- read a block -/
  | parse (src : Text) (config : Value)
deriving Repr

/-- What a step answers: whether it has changed the entry, where that is asked, or a fault. -/
structure Answer where
  entry : Entry
  log : List Event
  result : Except Fault (Option Bool)

/-- The entry after a step, and the answer of the step. -/
def step (settings : Settings) (e : Entry) : Step → Answer
  | .setNamed name v =>
    match e.setNamed? name v with
    | some e' => ⟨e', [], .ok (some true)⟩
    | none => ⟨e, [], .ok (some false)⟩
  | .setTyped t v =>
    match e.setTyped? t v with
    | .ok e' => ⟨e', [], .ok none⟩
    | .error f => ⟨e, [], .error f⟩
  | .parse src config =>
    let o := parse settings e src config
    match o.result with
    | .ok (some e') => ⟨e', o.log, .ok (some true)⟩
    | .ok none => ⟨e, o.log, .ok (some false)⟩
    | .error f => ⟨e, o.log, .error f⟩

/-- The answers of a session, step by step. -/
def run (settings : Settings) (e : Entry) : List Step → List Answer
  | [] => []
  | s :: ss =>
    let a := step settings e s
    a :: run settings a.entry ss

end MarkupCatalog.Entry
