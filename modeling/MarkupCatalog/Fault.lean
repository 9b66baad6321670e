/-
What can go wrong, by cause, and how each cause is told. A `Problem` is one thing that is wrong in a
record that is being read; reading goes on after it, so that all of them are told at once.
-/
import MarkupCatalog.Text.Lines
import MarkupCatalog.Text.Utf8
import MarkupCatalog.Value

namespace MarkupCatalog

/-- A record that is read from a map. -/
inductive Model where
  | config
  | blockOptions
deriving DecidableEq, Repr

/-- One step on the way to a part of a record. -/
inductive Problem.Step where
  | key (k : Text)
  | index (i : Int)
deriving DecidableEq, Repr

/-- What is wrong in one place of a record. -/
inductive Problem.Cause where
  | noRecord (model : Model)
  | noText
  | noMap
  | noTextKey
  /-- a key holds surrogates -/
  | noUnicode
deriving DecidableEq, Repr

/-- One thing that is wrong in a record, and where. -/
structure Problem where
  path : List Problem.Step
  cause : Problem.Cause
deriving DecidableEq, Repr

def Model.name : Model → Text
  | .config => "ProcessorConfig".toText
  | .blockOptions => "BlockOptions".toText

/-- The short name of a cause. -/
def Problem.Cause.code : Problem.Cause → Text
  | .noRecord _ => "model_type".toText
  | .noText => "string_type".toText
  | .noMap => "dict_type".toText
  | .noTextKey => "invalid_key".toText
  | .noUnicode => "string_unicode".toText

def Problem.Cause.message : Problem.Cause → Text
  | .noRecord model => "Input should be a valid dictionary or instance of ".toText ++ model.name
  | .noText => "Input should be a valid string".toText
  | .noMap => "Input should be a valid dictionary".toText
  | .noTextKey => "Keys should be strings".toText
  | .noUnicode =>
    "Input should be a valid string, unable to parse raw data as a unicode string".toText

/-- What a value was asked for without having it. -/
inductive Member where
  | wrap
  | items
deriving DecidableEq, Repr

def Member.name : Member → Text
  | .wrap => "wrap".toText
  | .items => "items".toText

/-- Why an operation came to no result. -/
inductive Fault where
  /-- a block has no complete comment; the beginning of the block -/
  | noComment (preview : Text)
  /-- a configuration is neither a map, a configuration nor nothing -/
  | noMapping (found : Value.Kind)
  /-- a field takes values of one kind only -/
  | wrongKind (field : Field) (expected found : Value.Kind)
  | noMember (owner : Value.Kind) (member : Member)
  /-- a map would have a map among its keys -/
  | unkeyable
  /-- a map has a key that no object key can stand for -/
  | badKey (found : Value.Kind)
  | invalid (problems : List Problem)
  /-- a text holds surrogates where bytes are made of it -/
  | unencodable (u : Utf8.Unencodable)
deriving DecidableEq, Repr

/-- The words for a fault. Problems of a record have words of their own. -/
def Fault.message : Fault → Text
  | .noComment preview => "No annotation comment found in block: ".toText ++ Text.quoted preview
  | .noMapping found => "Configuration must be a mapping, got: ".toText ++ found.name
  | .wrongKind field expected found =>
    [.char '\''] ++ field.key ++ "' must be ".toText ++ expected.name ++ ", got: ".toText ++ found.name
  | .noMember owner member =>
    let subject :=
      if owner = .type then "type object 'WrapPair'".toText
      else [.char '\''] ++ owner.name ++ "' object".toText
    subject ++ " has no attribute '".toText ++ member.name ++ [.char '\'']
  | .unkeyable => "unhashable type: 'dict'".toText
  | .badKey found => "keys must be str, int, float, bool or None, not ".toText ++ found.name
  | .unencodable u => u.message
  | .invalid problems => Text.unlines (problems.map fun p => p.cause.message)

end MarkupCatalog
