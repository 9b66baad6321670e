/-
The fields of a catalog entry, in the order in which an entry is written. Each has a name, which is
its key in a written entry, and a symbol, which stands for the field itself where a field is given
as a value.
-/
import MarkupCatalog.Text.Basic

namespace MarkupCatalog

/-- A field of a catalog entry. -/
inductive Field where
  | category
  | group
  | name
  | id
  | viewId
  | lines
  | fragment
  | view
  | template
  | options
  | optionsText
  | origin
  | resources
  | usage
deriving DecidableEq, Repr

namespace Field

/-- All fields, in order. -/
def all : List Field :=
  [category, group, name, id, viewId, lines, fragment, view, template, options, optionsText, origin,
   resources, usage]

/-- The key of the field in a written entry. -/
def key : Field → Text
  | category => "category".toText
  | group => "group".toText
  | name => "name".toText
  | id => "id".toText
  | viewId => "view_id".toText
  | lines => "lines".toText
  | fragment => "partial".toText
  | view => "view".toText
  | template => "template".toText
  | options => "options".toText
  | optionsText => "options_data".toText
  | origin => "origin".toText
  | resources => "resources".toText
  | usage => "usage".toText

/-- The field with this key. -/
def ofKey? (k : Text) : Option Field := all.find? fun f => f.key = k

/-- The symbol of the field: its key in capitals. -/
def symbol (f : Field) : Text := "EntryField.".toText ++ f.key.map CodePoint.toUpper

theorem mem_all (f : Field) : f ∈ all := by cases f <;> decide

theorem nodup_all : all.Nodup := by decide

theorem key_injective {f g : Field} (h : f.key = g.key) : f = g := by
  revert h
  cases f <;> cases g <;> decide

end Field

/-- A text that may be given by naming a field, whose key it then is. -/
inductive Label where
  | text (s : Text)
  | field (f : Field)
deriving DecidableEq, Repr

/-- The text itself. -/
def Label.content : Label → Text
  | .text s => s
  | .field f => f.key

end MarkupCatalog
