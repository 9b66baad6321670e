/-
The options of a block: texts, lists of texts and wraps under keys, in the order in which the keys
first came. A key holds the value that was put there last (`get?_put_self`), and putting a value
changes no other key (`get?_put_other`).
-/
import MarkupCatalog.Value

namespace MarkupCatalog

/-- The value of one option. -/
inductive Setting where
  | text (s : Text)
  | parts (ps : List Text)
  | wrap (w : Wrap)
deriving DecidableEq, Repr

def Setting.toValue : Setting → Value
  | .text s => .text s
  | .parts ps => .texts ps
  | .wrap w => .wrap w

/-- The option counts as given: it is no empty text and no wrap that is not used. -/
def Setting.isGiven : Setting → Bool
  | .text s => !s.isEmpty
  | .parts ps => !ps.isEmpty
  | .wrap w => w.isSet

/-- The wrap that an option stands for. -/
def Setting.toWrap : Setting → Wrap
  | .text s => .both (.text s)
  | .parts [] => .empty
  | .parts [p] => .both (.text p)
  | .parts (p :: q :: _) => ⟨.text p, .text q⟩
  | .wrap w => w

/-- Options by key, in order. -/
abbrev Options := List (Text × Setting)

namespace Options

/-- The options with `s` under `k`: in the place of that key if it is there, else at the end. -/
def put (k : Text) (s : Setting) : Options → Options
  | [] => [(k, s)]
  | o :: os => if o.1 = k then (k, s) :: os else o :: put k s os

def get? (k : Text) : Options → Option Setting
  | [] => none
  | o :: os => if o.1 = k then some o.2 else get? k os

/-- The options as a map. -/
def toValue (os : Options) : Value := .map (os.map fun o => (.text o.1, o.2.toValue))

/-- The options after all assignments, one after the other. -/
def putAll (assignments : List (Text × Setting)) (os : Options) : Options :=
  assignments.foldl (fun os a => put a.1 a.2 os) os

theorem get?_put_self (k : Text) (s : Setting) (os : Options) : get? k (put k s os) = some s := by
  induction os with
  | nil => simp [put, get?]
  | cons o os ih => by_cases h : o.1 = k <;> simp [put, get?, h, ih]

theorem get?_put_other {k k' : Text} (h : k' ≠ k) (s : Setting) (os : Options) :
    get? k' (put k s os) = get? k' os := by
  induction os with
  | nil => simp [put, get?, h.symm]
  | cons o os ih => by_cases ho : o.1 = k <;> grind [put, get?]

theorem keys_put (k : Text) (s : Setting) (os : Options) :
    (put k s os).map (·.1) = if k ∈ os.map (·.1) then os.map (·.1) else os.map (·.1) ++ [k] := by
  induction os with
  | nil => simp [put]
  | cons o os ih => by_cases h : o.1 = k <;> grind [put]

theorem nodup_keys_put {k : Text} {s : Setting} {os : Options} (h : (os.map (·.1)).Nodup) :
    ((put k s os).map (·.1)).Nodup := by
  rw [keys_put]
  split
  · exact h
  · grind

end Options

/-! ## Keys with a meaning of their own -/

namespace Key

def extract : Text := "extract".toText
def name : Text := "name".toText
def category : Text := "category".toText
def group : Text := "group".toText
def wrap : Text := "wrap".toText

/-- The keys whose values are never taken apart at colons. -/
def verbatim : List Text := [extract, name, category, group]

end Key
end MarkupCatalog
