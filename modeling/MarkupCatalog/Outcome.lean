/-
The outcome of an operation: what was told on the way, and a result or the fault that ended it.
Events that were told before a fault stay told.
-/
import MarkupCatalog.Event
import MarkupCatalog.Fault

namespace MarkupCatalog

structure Outcome (α : Type) where
  log : List Event
  result : Except Fault α

namespace Outcome

def ok {α : Type} (a : α) : Outcome α := ⟨[], .ok a⟩

def fault {α : Type} (f : Fault) : Outcome α := ⟨[], .error f⟩

/-- The outcome with events told before it. -/
def after {α : Type} (events : List Event) (o : Outcome α) : Outcome α :=
  ⟨events ++ o.log, o.result⟩

/-- One operation after another; a fault of the first ends both. -/
def andThen {α β : Type} (o : Outcome α) (next : α → Outcome β) : Outcome β :=
  match o.result with
  | .ok a => (next a).after o.log
  | .error f => ⟨o.log, .error f⟩

end Outcome
end MarkupCatalog
