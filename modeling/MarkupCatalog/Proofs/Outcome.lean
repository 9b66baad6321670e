/-
When something that may fail comes to a result, and when it fails: one lemma for each way to go on from
what came before. The results of outcomes are put together alike (`result_andThen`).
-/
import MarkupCatalog.Outcome

namespace MarkupCatalog.Outcome

section Except

variable {ε α β : Type} {r : Except ε α} {e : ε}

theorem map_eq_ok_iff {g : α → β} {b : β} : r.map g = .ok b ↔ ∃ a, r = .ok a ∧ b = g a := by
  cases r <;> simp [Except.map, eq_comm]

theorem map_eq_error_iff {g : α → β} : r.map g = .error e ↔ r = .error e := by
  cases r <;> simp [Except.map]

theorem bind_eq_ok_iff {g : α → Except ε β} {b : β} :
    r >>= g = .ok b ↔ ∃ a, r = .ok a ∧ g a = .ok b := by
  cases r <;> simp [bind, Except.bind]

theorem bind_eq_error_iff {g : α → Except ε β} :
    r >>= g = .error e ↔ r = .error e ∨ ∃ a, r = .ok a ∧ g a = .error e := by
  cases r <;> simp [bind, Except.bind]

end Except

variable {α β : Type}

theorem result_andThen (o : Outcome α) (next : α → Outcome β) :
    (o.andThen next).result = o.result.bind fun a => (next a).result := by
  obtain ⟨log, result⟩ := o
  cases result with
  | error f => rfl
  | ok a => rfl

theorem result_after (events : List Event) (o : Outcome α) : (o.after events).result = o.result :=
  rfl

end MarkupCatalog.Outcome
