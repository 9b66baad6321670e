/-
The parts of a text at its first comment. A text divides in one way at most into what stands before a
comment, the text inside and what follows, so that nothing before opens a comment and nothing inside
closes it (`Divides.unique`). Splitting finds these parts, and it fails exactly where what opens the
first comment is not closed, although something that opens a later one may stand there
(`existsUnique_divides`).
-/
import Mathlib.Logic.ExistsUnique
import MarkupCatalog.Proofs.Comment

namespace MarkupCatalog.Comment

open Text (StandsAt FirstFrom)

variable {s before header body : Text}

/-! ## The parts of a text -/

/-- The text divides into what stands before its first comment, the text inside the comment, and what
follows it. -/
structure Divides (s before header body : Text) : Prop where
  text_eq : s = before ++ opening ++ header ++ closing ++ body
  /-- nothing that begins before the comment opens one -/
  unopened : ∀ i, i < before.length → ¬StandsAt opening s i
  /-- nothing inside the comment closes it -/
  unclosed : ¬closing <:+: header

theorem Divides.cut_opening (h : Divides s before header body) :
    Text.cut opening s = some (before, header ++ closing ++ body) := by
  have htext : s = before ++ opening ++ (header ++ closing ++ body) := by
    rw [h.text_eq]
    simp
  have hopen : StandsAt opening s before.length := by
    rw [htext]
    simp [StandsAt]
  exact (Text.cut_eq_some_iff opening_ne_nil).2
    ⟨htext, Nat.zero_le _, hopen, fun i _ hi => h.unopened i hi⟩

theorem first?_eq_some_iff {p : Text × Text} :
    first? s = some p ↔ ∃ before, Divides s before p.1 p.2 := by
  obtain ⟨header, body⟩ := p
  constructor
  · intro h
    obtain ⟨⟨before, rest⟩, hopen, hclose⟩ := Option.bind_eq_some_iff.1 h
    have hclose : Text.cut closing rest = some (header, body) := hclose
    obtain ⟨htext, hfirst⟩ := (Text.cut_eq_some_iff opening_ne_nil).1 hopen
    refine ⟨before, ?_, fun i hi => hfirst.2.2 i (Nat.zero_le i) hi,
      Text.not_infix_of_cut closing_ne_nil hclose⟩
    rw [htext, Text.cut_eq_some hclose]
    simp
  · intro h
    obtain ⟨before, h⟩ := h
    rw [first?, h.cut_opening, Option.bind_some, cut_closing h.unclosed]

/-- A text divides in one way at most. -/
theorem Divides.unique {before' header' body' : Text} (h : Divides s before header body)
    (h' : Divides s before' header' body') :
    before = before' ∧ header = header' ∧ body = body' := by
  have hopen := h.cut_opening.symm.trans h'.cut_opening
  rw [Option.some.injEq, Prod.mk.injEq] at hopen
  obtain ⟨hbefore, hrest⟩ := hopen
  have hclose := cut_closing h.unclosed body
  rw [hrest, cut_closing h'.unclosed, Option.some.injEq, Prod.mk.injEq] at hclose
  exact ⟨hbefore, hclose.1.symm, hclose.2.symm⟩

/-! ## Splitting -/

/-- What opens the first comment of the text, if anything does, is not closed. -/
def Unclosed (s : Text) : Prop :=
  ∀ i, FirstFrom (StandsAt opening s) 0 i → ∀ j, i + 4 ≤ j → ¬StandsAt closing s j

/-- A text has no comment exactly if what opens the first is not closed: only the first counts. -/
theorem unclosed_iff : Unclosed s ↔ ¬HasComment s := by
  constructor
  · intro h hcomment
    obtain ⟨i, j, hi, hj⟩ := hcomment.exists_first
    obtain ⟨hfirst, -⟩ := firstFrom_encloses_iff.1 hi
    obtain ⟨-, hij, hclose⟩ := hj.2.1
    exact h i hfirst j hij hclose
  · intro h i hfirst j hij hclose
    exact h ⟨i, j, hfirst.2.1, hij, hclose⟩

/-- **Splitting divides a text at its first comment.** It fails exactly if what opens the first
comment is not closed, and then with the one fault that there is no comment; else there is one
division of the text only, and splitting gives its comment and what follows. -/
theorem existsUnique_divides (s : Text) :
    (∀ f, split? s = .error f ↔ Unclosed s ∧ f = .noComment (Text.preview s)) ∧
      (∀ p, split? s = .ok p ↔ ∃ before, Divides s before p.1 p.2) ∧
      (¬Unclosed s ↔ ∃! p : Text × Text, ∃ before, Divides s before p.1 p.2) := by
  have hnone : first? s = none ↔ Unclosed s := first?_eq_none_iff.trans unclosed_iff.symm
  refine ⟨fun f => ?_, fun p => split?_eq_ok_iff.trans first?_eq_some_iff, ?_⟩
  · rw [split?_eq_error_iff, hnone]
  · rw [← hnone]
    constructor
    · intro h
      obtain ⟨p, hp⟩ := Option.ne_none_iff_exists'.1 h
      obtain ⟨before, hdiv⟩ := first?_eq_some_iff.1 hp
      refine ⟨p, ⟨before, hdiv⟩, fun q hq => ?_⟩
      obtain ⟨before', hdiv'⟩ := hq
      obtain ⟨-, hheader, hbody⟩ := hdiv'.unique hdiv
      exact Prod.ext hheader hbody
    · intro h
      obtain ⟨p, hp, -⟩ := h
      simp [first?_eq_some_iff.2 hp]

-- delimiters that overlap
example : first? "<!-->".toText = none := by decide
example : first? "a <!--->--><!-- b -->".toText = some ("->".toText, "<!-- b -->".toText) := by decide

end MarkupCatalog.Comment
