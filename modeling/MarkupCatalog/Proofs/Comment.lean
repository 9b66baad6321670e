/-
The first comment of a text. `first?_written`: it is read as it is written;
`first?_eq_some_iff_leftmost`: of all comments in a text it is the leftmost, and the shortest of those
that begin there; `first?_eq_none_iff`: a text has none exactly if nothing that opens a comment is
followed by something that closes one. What stands inside is the text without the delimiter that it
begins with (`withoutOpening_append`) and the one that it ends with (`withoutClosing_append`).
-/
import MarkupCatalog.Comment
import MarkupCatalog.Proofs.Text.Pieces
import MarkupCatalog.Proofs.Text.Place

namespace MarkupCatalog.Comment

open Text (StandsAt FirstFrom Unbordered slice)

/-! ## Delimiters -/

theorem unbordered_opening : Unbordered opening := by
  intro j h0 hj
  have : j < 4 := hj
  obtain rfl | rfl | rfl : j = 1 ∨ j = 2 ∨ j = 3 := by omega
  all_goals decide

theorem unbordered_closing : Unbordered closing := by
  intro j h0 hj
  have : j < 3 := hj
  obtain rfl | rfl : j = 1 ∨ j = 2 := by omega
  all_goals decide

/-- What opens a comment is cut off where nothing before it opens one. -/
theorem cut_opening {a : Text} (h : ¬opening <:+: a) (r : Text) :
    Text.cut opening (a ++ opening ++ r) = some (a, r) :=
  Text.cut_append opening_ne_nil unbordered_opening h r

theorem cut_closing {a : Text} (h : ¬closing <:+: a) (r : Text) :
    Text.cut closing (a ++ closing ++ r) = some (a, r) :=
  Text.cut_append closing_ne_nil unbordered_closing h r

/-! ## The first comment -/

theorem first?_written {header : Text} (h : ¬closing <:+: header) (body : Text) :
    first? (opening ++ header ++ closing ++ body) = some (header, body) := by
  have hopen := cut_opening (a := []) (by simp [opening]) (header ++ closing ++ body)
  have htext : opening ++ header ++ closing ++ body = [] ++ opening ++ (header ++ closing ++ body) := by
    simp
  rw [first?, htext, hopen, Option.bind_some, cut_closing h]

theorem length_of_first? {s header body : Text} (h : first? s = some (header, body)) :
    4 + header.length + 3 + body.length ≤ s.length := by
  obtain ⟨⟨before, rest⟩, hopen, hclose⟩ := Option.bind_eq_some_iff.1 h
  have hclose : Text.cut closing rest = some (header, body) := hclose
  rw [Text.cut_eq_some hopen, Text.cut_eq_some hclose]
  simp [opening, closing]
  omega

/-! ## All comments of a text -/

/-- A comment opens at place `i` and is closed at place `j`, after the whole of its opening
delimiter. -/
def Encloses (s : Text) (i j : Nat) : Prop := StandsAt opening s i ∧ i + 4 ≤ j ∧ StandsAt closing s j

/-- A comment opens in the text and is closed after the whole of its opening delimiter. -/
def HasComment (s : Text) : Prop := ∃ i j, StandsAt opening s i ∧ i + 4 ≤ j ∧ StandsAt closing s j

/-- The first comment begins with the first delimiter that opens one, closed or not: what closes a
later one closes it as well. -/
theorem firstFrom_encloses_iff {s : Text} {i : Nat} :
    FirstFrom (fun i => ∃ j, Encloses s i j) 0 i ↔
      FirstFrom (StandsAt opening s) 0 i ∧ ∃ j, Encloses s i j := by
  constructor
  · intro h
    obtain ⟨hi, ⟨j, henc⟩, hbefore⟩ := h
    refine ⟨⟨hi, henc.1, fun k hk hki hopen => ?_⟩, j, henc⟩
    have := henc.2.1
    exact hbefore k hk hki ⟨j, hopen, by omega, henc.2.2⟩
  · intro h
    obtain ⟨hfirst, henc⟩ := h
    exact ⟨hfirst.1, henc, fun k hk hki ⟨j, hj⟩ => hfirst.2.2 k hk hki hj.1⟩

theorem firstFrom_encloses_left_iff {s : Text} {i j : Nat} :
    FirstFrom (Encloses s i) 0 j ↔
      StandsAt opening s i ∧ FirstFrom (StandsAt closing s) (i + 4) j := by
  constructor
  · intro h
    obtain ⟨-, ⟨hopen, hij, hclose⟩, hbefore⟩ := h
    exact ⟨hopen, hij, hclose, fun k hk hkj hk' =>
      hbefore k (Nat.zero_le k) hkj ⟨hopen, hk, hk'⟩⟩
  · intro h
    obtain ⟨hopen, hij, hclose, hbefore⟩ := h
    exact ⟨Nat.zero_le j, ⟨hopen, hij, hclose⟩, fun k _ hkj hk => hbefore k hk.2.1 hkj hk.2.2⟩

/-- **The comment that is read** is the leftmost of all comments in the text, and the shortest of
those that begin there. -/
theorem first?_eq_some_iff_leftmost {s : Text} {p : Text × Text} :
    first? s = some p ↔
      ∃ i j, FirstFrom (fun i => ∃ j, Encloses s i j) 0 i ∧ FirstFrom (Encloses s i) 0 j ∧
        p = (slice s (i + 4) j, s.drop (j + 3)) := by
  obtain ⟨header, body⟩ := p
  have hopen {a r : Text} : Text.cut opening s = some (a, r) ↔
      ∃ i, FirstFrom (StandsAt opening s) 0 i ∧ a = slice s 0 i ∧ r = s.drop (i + 4) :=
    Text.cut_drop (i := 0) opening_ne_nil
  have hclose {i : Nat} : Text.cut closing (s.drop (i + 4)) = some (header, body) ↔
      ∃ j, FirstFrom (StandsAt closing s) (i + 4) j ∧ header = slice s (i + 4) j ∧
        body = s.drop (j + 3) :=
    Text.cut_drop closing_ne_nil
  rw [first?, Option.bind_eq_some_iff]
  constructor
  · intro h
    obtain ⟨⟨a, r⟩, ha, hr⟩ := h
    obtain ⟨i, hfirst, rfl, rfl⟩ := hopen.1 ha
    obtain ⟨j, hj, rfl, rfl⟩ := hclose.1 hr
    exact ⟨i, j, firstFrom_encloses_iff.2 ⟨hfirst, j, hfirst.2.1, hj.1, hj.2.1⟩,
      firstFrom_encloses_left_iff.2 ⟨hfirst.2.1, hj⟩, rfl⟩
  · intro h
    obtain ⟨i, j, hi, hj, hp⟩ := h
    obtain ⟨rfl, rfl⟩ := Prod.mk.inj hp
    exact ⟨_, hopen.2 ⟨i, (firstFrom_encloses_iff.1 hi).1, rfl, rfl⟩,
      hclose.2 ⟨j, (firstFrom_encloses_left_iff.1 hj).2, rfl, rfl⟩⟩

/-- Where a comment stands, there is a leftmost one, and a shortest that begins with it. -/
theorem HasComment.exists_first {s : Text} (h : HasComment s) :
    ∃ i j, FirstFrom (fun i => ∃ j, Encloses s i j) 0 i ∧ FirstFrom (Encloses s i) 0 j := by
  obtain ⟨i, henc⟩ := h
  obtain ⟨i', hi'⟩ := FirstFrom.exists_of (P := fun i => ∃ j, Encloses s i j) (Nat.zero_le i) henc
  obtain ⟨j, hj⟩ := hi'.2.1
  obtain ⟨j', hj'⟩ := FirstFrom.exists_of (Nat.zero_le j) hj
  exact ⟨i', j', hi', hj'⟩

theorem first?_eq_none_iff {s : Text} : first? s = none ↔ ¬HasComment s := by
  constructor
  · intro hnone hcomment
    obtain ⟨i, j, hi, hj⟩ := hcomment.exists_first
    simp [first?_eq_some_iff_leftmost.2 ⟨i, j, hi, hj, rfl⟩] at hnone
  · intro hno
    cases hfirst : first? s with
    | none => rfl
    | some p =>
      obtain ⟨i, j, -, hj, -⟩ := first?_eq_some_iff_leftmost.1 hfirst
      exact absurd ⟨i, j, hj.2.1⟩ hno

/-! ## The text inside a comment -/

/-- The text begins with an opening delimiter; whitespace may stand before it. -/
def BeginsOpen (s : Text) : Prop := ∃ g r, Text.allBlank g = true ∧ s = g ++ (opening ++ r)

/-- The text ends with a closing delimiter; whitespace may stand after it. -/
def EndsClosed (s : Text) : Prop := ∃ a g, Text.allBlank g = true ∧ s = a ++ (closing ++ g)

theorem beginsOpen_iff {s : Text} : BeginsOpen s ↔ opening <+: Text.trimLeft s := by
  constructor
  · intro h
    obtain ⟨g, r, hg, rfl⟩ := h
    rw [Text.trimLeft, List.dropWhile_append_of_pos (List.all_eq_true.1 hg)]
    exact List.prefix_append _ _
  · intro h
    obtain ⟨r, hr⟩ := h
    refine ⟨s.takeWhile Text.isBlank, r, List.all_takeWhile, ?_⟩
    rw [hr]
    exact List.takeWhile_append_dropWhile.symm

theorem trimRight_closing {g : Text} (hg : Text.allBlank g = true) (a : Text) :
    Text.trimRight (a ++ (closing ++ g)) = a ++ closing := by
  have hlast : closing = [.char '-', .char '-'] ++ [.char '>'] := rfl
  rw [← List.append_assoc, Text.trimRight, Text.dropTrailing_append hg, hlast, ← List.append_assoc,
    Text.dropTrailing_concat_of_neg (by decide)]

theorem endsClosed_iff {s : Text} : EndsClosed s ↔ closing <:+ Text.trimRight s := by
  constructor
  · intro h
    obtain ⟨a, g, hg, rfl⟩ := h
    rw [trimRight_closing hg]
    exact List.suffix_append _ _
  · intro h
    obtain ⟨a, ha⟩ := h
    obtain ⟨g, hs, hg⟩ := Text.exists_dropTrailing_append Text.isBlank s
    refine ⟨a, g, hg, ?_⟩
    rw [← List.append_assoc, ha]
    exact hs

instance (s : Text) : Decidable (BeginsOpen s) := decidable_of_iff' _ beginsOpen_iff

instance (s : Text) : Decidable (EndsClosed s) := decidable_of_iff' _ endsClosed_iff

theorem withoutOpening_append {g : Text} (hg : Text.allBlank g = true) (r : Text) :
    withoutOpening (g ++ (opening ++ r)) = r := by
  rw [withoutOpening, Text.trimLeft, List.dropWhile_append_of_pos (List.all_eq_true.1 hg)]
  -- no whitespace is left to trim before the delimiter
  show (Text.after? opening (opening ++ r)).getD _ = r
  rw [Text.after?_append]
  rfl

theorem withoutOpening_of_not {s : Text} (h : ¬BeginsOpen s) : withoutOpening s = s := by
  rw [beginsOpen_iff] at h
  rw [withoutOpening]
  cases hafter : Text.after? opening (Text.trimLeft s) with
  | none => rfl
  | some r => exact absurd ⟨r, (Text.after?_eq_some.1 hafter).symm⟩ h

theorem withoutClosing_append {g : Text} (hg : Text.allBlank g = true) (a : Text) :
    withoutClosing (a ++ (closing ++ g)) = a := by
  rw [withoutClosing]
  simp only [trimRight_closing hg]
  rw [if_pos (List.isSuffixOf_iff_suffix.2 (List.suffix_append _ _))]
  simp

theorem withoutClosing_of_not {s : Text} (h : ¬EndsClosed s) : withoutClosing s = s := by
  rw [endsClosed_iff] at h
  exact if_neg fun hsuffix => h (List.isSuffixOf_iff_suffix.1 hsuffix)

/-- What stands before a character that is in no delimiter begins as it does without what follows. -/
theorem withoutOpening_append_cons {c : CodePoint} (hc : c ∉ opening) {v : Text} (hv : ¬BeginsOpen v)
    (u : Text) : withoutOpening (u ++ c :: v) = withoutOpening u ++ c :: v := by
  by_cases hu : BeginsOpen u
  · obtain ⟨g, r, hg, rfl⟩ := hu
    rw [withoutOpening_append hg, List.append_assoc, List.append_assoc, withoutOpening_append hg]
  · have hnot : ¬BeginsOpen (u ++ c :: v) := by
      intro h
      rw [beginsOpen_iff, Text.trimLeft, List.dropWhile_append] at h
      rw [beginsOpen_iff] at hu hv
      split at h
      · rw [List.dropWhile_cons] at h
        split at h
        · exact hv h
        · exact hc ((List.cons_prefix_cons.1 h).1 ▸ List.mem_cons_self)
      · exact hu (Text.prefix_of_prefix_append_cons hc h)
    rw [withoutOpening_of_not hu, withoutOpening_of_not hnot]

/-- What stands after a character that is neither in a delimiter nor whitespace ends as it does by
itself. -/
theorem withoutClosing_append_cons {c : CodePoint} (hc : c ∉ closing) (hblank : Text.isBlank c = false)
    (u v : Text) : withoutClosing (u ++ c :: v) = u ++ c :: withoutClosing v := by
  by_cases hv : EndsClosed v
  · obtain ⟨a, g, hg, rfl⟩ := hv
    rw [withoutClosing_append hg]
    exact withoutClosing_append (a := u ++ c :: a) hg ▸ by simp
  · have hnot : ¬EndsClosed (u ++ c :: v) := by
      intro h
      obtain ⟨a, g, hg, heq⟩ := h
      have hmem : c ∉ closing ++ g := by
        rw [List.mem_append, not_or]
        refine ⟨hc, fun hcg => ?_⟩
        rw [List.all_eq_true.1 hg c hcg] at hblank
        exact Bool.noConfusion hblank
      rcases List.append_eq_append_iff.1 heq with ⟨x, -, hx⟩ | ⟨x, -, hx⟩
      · cases x with
        | nil => exact hmem (hx ▸ List.mem_cons_self)
        | cons d x => exact hv ⟨x, g, hg, (List.cons_eq_cons.1 hx).2⟩
      · exact hmem (hx ▸ by simp)
    rw [withoutClosing_of_not hv, withoutClosing_of_not hnot]

/-- Nothing is taken from the end of a text that does not close a comment. -/
theorem withoutClosing_eq_self {s : Text} (h : ¬closing <:+: s) : withoutClosing s = s := by
  refine withoutClosing_of_not fun hend => h ?_
  exact (endsClosed_iff.1 hend).isInfix.trans (Text.dropTrailing_prefix _ _).isInfix

/-- From the beginning of a text nothing is taken but what ends in an opening delimiter. -/
theorem exists_withoutOpening (s : Text) :
    ∃ p, s = p ++ withoutOpening s ∧ (p = [] ∨ opening <:+ p) := by
  unfold withoutOpening
  cases hafter : Text.after? opening (Text.trimLeft s) with
  | none => exact ⟨[], rfl, .inl rfl⟩
  | some r =>
    refine ⟨s.takeWhile Text.isBlank ++ opening, ?_, .inr (List.suffix_append _ _)⟩
    rw [Option.getD_some, List.append_assoc, ← Text.after?_eq_some.1 hafter]
    exact List.takeWhile_append_dropWhile.symm

/-- Taking an opening delimiter away leaves the end as it is. -/
theorem endsClosed_of_withoutOpening {s : Text} (h : EndsClosed (withoutOpening s)) :
    EndsClosed s := by
  obtain ⟨p, hs, -⟩ := exists_withoutOpening s
  obtain ⟨a, g, hg, heq⟩ := h
  refine ⟨p ++ a, g, hg, ?_⟩
  rw [List.append_assoc, ← heq]
  exact hs

theorem inner_of_not_endsClosed {s : Text} (h : ¬EndsClosed s) : inner s = withoutOpening s :=
  withoutClosing_of_not fun hclosed => h (endsClosed_of_withoutOpening hclosed)

/-- A text that does not close a comment is what stands inside one, after its opening delimiter if it
has one. -/
theorem exists_inner {s : Text} (h : ¬closing <:+: s) :
    ∃ p, s = p ++ inner s ∧ (p = [] ∨ opening <:+ p) := by
  obtain ⟨p, hs, hp⟩ := exists_withoutOpening s
  have hclose : ¬closing <:+: withoutOpening s := by
    intro hin
    rw [hs] at h
    exact h (hin.trans (List.suffix_append _ _).isInfix)
  refine ⟨p, ?_, hp⟩
  rw [inner, withoutClosing_eq_self hclose]
  exact hs

/-- A text in which no delimiter stands is the text inside a comment as it is. -/
theorem inner_eq_self {s : Text} (hopen : ¬opening <:+: s) (hclose : ¬closing <:+: s) :
    inner s = s := by
  obtain ⟨p, hs, rfl | hp⟩ := exists_inner hclose
  · exact hs.symm
  · refine absurd ?_ hopen
    rw [hs]
    exact hp.isInfix.trans (List.prefix_append _ _).isInfix

/-! ## The fault of a text without a comment -/

theorem split?_eq_ok_iff {s : Text} {p : Text × Text} : split? s = .ok p ↔ first? s = some p := by
  unfold split?
  split
  next q hq => simp [hq]
  next hnone => simp [hnone]

theorem split?_eq_error_iff {s : Text} {f : Fault} :
    split? s = .error f ↔ first? s = none ∧ f = .noComment (Text.preview s) := by
  unfold split?
  split
  next q hq => simp [hq]
  next hnone => simp [hnone, eq_comm]

end MarkupCatalog.Comment
