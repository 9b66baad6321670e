/-
What taking a text apart gives where it is known how the text is put together: the pieces of a list
between separators (`pieces_append_sep`, `pieces_joined`), and a list without a certain kind of end
(`dropTrailing_append`, `dropTrailing_eq_self`). Of a list that loses both its ends it does not matter
which is dropped first (`dropTrailing_dropWhile`).
-/
import MarkupCatalog.Text.Basic

namespace MarkupCatalog.Text

variable {α : Type} {isSep : α → Bool}

theorem pieces_append_sep {a : List α} (ha : ∀ x ∈ a, isSep x = false) {x : α}
    (hx : isSep x = true) (s : List α) : pieces isSep (a ++ x :: s) = a :: pieces isSep s := by
  induction a with
  | nil =>
    rw [List.nil_append, pieces]
    simp [hx]
  | cons y a ih =>
    have hy := ha y List.mem_cons_self
    rw [List.cons_append, pieces, ih fun z hz => ha z (List.mem_cons_of_mem _ hz)]
    simp [hy]

/-- What stands before a separator and what stands after it are taken apart each by itself. -/
theorem pieces_append_cons {x : α} (hx : isSep x = true) (a s : List α) :
    pieces isSep (a ++ x :: s) = pieces isSep a ++ pieces isSep s := by
  induction a with
  | nil => simp [pieces, hx]
  | cons y a ih =>
    rw [List.cons_append, pieces, pieces, ih]
    cases hy : isSep y with
    | true => simp
    | false =>
      cases hp : pieces isSep a with
      | nil => exact absurd hp (pieces_ne_nil isSep a)
      | cons piece more => simp

theorem pieces_of_not_sep {a : List α} (ha : ∀ x ∈ a, isSep x = false) :
    pieces isSep a = [a] := by
  induction a with
  | nil => rfl
  | cons y a ih =>
    have hy := ha y List.mem_cons_self
    rw [pieces, ih fun z hz => ha z (List.mem_cons_of_mem _ hz)]
    simp [hy]

/-- No piece holds what it was parted at. -/
theorem not_sep_of_mem_pieces {s l : List α} (h : l ∈ pieces isSep s) : ∀ x ∈ l, isSep x = false := by
  induction s generalizing l with
  | nil =>
    obtain rfl := List.mem_singleton.1 h
    simp
  | cons y s ih =>
    rw [pieces] at h
    cases hy : isSep y with
    | true =>
      rw [hy, if_pos rfl, List.mem_cons] at h
      rcases h with rfl | h
      · simp
      · exact ih h
    | false =>
      rw [hy, if_neg Bool.false_ne_true] at h
      cases hp : pieces isSep s with
      | nil => exact absurd hp (pieces_ne_nil isSep s)
      | cons piece more =>
        rw [hp] at h ih
        rcases List.mem_cons.1 h with rfl | h
        · exact List.forall_mem_cons.2 ⟨hy, ih List.mem_cons_self⟩
        · exact ih (List.mem_cons_of_mem _ h)

/-- A piece is part of the text that it comes from. -/
theorem subset_of_mem_pieces {s l : List α} (h : l ∈ pieces isSep s) : l ⊆ s := by
  induction s generalizing l with
  | nil =>
    obtain rfl := List.mem_singleton.1 h
    exact List.Subset.refl []
  | cons y s ih =>
    rw [pieces] at h
    cases hy : isSep y with
    | true =>
      rw [hy, if_pos rfl, List.mem_cons] at h
      rcases h with rfl | h
      · simp
      · exact List.Subset.trans (ih h) (List.subset_cons_self y s)
    | false =>
      rw [hy, if_neg Bool.false_ne_true] at h
      cases hp : pieces isSep s with
      | nil => exact absurd hp (pieces_ne_nil isSep s)
      | cons piece more =>
        rw [hp] at h ih
        rcases List.mem_cons.1 h with rfl | h
        · exact List.cons_subset_cons y (ih List.mem_cons_self)
        · exact List.Subset.trans (ih (List.mem_cons_of_mem _ h)) (List.subset_cons_self y s)

theorem length_pieces (s : List α) : (pieces isSep s).length = s.countP isSep + 1 := by
  induction s with
  | nil => rfl
  | cons x s ih =>
    rw [pieces]
    cases hp : pieces isSep s with
    | nil => exact absurd hp (pieces_ne_nil isSep s)
    | cons piece more =>
      rw [hp] at ih
      cases hx : isSep x with
      | true => rw [if_pos rfl, List.countP_cons_of_pos hx, List.length_cons, ih]
      | false =>
        rw [if_neg Bool.false_ne_true, List.countP_cons_of_neg (by simp [hx]), ← ih]
        rfl

theorem joined_cons_cons (sep l m : Text) (ls : List Text) :
    joined sep (l :: m :: ls) = l ++ sep ++ joined sep (m :: ls) := rfl

/-- Texts without the separator are found again between the separators that stand between them. -/
theorem pieces_joined {sep : CodePoint} {ls : List Text} (hne : ls ≠ []) (h : ∀ l ∈ ls, sep ∉ l) :
    pieces (· == sep) (joined [sep] ls) = ls := by
  have hpiece {l : Text} (hl : l ∈ ls) : ∀ c ∈ l, (c == sep) = false := by
    intro c hc
    rw [beq_eq_false_iff_ne]
    rintro rfl
    exact h l hl hc
  induction ls with
  | nil => exact absurd rfl hne
  | cons l ls ih =>
    cases ls with
    | nil => exact pieces_of_not_sep (hpiece List.mem_cons_self)
    | cons m ls =>
      rw [joined_cons_cons, List.append_assoc, List.singleton_append,
        pieces_append_sep (hpiece List.mem_cons_self) (beq_self_eq_true sep),
        ih (by simp) (fun l hl => h l (List.mem_cons_of_mem _ hl))
          fun hl => hpiece (List.mem_cons_of_mem _ hl)]

theorem mem_joined {sep : Text} {ls : List Text} {c : CodePoint} (h : c ∈ joined sep ls) :
    c ∈ sep ∨ ∃ l ∈ ls, c ∈ l := by
  induction ls with
  | nil => simp [joined] at h
  | cons l ls ih =>
    cases ls with
    | nil => exact .inr ⟨l, List.mem_cons_self, h⟩
    | cons m ls =>
      rw [joined_cons_cons, List.append_assoc, List.mem_append, List.mem_append] at h
      rcases h with h | h | h
      · exact .inr ⟨l, List.mem_cons_self, h⟩
      · exact .inl h
      · rcases ih h with hsep | ⟨l', hl', hc⟩
        · exact .inl hsep
        · exact .inr ⟨l', List.mem_cons_of_mem _ hl', hc⟩

theorem mem_joined_of_mem {sep l : Text} {ls : List Text} {c : CodePoint} (hl : l ∈ ls) (hc : c ∈ l) :
    c ∈ joined sep ls := by
  induction ls with
  | nil => simp at hl
  | cons m ls ih =>
    cases ls with
    | nil => exact List.mem_singleton.1 hl ▸ hc
    | cons m' ls =>
      rw [joined_cons_cons, List.append_assoc, List.mem_append, List.mem_append]
      rcases List.mem_cons.1 hl with rfl | hl
      · exact .inl hc
      · exact .inr (.inr (ih hl))

/-- Pieces put together again, where their items stand for characters and separators for `sep`. -/
theorem joined_map_pieces {f : α → CodePoint} {sep : CodePoint} (hsep : ∀ x, isSep x = true → f x = sep)
    (s : List α) : joined [sep] ((pieces isSep s).map (List.map f)) = s.map f := by
  induction s with
  | nil => rfl
  | cons x s ih =>
    rw [pieces, List.map_cons, ← ih]
    cases hp : pieces isSep s with
    | nil => exact absurd hp (pieces_ne_nil isSep s)
    | cons piece more =>
      cases hx : isSep x with
      | true => simp [joined, hsep x hx]
      | false => cases more <;> simp [joined]

theorem dropTrailing_prefix (p : α → Bool) (s : List α) : dropTrailing p s <+: s := by
  induction s with
  | nil => exact List.prefix_rfl
  | cons x s ih =>
    unfold dropTrailing
    split
    next =>
      split
      · exact List.nil_prefix
      · exact List.cons_prefix_cons.2 ⟨rfl, List.nil_prefix⟩
    next => exact List.cons_prefix_cons.2 ⟨rfl, ih⟩

/-- What is dropped stands at the end. -/
theorem exists_dropTrailing_append (p : α → Bool) (s : List α) :
    ∃ b, s = dropTrailing p s ++ b ∧ b.all p = true := by
  induction s with
  | nil => exact ⟨[], rfl, rfl⟩
  | cons x s ih =>
    obtain ⟨b, hs, hb⟩ := ih
    unfold dropTrailing
    split
    next hnil =>
      rw [hnil, List.nil_append] at hs
      by_cases hx : p x = true
      · rw [if_pos hx]
        exact ⟨x :: s, rfl, by rw [List.all_cons, hx, hs, hb]; rfl⟩
      · rw [if_neg hx]
        exact ⟨b, by rw [← hs]; rfl, hb⟩
    next => exact ⟨b, by rw [List.cons_append, ← hs], hb⟩

/-- What is left does not end in what is dropped. -/
theorem getLast?_dropTrailing {p : α → Bool} {s : List α} {x : α}
    (h : (dropTrailing p s).getLast? = some x) : p x = false := by
  induction s with
  | nil => simp [dropTrailing] at h
  | cons y s ih =>
    unfold dropTrailing at h
    split at h
    next =>
      split at h
      next => simp at h
      next hy =>
        obtain rfl := Option.some.inj h
        simpa using hy
    next kept hkept =>
      rw [List.getLast?_cons, Option.some.injEq] at h
      cases hlast : (dropTrailing p s).getLast? with
      | none => exact absurd (List.getLast?_eq_none_iff.1 hlast) hkept
      | some z =>
        rw [hlast, Option.getD_some] at h
        exact ih (h ▸ hlast)

theorem dropTrailing_append {p : α → Bool} {b : List α} (hb : b.all p = true) (a : List α) :
    dropTrailing p (a ++ b) = dropTrailing p a := by
  induction a with
  | nil => exact dropTrailing_eq_nil_iff.2 hb
  | cons x a ih => rw [List.cons_append, dropTrailing, dropTrailing, ih]

theorem dropTrailing_append_of_ne_nil {p : α → Bool} {s : List α} (h : dropTrailing p s ≠ [])
    (a : List α) : dropTrailing p (a ++ s) = a ++ dropTrailing p s := by
  induction a with
  | nil => rfl
  | cons x a ih =>
    rw [List.cons_append, dropTrailing, ih]
    cases hkept : a ++ dropTrailing p s with
    | nil => exact absurd (List.append_eq_nil_iff.1 hkept).2 h
    | cons y kept => rw [List.cons_append, hkept]

theorem dropTrailing_concat_of_neg {p : α → Bool} {x : α} (hx : p x = false) (a : List α) :
    dropTrailing p (a ++ [x]) = a ++ [x] := by
  induction a with
  | nil => simp [dropTrailing, hx]
  | cons y a ih =>
    rw [List.cons_append, dropTrailing, ih]
    cases a <;> rfl

theorem dropTrailing_eq_self {p : α → Bool} {s : List α}
    (h : ∀ x, s.getLast? = some x → p x = false) : dropTrailing p s = s := by
  cases hlast : s.getLast? with
  | none =>
    rw [List.getLast?_eq_none_iff.1 hlast]
    rfl
  | some x =>
    obtain ⟨init, rfl⟩ := List.getLast?_eq_some_iff.1 hlast
    exact dropTrailing_concat_of_neg (h x hlast) init

theorem dropWhile_eq_self {p : α → Bool} {s : List α} (h : ∀ x, s.head? = some x → p x = false) :
    s.dropWhile p = s := by
  cases s with
  | nil => rfl
  | cons x s => exact List.dropWhile_cons_of_neg (by simp [h x rfl])

/-- What is dropped at the ends anyway may come there and go. -/
theorem dropTrailing_dropWhile_append {p : α → Bool} {b a : List α} (hb : b.all p = true)
    (ha : a.all p = true) (s : List α) :
    dropTrailing p ((b ++ s ++ a).dropWhile p) = dropTrailing p (s.dropWhile p) := by
  rw [List.append_assoc, List.dropWhile_append_of_pos (List.all_eq_true.1 hb), List.dropWhile_append]
  split
  next hnil =>
    rw [List.isEmpty_iff.1 hnil, ← List.append_nil a,
      List.dropWhile_append_of_pos (List.all_eq_true.1 ha)]
    rfl
  next => rw [dropTrailing_append ha]

/-- It does not matter which end is dropped first. -/
theorem dropTrailing_dropWhile (p : α → Bool) (s : List α) :
    dropTrailing p (s.dropWhile p) = (dropTrailing p s).dropWhile p := by
  induction s with
  | nil => rfl
  | cons x s ih =>
    cases hx : p x with
    | true =>
      rw [List.dropWhile_cons_of_pos hx, ih, dropTrailing]
      split
      next hnil => rw [hnil, if_pos hx]
      next => rw [List.dropWhile_cons_of_pos hx]
    | false =>
      rw [List.dropWhile_cons_of_neg (by simp [hx]), dropTrailing]
      split
      next => simp [hx]
      next => rw [List.dropWhile_cons_of_neg (by simp [hx])]

/-- A text without a character begins another one before that character or not at all. -/
theorem prefix_of_prefix_append_cons {x : α} {w a s : List α} (hx : x ∉ w)
    (h : w <+: a ++ x :: s) : w <+: a := by
  obtain ⟨t, ht⟩ := h
  rcases List.append_eq_append_iff.1 ht with ⟨b, rfl, -⟩ | ⟨b, rfl, hb⟩
  · exact List.prefix_append _ _
  · cases b with
    | nil => simp
    | cons y b =>
      obtain ⟨rfl, -⟩ := List.cons_eq_cons.1 hb
      simp at hx

end MarkupCatalog.Text
