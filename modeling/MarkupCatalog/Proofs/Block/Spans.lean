/-
The blocks of a document are its spans: the parts that begin with a start marker and end with the
first end marker after its comment, if no other start marker comes between the two.

`exists_spans_blocks`: the texts of the blocks are spans, one after the other, and every span begins
inside one of them.
-/
import MarkupCatalog.Block
import MarkupCatalog.Proofs.Block.Places

namespace MarkupCatalog.Block

open Text (StandsAt FirstFrom slice)
open StartMarker (MarksStart)
open EndMarker (MarksEnd)

/-- The part of a document from place `s` up to place `e` may be a block: `s` is a start marker
whose comment closes at some `c`, and `e` ends the first end marker after that comment, before which
no other start marker begins. -/
def IsSpan (d : Text) (s e : Nat) : Prop :=
  MarksStart d s ∧
    ∃ c t, FirstFrom (StandsAt Comment.closing d) (s + 4) c ∧
      FirstFrom (fun t => ∃ e, MarksEnd d t e) (c + 3) t ∧ MarksEnd d t e ∧
      ∀ k, c + 3 ≤ k → k < t → ¬MarksStart d k

/-! ## Up to the end marker -/

/-- The text from place `i` on goes up to the end marker at place `t`: it is the first one, and no
start marker comes before it. -/
def EndsAt (d : Text) (i t : Nat) : Prop :=
  FirstFrom (fun t => ∃ e, MarksEnd d t e) i t ∧ ∀ k, i ≤ k → k < t → ¬MarksStart d k

theorem endsAt_iff_eq {d : Text} {i t e : Nat} (h : MarksEnd d i e) : EndsAt d i t ↔ t = i := by
  have hhere : FirstFrom (fun t => ∃ e, MarksEnd d t e) i i :=
    ⟨Nat.le_refl i, ⟨e, h⟩, fun k hk hki => by omega⟩
  constructor
  · intro ht
    exact ht.1.unique hhere
  · intro ht
    subst ht
    exact ⟨hhere, fun k hk hkt => by omega⟩

theorem not_endsAt_of_marksStart {d : Text} {i t : Nat} (hno : ¬∃ e, MarksEnd d i e)
    (hstart : MarksStart d i) : ¬EndsAt d i t := by
  intro h
  have hlt := ((FirstFrom.succ_iff hno).2 h.1).1
  exact h.2 i (Nat.le_refl i) hlt hstart

theorem endsAt_succ_iff {d : Text} {i t : Nat} (hno : ¬∃ e, MarksEnd d i e)
    (hstart : ¬MarksStart d i) : EndsAt d (i + 1) t ↔ EndsAt d i t := by
  refine and_congr (FirstFrom.succ_iff hno) ⟨fun hfree k hk hkt => ?_, fun hfree k hk hkt => ?_⟩
  · rcases Nat.eq_or_lt_of_le hk with rfl | hlt
    · exact hstart
    · exact hfree k hlt hkt
  · exact hfree k (by omega) hkt

theorem untilEnd?_of_read? {s r : Text} {m : EndMarker} (h : EndMarker.read? s = some (m, r)) :
    untilEnd? s = some ([], m, r) := by
  cases s with
  | nil => simp [EndMarker.read?, Comment.opening, Text.after?] at h
  | cons c s => rw [untilEnd?, h]

theorem untilEnd?_of_stands {s : Text} (hread : EndMarker.read? s = none)
    (h : StartMarker.stands s = true) : untilEnd? s = none := by
  cases s with
  | nil => rfl
  | cons c s => rw [untilEnd?, hread, if_pos h]

theorem untilEnd?_cons {c : CodePoint} {s : Text} (hread : EndMarker.read? (c :: s) = none)
    (h : ¬StartMarker.stands (c :: s) = true) :
    untilEnd? (c :: s) = (untilEnd? s).map fun p => (c :: p.1, p.2) := by
  rw [untilEnd?, hread, if_neg h]

theorem slice_cons {d s : Text} {c : CodePoint} {i t : Nat} (hd : d.drop i = c :: s) (hit : i < t) :
    slice d i t = c :: slice d (i + 1) t := by
  have hs : d.drop (i + 1) = s := by rw [← List.drop_drop, hd]; rfl
  obtain ⟨k, rfl⟩ : ∃ k, t = i + 1 + k := ⟨t - (i + 1), by omega⟩
  rw [EndMarker.slice_eq_take, hs, Nat.add_assoc, EndMarker.slice_eq_take, hd, Nat.add_comm 1 k,
    List.take_succ_cons]

theorem untilEnd?_drop_iff {d body r : Text} {m : EndMarker} {i : Nat} :
    untilEnd? (d.drop i) = some (body, m, r) ↔
      ∃ t, EndsAt d i t ∧ body = slice d i t ∧ EndMarker.read? (d.drop t) = some (m, r) := by
  induction hs : d.drop i generalizing i body with
  | nil =>
    simp only [untilEnd?, reduceCtorEq, false_iff]
    intro h
    obtain ⟨t, ⟨⟨hit, ⟨e, he⟩, -⟩, -⟩, -⟩ := h
    have hlen := List.drop_eq_nil_iff.1 hs
    have := he.le_length
    omega
  | cons c s ih =>
    have hnext : d.drop (i + 1) = s := by rw [← List.drop_drop, hs]; rfl
    rw [← hs]
    cases hread : EndMarker.read? (d.drop i) with
    | some p =>
      obtain ⟨m', r'⟩ := p
      obtain ⟨hend, -⟩ := EndMarker.marksEnd_of_read? hread
      rw [untilEnd?_of_read? hread]
      simp only [endsAt_iff_eq hend, exists_eq_left, hread, Option.some.injEq, Prod.mk.injEq]
      exact and_congr_left fun _ => by simp [slice, eq_comm]
    | none =>
      have hno := EndMarker.read?_drop_eq_none_iff.1 hread
      by_cases hstart : MarksStart d i
      · rw [untilEnd?_of_stands hread (StartMarker.stands_drop_iff.2 hstart)]
        simp [not_endsAt_of_marksStart hno hstart]
      · have hstands := mt StartMarker.stands_drop_iff.1 hstart
        rw [hs] at hread hstands ⊢
        rw [untilEnd?_cons hread hstands, Option.map_eq_some_iff]
        simp only [← endsAt_succ_iff hno hstart]
        constructor
        · intro h
          obtain ⟨⟨body', m', r'⟩, hrest, he⟩ := h
          simp only [Prod.mk.injEq] at he
          obtain ⟨rfl, rfl, rfl⟩ := he
          obtain ⟨t, hends, rfl, hm⟩ := (ih hnext).1 hrest
          exact ⟨t, hends, (slice_cons hs hends.1.1).symm, hm⟩
        · intro h
          obtain ⟨t, hends, rfl, hm⟩ := h
          refine ⟨(slice d (i + 1) t, m, r), (ih hnext).2 ⟨t, hends, rfl, hm⟩, ?_⟩
          rw [slice_cons hs hends.1.1]

/-! ## One block -/

theorem IsSpan.lt {d : Text} {s e : Nat} (h : IsSpan d s e) : s < e ∧ e ≤ d.length := by
  obtain ⟨-, c, t, hclose, hend, he, -⟩ := h
  have := he.le_length
  have := hclose.1
  have := hend.1
  omega

/-- A block that is read at a place is a span from there to the end of its text. -/
theorem isSpan_of_read? {d r : Text} {b : Block} {s : Nat} (h : read? (d.drop s) = some (b, r)) :
    IsSpan d s (s + b.text.length) ∧ r = d.drop (s + b.text.length) := by
  have hrest : r = d.drop (s + b.text.length) := by
    rw [← List.drop_drop, read?_eq_some h, List.drop_left]
  refine ⟨?_, hrest⟩
  unfold read? at h
  split at h
  next hstands =>
    simp only [Option.bind_eq_some_iff, Option.map_eq_some_iff, Prod.mk.injEq] at h
    obtain ⟨inside, hinside, ⟨header, rest⟩, hcut, ⟨body, m, r'⟩, huntil, rfl, rfl⟩ := h
    obtain ⟨hopen, rfl⟩ := Text.after?_drop.1 hinside
    obtain ⟨c, hclose, rfl, rfl⟩ := (Text.cut_drop Comment.closing_ne_nil).1 hcut
    obtain ⟨t, ⟨hend, hfree⟩, rfl, hm⟩ := untilEnd?_drop_iff.1 huntil
    obtain ⟨he, -⟩ := EndMarker.marksEnd_of_read? hm
    refine ⟨StartMarker.stands_drop_iff.1 hstands, c, t, hclose, hend, ?_, hfree⟩
    have hlen : s + (text ⟨slice d (s + 4) c, slice d (c + 3) t, m⟩).length = t + m.text.length := by
      have := he.le_length
      have h1 : s + 4 ≤ c := hclose.1
      have h2 : c + 3 ≤ t := hend.1
      simp only [text, List.length_append]
      rw [Text.length_slice (by omega), Text.length_slice (by omega),
        show Comment.opening.length = 4 from rfl, show Comment.closing.length = 3 from rfl]
      omega
    rw [← hlen] at he
    exact he
  next => simp at h

/-- Where a span begins, a block is read. -/
theorem IsSpan.exists_read? {d : Text} {s e : Nat} (h : IsSpan d s e) :
    ∃ b, Block.read? (d.drop s) = some (b, d.drop e) := by
  obtain ⟨hstart, c, t, hclose, hend, he, hfree⟩ := h
  obtain ⟨m, hm, -⟩ := he.exists_read?
  have hinside := Text.after?_drop.2 ⟨hstart.1, rfl⟩
  have hcut := (Text.cut_drop Comment.closing_ne_nil).2 ⟨c, hclose, rfl, rfl⟩
  have huntil := untilEnd?_drop_iff.2 ⟨t, ⟨hend, hfree⟩, rfl, hm⟩
  rw [Block.read?, if_pos (StartMarker.stands_drop_iff.2 hstart)]
  simp only [Option.bind_eq_some_iff, Option.map_eq_some_iff, Prod.mk.injEq]
  exact ⟨_, _, hinside, _, hcut, _, huntil, rfl, rfl⟩

/-- A span has one end. -/
theorem IsSpan.unique {d : Text} {s e e' : Nat} (h : IsSpan d s e) (h' : IsSpan d s e') :
    e = e' := by
  obtain ⟨-, c, t, hclose, hend, he, -⟩ := h
  obtain ⟨-, c', t', hclose', hend', he', -⟩ := h'
  obtain rfl := hclose.unique hclose'
  obtain rfl := hend.unique hend'
  exact he.unique he'

/-! ## All blocks -/

theorem blocks_of_read? {s r : Text} {b : Block} (h : read? s = some (b, r)) :
    blocks s = b :: blocks r := by
  cases s with
  | nil => simp [read?, StartMarker.stands, StartMarker.after?, Comment.opening, Text.after?] at h
  | cons c s =>
    rw [blocks]
    split
    next b' r' hb =>
      rw [h] at hb
      simp only [Option.some.injEq, Prod.mk.injEq] at hb
      rw [hb.1, hb.2]
    next hnone => simp [h] at hnone

theorem blocks_of_read?_eq_none {c : CodePoint} {s : Text} (h : read? (c :: s) = none) :
    blocks (c :: s) = blocks s := by
  rw [blocks]
  split
  next b r hb => simp [h] at hb
  next => rfl

/-- The spans of a document from place `i` on: one after the other, with the texts of its blocks, and
so that no span begins outside them. -/
structure Tiling (d : Text) (i : Nat) (spans : List (Nat × Nat)) : Prop where
  texts : (blocks (d.drop i)).map text = spans.map fun p => slice d p.1 p.2
  disjoint : spans.Pairwise fun p q => p.2 ≤ q.1
  isSpan : ∀ p ∈ spans, i ≤ p.1 ∧ IsSpan d p.1 p.2
  complete : ∀ s e, i ≤ s → IsSpan d s e → ∃ p ∈ spans, p.1 ≤ s ∧ s < p.2

theorem Tiling.nil {d : Text} {i : Nat} (h : d.length ≤ i) : Tiling d i [] where
  texts := by rw [List.drop_eq_nil_of_le h, blocks]; rfl
  disjoint := .nil
  isSpan := by simp
  complete s e hs hspan := by
    have := hspan.lt
    omega

theorem Tiling.cons {d r : Text} {i : Nat} {b : Block} {spans : List (Nat × Nat)}
    (hread : read? (d.drop i) = some (b, r)) (h : Tiling d (i + b.text.length) spans) :
    Tiling d i ((i, i + b.text.length) :: spans) := by
  obtain ⟨hspan, hr⟩ := isSpan_of_read? hread
  have hdrop : d.drop i = b.text ++ r := read?_eq_some hread
  refine ⟨?_, ?_, ?_, ?_⟩
  · rw [blocks_of_read? hread, List.map_cons, List.map_cons, hr, h.texts]
    simp only [List.cons.injEq, and_true]
    rw [EndMarker.slice_eq_take, hdrop, List.take_left]
  · exact .cons (fun p hp => (h.isSpan p hp).1) h.disjoint
  · intro p hp
    rcases List.mem_cons.1 hp with rfl | hp
    · exact ⟨Nat.le_refl i, hspan⟩
    · exact ⟨Nat.le_trans (Nat.le_add_right ..) (h.isSpan p hp).1, (h.isSpan p hp).2⟩
  · intro s e his hs
    by_cases hlt : s < i + b.text.length
    · exact ⟨_, List.mem_cons_self, his, hlt⟩
    · obtain ⟨p, hp, hps⟩ := h.complete s e (Nat.le_of_not_lt hlt) hs
      exact ⟨p, List.mem_cons_of_mem _ hp, hps⟩

theorem Tiling.skip {d : Text} {i : Nat} {spans : List (Nat × Nat)} (hi : i < d.length)
    (hread : read? (d.drop i) = none) (h : Tiling d (i + 1) spans) : Tiling d i spans := by
  refine ⟨?_, h.disjoint, fun p hp => ?_, fun s e his hs => ?_⟩
  · rw [List.drop_eq_getElem_cons hi] at hread ⊢
    rw [blocks_of_read?_eq_none hread, h.texts]
  · exact ⟨Nat.le_of_succ_le (h.isSpan p hp).1, (h.isSpan p hp).2⟩
  · -- no span begins at `i` itself, for a block would be read there
    have hne : i ≠ s := by
      rintro rfl
      obtain ⟨b, hb⟩ := hs.exists_read?
      simp [hread] at hb
    exact h.complete s e (by omega) hs

theorem exists_tiling (d : Text) (i : Nat) : ∃ spans, Tiling d i spans := by
  induction hn : d.length - i using Nat.strongRecOn generalizing i with
  | ind n ih =>
    by_cases hi : i < d.length
    · cases hread : read? (d.drop i) with
      | none =>
        obtain ⟨spans, h⟩ := ih _ (by omega) (i + 1) rfl
        exact ⟨spans, h.skip hi hread⟩
      | some p =>
        obtain ⟨b, r⟩ := p
        have := (isSpan_of_read? hread).1.lt
        obtain ⟨spans, h⟩ := ih _ (by omega) (i + b.text.length) rfl
        exact ⟨_, h.cons hread⟩
    · exact ⟨[], .nil (Nat.le_of_not_lt hi)⟩

/-- **The blocks of a document are its spans.** Their texts stand in it one after the other, each of
them a span, and no span begins outside them. -/
theorem exists_spans_blocks (d : Text) :
    ∃ spans : List (Nat × Nat),
      (blocks d).map text = spans.map (fun p => slice d p.1 p.2) ∧
        (spans.Pairwise fun p q => p.2 ≤ q.1) ∧
        (∀ p ∈ spans, p.1 < p.2 ∧ p.2 ≤ d.length ∧ IsSpan d p.1 p.2) ∧
        ∀ s e, IsSpan d s e → ∃ p ∈ spans, p.1 ≤ s ∧ s < p.2 := by
  obtain ⟨spans, h⟩ := exists_tiling d 0
  have hspan (p) (hp : p ∈ spans) : IsSpan d p.1 p.2 := (h.isSpan p hp).2
  exact ⟨spans, h.texts, h.disjoint, fun p hp => ⟨(hspan p hp).lt.1, (hspan p hp).lt.2, hspan p hp⟩,
    fun s e hs => h.complete s e (Nat.zero_le s) hs⟩

end MarkupCatalog.Block
