/-
A block is read by its own text. Markers and spans that end within a text are the same whatever
follows that text (`marksStart_append_iff`, `marksEnd_append_iff`, `isSpan_append_iff`), so that a
block is read again wherever its text stands (`read?_text_append`) and is told from others by its text
alone (`eq_of_text_eq`). Of two spans of a document the one that begins first ends first
(`IsSpan.end_le`).
-/
import MarkupCatalog.Proofs.Block.Source

namespace MarkupCatalog

open Text (StandsAt WordAt FirstFrom slice)

/-! ## Places in a longer text -/

namespace Text

variable {w d : Text} {i : Nat}

theorem standsAt_append (h : i + w.length ≤ d.length) (x : Text) :
    StandsAt w (d ++ x) i ↔ StandsAt w d i := by
  rw [StandsAt, StandsAt, List.drop_append_of_le_length (by omega)]
  constructor
  · intro hw
    exact List.prefix_of_prefix_length_le hw (List.prefix_append _ _) (by simp; omega)
  · intro hw
    exact hw.trans (List.prefix_append _ _)

theorem wordAt_append (h : i + w.length ≤ d.length) (x : Text) :
    WordAt w (d ++ x) i ↔ WordAt w d i := by
  rw [WordAt, WordAt, List.drop_append_of_le_length (by omega),
    List.take_append_of_le_length (by simp; omega)]

theorem slice_append {j : Nat} (h : j ≤ d.length) (x : Text) : slice (d ++ x) i j = slice d i j := by
  rw [slice, slice, List.take_append_of_le_length h]

theorem slice_append_left {j : Nat} (a : Text) :
    slice (a ++ d) (a.length + i) (a.length + j) = slice d i j := by
  rw [slice, slice, List.take_length_add_append, ← List.drop_drop, List.drop_left]

/-- The first place of which something holds depends on the places up to it only. -/
theorem FirstFrom.congr_le {P Q : Nat → Prop} {c : Nat} (h : ∀ k, k ≤ c → (P k ↔ Q k)) :
    FirstFrom P i c ↔ FirstFrom Q i c := by
  unfold FirstFrom
  rw [h c (Nat.le_refl c)]
  refine and_congr_right fun _ => and_congr_right fun _ => ?_
  exact forall_congr' fun k => forall_congr' fun _ => forall_congr' fun hk =>
    not_congr (h k (Nat.le_of_lt hk))

theorem firstFrom_append {c : Nat} (h : c + w.length ≤ d.length) (x : Text) :
    FirstFrom (StandsAt w (d ++ x)) i c ↔ FirstFrom (StandsAt w d) i c :=
  FirstFrom.congr_le fun _ hk => standsAt_append (by omega) x

end Text

/-! ## Markers in a longer text -/

namespace EndMarker

/-- A marker ends with what closes its comment, past its word. -/
theorem MarksEnd.exists_closing {d : Text} {t e : Nat} (h : MarksEnd d t e) :
    ∃ c, t + 14 ≤ c ∧ StandsAt Comment.closing d c ∧ e = c + 3 := by
  obtain ⟨-, g, -, -, c, hfirst, rfl⟩ := h
  have := hfirst.1
  exact ⟨c, by omega, hfirst.2.1, rfl⟩

theorem marksEnd_append_iff {d : Text} {t e : Nat} (he : e ≤ d.length) (x : Text) :
    MarksEnd (d ++ x) t e ↔ MarksEnd d t e := by
  have hopen : Comment.opening.length = 4 := rfl
  have hclose : Comment.closing.length = 3 := rfl
  have hkeyword : keyword.length = 10 := rfl
  unfold MarksEnd
  constructor
  · rintro ⟨hstands, g, hgap, hword, c, hfirst, rfl⟩
    have := hfirst.1
    rw [Text.standsAt_append (by omega)] at hstands
    rw [Text.slice_append (by omega)] at hgap
    rw [Text.wordAt_append (by omega)] at hword
    rw [Text.firstFrom_append (by omega)] at hfirst
    exact ⟨hstands, g, hgap, hword, c, hfirst, rfl⟩
  · rintro ⟨hstands, g, hgap, hword, c, hfirst, rfl⟩
    have := hfirst.1
    rw [← Text.standsAt_append (by omega) x] at hstands
    rw [← Text.slice_append (by omega) x] at hgap
    rw [← Text.wordAt_append (by omega) x] at hword
    rw [← Text.firstFrom_append (by omega) x] at hfirst
    exact ⟨hstands, g, hgap, hword, c, hfirst, rfl⟩

/-- Before a comment has closed nothing that comes later begins or ends a marker. -/
theorem exists_marksEnd_append_iff {d : Text} {k c : Nat} (hclose : StandsAt Comment.closing d c)
    (hkc : k ≤ c) (x : Text) : (∃ e, MarksEnd (d ++ x) k e) ↔ ∃ e, MarksEnd d k e := by
  have hlen : c + 3 ≤ d.length := hclose.length_le Comment.closing_ne_nil
  constructor
  · intro h
    obtain ⟨e, he⟩ := h
    have := he.le_of_closing hkc ((Text.standsAt_append hlen x).2 hclose)
    exact ⟨e, (marksEnd_append_iff (by omega) x).1 he⟩
  · intro h
    obtain ⟨e, he⟩ := h
    exact ⟨e, (marksEnd_append_iff he.le_length.2 x).2 he⟩

end EndMarker

namespace StartMarker

theorem marksStart_append_iff {d : Text} {s c : Nat} (hclose : StandsAt Comment.closing d c)
    (hsc : s + 4 ≤ c) (x : Text) : MarksStart (d ++ x) s ↔ MarksStart d s := by
  have hopening : Comment.opening.length = 4 := rfl
  have hkeyword : keyword.length = 8 := rfl
  have hlen : c + 3 ≤ d.length := hclose.length_le Comment.closing_ne_nil
  have hclose' : StandsAt Comment.closing (d ++ x) c := (Text.standsAt_append hlen x).2 hclose
  unfold MarksStart
  rw [Text.standsAt_append (by omega)]
  refine and_congr_right fun _ => exists_congr fun j => and_congr_right fun hsj => ?_
  constructor
  · rintro ⟨hword, ⟨ch, hch, hbefore⟩, hfree⟩
    have := length_le_of_closing hword hclose' (Nat.le_of_lt (hfree c hsc hclose'))
    rw [List.getElem?_append_left (by omega)] at hch
    refine ⟨(Text.wordAt_append (by omega) x).1 hword, ⟨ch, hch, hbefore⟩, fun k hk hkclose => ?_⟩
    have hklen : k + 3 ≤ d.length := hkclose.length_le Comment.closing_ne_nil
    exact hfree k hk ((Text.standsAt_append hklen x).2 hkclose)
  · rintro ⟨hword, ⟨ch, hch, hbefore⟩, hfree⟩
    have hjc := hfree c hsc hclose
    have := length_le_of_closing hword hclose (Nat.le_of_lt hjc)
    refine ⟨(Text.wordAt_append (by omega) x).2 hword, ⟨ch, ?_, hbefore⟩, fun k hk hkclose => ?_⟩
    · rw [List.getElem?_append_left (by omega)]
      exact hch
    · by_cases hkc : k ≤ c
      · exact hfree k hk ((Text.standsAt_append (by
          have : Comment.closing.length = 3 := rfl
          omega) x).1 hkclose)
      · omega

end StartMarker

/-! ## Spans in a longer text -/

namespace Block

open StartMarker (MarksStart marksStart_append_iff)
open EndMarker (MarksEnd marksEnd_append_iff exists_marksEnd_append_iff)

/-- **A span that ends within a text is the same whatever follows.** -/
theorem isSpan_append_iff {d : Text} {s e : Nat} (he : e ≤ d.length) (x : Text) :
    IsSpan (d ++ x) s e ↔ IsSpan d s e := by
  -- both ways, all that a span is made of lies before the end of its end marker
  have hparts (c t : Nat) (hsc : s + 4 ≤ c) (hct : c + 3 ≤ t) (hend : MarksEnd d t e) :
      (MarksStart (d ++ x) s ↔ MarksStart d s) ∧
      (FirstFrom (StandsAt Comment.closing (d ++ x)) (s + 4) c ↔
        FirstFrom (StandsAt Comment.closing d) (s + 4) c) ∧
      (FirstFrom (fun t => ∃ e, MarksEnd (d ++ x) t e) (c + 3) t ↔
        FirstFrom (fun t => ∃ e, MarksEnd d t e) (c + 3) t) ∧
      ∀ k, k < t → (MarksStart (d ++ x) k ↔ MarksStart d k) := by
    obtain ⟨c', hc', hclose, rfl⟩ := hend.exists_closing
    refine ⟨marksStart_append_iff hclose (by omega) x, ?_, ?_, ?_⟩
    · exact Text.firstFrom_append (show c + 3 ≤ d.length by omega) x
    · exact FirstFrom.congr_le fun k hk => exists_marksEnd_append_iff hclose (by omega) x
    · exact fun k hk => marksStart_append_iff hclose (by omega) x
  constructor
  · rintro ⟨hstart, c, t, hfirst, hfirstEnd, hend, hfree⟩
    have hend' := (marksEnd_append_iff he x).1 hend
    obtain ⟨h1, h2, h3, h4⟩ := hparts c t hfirst.1 hfirstEnd.1 hend'
    exact ⟨h1.1 hstart, c, t, h2.1 hfirst, h3.1 hfirstEnd, hend',
      fun k hk hkt => mt (h4 k hkt).2 (hfree k hk hkt)⟩
  · rintro ⟨hstart, c, t, hfirst, hfirstEnd, hend, hfree⟩
    obtain ⟨h1, h2, h3, h4⟩ := hparts c t hfirst.1 hfirstEnd.1 hend
    exact ⟨h1.2 hstart, c, t, h2.2 hfirst, h3.2 hfirstEnd, (marksEnd_append_iff he x).2 hend,
      fun k hk hkt => mt (h4 k hkt).1 (hfree k hk hkt)⟩

theorem isSpan_iff_read? {d : Text} {s e : Nat} :
    IsSpan d s e ↔ e ≤ d.length ∧ ∃ b, read? (d.drop s) = some (b, d.drop e) := by
  constructor
  · intro h
    exact ⟨h.lt.2, h.exists_read?⟩
  · rintro ⟨he, b, hread⟩
    obtain ⟨hspan, hrest⟩ := isSpan_of_read? hread
    have hlen := congrArg List.length hrest
    have := hspan.lt
    simp only [List.length_drop] at hlen
    obtain rfl : e = s + b.text.length := by omega
    exact hspan

/-- Nor does it matter what comes before. -/
theorem isSpan_append_left_iff {d : Text} {s e : Nat} (a : Text) :
    IsSpan (a ++ d) (a.length + s) (a.length + e) ↔ IsSpan d s e := by
  rw [isSpan_iff_read?, isSpan_iff_read?, ← List.drop_drop, ← List.drop_drop, List.drop_left,
    List.length_append, Nat.add_le_add_iff_left]

/-- The span that begins first ends first: the end marker of the other comes after its comment,
too. -/
theorem IsSpan.end_le {d : Text} {s e s' e' : Nat} (h : IsSpan d s e) (h' : IsSpan d s' e')
    (hs : s ≤ s') : e ≤ e' := by
  rcases Nat.eq_or_lt_of_le hs with rfl | hlt
  · exact Nat.le_of_eq (h.unique h')
  · obtain ⟨hstart, c, t, hclose, hend, he, -⟩ := h
    obtain ⟨hstart', c', t', hclose', hend', he', -⟩ := h'
    have hapart : s + 4 ≤ s' := hstart.1.add_length_le Comment.unbordered_opening hstart'.1 hlt
    have := hclose'.1
    have hcc : c ≤ c' := hclose.le (by omega) hclose'.2.1
    have := hend'.1
    have htt : t ≤ t' := hend.le (by omega) ⟨e', he'⟩
    obtain ⟨c'', htc, hclosed, rfl⟩ := he'.exists_closing
    exact he.le_of_closing (by omega) hclosed

/-! ## Blocks in a longer text -/

theorem wellFormed_of_read? {s r : Text} {b : Block} (h : read? s = some (b, r)) :
    b.marker.WellFormed := by
  have huntil := (parts_of_read? h).2
  rw [← List.drop_zero (l := b.body ++ b.marker.text ++ r)] at huntil
  obtain ⟨t, -, -, hmarker⟩ := untilEnd?_drop_iff.1 huntil
  exact EndMarker.wellFormed_of_read? hmarker

/-- Blocks are told apart by their texts. -/
theorem eq_of_text_eq {s s' r r' : Text} {b b' : Block} (h : read? s = some (b, r))
    (h' : read? s' = some (b', r')) (htext : b.text = b'.text) : b = b' := by
  have hcut := Comment.cut_closing (parts_of_read? h).1 (b.body ++ b.marker.text)
  have hcut' := Comment.cut_closing (parts_of_read? h').1 (b'.body ++ b'.marker.text)
  have hinside : b.header ++ Comment.closing ++ (b.body ++ b.marker.text) =
      b'.header ++ Comment.closing ++ (b'.body ++ b'.marker.text) := by
    simpa [text] using htext
  rw [hinside, hcut', Option.some.injEq, Prod.mk.injEq] at hcut
  obtain ⟨hheader, hrest⟩ := hcut
  -- what follows the comment is the body once its end marker is taken out
  have hbody : b'.body = b.body := by
    rw [← removeAll_of_untilEnd? (parts_of_read? h).2, ← hrest,
      removeAll_of_untilEnd? (parts_of_read? h').2]
  rw [hbody, List.append_cancel_left_eq] at hrest
  have hmarker := (wellFormed_of_read? h).read? []
  rw [← hrest, (wellFormed_of_read? h').read? [], Option.some.injEq, Prod.mk.injEq] at hmarker
  calc b = ⟨b.header, b.body, b.marker⟩ := rfl
    _ = ⟨b'.header, b'.body, b'.marker⟩ := by rw [← hheader, ← hbody, ← hmarker.1]

/-- **A block is read by its own text,** whatever follows it. -/
theorem read?_text_append {s r : Text} {b : Block} (h : read? s = some (b, r)) (x : Text) :
    read? (b.text ++ x) = some (b, x) := by
  have hs : s = b.text ++ r := read?_eq_some h
  obtain ⟨hspan, -⟩ := isSpan_of_read? (d := s) (s := 0) h
  rw [Nat.zero_add, hs, isSpan_append_iff (Nat.le_refl _),
    ← isSpan_append_iff (Nat.le_refl _) x] at hspan
  obtain ⟨b', hb'⟩ := hspan.exists_read?
  rw [List.drop_zero, List.drop_left] at hb'
  have htext := read?_eq_some hb'
  rw [List.append_cancel_right_eq] at htext
  rw [hb', eq_of_text_eq h hb' htext]

/-- The blocks that are found in documents are the same where their texts are. -/
theorem eq_of_map_text_eq {bs bs' : List Block} (h : ∀ b ∈ bs, ∃ s r, read? s = some (b, r))
    (h' : ∀ b ∈ bs', ∃ s r, read? s = some (b, r)) (htext : bs.map text = bs'.map text) :
    bs = bs' := by
  induction bs generalizing bs' with
  | nil => simpa [eq_comm] using htext
  | cons b bs ih =>
    cases bs' with
    | nil => simp at htext
    | cons b' bs' =>
      rw [List.map_cons, List.map_cons, List.cons.injEq] at htext
      obtain ⟨s, r, hread⟩ := h b List.mem_cons_self
      obtain ⟨s', r', hread'⟩ := h' b' List.mem_cons_self
      rw [eq_of_text_eq hread hread' htext.1, ih (fun c hc => h c (List.mem_cons_of_mem _ hc))
        (fun c hc => h' c (List.mem_cons_of_mem _ hc)) htext.2]

end Block
end MarkupCatalog
