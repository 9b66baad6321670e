/-
The end of a block. A text in which no end marker begins stays as it is when end markers are taken out
of it, and so it does when a marker is put after it (`removeAll_append_marker`): whatever the text ends
in and whatever the note of the marker holds, the two make no other marker together. So an entry is
the same with either of two markers at the end of its block, and with none (`step_parse_append_marker`).
-/
import MarkupCatalog.Entry.Session
import MarkupCatalog.Proofs.Block.Removal

namespace MarkupCatalog

namespace EndMarker

/-! ## Where a marker begins -/

/-- An end marker begins in the text: what opens a comment stands there, with nothing but whitespace
before the word. Whether anything closes the comment plays no part. -/
def BeginsIn (s : Text) : Prop :=
  ∃ gap word, Text.allBlank gap = true ∧ word.map CodePoint.toLower = keyword ∧
    Comment.opening ++ gap ++ word <:+: s

/-- An end marker begins at the very beginning of the text. -/
def begins (s : Text) : Bool :=
  ((Text.after? Comment.opening s).bind fun inside =>
    Text.afterWord? keyword (inside.dropWhile Text.isBlank)).isSome

theorem begins_iff {s : Text} : begins s = true ↔
    ∃ gap word, Text.allBlank gap = true ∧ word.map CodePoint.toLower = keyword ∧
      Comment.opening ++ gap ++ word <+: s := by
  unfold begins
  rw [Option.isSome_iff_exists]
  constructor
  · intro h
    obtain ⟨r, h⟩ := h
    obtain ⟨inside, hinside, hword⟩ := Option.bind_eq_some_iff.1 h
    obtain rfl := Text.after?_eq_some.1 hinside
    refine ⟨inside.takeWhile Text.isBlank, (inside.dropWhile Text.isBlank).take keyword.length,
      List.all_takeWhile, (Text.afterWord?_eq_some.1 hword).1, r, ?_⟩
    rw [List.append_assoc, List.append_assoc, ← Text.eq_take_append_of_afterWord? hword,
      List.takeWhile_append_dropWhile]
  · intro h
    obtain ⟨gap, word, hgap, hword, r, rfl⟩ := h
    have hlen : word.length = keyword.length := by rw [← hword, List.length_map]
    have hat : Text.WordAt keyword ((gap ++ (word ++ r)).drop gap.length) 0 := by
      rw [List.drop_left, Text.WordAt, List.drop_zero, ← hlen, List.take_left]
      exact hword
    refine ⟨r, ?_⟩
    rw [List.append_assoc, List.append_assoc, Text.after?_append, Option.bind_some,
      dropWhile_isBlank_eq (g := gap.length) (by rwa [List.take_left]) (Text.wordAt_drop.1 hat),
      Text.afterWord?_eq_some]
    refine ⟨hat, ?_⟩
    rw [List.drop_left, ← hlen, List.drop_left]

theorem beginsIn_iff {s : Text} : BeginsIn s ↔ ∃ i, i < s.length ∧ begins (s.drop i) = true := by
  simp only [begins_iff]
  constructor
  · intro h
    obtain ⟨gap, word, hgap, hword, hin⟩ := h
    obtain ⟨i, hi⟩ := Text.infix_iff.1 hin
    have hlen := hi.length_le (by simp [Comment.opening])
    have hpos : 0 < (Comment.opening ++ gap ++ word).length := by simp [Comment.opening]
    exact ⟨i, by omega, gap, word, hgap, hword, hi⟩
  · intro h
    obtain ⟨i, -, gap, word, hgap, hword, hi⟩ := h
    exact ⟨gap, word, hgap, hword, Text.infix_iff.2 ⟨i, hi⟩⟩

instance (s : Text) : Decidable (BeginsIn s) := decidable_of_iff' _ beginsIn_iff

theorem not_beginsIn_tail {c : CodePoint} {s : Text} (h : ¬BeginsIn (c :: s)) : ¬BeginsIn s := by
  intro hs
  obtain ⟨gap, word, hgap, hword, hin⟩ := hs
  exact h ⟨gap, word, hgap, hword, List.infix_cons hin⟩

/-! ## A marker at the end -/

/-- After its first character, no comment opens up to the end of the word of a marker. -/
theorem lt_not_mem {gap word : Text} (hgap : Text.allBlank gap = true)
    (hword : word.map CodePoint.toLower = keyword) : .char '<' ∉ "!--".toText ++ gap ++ word := by
  simp only [List.mem_append, not_or]
  refine ⟨⟨by decide, fun h => ?_⟩, fun h => ?_⟩
  · have hblank := List.all_eq_true.1 hgap _ h
    revert hblank
    decide
  · have hmem : CodePoint.toLower (.char '<') ∈ keyword := hword ▸ List.mem_map_of_mem h
    revert hmem
    decide

/-- No marker is read at a place before one that is written, unless it begins wholly before it. -/
theorem read?_append_eq_none {c : CodePoint} {p : Text} (hp : ¬BeginsIn (c :: p)) (m : EndMarker)
    (r : Text) : read? (c :: p ++ (m.text ++ r)) = none := by
  cases hread : read? (c :: p ++ (m.text ++ r)) with
  | none => rfl
  | some q =>
    obtain ⟨m', r'⟩ := q
    obtain ⟨hm', heq⟩ := read?_iff.1 hread
    have htext : m'.text ++ r' =
        Comment.opening ++ m'.gap ++ m'.word ++ (m'.note ++ Comment.closing ++ r') := by
      simp [text]
    rw [htext] at heq
    rcases List.append_eq_append_iff.1 heq with ⟨x, hbegin, hrest⟩ | ⟨x, hbegin, -⟩
    · cases x with
      | nil =>
        rw [List.append_nil] at hbegin
        exact absurd ⟨_, _, hm'.gap, hm'.word, hbegin ▸ List.infix_rfl⟩ hp
      | cons d x =>
        -- the written marker would open its comment inside the beginning of the other one
        have hd : .char '<' = d := (List.cons.inj hrest).1
        have htail : "!--".toText ++ m'.gap ++ m'.word = p ++ d :: x :=
          (List.cons.inj hbegin).2
        refine absurd ?_ (lt_not_mem hm'.gap hm'.word)
        rw [htail, hd]
        simp
    · refine absurd ⟨_, _, hm'.gap, hm'.word, ?_⟩ hp
      rw [hbegin]
      exact (List.prefix_append _ x).isInfix

/-- **A marker after a text in which none begins is taken out,** and the text before it stays. -/
theorem removeAll_append_marker {p : Text} (hp : ¬BeginsIn p) {m : EndMarker} (hm : m.WellFormed)
    (r : Text) : removeAll (p ++ (m.text ++ r)) = p ++ removeAll r := by
  induction p with
  | nil => exact removeAll_of_read? (hm.read? r)
  | cons c p ih =>
    have hnone := read?_append_eq_none hp m r
    rw [List.cons_append] at hnone ⊢
    rw [removeAll_cons hnone, ih (not_beginsIn_tail hp), List.cons_append]

theorem removeAll_eq_self {p : Text} (hp : ¬BeginsIn p) : removeAll p = p := by
  induction p with
  | nil => rw [removeAll]
  | cons c p ih =>
    have hnone : read? (c :: p) = none := by
      cases hread : read? (c :: p) with
      | none => rfl
      | some q =>
        obtain ⟨hm, heq⟩ := read?_iff.1 hread
        refine absurd ⟨_, _, hm.gap, hm.word, ?_⟩ hp
        rw [heq, text, List.append_assoc _ q.1.note, List.append_assoc _ _ q.2]
        exact (List.prefix_append _ _).isInfix
    rw [removeAll_cons hnone, ih (not_beginsIn_tail hp)]

end EndMarker

/-! ## Entries -/

theorem Source.read?_congr {s t : Text} (h : EndMarker.removeAll s = EndMarker.removeAll t) :
    read? s = read? t := by
  unfold read?
  rw [h]

namespace Entry

/-- What a block makes of an entry is a matter of its source without the end markers. -/
theorem step_parse_congr {s t : Text} (h : EndMarker.removeAll s = EndMarker.removeAll t)
    (settings : Settings) (e : Entry) (v : Value) :
    step settings e (.parse s v) = step settings e (.parse t v) := by
  have hparse : parse settings e s v = parse settings e t v := by
    unfold parse process
    rw [Source.read?_congr h]
  simp only [step, hparse]

/-- **The end marker of a block carries no data:** the entry, what is told and the answer are the same
with either of two markers and with none, and it is the text before the marker that is read. -/
theorem step_parse_append_marker {p : Text} (hp : ¬EndMarker.BeginsIn p) {m₁ m₂ : EndMarker}
    (h₁ : m₁.WellFormed) (h₂ : m₂.WellFormed) (settings : Settings) (e : Entry) (v : Value) :
    step settings e (.parse (p ++ m₁.text) v) = step settings e (.parse (p ++ m₂.text) v) ∧
      step settings e (.parse (p ++ m₁.text) v) = step settings e (.parse p v) ∧
      EndMarker.removeAll (p ++ m₁.text) = p := by
  have hleft {m : EndMarker} (hm : m.WellFormed) : EndMarker.removeAll (p ++ m.text) = p := by
    have h := EndMarker.removeAll_append_marker hp hm []
    rwa [List.append_nil, EndMarker.removeAll, List.append_nil] at h
  have hself := EndMarker.removeAll_eq_self hp
  refine ⟨step_parse_congr ?_ settings e v, step_parse_congr ?_ settings e v, hleft h₁⟩
  · rw [hleft h₁, hleft h₂]
  · rw [hleft h₁, hself]

/-- A block that ends in an open comment and in the beginning of another one. -/
def halfOpen : Text := "<!-- extract:a -->\n <p>x<!-- end extract --><!-- <!-".toText

/-- A marker whose note opens comments, and goes on with dashes up to its end. -/
def noted : EndMarker := ⟨"\n\u2003".toText, "EndExtract".toText, "<!--endextract <!-- x --".toText⟩

/-- A marker with nothing but its word. -/
def bareMarker : EndMarker := ⟨[], "endextract".toText, []⟩

theorem step_parse_append_marker_halfOpen :
    ¬EndMarker.BeginsIn halfOpen ∧ noted.WellFormed ∧ bareMarker.WellFormed ∧
      step .standard (.blank .standard) (.parse (halfOpen ++ noted.text) .null) =
        step .standard (.blank .standard) (.parse (halfOpen ++ bareMarker.text) .null) ∧
      step .standard (.blank .standard) (.parse (halfOpen ++ noted.text) .null) =
        step .standard (.blank .standard) (.parse halfOpen .null) ∧
      EndMarker.removeAll (halfOpen ++ noted.text) = halfOpen := by
  have hp : ¬EndMarker.BeginsIn halfOpen := by decide +kernel
  have h₁ : noted.WellFormed := ⟨by decide +kernel, by decide +kernel, by decide +kernel⟩
  have h₂ : bareMarker.WellFormed := ⟨by decide, by decide +kernel, by decide⟩
  exact ⟨hp, h₁, h₂, step_parse_append_marker hp h₁ h₂ .standard (.blank .standard) .null⟩

end Entry
end MarkupCatalog
