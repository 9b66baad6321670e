/-
Escaped text as marks. A backslash before each character of a text makes marks that stand for
themselves (`read_escape_append`), so that no whitespace, colon or key is found among them:
`trim_append_space` and `parts_joined` give the texts back, and `not_infix_pair` tells which pairs of
characters never come one after the other. A text takes nothing from what follows it if the backslashes
at its end go in pairs (`settled_of_even`).
-/
import Mathlib.Algebra.Group.Even
import Mathlib.Data.List.DropRight
import MarkupCatalog.Header.Mark
import MarkupCatalog.Proofs.Text.Pieces

namespace MarkupCatalog

namespace Mark

/-! ## Written text -/

/-- A text with a backslash before each of its characters. -/
def escape (s : Text) : Text := s.flatMap fun c => [.char '\\', c]

/-- The marks of characters that stand as they are. -/
def plain (s : Text) : List Mark := s.map (⟨·, false⟩)

/-- The marks of characters with a backslash before each. -/
def literal (s : Text) : List Mark := s.map (⟨·, true⟩)

def colon : Mark := ⟨':', false⟩

def space : Mark := ⟨' ', false⟩

/-- Escaped texts with a colon between each two of them. -/
def joined : List Text → List Mark
  | [] => []
  | [s] => literal s
  | s :: more => literal s ++ colon :: joined more

theorem joined_cons_cons (s t : Text) (more : List Text) :
    joined (s :: t :: more) = literal s ++ colon :: joined (t :: more) := rfl

theorem chars_plain (s : Text) : chars (plain s) = s := by
  simp [chars, plain, Function.comp_def]

theorem flatMap_written_plain (s : Text) : (plain s).flatMap written = s := by
  simp [plain, written, List.flatMap_map]

theorem eq_colon_of_isColon {m : Mark} (h : m.isColon = true) : m = colon := by
  obtain ⟨c, e⟩ := m
  simp_all [isColon, bare, colon]

theorem chars_literal (s : Text) : chars (literal s) = s := by
  simp [chars, literal, Function.comp_def]

theorem escaped_of_mem_literal {s : Text} {m : Mark} (h : m ∈ literal s) : m.escaped = true := by
  obtain ⟨c, -, rfl⟩ := List.mem_map.1 h
  rfl

/-- An escaped character stands for itself only. -/
theorem bare_of_escaped {m : Mark} (h : m.escaped = true) (p : CodePoint → Bool) : bare p m = false := by
  rw [bare, h]
  rfl

/-! ## Reading -/

theorem read_cons {c : CodePoint} (h : c ≠ '\\') (s : Text) : read (c :: s) = ⟨c, false⟩ :: read s := by
  cases s with
  | nil => rfl
  | cons d s => rw [read, if_neg h]

theorem read_plain_append {s : Text} (h : .char '\\' ∉ s) (r : Text) :
    read (s ++ r) = plain s ++ read r := by
  induction s with
  | nil => rfl
  | cons c s ih =>
    rw [List.mem_cons, not_or] at h
    rw [List.cons_append, read_cons (Ne.symm h.1), ih h.2]
    rfl

theorem read_escape_append (s r : Text) : read (escape s ++ r) = literal s ++ read r := by
  induction s with
  | nil => rfl
  | cons c s ih =>
    show read (.char '\\' :: c :: (escape s ++ r)) = _
    rw [read, if_pos rfl, ih]
    rfl

theorem read_joined_append (ss : List Text) (r : Text) :
    read (Text.joined [.char ':'] (ss.map escape) ++ r) = joined ss ++ read r := by
  induction ss with
  | nil => rfl
  | cons s ss ih =>
    cases ss with
    | nil => exact read_escape_append s r
    | cons t ss =>
      simp only [List.map_cons, Text.joined, joined, List.append_assoc, List.cons_append,
        List.nil_append] at ih ⊢
      rw [read_escape_append, read_cons (by decide), ih]
      rfl

/-! ## Reading piece by piece -/

/-- The text reads the same whatever follows it: no backslash at its end takes the next character. -/
def Settled (s : Text) : Prop := ∀ t, read (s ++ t) = read s ++ read t

theorem settled_nil : Settled [] := fun _ => rfl

theorem settled_pair (c : CodePoint) : Settled [.char '\\', c] := by
  intro t
  simp [read]

theorem settled_of_not_mem {s : Text} (h : .char '\\' ∉ s) : Settled s := by
  intro t
  have hs := read_plain_append h []
  rw [List.append_nil] at hs
  rw [read_plain_append h, hs, read, List.append_nil]

theorem Settled.append {s t : Text} (hs : Settled s) (ht : Settled t) : Settled (s ++ t) := by
  intro u
  rw [List.append_assoc, hs, ht, hs, List.append_assoc]

theorem Settled.of_append {s t : Text} (hs : Settled s) (h : Settled (s ++ t)) : Settled t := by
  intro u
  have hu := h u
  rw [List.append_assoc, hs, hs, List.append_assoc] at hu
  exact List.append_cancel_left hu

/-- The last mark of a text holds its last character. -/
theorem getLast?_read (s : Text) : (read s).getLast?.map char = s.getLast? := by
  have hs := flatMap_written_read s
  cases hlast : (read s).getLast? with
  | none =>
    rw [List.getLast?_eq_none_iff.1 hlast] at hs
    rw [← hs]
    rfl
  | some m =>
    obtain ⟨init, hinit⟩ := List.getLast?_eq_some_iff.1 hlast
    rw [hinit, List.flatMap_append, List.flatMap_singleton] at hs
    rw [← hs, List.getLast?_append, written]
    split <;> rfl

/-- Only a backslash at the end of a text could take the next character. -/
theorem settled_of_getLast? {s : Text} (h : (read s).getLast? ≠ some ⟨'\\', false⟩) : Settled s := by
  have htail {m : Mark} {ms : List Mark} (h : (m :: ms).getLast? ≠ some ⟨'\\', false⟩) :
      ms.getLast? ≠ some ⟨'\\', false⟩ := by
    cases ms with
    | nil => simp
    | cons x ms => rwa [List.getLast?_cons_cons] at h
  fun_induction read s with
  | case1 => exact settled_nil
  | case2 c =>
    refine settled_of_not_mem fun hc => ?_
    obtain rfl := List.mem_singleton.1 hc
    exact h rfl
  | case3 d s ih => exact (settled_pair d).append (ih (htail h))
  | case4 c d s hc ih =>
    have hfirst : .char '\\' ∉ [c] := by simpa using Ne.symm hc
    exact (settled_of_not_mem hfirst).append (ih (htail h))

/-- Backslashes at the end of a text that go in pairs take nothing from what follows. -/
theorem settled_of_even {s : Text} (h : Even (s.rtakeWhile (· == .char '\\')).length) : Settled s := by
  have hpairs (n : Nat) : Settled (List.replicate (n + n) (.char '\\')) := by
    induction n with
    | zero => exact settled_nil
    | succ n ih =>
      have hsucc : n + 1 + (n + 1) = n + n + 1 + 1 := by omega
      rw [hsucc, List.replicate_succ, List.replicate_succ]
      exact (settled_pair '\\').append ih
  obtain ⟨n, hn⟩ := h
  have htail : s.rtakeWhile (· == .char '\\') = List.replicate (n + n) (.char '\\') := by
    refine List.eq_replicate_iff.2 ⟨hn, fun c hc => ?_⟩
    simpa using List.mem_rtakeWhile_imp hc
  have hhead : Settled (s.rdropWhile (· == .char '\\')) := by
    refine settled_of_getLast? fun hlast => ?_
    have hchar : (s.rdropWhile (· == .char '\\')).getLast? = some (.char '\\') := by
      rw [← getLast?_read, hlast]
      rfl
    have hne : s.rdropWhile (· == .char '\\') ≠ [] := List.ne_nil_of_mem (List.mem_of_getLast? hchar)
    refine List.rdropWhile_last_not _ s hne ?_
    rw [(List.getLast_eq_iff_getLast?_eq_some hne).2 hchar]
    rfl
  rw [← List.rdropWhile_append_rtakeWhile (p := (· == .char '\\')) (l := s), htail]
  exact hhead.append (hpairs n)

/-! ## Trimming and taking apart -/

/-- What is trimmed off the end first makes no difference. -/
theorem trim_congr {ms ms' : List Mark}
    (h : Text.dropTrailing isGap ms = Text.dropTrailing isGap ms') : trim ms = trim ms' := by
  rw [trim, trim, Text.dropTrailing_dropWhile, Text.dropTrailing_dropWhile, h]

theorem eq_colon_of_mem_joined {ss : List Text} {m : Mark} (h : m ∈ joined ss) :
    m = colon ∨ m.escaped = true := by
  induction ss with
  | nil => simp [joined] at h
  | cons s ss ih =>
    cases ss with
    | nil => exact .inr (escaped_of_mem_literal h)
    | cons t ss =>
      rw [joined_cons_cons, List.mem_append, List.mem_cons] at h
      rcases h with h | rfl | h
      · exact .inr (escaped_of_mem_literal h)
      · exact .inl rfl
      · exact ih h

theorem isGap_of_mem_joined {ss : List Text} {m : Mark} (h : m ∈ joined ss) : m.isGap = false := by
  rcases eq_colon_of_mem_joined h with rfl | hescaped
  · decide
  · exact bare_of_escaped hescaped _

/-- Nothing but the whitespace after the marks is trimmed off if there is none among them. -/
theorem trim_append_space {ms : List Mark} (h : ∀ m ∈ ms, m.isGap = false) :
    trim (ms ++ [space]) = ms := by
  have hspace : [space].all isGap = true := by decide
  have hends := Text.dropTrailing_dropWhile_append (b := []) rfl hspace ms
  rw [List.nil_append] at hends
  rw [trim, hends, Text.dropWhile_eq_self fun m hm => h m (List.mem_of_head? hm),
    Text.dropTrailing_eq_self fun m hm => h m (List.mem_of_getLast? hm)]

theorem trim_eq_nil_iff {ms : List Mark} : trim ms = [] ↔ ms.all isGap = true := by
  rw [trim, Text.dropTrailing_eq_nil_iff]
  induction ms with
  | nil => rfl
  | cons m ms ih =>
    cases hm : m.isGap with
    | true => rw [List.dropWhile_cons_of_pos hm, ih, List.all_cons, hm, Bool.true_and]
    | false => rw [List.dropWhile_cons_of_neg (by simp [hm])]

theorem isColon_of_mem_literal (s : Text) : ∀ m ∈ literal s, m.isColon = false :=
  fun _ h => bare_of_escaped (escaped_of_mem_literal h) _

/-- Escaped texts are found again between the colons that stand between them. -/
theorem parts_joined {ss : List Text} (h : ss ≠ []) : parts (joined ss) = ss := by
  induction ss with
  | nil => exact absurd rfl h
  | cons s ss ih =>
    cases ss with
    | nil =>
      rw [joined, parts, Text.pieces_of_not_sep (isColon_of_mem_literal s)]
      exact congrArg ([·]) (chars_literal s)
    | cons t ss =>
      rw [joined_cons_cons, parts, Text.pieces_append_sep (isColon_of_mem_literal s) (by decide),
        List.map_cons, chars_literal]
      exact congrArg (s :: ·) (ih (by simp))

/-! ## Characters that keep apart -/

/-- A character that stands only with a backslash before it stands after nothing else. -/
theorem not_infix_pair {c d : CodePoint} (hc : c ≠ '\\') (hd : d ≠ '\\') {ms : List Mark}
    (h : ∀ m ∈ ms, m.escaped = false → m.char ≠ d) : ¬[c, d] <:+: ms.flatMap written := by
  -- with it goes that the text does not begin with the character
  suffices hall : ¬[d] <+: ms.flatMap written ∧ ¬[c, d] <:+: ms.flatMap written from hall.2
  induction ms with
  | nil => simp
  | cons m ms ih =>
    obtain ⟨hhead, htail⟩ := ih fun m' hm' => h m' (List.mem_cons_of_mem _ hm')
    obtain ⟨x, e⟩ := m
    have hnext : ¬[c, d] <:+: x :: ms.flatMap written := by
      rw [List.infix_cons_iff, List.cons_prefix_cons]
      intro hinfix
      rcases hinfix with ⟨-, hd'⟩ | hinfix
      · exact hhead hd'
      · exact htail hinfix
    cases e with
    | true =>
      show ¬[d] <+: .char '\\' :: x :: ms.flatMap written ∧
        ¬[c, d] <:+: .char '\\' :: x :: ms.flatMap written
      rw [List.infix_cons_iff, not_or, List.cons_prefix_cons, List.cons_prefix_cons]
      exact ⟨fun h => hd h.1, fun h => hc h.1, hnext⟩
    | false =>
      have hx : x ≠ d := h ⟨x, false⟩ List.mem_cons_self rfl
      show ¬[d] <+: x :: ms.flatMap written ∧ ¬[c, d] <:+: x :: ms.flatMap written
      rw [List.cons_prefix_cons]
      exact ⟨fun h => hx h.1.symm, hnext⟩

end Mark
end MarkupCatalog
