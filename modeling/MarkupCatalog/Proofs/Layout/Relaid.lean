/-
The layout of a block does not depend on where the block stands. Whitespace at the ends of lines, blank
lines around the block and an indentation that all its lines share are forgotten when a body is taken in
(`lines_eq_of_relaid`), so that its lines are taken in again as they are (`lines_of_relaid`).
-/
import Mathlib.Data.List.Forall2
import MarkupCatalog.Proofs.Layout.Margin

namespace MarkupCatalog.Layout

open List (Forall₂)

/-! ## Lists item by item -/

theorem forall₂_dropWhile {α β : Type} {R : α → β → Prop} {p : α → Bool} {q : β → Bool}
    (hpq : ∀ a b, R a b → p a = q b) {xs : List α} {ys : List β} (h : Forall₂ R xs ys) :
    Forall₂ R (xs.dropWhile p) (ys.dropWhile q) := by
  induction h with
  | nil => exact .nil
  | cons hab hrest ih =>
    rw [List.dropWhile_cons, List.dropWhile_cons, hpq _ _ hab]
    split
    · exact ih
    · exact .cons hab hrest

theorem forall₂_dropTrailing {α β : Type} {R : α → β → Prop} {p : α → Bool} {q : β → Bool}
    (hpq : ∀ a b, R a b → p a = q b) {xs : List α} {ys : List β} (h : Forall₂ R xs ys) :
    Forall₂ R (Text.dropTrailing p xs) (Text.dropTrailing q ys) := by
  induction h with
  | nil => exact .nil
  | @cons a b xs ys hab _ ih =>
    rw [Text.dropTrailing, Text.dropTrailing]
    generalize Text.dropTrailing p xs = us, Text.dropTrailing q ys = vs at ih ⊢
    cases ih with
    | nil =>
      simp only [hpq _ _ hab]
      split
      · exact .nil
      · exact .cons hab .nil
    | cons hfirst hmore => exact .cons hab (.cons hfirst hmore)

theorem exists_of_forall₂_right {α β : Type} {R : α → β → Prop} {xs : List α} {ys : List β}
    (h : Forall₂ R xs ys) {b : β} (hb : b ∈ ys) : ∃ a ∈ xs, R a b := by
  induction h with
  | nil => simp at hb
  | cons hab _ ih =>
    rcases List.mem_cons.1 hb with rfl | hb
    · exact ⟨_, List.mem_cons_self, hab⟩
    · obtain ⟨a, ha, hR⟩ := ih hb
      exact ⟨a, List.mem_cons_of_mem _ ha, hR⟩

theorem exists_of_forall₂_left {α β : Type} {R : α → β → Prop} {xs : List α} {ys : List β}
    (h : Forall₂ R xs ys) {a : α} (ha : a ∈ xs) : ∃ b ∈ ys, R a b :=
  exists_of_forall₂_right (R := flip R) h.flip ha

/-! ## Lines laid out anew -/

/-- The line `l'` is the line `l` with whitespace at its end, and with `n` characters of whitespace
before it if it is not blank; there is no tab among them. -/
def Shifted (n : Nat) (l l' : Text) : Prop :=
  ∃ p s, l' = p ++ l ++ s ∧ Text.allBlank p = true ∧ Text.allBlank s = true ∧ .char '\t' ∉ p ++ s ∧
    (Text.allBlank l = false → p.length = n)

/-- The body `b'` has the lines of the body `b`, each of them shifted as far as the others, and blank
lines before and after them. -/
def Relaid (b b' : Text) : Prop :=
  ∃ n before lines after, Text.lines b' = before ++ lines ++ after ∧
    (∀ l ∈ before ++ after, Text.allBlank l = true) ∧ Forall₂ (Shifted n) (Text.lines b) lines

/-- If a body is not blank, some line of it that is not blank is indented by at most 9999 characters. -/
def InReach (b : Text) : Prop :=
  (∃ l ∈ Text.lines b, Text.allBlank l = false) →
    ∃ l ∈ Text.lines b, Text.allBlank l = false ∧ lead l ≤ 9999

/-- The same of lines without whitespace at their ends: `n` characters stand before each of them that
is not empty. -/
def Moved (n : Nat) (l l' : Text) : Prop :=
  l = [] ∧ l' = [] ∨
    l ≠ [] ∧ ∃ p, l' = p ++ l ∧ Text.allBlank p = true ∧ .char '\t' ∉ p ∧ p.length = n

theorem Moved.isEmpty_eq {n : Nat} {l l' : Text} (h : Moved n l l') : l.isEmpty = l'.isEmpty := by
  rcases h with ⟨rfl, rfl⟩ | ⟨hne, p, rfl, -⟩
  · rfl
  · rw [List.isEmpty_eq_false_iff.2 hne,
      List.isEmpty_eq_false_iff.2 (List.append_ne_nil_of_right_ne_nil p hne)]

theorem Moved.lead_eq {n : Nat} {l l' : Text} (h : Moved n l l') (hne : l' ≠ []) :
    l ≠ [] ∧ lead l' = n + lead l := by
  rcases h with ⟨-, rfl⟩ | ⟨hl, p, rfl, hp, -, rfl⟩
  · exact absurd rfl hne
  · refine ⟨hl, ?_⟩
    rw [lead, List.takeWhile_append_of_pos (List.all_eq_true.1 hp), List.length_append, lead]

theorem Moved.ne_nil {n : Nat} {l l' : Text} (h : Moved n l l') (hne : l ≠ []) : l' ≠ [] := by
  rcases h with ⟨rfl, -⟩ | ⟨-, p, rfl, -⟩
  · exact absurd rfl hne
  · simp [hne]

theorem Moved.drop {n : Nat} {l l' : Text} (h : Moved n l l') (k : Nat) :
    l.drop k = l'.drop (n + k) := by
  rcases h with ⟨rfl, rfl⟩ | ⟨-, p, rfl, -, -, rfl⟩
  · rw [List.drop_nil, List.drop_nil]
  · rw [← List.drop_drop, List.drop_left]

theorem Moved.tab_not_mem {n : Nat} {l l' : Text} (h : Moved n l l') (htab : .char '\t' ∉ l) :
    .char '\t' ∉ l' := by
  rcases h with ⟨-, rfl⟩ | ⟨-, p, rfl, -, hp, -⟩
  · simp
  · rw [List.mem_append, not_or]
    exact ⟨hp, htab⟩

theorem Shifted.trimRight {n : Nat} {l l' : Text} (h : Shifted n l l') :
    Moved n (Text.trimRight l) (Text.trimRight l') := by
  obtain ⟨p, s, rfl, hp, hs, htab, hlen⟩ := h
  have htrim : Text.trimRight (p ++ l ++ s) = Text.trimRight (p ++ l) :=
    Text.dropTrailing_append hs (p ++ l)
  rw [htrim]
  cases hl : Text.allBlank l with
  | true =>
    have hpl : Text.allBlank (p ++ l) = true := by
      rw [Text.allBlank, List.all_append, Bool.and_eq_true]
      exact ⟨hp, hl⟩
    exact .inl ⟨Text.trimRight_eq_nil_iff.2 hl, Text.trimRight_eq_nil_iff.2 hpl⟩
  | false =>
    have hne : Text.trimRight l ≠ [] := by
      rw [ne_eq, Text.trimRight_eq_nil_iff, hl]
      exact Bool.false_ne_true
    exact .inr ⟨hne, p, Text.dropTrailing_append_of_ne_nil hne p, hp,
      fun hmem => htab (List.mem_append_left _ hmem), hlen hl⟩

theorem Relaid.content {b b' : Text} (h : Relaid b b') :
    ∃ n, Forall₂ (Moved n) (content b) (content b') := by
  obtain ⟨n, before, mid, after, hlines, hblank, hshifted⟩ := h
  have hempty {ls : List Text} (hls : ∀ l ∈ ls, Text.allBlank l = true) :
      (ls.map Text.trimRight).all List.isEmpty = true := by
    rw [List.all_map, List.all_eq_true]
    intro l hl
    exact List.isEmpty_iff.2 (Text.trimRight_eq_nil_iff.2 (hls l hl))
  have hmoved : Forall₂ (Moved n) ((Text.lines b).map Text.trimRight) (mid.map Text.trimRight) :=
    List.forall₂_map_left_iff.2
      (List.forall₂_map_right_iff.2 (hshifted.imp fun l l' hl => hl.trimRight))
  have hcontent : Layout.content b' =
      Text.dropTrailing List.isEmpty ((mid.map Text.trimRight).dropWhile List.isEmpty) := by
    rw [Layout.content, hlines, List.map_append, List.map_append,
      Text.dropTrailing_dropWhile_append (hempty fun l hl => hblank l (List.mem_append_left _ hl))
        (hempty fun l hl => hblank l (List.mem_append_right _ hl))]
  have hsame : ∀ l l', Moved n l l' → l.isEmpty = l'.isEmpty := fun l l' hl => hl.isEmpty_eq
  refine ⟨n, ?_⟩
  rw [hcontent]
  exact forall₂_dropTrailing hsame (forall₂_dropWhile hsame hmoved)

/-! ## Lines of a body and its content -/

theorem untab_of_not_mem {line : Text} (h : .char '\t' ∉ line) (indent : Text) :
    untab indent line = line := by
  induction line with
  | nil => rfl
  | cons c s ih =>
    rw [List.mem_cons, not_or] at h
    rw [untab, if_neg (Ne.symm h.1), ih h.2]

theorem map_untab_of_not_mem {ls : List Text} (h : ∀ l ∈ ls, .char '\t' ∉ l) (indent : Text) :
    ls.map (untab indent) = ls := by
  rw [List.map_congr_left fun l hl => untab_of_not_mem (h l hl) indent]
  exact List.map_id ls

theorem mem_of_mem_lines {b l : Text} {c : CodePoint} (hl : l ∈ Text.lines b) (hc : c ∈ l) : c ∈ b := by
  rw [← Text.unlines_lines b]
  exact Text.mem_joined_of_mem hl hc

/-- The lines of a body are those of its content, once whitespace at their ends is dropped, and blank
lines before and after them. -/
theorem exists_lines_eq_append (b : Text) :
    ∃ before mid after, Text.lines b = before ++ mid ++ after ∧
      (∀ l ∈ before ++ after, Text.allBlank l = true) ∧ content b = mid.map Text.trimRight := by
  obtain ⟨before, after, hlines, hempty, -, -⟩ := isContent_content b
  obtain ⟨rest, after, hb, hrest, rfl⟩ := List.map_eq_append_iff.1 hlines
  obtain ⟨before, mid, rfl, rfl, hmid⟩ := List.map_eq_append_iff.1 hrest
  refine ⟨before, mid, after, hb, fun l hl => Text.trimRight_eq_nil_iff.1 (hempty _ ?_), hmid.symm⟩
  rw [← List.map_append]
  exact List.mem_map_of_mem hl

theorem exists_of_mem_content {b l : Text} (h : l ∈ content b) :
    ∃ l₀ ∈ Text.lines b, Text.trimRight l₀ = l := by
  obtain ⟨before, mid, after, hlines, -, hmid⟩ := exists_lines_eq_append b
  rw [hmid] at h
  obtain ⟨l₀, hl₀, rfl⟩ := List.mem_map.1 h
  refine ⟨l₀, ?_, rfl⟩
  rw [hlines]
  exact List.mem_append_left _ (List.mem_append_right _ hl₀)

theorem mem_of_mem_trimRight {l : Text} {c : CodePoint} (h : c ∈ Text.trimRight l) : c ∈ l :=
  (Text.dropTrailing_prefix _ _).subset h

/-- What stands in the content of a body stands in the body. -/
theorem mem_of_mem_content {b l : Text} {c : CodePoint} (hl : l ∈ content b) (hc : c ∈ l) : c ∈ b := by
  obtain ⟨l₀, hl₀, rfl⟩ := exists_of_mem_content hl
  exact mem_of_mem_lines hl₀ (mem_of_mem_trimRight hc)

theorem lead_trimRight {l : Text} (h : Text.trimRight l ≠ []) :
    lead (Text.trimRight l) = lead l := by
  obtain ⟨g, hl, -⟩ := Text.exists_dropTrailing_append Text.isBlank l
  have hlt := (solid_trimRight h).lead_lt
  have hlead : lead (Text.trimRight l ++ g) = lead (Text.trimRight l) := by
    rw [lead, List.takeWhile_append, if_neg (by rw [lead] at hlt; omega), lead]
  rw [← hlead]
  exact congrArg lead hl.symm

/-- A body within reach has a line within reach in its content, if that is not empty. -/
theorem InReach.content {b : Text} (h : InReach b) (hne : content b ≠ []) :
    ∃ l ∈ content b, l ≠ [] ∧ lead l ≤ 9999 := by
  have hsome : ∃ l ∈ Text.lines b, Text.allBlank l = false := by
    obtain ⟨first, more, hmore⟩ := List.exists_cons_of_ne_nil hne
    have hhead : (Layout.content b).head? = some first := by rw [hmore, List.head?_cons]
    obtain ⟨l, hl, hfirst⟩ := exists_of_mem_content (List.mem_of_head? hhead)
    refine ⟨l, hl, Bool.eq_false_iff.2 fun hblank => head?_content hhead ?_⟩
    rw [← hfirst, Text.trimRight_eq_nil_iff.2 hblank]
  obtain ⟨l, hl, hblank, hle⟩ := h hsome
  have hl' : Text.trimRight l ≠ [] := by
    rw [ne_eq, Text.trimRight_eq_nil_iff, hblank]
    exact Bool.false_ne_true
  obtain ⟨before, mid, after, hlines, hends, hmid⟩ := exists_lines_eq_append b
  have hmem : l ∈ mid := by
    rw [hlines, List.append_assoc, List.mem_append, List.mem_append] at hl
    rcases hl with hbefore | hmem | hafter
    · exact absurd (hends l (List.mem_append_left _ hbefore)) (Bool.eq_false_iff.1 hblank)
    · exact hmem
    · exact absurd (hends l (List.mem_append_right _ hafter)) (Bool.eq_false_iff.1 hblank)
  exact ⟨Text.trimRight l, hmid ▸ List.mem_map_of_mem hmem, hl', by rwa [lead_trimRight hl']⟩

theorem lines_eq_of_tab_not_mem {b : Text} (htab : .char '\t' ∉ b) (indent : Text) :
    ∃ k, IsLeast (indents (content b)) k ∧ lines indent b = (content b).map (List.drop k) := by
  obtain ⟨k, hk, hlines⟩ := lines_eq indent b
  rw [map_untab_of_not_mem fun l hl hmem => htab (mem_of_mem_content hl hmem)] at hk hlines
  exact ⟨k, hk, hlines⟩

/-! ## The margin moves with the lines -/

theorem margin_of_moved {n k k' : Nat} {ls ls' : List Text} (h : Forall₂ (Moved n) ls ls')
    (hk : IsLeast (indents ls) k) (hk' : IsLeast (indents ls') k')
    (hreach : ∃ l ∈ ls', l ≠ [] ∧ lead l ≤ 9999) : k' = n + k := by
  obtain ⟨l', hl', hne', hlead'⟩ := exists_lead_eq hk' hreach
  obtain ⟨l, hl, hmoved⟩ := exists_of_forall₂_right h hl'
  obtain ⟨hne, hlead⟩ := hmoved.lead_eq hne'
  have hle := le_lead_of_isLeast hk hl hne
  have hle' : k' ≤ n + k := by
    rcases hk.1 with rfl | ⟨x, hx, hxne, hxlead⟩
    · have h9999 : k' ≤ 9999 := hk'.2 (.inl rfl)
      omega
    · obtain ⟨x', hx', hmoved'⟩ := exists_of_forall₂_left h hx
      have hxne' := hmoved'.ne_nil hxne
      have := le_lead_of_isLeast hk' hx' hxne'
      have := (hmoved'.lead_eq hxne').2
      omega
  omega

/-- **Bodies that are laid out alike have the same lines,** wherever they stand. -/
theorem lines_eq_of_relaid {b b' : Text} (htab : .char '\t' ∉ b) (h : Relaid b b') (hreach : InReach b')
    (indent : Text) : lines indent b' = lines indent b := by
  obtain ⟨n, hmoved⟩ := h.content
  have hclean : ∀ l ∈ content b', .char '\t' ∉ l := by
    intro l hl
    obtain ⟨l₀, hl₀, hm⟩ := exists_of_forall₂_right hmoved hl
    exact hm.tab_not_mem fun hmem => htab (mem_of_mem_content hl₀ hmem)
  obtain ⟨k, hk, hlines⟩ := lines_eq_of_tab_not_mem htab indent
  obtain ⟨k', hk', hlines'⟩ := lines_eq indent b'
  rw [map_untab_of_not_mem hclean] at hk' hlines'
  rw [hlines, hlines']
  by_cases hnil : content b' = []
  · rw [hnil, List.forall₂_nil_right_iff] at hmoved
    rw [hnil, hmoved]
    rfl
  · obtain rfl := margin_of_moved hmoved hk hk' (hreach.content hnil)
    have hall : Forall₂ Eq ((content b).map (List.drop k)) ((content b').map (List.drop (n + k))) :=
      List.forall₂_map_left_iff.2
        (List.forall₂_map_right_iff.2 (hmoved.imp fun l l' hl => hl.drop k))
    rw [List.forall₂_eq_eq_eq] at hall
    exact hall.symm

/-! ## Lines taken in again -/

/-- A line is the part of it that is left, shifted back. -/
theorem shifted_drop_trimRight {k : Nat} {l : Text} (htab : .char '\t' ∉ l)
    (hk : Text.trimRight l ≠ [] → k ≤ lead (Text.trimRight l)) :
    Shifted k ((Text.trimRight l).drop k) l := by
  obtain ⟨s, hl, hs⟩ := Text.exists_dropTrailing_append Text.isBlank l
  change l = Text.trimRight l ++ s at hl
  refine ⟨(Text.trimRight l).take k, s, ?_, ?_, hs, ?_, fun hblank => ?_⟩
  · rw [List.take_append_drop]
    exact hl
  · by_cases hnil : Text.trimRight l = []
    · rw [hnil, List.take_nil]
      rfl
    · exact allBlank_take (hk hnil)
  · rw [hl, List.mem_append] at htab
    rw [List.mem_append]
    exact fun h => htab (h.imp_left List.mem_of_mem_take)
  · have hne : Text.trimRight l ≠ [] := by
      intro hnil
      rw [hnil, List.drop_nil] at hblank
      cases hblank
    have hle : lead (Text.trimRight l) ≤ (Text.trimRight l).length :=
      (List.takeWhile_prefix _).length_le
    rw [List.length_take]
    exact Nat.min_eq_left ((hk hne).trans hle)

/-- The lines of a body are the lines of the text that they make, if there are any. -/
theorem lines_unlines_lines {b : Text} (htab : .char '\t' ∉ b) (hne : content b ≠ []) (indent : Text) :
    Text.lines (Text.unlines (lines indent b)) = lines indent b := by
  obtain ⟨k, -, hlines⟩ := lines_eq_of_tab_not_mem htab indent
  rw [hlines]
  refine Text.pieces_joined (by simpa using hne) fun r hr hmem => ?_
  obtain ⟨_, hcontent, rfl⟩ := List.mem_map.1 hr
  obtain ⟨l, hl, rfl⟩ := exists_of_mem_content hcontent
  have hsep := Text.not_sep_of_mem_pieces hl _ (mem_of_mem_trimRight (List.mem_of_mem_drop hmem))
  simp at hsep

/-- A blank body is the empty one, laid out otherwise. -/
theorem relaid_nil {b : Text} (htab : .char '\t' ∉ b) (h : ∀ l ∈ Text.lines b, Text.allBlank l = true) :
    Relaid [] b := by
  obtain ⟨l, more, hb⟩ := List.exists_cons_of_ne_nil (Text.pieces_ne_nil (· == .char '\n') b)
  change Text.lines b = l :: more at hb
  have hl : l ∈ Text.lines b := hb ▸ List.mem_cons_self
  refine ⟨0, [], [l], more, hb, fun m hm => h m (hb ▸ List.mem_cons_of_mem _ hm), .cons ?_ .nil⟩
  exact ⟨[], l, rfl, rfl, h l hl, fun hmem => htab (mem_of_mem_lines hl hmem), fun _ => rfl⟩

/-- A body is its own lines, laid out otherwise. -/
theorem relaid_unlines_lines {b : Text} (htab : .char '\t' ∉ b) (indent : Text) :
    Relaid (Text.unlines (lines indent b)) b := by
  obtain ⟨k, hk, hlines⟩ := lines_eq_of_tab_not_mem htab indent
  obtain ⟨before, mid, after, hb, hends, hmid⟩ := exists_lines_eq_append b
  by_cases hnil : content b = []
  · rw [hlines, hnil]
    obtain rfl : mid = [] := List.map_eq_nil_iff.1 (hmid.symm.trans hnil)
    rw [List.append_nil] at hb
    exact relaid_nil htab (hb ▸ hends)
  · refine ⟨k, before, mid, after, hb, hends, ?_⟩
    rw [lines_unlines_lines htab hnil, hlines, hmid, List.map_map, List.forall₂_map_left_iff,
      List.forall₂_same]
    intro l hl
    have hmem : l ∈ Text.lines b := by
      rw [hb]
      exact List.mem_append_left _ (List.mem_append_right _ hl)
    exact shifted_drop_trimRight (fun hc => htab (mem_of_mem_lines hmem hc)) fun hne =>
      le_lead_of_isLeast hk (hmid ▸ List.mem_map_of_mem hl) hne

theorem tab_not_mem_unlines_lines {b : Text} (htab : .char '\t' ∉ b) (indent : Text) :
    .char '\t' ∉ Text.unlines (lines indent b) := by
  intro hmem
  obtain ⟨k, -, hlines⟩ := lines_eq_of_tab_not_mem htab indent
  rcases Text.mem_joined hmem with hsep | ⟨r, hr, hmem⟩
  · revert hsep
    decide
  · rw [hlines] at hr
    obtain ⟨l, hl, rfl⟩ := List.mem_map.1 hr
    exact htab (mem_of_mem_content hl (List.mem_of_mem_drop hmem))

/-- **Only the layout inside a block counts.** Bodies that are laid out alike have the same lines,
and the lines of a body are taken in again as they are. -/
theorem lines_of_relaid (indent : Text) :
    (∀ b b', .char '\t' ∉ b → Relaid b b' → InReach b' → lines indent b' = lines indent b) ∧
      ∀ b, .char '\t' ∉ b → InReach b →
        lines indent (Text.unlines (lines indent b)) = lines indent b :=
  ⟨fun _ _ htab h hreach => lines_eq_of_relaid htab h hreach indent, fun _ htab hreach =>
    (lines_eq_of_relaid (tab_not_mem_unlines_lines htab indent) (relaid_unlines_lines htab indent)
      hreach indent).symm⟩

/-- Line feeds with carriage returns before them, and other whitespace where the line is indented. -/
theorem lines_of_relaid_cr :
    (Relaid "a\n\n  b".toText " \t\n \x0ba \r\n \r\n    b\r\n".toText ∧
      lines [] " \t\n \x0ba \r\n \r\n    b\r\n".toText = lines [] "a\n\n  b".toText) ∧
    lines [] (Text.unlines (lines [] "  a\n \n    b ".toText)) =
      lines [] "  a\n \n    b ".toText := by
  have hrelaid : Relaid "a\n\n  b".toText " \t\n \x0ba \r\n \r\n    b\r\n".toText := by
    refine ⟨2, [" \t".toText], [" \x0ba \r".toText, " \r".toText, "    b\r".toText], [[]], by decide,
      by decide, .cons ?first (.cons ?blank (.cons ?last .nil))⟩
    case first => exact ⟨" \x0b".toText, " \r".toText, by decide⟩
    case blank => exact ⟨[], " \r".toText, by decide⟩
    case last => exact ⟨"  ".toText, "\r".toText, by decide⟩
  exact ⟨⟨hrelaid, (lines_of_relaid []).1 _ _ (by decide) hrelaid
      fun _ => ⟨"    b\r".toText, by decide⟩⟩,
    (lines_of_relaid []).2 _ (by decide) fun _ => ⟨"  a".toText, by decide⟩⟩

end MarkupCatalog.Layout
