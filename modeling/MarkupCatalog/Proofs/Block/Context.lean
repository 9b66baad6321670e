/-
Blocks in other documents. The blocks of a document keep apart from the text around them: wherever they
stand between texts in which no comment opens, they are found again and no others
(`blocks_woven`). And where a document ends in its last block, nothing that follows can change what is
found in it (`blocks_append_of_endsInBlock`): every other start marker is decided by what comes before
the end of that block.
-/
import MarkupCatalog.Proofs.Block.Locality
import MarkupCatalog.Proofs.Block.Unopened

namespace MarkupCatalog

open Text (slice)

namespace Block

/-! ## Other text between the blocks -/

/-- Blocks with other text around them: `g` before the first, and after each the text that comes with
it. -/
def woven (g : Text) (ps : List (Block × Text)) : Text :=
  g ++ ps.flatMap fun p => p.1.text ++ p.2

theorem woven_cons (g : Text) (p : Block × Text) (ps : List (Block × Text)) :
    woven g (p :: ps) = g ++ (p.1.text ++ woven p.2 ps) := by
  simp [woven]

theorem blocks_woven_of_read? {g : Text} {ps : List (Block × Text)}
    (hfound : ∀ p ∈ ps, ∃ s r, read? s = some (p.1, r)) (hg : ¬Comment.opening <:+: g)
    (hgaps : ∀ p ∈ ps, ¬Comment.opening <:+: p.2) : blocks (woven g ps) = ps.map Prod.fst := by
  induction ps generalizing g with
  | nil =>
    show blocks (g ++ []) = []
    rw [blocks_append (Comment.unopened_of_end hg), blocks]
  | cons p ps ih =>
    obtain ⟨s, r, hread⟩ := hfound p List.mem_cons_self
    have hopen : Comment.Unopened g (p.1.text ++ woven p.2 ps) := by
      unfold text
      simpa using Comment.unopened_opening hg _
    rw [woven_cons, blocks_append hopen, blocks_of_read? (read?_text_append hread _),
      ih (fun q hq => hfound q (List.mem_cons_of_mem _ hq)) (hgaps p List.mem_cons_self)
        fun q hq => hgaps q (List.mem_cons_of_mem _ hq)]
    rfl

/-- **Blocks do not depend on the text around them.** The blocks of a document are found again, in
order and no others, with any texts between them in which no comment opens; and so they are where one
follows the other at once. -/
theorem blocks_woven (d : Text) :
    (∀ g ps, ps.map Prod.fst = blocks d → ¬Comment.opening <:+: g →
        (∀ p ∈ ps, ¬Comment.opening <:+: p.2) → blocks (woven g ps) = blocks d) ∧
      blocks ((blocks d).flatMap text) = blocks d := by
  have hwoven : ∀ g ps, ps.map Prod.fst = blocks d → ¬Comment.opening <:+: g →
      (∀ p ∈ ps, ¬Comment.opening <:+: p.2) → blocks (woven g ps) = blocks d := by
    intro g ps hps hg hgaps
    rw [blocks_woven_of_read? _ hg hgaps, hps]
    intro p hp
    exact exists_read?_of_mem (hps ▸ List.mem_map_of_mem hp)
  refine ⟨hwoven, ?_⟩
  have hnil : ¬Comment.opening <:+: [] := by decide
  have hbare := hwoven [] ((blocks d).map (·, [])) (by simp [Function.comp_def]) hnil (by
    intro p hp
    obtain ⟨b, -, rfl⟩ := List.mem_map.1 hp
    exact hnil)
  simpa [woven, List.flatMap_map] using hbare

/-- Two blocks, the first with comments in its header and its body and an end marker that ends in
another opening delimiter, and a start marker that begins no block. -/
def tailed : Text :=
  "p<!-- <!-- extract:x --><!-- y --> --> z<!-- endextract <!-->q<!-- Extract:b-->".toText ++
    "<!--extract:c-->v<!--\nEndExtract-->".toText

/-- Texts in which no comment opens, though they begin, end or go on like one. -/
def gaps : List Text := ["<!-".toText, "extract:n <!".toText]

theorem blocks_woven_tailed :
    (((blocks tailed).zip gaps).map Prod.fst = blocks tailed ∧
        ¬Comment.opening <:+: "-->".toText ∧
        ∀ p ∈ (blocks tailed).zip gaps, ¬Comment.opening <:+: p.2) ∧
      blocks (woven "-->".toText ((blocks tailed).zip gaps)) = blocks tailed ∧
      blocks ((blocks tailed).flatMap text) = blocks tailed ∧ (blocks tailed).length = 2 := by
  have hlen : (blocks tailed).length = 2 := by decide +kernel
  have hfst : ((blocks tailed).zip gaps).map Prod.fst = blocks tailed :=
    List.map_fst_zip (by rw [hlen]; decide)
  have hbefore : ¬Comment.opening <:+: "-->".toText := by decide +kernel
  have hgaps : ∀ g ∈ gaps, ¬Comment.opening <:+: g := by decide +kernel
  have hzip : ∀ p ∈ (blocks tailed).zip gaps, ¬Comment.opening <:+: p.2 :=
    fun p hp => hgaps p.2 (List.of_mem_zip hp).2
  obtain ⟨hwoven, hbare⟩ := blocks_woven tailed
  exact ⟨⟨hfst, hbefore, hzip⟩, hwoven _ _ hfst hbefore hzip, hbare, hlen⟩

/-! ## The spans of a document are determined -/

/-- The spans of a document from place `i` on, one after the other, with none left out. -/
structure Covers (d : Text) (i : Nat) (spans : List (Nat × Nat)) : Prop where
  disjoint : spans.Pairwise fun p q => p.2 ≤ q.1
  isSpan : ∀ p ∈ spans, i ≤ p.1 ∧ IsSpan d p.1 p.2
  complete : ∀ s e, i ≤ s → IsSpan d s e → ∃ p ∈ spans, p.1 ≤ s ∧ s < p.2

theorem Tiling.skip_all {d : Text} {i n : Nat} {spans : List (Nat × Nat)} (hlen : i + n ≤ d.length)
    (hread : ∀ k, k < n → read? (d.drop (i + k)) = none) (h : Tiling d (i + n) spans) :
    Tiling d i spans := by
  induction n with
  | zero => exact h
  | succ n ih =>
    exact ih (by omega) (fun k hk => hread k (by omega))
      (h.skip (by omega) (hread n (Nat.lt_succ_self n)))

theorem Tiling.covers {d : Text} {i : Nat} {spans : List (Nat × Nat)} (h : Tiling d i spans) :
    Covers d i spans :=
  ⟨h.disjoint, h.isSpan, h.complete⟩

theorem Covers.fst_le {d : Text} {i s e : Nat} {p : Nat × Nat} {ps : List (Nat × Nat)}
    (h : Covers d i (p :: ps)) (hs : i ≤ s) (hspan : IsSpan d s e) : p.1 ≤ s := by
  obtain ⟨q, hq, hqs, -⟩ := h.complete s e hs hspan
  rcases List.mem_cons.1 hq with rfl | hq
  · exact hqs
  · have := (h.isSpan p List.mem_cons_self).2.lt
    have := (List.pairwise_cons.1 h.disjoint).1 q hq
    omega

theorem Covers.tail {d : Text} {i : Nat} {p : Nat × Nat} {ps : List (Nat × Nat)}
    (h : Covers d i (p :: ps)) : Covers d p.2 ps where
  disjoint := (List.pairwise_cons.1 h.disjoint).2
  isSpan q hq := ⟨(List.pairwise_cons.1 h.disjoint).1 q hq, (h.isSpan q (List.mem_cons_of_mem _ hq)).2⟩
  complete s e hs hspan := by
    obtain ⟨hip, hp⟩ := h.isSpan p List.mem_cons_self
    have := hp.lt
    obtain ⟨q, hq, hqs⟩ := h.complete s e (by omega) hspan
    rcases List.mem_cons.1 hq with rfl | hq
    · omega
    · exact ⟨q, hq, hqs⟩

theorem Covers.unique {d : Text} {i : Nat} {ps qs : List (Nat × Nat)} (h : Covers d i ps)
    (h' : Covers d i qs) : ps = qs := by
  induction ps generalizing i qs with
  | nil =>
    cases qs with
    | nil => rfl
    | cons q qs =>
      obtain ⟨hq, hspan⟩ := h'.isSpan q List.mem_cons_self
      obtain ⟨p, hp, -⟩ := h.complete _ _ hq hspan
      simp at hp
  | cons p ps ih =>
    obtain ⟨hp, hspan⟩ := h.isSpan p List.mem_cons_self
    cases qs with
    | nil =>
      obtain ⟨q, hq, -⟩ := h'.complete _ _ hp hspan
      simp at hq
    | cons q qs =>
      obtain ⟨hq, hspan'⟩ := h'.isSpan q List.mem_cons_self
      have hfst : p.1 = q.1 := Nat.le_antisymm (h.fst_le hq hspan') (h'.fst_le hp hspan)
      rw [← hfst] at hspan'
      obtain rfl : p = q := Prod.ext hfst (hspan.unique hspan')
      rw [ih h.tail h'.tail]

/-- Spans that leave none out are where the blocks are. -/
theorem Covers.map_text_blocks {d : Text} {spans : List (Nat × Nat)} (h : Covers d 0 spans) :
    (blocks d).map text = spans.map fun p => slice d p.1 p.2 := by
  obtain ⟨spans', h'⟩ := exists_tiling d 0
  rw [h.unique h'.covers]
  exact h'.texts

/-! ## Documents that end in a block -/

/-- The document ends where its last block ends. That it ends in the text of that block is not enough:
an end marker can be the opening comment of a text like the block that it ends. -/
def EndsInBlock (d : Text) : Prop := ∃ spans s, Tiling d 0 (spans ++ [(s, d.length)])

/-- Where a document ends in a block, the spans of what follows it are added to its own. -/
theorem Covers.append {d₁ d₂ : Text} {ps qs : List (Nat × Nat)} {s : Nat}
    (h₁ : Covers d₁ 0 (ps ++ [(s, d₁.length)])) (h₂ : Covers d₂ 0 qs) :
    Covers (d₁ ++ d₂) 0 (ps ++ [(s, d₁.length)] ++
      qs.map fun q => (d₁.length + q.1, d₁.length + q.2)) := by
  have hlast : IsSpan d₁ s d₁.length := (h₁.isSpan (s, d₁.length) (by simp)).2
  have hle : ∀ p ∈ ps ++ [(s, d₁.length)], p.2 ≤ d₁.length := fun p hp => (h₁.isSpan p hp).2.lt.2
  constructor
  case disjoint =>
    refine List.pairwise_append.2 ⟨h₁.disjoint, ?_, fun p hp q hq => ?_⟩
    · rw [List.pairwise_map]
      exact h₂.disjoint.imp fun h => Nat.add_le_add_left h _
    · obtain ⟨q', -, rfl⟩ := List.mem_map.1 hq
      exact Nat.le_trans (hle p hp) (Nat.le_add_right ..)
  case isSpan =>
    intro p hp
    refine ⟨Nat.zero_le _, ?_⟩
    rcases List.mem_append.1 hp with hp | hp
    · exact (isSpan_append_iff (hle p hp) d₂).2 (h₁.isSpan p hp).2
    · obtain ⟨q, hq, rfl⟩ := List.mem_map.1 hp
      exact (isSpan_append_left_iff d₁).2 (h₂.isSpan q hq).2
  case complete =>
    intro a e _ hspan
    by_cases hin : a < d₁.length
    · by_cases has : a < s
      · -- what begins before the last block of `d₁` ends before that block does
        have he : e ≤ d₁.length :=
          hspan.end_le ((isSpan_append_iff (Nat.le_refl _) d₂).2 hlast) (Nat.le_of_lt has)
        rw [isSpan_append_iff he] at hspan
        obtain ⟨p, hp, hpa⟩ := h₁.complete a e (Nat.zero_le a) hspan
        exact ⟨p, List.mem_append_left _ hp, hpa⟩
      · exact ⟨(s, d₁.length), by simp, Nat.le_of_not_lt has, hin⟩
    · obtain ⟨a, rfl⟩ : ∃ a', a = d₁.length + a' := ⟨a - d₁.length, by omega⟩
      obtain ⟨e, rfl⟩ : ∃ e', e = d₁.length + e' :=
        ⟨e - d₁.length, by have := hspan.lt; omega⟩
      rw [isSpan_append_left_iff] at hspan
      obtain ⟨q, hq, hqa⟩ := h₂.complete a e (Nat.zero_le a) hspan
      exact ⟨_, List.mem_append_right _ (List.mem_map_of_mem hq), by omega, by omega⟩

theorem EndsInBlock.blocks_append {d₁ d₂ : Text} (h : EndsInBlock d₁) :
    blocks (d₁ ++ d₂) = blocks d₁ ++ blocks d₂ := by
  obtain ⟨ps, s, h₁⟩ := h
  obtain ⟨qs, h₂⟩ := exists_tiling d₂ 0
  have hle : ∀ p ∈ ps ++ [(s, d₁.length)], p.2 ≤ d₁.length := fun p hp => (h₁.isSpan p hp).2.lt.2
  refine eq_of_map_text_eq (fun b hb => exists_read?_of_mem hb) (fun b hb => ?_) ?_
  · rcases List.mem_append.1 hb with hb | hb
    · exact exists_read?_of_mem hb
    · exact exists_read?_of_mem hb
  · calc (blocks (d₁ ++ d₂)).map text
        = (ps ++ [(s, d₁.length)]).map (fun p => slice (d₁ ++ d₂) p.1 p.2) ++
            (qs.map fun q => (d₁.length + q.1, d₁.length + q.2)).map
              fun p => slice (d₁ ++ d₂) p.1 p.2 := by
          rw [(h₁.covers.append h₂.covers).map_text_blocks, ← List.map_append]
      _ = (blocks d₁).map text ++ (blocks d₂).map text := by
          rw [h₁.covers.map_text_blocks, h₂.covers.map_text_blocks, List.map_map]
          congr 1
          · exact List.map_congr_left fun p hp => Text.slice_append (hle p hp) d₂
          · exact List.map_congr_left fun q _ => Text.slice_append_left d₁
      _ = (blocks d₁ ++ blocks d₂).map text := List.map_append.symm

/-- **Extraction goes block by block, whatever follows.** Where the first of two texts ends in a block,
the blocks of both together are those of the first and those of the second, and so are the entries. -/
theorem blocks_append_of_endsInBlock {d₁ d₂ : Text} (h : EndsInBlock d₁) :
    blocks (d₁ ++ d₂) = blocks d₁ ++ blocks d₂ ∧
      ∀ settings v origin es₁ es₂,
        (Extraction.extract settings d₁ v origin).result = .ok es₁ →
        (Extraction.extract settings d₂ v origin).result = .ok es₂ →
        (Extraction.extract settings (d₁ ++ d₂) v origin).result = .ok (es₁ ++ es₂) := by
  refine ⟨h.blocks_append, fun settings v origin es₁ es₂ h₁ h₂ => ?_⟩
  cases hmerge : Config.merge? settings v with
  | error f =>
    rw [Extraction.extract, hmerge] at h₁
    simp [Outcome.fault] at h₁
  | ok config =>
    rw [Extraction.result_extract hmerge] at h₁ h₂ ⊢
    rw [h.blocks_append, Extraction.result_entries_append, h₁, h₂]
    rfl

/-- A start marker without an end marker of its own, and then a block. -/
def overtaken : Text := "<!--extract:a--><!-- extract:b -->x<!--endextract-->".toText

/-- A block with other text before it. -/
def preceded : Text := "-->y<!-- c extract:c -->z<!-- endextract -->".toText

theorem endsInBlock_overtaken : EndsInBlock overtaken := by
  have hread : read? (overtaken.drop 16) =
      some (⟨" extract:b ".toText, [.char 'x'], ⟨[], "endextract".toText, []⟩⟩, []) := by decide +kernel
  have hlast : Tiling overtaken 16 [(16, overtaken.length)] :=
    Tiling.cons hread (.nil (by decide +kernel))
  exact ⟨[], 16, hlast.skip_all (i := 0) (n := 16) (by decide) (by decide +kernel)⟩

theorem blocks_append_of_endsInBlock_overtaken :
    EndsInBlock overtaken ∧
      (blocks (overtaken ++ preceded) = blocks overtaken ++ blocks preceded ∧
        (blocks (overtaken ++ preceded)).length = 2) ∧
      ∃ es₁ es₂, (Extraction.extract .standard overtaken .null []).result = .ok es₁ ∧
        (Extraction.extract .standard preceded .null []).result = .ok es₂ ∧
        es₁.length = 1 ∧ es₂.length = 1 ∧
        (Extraction.extract .standard (overtaken ++ preceded) .null []).result =
          .ok (es₁ ++ es₂) := by
  obtain ⟨hblocks, hentries⟩ :=
    @blocks_append_of_endsInBlock overtaken preceded endsInBlock_overtaken
  have h₁ : (Extraction.extract .standard overtaken .null []).result.map (·.length) = .ok 1 := by
    decide +kernel
  have h₂ : (Extraction.extract .standard preceded .null []).result.map (·.length) = .ok 1 := by
    decide +kernel
  refine ⟨endsInBlock_overtaken, ⟨hblocks, by decide +kernel⟩, ?_⟩
  cases hes₁ : (Extraction.extract .standard overtaken .null []).result with
  | error f => simp [hes₁, Except.map] at h₁
  | ok es₁ =>
    cases hes₂ : (Extraction.extract .standard preceded .null []).result with
    | error f => simp [hes₂, Except.map] at h₂
    | ok es₂ =>
      rw [hes₁] at h₁
      rw [hes₂] at h₂
      exact ⟨es₁, es₂, rfl, rfl, Except.ok.inj h₁, Except.ok.inj h₂,
        hentries _ _ _ _ _ hes₁ hes₂⟩

end Block
end MarkupCatalog
