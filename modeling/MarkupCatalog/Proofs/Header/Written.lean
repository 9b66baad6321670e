/-
Headers as they are written. Items are given in order, each with its key and one or more texts, and
written with a backslash before each character of the texts. `read_written`: the header read back
holds these items and nothing else. `options_written`: its options are the items in order, with the
two sides of the wrap for the wrap.
-/
import MarkupCatalog.Header
import MarkupCatalog.Proofs.Comment
import MarkupCatalog.Proofs.Header.Marks
import MarkupCatalog.Proofs.Options.Assignments
import MarkupCatalog.Proofs.Text.Classes

namespace MarkupCatalog.Header

/-! ## Items -/

/-- What is given under a key: one text, or a list of at least two. -/
inductive Given where
  | one (s : Text)
  | many (s t : Text) (more : List Text)
deriving DecidableEq, Repr

namespace Given

def texts : Given → List Text
  | one s => [s]
  | many s t more => s :: t :: more

def setting : Given → Setting
  | one s => .text s
  | many s t more => .parts (s :: t :: more)

/-- The texts as they are written, with colons between them. -/
def text (v : Given) : Text := Text.joined [.char ':'] (v.texts.map Mark.escape)

theorem texts_ne_nil (v : Given) : v.texts ≠ [] := by
  cases v <;> simp [texts]

end Given

/-- An option of a header that is to be written. -/
structure Item where
  key : Text
  value : Given
deriving DecidableEq, Repr

namespace Item

/-- The item as it is written. -/
def text (o : Item) : Text := o.key ++ .char ':' :: o.value.text

/-- What the item becomes: the first two texts of a wrap are its sides. -/
def setting (o : Item) : Setting :=
  match o.value with
  | .many s t _ => if o.key = Key.wrap then .wrap ⟨.text s, .text t⟩ else o.value.setting
  | .one _ => o.value.setting

/-- The key is a word. Keys whose values stay whole have one text, and a wrap has two or more. -/
structure WellFormed (o : Item) : Prop where
  key_ne_nil : o.key ≠ []
  isWord : ∀ c ∈ o.key, Text.isWord c = true
  verbatim : o.key ∈ Key.verbatim → ∃ s, o.value = .one s
  wrap : o.key = Key.wrap → ∃ s t more, o.value = .many s t more

/-- The marks of the item and of the space after it. -/
def marks (o : Item) : List Mark :=
  Mark.plain o.key ++ Mark.colon :: (Mark.joined o.value.texts ++ [Mark.space])

theorem WellFormed.backslash_not_mem {o : Item} (h : o.WellFormed) : .char '\\' ∉ o.key := by
  intro hmem
  have := h.isWord _ hmem
  revert this
  decide +kernel

theorem WellFormed.read_text {o : Item} (h : o.WellFormed) (r : Text) :
    Mark.read (o.text ++ .char ' ' :: r) = o.marks ++ Mark.read r := by
  rw [text, List.append_assoc, Mark.read_plain_append h.backslash_not_mem, List.cons_append,
    Mark.read_cons (by decide), Given.text, Mark.read_joined_append, Mark.read_cons (by decide)]
  simp [marks, Mark.colon, Mark.space]

end Item

/-! ## A header as it is written -/

/-- The items with a space before each and after the last. -/
def written (os : List Item) : Text :=
  .char ' ' :: (Text.joined [.char ' '] (os.map Item.text) ++ [.char ' '])

theorem joined_append_space {os : List Item} (h : os ≠ []) :
    Text.joined [.char ' '] (os.map Item.text) ++ [.char ' '] =
      os.flatMap fun o => o.text ++ [.char ' '] := by
  induction os with
  | nil => exact absurd rfl h
  | cons o os ih =>
    cases os with
    | nil => simp [Text.joined]
    | cons p os =>
      have ih := ih (by simp)
      rw [List.flatMap_cons, ← ih]
      simp [Text.joined]

/-- The items in the order in which they are written, each with what is written before and after. -/
theorem written_append_cons (before : List Item) (o : Item) (after : List Item) :
    ∃ a r, written (before ++ o :: after) = a ++ .char ' ' :: (o.text ++ .char ' ' :: r) ∧
      (before = [] → a = []) := by
  have hitems : written (before ++ o :: after) =
      .char ' ' :: (before.flatMap fun p => p.text ++ [.char ' ']) ++
        (o.text ++ .char ' ' :: after.flatMap fun p => p.text ++ [.char ' ']) := by
    rw [written, joined_append_space (by simp)]
    simp
  -- the space after each item is the one before the next
  have hspace (ps : List Item) : (.char ' ' :: ps.flatMap fun p => p.text ++ [.char ' ']) =
      (ps.flatMap fun p => .char ' ' :: p.text) ++ [.char ' '] := by
    induction ps with
    | nil => rfl
    | cons p ps ih =>
      rw [List.flatMap_cons, List.flatMap_cons, List.append_assoc, List.append_assoc, ← ih]
      simp
  rw [hitems, hspace]
  refine ⟨before.flatMap fun p => .char ' ' :: p.text,
    after.flatMap fun p => p.text ++ [.char ' '], ?_, ?_⟩
  · simp
  · rintro rfl
    rfl

theorem marks_written {os : List Item} (hne : os ≠ []) (h : ∀ o ∈ os, o.WellFormed) :
    Mark.read (written os) = Mark.space :: os.flatMap Item.marks := by
  have hall : Mark.read (os.flatMap fun o => o.text ++ [.char ' ']) = os.flatMap Item.marks := by
    clear hne
    induction os with
    | nil => rfl
    | cons o os ih =>
      simp only [List.flatMap_cons, List.append_assoc, List.cons_append, List.nil_append]
      rw [(h o List.mem_cons_self).read_text, ih fun p hp => h p (List.mem_cons_of_mem _ hp)]
  rw [written, joined_append_space hne, Mark.read_cons (by decide), hall]
  rfl

/-! ## Scanning -/

theorem key?_plain {k : Text} (hne : k ≠ []) (h : ∀ c ∈ k, Text.isWord c = true) (r : List Mark) :
    key? (Mark.plain k ++ Mark.colon :: r) = some (k, r) := by
  have hword : ∀ m ∈ Mark.plain k, m.isWord = true := by
    intro m hm
    obtain ⟨c, hc, rfl⟩ := List.mem_map.1 hm
    exact h c hc
  have hcolon : Mark.isWord Mark.colon = false := by decide +kernel
  have hne' : Mark.plain k ≠ [] := by simpa [Mark.plain] using hne
  rw [key?, List.takeWhile_append_of_pos hword, List.dropWhile_append_of_pos hword]
  simp only [List.takeWhile_cons, List.dropWhile_cons, hcolon, Bool.false_eq_true, if_false,
    List.append_nil]
  rw [if_pos (by simp [hne', show Mark.isColon Mark.colon = true by decide]), Mark.chars_plain]

theorem scan_of_key {m : Mark} {rest after : List Mark} {k : Text}
    (h : key? (m :: rest) = some (k, after)) :
    scan true (m :: rest) =
      ⟨[], (k, (scan false after).stray) :: (scan false after).assignments⟩ := by
  rw [scan]
  split
  next k' after' h' =>
    rw [if_pos rfl, h, Option.some.injEq, Prod.mk.injEq] at h'
    rw [h'.1, h'.2]
  next h' => simp [h] at h'

theorem scan_plain_append {k : Text} (hne : k ≠ []) (h : ∀ c ∈ k, Text.isWord c = true)
    (r : List Mark) :
    scan true (Mark.plain k ++ Mark.colon :: r) =
      ⟨[], (k, (scan false r).stray) :: (scan false r).assignments⟩ := by
  have hkey := key?_plain hne h r
  cases hms : Mark.plain k ++ Mark.colon :: r with
  | nil => simp at hms
  | cons m rest =>
    rw [hms] at hkey
    rw [scan_of_key hkey]

theorem scan_of_no_key {free : Bool} {m : Mark} {rest : List Mark}
    (h : free = true → key? (m :: rest) = none) :
    scan free (m :: rest) =
      ⟨m :: (scan m.isGap rest).stray, (scan m.isGap rest).assignments⟩ := by
  rw [scan]
  split
  next k' after' h' =>
    split at h'
    next hfree => simp [h hfree] at h'
    next => simp at h'
  next => rfl

/-- Marks without whitespace among them go to the value that they stand in. -/
theorem scan_append {ms : List Mark} (h : ∀ m ∈ ms, m.isGap = false) (r : List Mark) :
    scan false (ms ++ r) = ⟨ms ++ (scan false r).stray, (scan false r).assignments⟩ := by
  induction ms with
  | nil => rfl
  | cons m ms ih =>
    rw [List.cons_append, scan_of_no_key (by simp), h m List.mem_cons_self,
      ih fun m' hm' => h m' (List.mem_cons_of_mem _ hm')]
    rfl

theorem scan_space {free : Bool} (r : List Mark) :
    scan free (Mark.space :: r) =
      ⟨Mark.space :: (scan true r).stray, (scan true r).assignments⟩ := by
  have hkey : key? (Mark.space :: r) = none := by
    have hword : Mark.isWord Mark.space = false := by decide +kernel
    simp [key?, hword]
  rw [scan_of_no_key fun _ => hkey]
  rfl

theorem scan_items {os : List Item} (h : ∀ o ∈ os, o.WellFormed) :
    scan true (os.flatMap Item.marks) =
      ⟨[], os.map fun o => (o.key, Mark.joined o.value.texts ++ [Mark.space])⟩ := by
  induction os with
  | nil =>
    rw [List.flatMap_nil, scan]
    rfl
  | cons o os ih =>
    have ho := h o List.mem_cons_self
    rw [List.flatMap_cons, Item.marks, List.append_assoc, List.cons_append,
      scan_plain_append ho.key_ne_nil ho.isWord, List.append_assoc,
      scan_append fun m hm => Mark.isGap_of_mem_joined hm, List.cons_append, scan_space,
      List.nil_append, ih fun p hp => h p (List.mem_cons_of_mem _ hp)]
    rfl

/-! ## Options -/

theorem setting_written {o : Item} (h : o.WellFormed) :
    setting o.key (Mark.joined o.value.texts ++ [Mark.space]) = o.value.setting := by
  rw [setting, Mark.trim_append_space fun m hm => Mark.isGap_of_mem_joined hm]
  by_cases hk : o.key ∈ Key.verbatim
  · obtain ⟨s, hs⟩ := h.verbatim hk
    rw [if_pos hk, hs, Given.texts, Mark.joined, Mark.chars_literal]
    rfl
  · rw [if_neg hk, Mark.parts_joined o.value.texts_ne_nil]
    cases o.value <;> rfl

/-- The options that the items stand for. If none of them is a wrap, an empty one stands at the end. -/
def given (os : List Item) : Options :=
  os.map (fun o => (o.key, o.setting)) ++
    if Key.wrap ∈ os.map Item.key then [] else [(Key.wrap, .wrap .empty)]

/-- A header can be written of the items: no key comes twice, and one of them asks for extraction. -/
structure Writable (os : List Item) : Prop where
  wellFormed : ∀ o ∈ os, o.WellFormed
  nodup : (os.map Item.key).Nodup
  extract : Key.extract ∈ os.map Item.key

theorem Writable.ne_nil {os : List Item} (h : Writable os) : os ≠ [] := by
  rintro rfl
  simpa using h.extract

/-- Every dash of a written header has a backslash before it. -/
theorem not_infix_dashes {os : List Item} (h : Writable os) :
    ¬[.char '-', .char '-'] <:+: written os := by
  rw [← Mark.flatMap_written_read (written os), marks_written h.ne_nil h.wellFormed]
  refine Mark.not_infix_pair (by decide) (by decide) fun m hm hbare => ?_
  rcases List.mem_cons.1 hm with rfl | hm
  · decide
  obtain ⟨o, ho, hmo⟩ := List.mem_flatMap.1 hm
  simp only [Item.marks, List.mem_append, List.mem_cons, List.not_mem_nil, or_false] at hmo
  rcases hmo with hmo | rfl | hmo | rfl
  · obtain ⟨c, hc, rfl⟩ := List.mem_map.1 hmo
    rintro rfl
    have := (h.wellFormed o ho).isWord _ hc
    revert this
    decide +kernel
  · decide
  · rcases Mark.eq_colon_of_mem_joined hmo with rfl | hescaped
    · decide
    · simp [hescaped] at hbare
  · decide

theorem opening_not_infix_written {os : List Item} (h : Writable os) :
    ¬Comment.opening <:+: written os := fun hopen =>
  not_infix_dashes h (List.IsInfix.trans ⟨[.char '<', .char '!'], [], rfl⟩ hopen)

theorem closing_not_infix_written {os : List Item} (h : Writable os) :
    ¬Comment.closing <:+: written os := fun hclose =>
  not_infix_dashes h (List.IsInfix.trans ⟨[], [.char '>'], rfl⟩ hclose)

/-- **A written header is read back item by item,** and nothing stands before the first key but the
space. -/
theorem read_written {os : List Item} (h : Writable os) :
    read (written os) =
      ⟨[Mark.space], os.map fun o => (o.key, Mark.joined o.value.texts ++ [Mark.space])⟩ := by
  rw [read, Comment.inner_eq_self (opening_not_infix_written h) (closing_not_infix_written h),
    marks_written h.ne_nil h.wellFormed, scan_space, scan_items h.wellFormed]

theorem keys_map (f : Item → Setting) (os : List Item) :
    (os.map fun o => (o.key, f o)).map (·.1) = os.map Item.key := by
  rw [List.map_map]
  rfl

theorem declared_written {os : List Item} (h : Writable os) :
    (read (written os)).declared = os.map fun o => (o.key, o.value.setting) := by
  have hsettings : (read (written os)).settings = os.map fun o => (o.key, o.value.setting) := by
    rw [settings, read_written h, List.map_map]
    exact List.map_congr_left fun o ho => congrArg (o.key, ·) (setting_written (h.wellFormed o ho))
  rw [declared, hsettings]
  refine Options.putAll_of_nodup ?_
  rw [keys_map]
  exact h.nodup

theorem Item.setting_of_ne {o : Item} (h : o.key ≠ Key.wrap) : o.setting = o.value.setting := by
  unfold setting
  split
  · rw [if_neg h]
  · rfl

/-- Items are declared as they are, but for the wrap. -/
theorem map_value_setting {os : List Item} (h : Key.wrap ∉ os.map Item.key) :
    os.map (fun o => (o.key, o.value.setting)) = os.map fun o => (o.key, o.setting) := by
  refine List.map_congr_left fun o ho => ?_
  have hne : o.key ≠ Key.wrap := by
    intro he
    exact h (he ▸ List.mem_map_of_mem ho)
  rw [Item.setting_of_ne hne]

theorem options_of_not_mem {os : List Item} (h : Writable os)
    (hmem : Key.wrap ∉ os.map Item.key) : (read (written os)).options .empty = given os := by
  have hdeclared := declared_written h
  have hnone : (read (written os)).wrap? = none := by
    rw [wrap?, hdeclared, Options.get?_eq_none_iff.2 (by rwa [keys_map])]
    rfl
  rw [options, hnone, hdeclared, Options.put_of_not_mem (by rwa [keys_map]), given, if_neg hmem,
    map_value_setting hmem]
  rfl

/-- The wrap that is declared takes the place of its two texts. -/
theorem options_of_mem {before after : List Item} {w : Item}
    (h : Writable (before ++ w :: after)) (hkey : w.key = Key.wrap) :
    (read (written (before ++ w :: after))).options .empty = given (before ++ w :: after) := by
  obtain ⟨s, t, more, hvalue⟩ := (h.wellFormed w (by simp)).wrap hkey
  have hmem : Key.wrap ∈ (before ++ w :: after).map Item.key := by simp [hkey]
  have hnodup := h.nodup
  rw [List.map_append, List.map_cons, List.nodup_append, List.nodup_cons, hkey] at hnodup
  have hbefore : Key.wrap ∉ before.map Item.key := by
    intro hb
    exact hnodup.2.2 _ hb _ List.mem_cons_self rfl
  have hafter : Key.wrap ∉ after.map Item.key := hnodup.2.1.1
  have hdeclared := declared_written h
  have hwrap : (read (written (before ++ w :: after))).wrap? = some ⟨.text s, .text t⟩ := by
    rw [wrap?, hdeclared, List.map_append, List.map_cons, hkey,
      Options.get?_append_of_not_mem (by rwa [keys_map]), hvalue]
    rfl
  rw [options, hwrap, hdeclared, List.map_append, List.map_cons, hkey,
    Options.put_append_of_not_mem (by rwa [keys_map]), given, if_pos hmem, List.append_nil,
    List.map_append, List.map_cons, hkey, map_value_setting hbefore, map_value_setting hafter]
  simp [Item.setting, hvalue, hkey]

/-- **The options of a written header** are those that its items stand for. -/
theorem options_written {os : List Item} (h : Writable os) :
    (read (written os)).options .empty = given os := by
  by_cases hmem : Key.wrap ∈ os.map Item.key
  · obtain ⟨w, hw, hkey⟩ := List.mem_map.1 hmem
    obtain ⟨before, after, rfl⟩ := List.append_of_mem hw
    exact options_of_mem h hkey
  · exact options_of_not_mem h hmem

end MarkupCatalog.Header
