/-
How a text divides into keys and what stands after them. There is a division whose keys stand where
keys may and which leaves no other key there (`Division.exists_proper`), and no more than one
(`Division.Proper.eq_of_text_eq`). It is the one that scanning finds, and what it gives comes in the
order of the text: first what stands before the first key, unless it is whitespace, then the values
(`exists_division_scan`).
-/
import MarkupCatalog.Proofs.Header.Keys

namespace MarkupCatalog

namespace Header

open Mark (plain colon Settled)

/-! ## Where keys may stand -/

/-- A key may follow the text: it is empty, or it ends in whitespace that has no backslash. -/
def mayFollow (s : Text) : Bool := (Mark.read s).getLast?.all Mark.isGap

/-- Text that ends in whitespace does not end in a backslash. -/
theorem settled_of_mayFollow {s : Text} (h : mayFollow s = true) : Settled s := by
  refine Mark.settled_of_getLast? fun hlast => ?_
  rw [mayFollow, hlast] at h
  exact absurd h (by decide)

theorem mayFollow_append {s t : Text} {m : Mark} (hs : Settled s) (ht : Mark.read t = [m]) :
    mayFollow (s ++ t) = m.isGap := by
  rw [mayFollow, hs, ht, List.getLast?_concat, Option.all_some]

/-! ## Keys in a text -/

/-- The text can be the key of an assignment. -/
structure IsKey (k : Text) : Prop where
  ne_nil : k ≠ []
  isWord : ∀ c ∈ k, Text.isWord c = true

theorem IsKey.not_mem {k : Text} {c : CodePoint} (h : IsKey k) (hc : Text.isWord c = false) : c ∉ k :=
  fun hmem => by simp [h.isWord c hmem] at hc

theorem IsKey.eq_of_append_eq {k k' r r' : Text} (h : IsKey k) (h' : IsKey k')
    (heq : k ++ .char ':' :: r = k' ++ .char ':' :: r') : k = k' ∧ r = r' := by
  have htake {k r : Text} (h : IsKey k) : (k ++ .char ':' :: r).takeWhile Text.isWord = k := by
    rw [List.takeWhile_append_of_pos h.isWord, List.takeWhile_cons_of_neg (by decide +kernel),
      List.append_nil]
  have hk := congrArg (List.takeWhile Text.isWord) heq
  rw [htake h, htake h'] at hk
  subst hk
  exact ⟨rfl, (List.cons_eq_cons.1 (List.append_cancel_left heq)).2⟩

/-- The text begins with a key and its colon. -/
def BeginsKey (s : Text) : Prop := ∃ k rest, IsKey k ∧ s = k ++ .char ':' :: rest

/-- No key stands in the text `part`, which comes after `before` and goes on with `after`. -/
def Keyless (before part after : Text) : Prop :=
  ∀ a b, part = a ++ b → b ≠ [] → mayFollow (before ++ a) = true → ¬BeginsKey (b ++ after)

theorem keyless_nil (before after : Text) : Keyless before [] after := by
  intro a b hab hb
  exact absurd (List.append_eq_nil_iff.1 hab.symm).2 hb

theorem Keyless.of_append {before s part after : Text} (h : Keyless before (s ++ part) after) :
    Keyless (before ++ s) part after := by
  intro a b hab hb hplace
  refine h (s ++ a) b ?_ hb ?_
  · rw [hab, List.append_assoc]
  · rwa [← List.append_assoc]

theorem keyless_cons {before part after : Text} {c : CodePoint}
    (hfirst : mayFollow before = true → ¬BeginsKey (c :: part ++ after))
    (h : Keyless (before ++ [c]) part after) : Keyless before (c :: part) after := by
  intro a b hab hb hplace
  cases a with
  | nil =>
    rw [List.nil_append] at hab
    rw [List.append_nil] at hplace
    exact hab ▸ hfirst hplace
  | cons d a =>
    obtain ⟨rfl, hpart⟩ := List.cons_eq_cons.1 hab
    exact h a b hpart hb (by simpa using hplace)

/-- A key that stands in a text without keys or after it stands after it. -/
theorem Keyless.length_le {before part after a b : Text} (h : Keyless before part after)
    (htext : part ++ after = a ++ b) (hplace : mayFollow (before ++ a) = true) (hb : BeginsKey b) :
    part.length ≤ a.length := by
  rcases List.append_eq_append_iff.1 htext with ⟨t, ht, -⟩ | ⟨t, ht, hbt⟩
  · simp [ht]
  · cases t with
    | nil => simp [ht]
    | cons c t => exact absurd (hbt ▸ hb) (h a (c :: t) ht (List.cons_ne_nil c t) hplace)

/-- A text has no key or a first one. -/
theorem keyless_or_exists_first (before s : Text) :
    Keyless before s [] ∨ ∃ a k rest, s = a ++ (k ++ .char ':' :: rest) ∧ IsKey k ∧
      mayFollow (before ++ a) = true ∧ Keyless before a (k ++ .char ':' :: rest) := by
  induction s generalizing before with
  | nil => exact .inl (keyless_nil before [])
  | cons c s ih =>
    by_cases hfirst : mayFollow before = true ∧ BeginsKey (c :: s)
    · obtain ⟨hplace, k, rest, hk, hs⟩ := hfirst
      exact .inr ⟨[], k, rest, hs, hk, by rwa [List.append_nil], keyless_nil before _⟩
    · rw [not_and] at hfirst
      rcases ih (before ++ [c]) with hnone | ⟨a, k, rest, rfl, hk, hplace, ha⟩
      · exact .inl (keyless_cons (by rwa [List.append_nil]) hnone)
      · exact .inr ⟨c :: a, k, rest, rfl, hk, by simpa using hplace, keyless_cons hfirst ha⟩

/-! ## Divisions -/

/-- A text divided into what stands before the first key, and the keys with what stands after the
colon of each. -/
structure Division where
  head : Text
  items : List (Text × Text)

namespace Division

/-- The keys with what stands after their colons, as they are written. -/
def itemsText (items : List (Text × Text)) : Text := items.flatMap fun p => p.1 ++ .char ':' :: p.2

theorem itemsText_cons (p : Text × Text) (items : List (Text × Text)) :
    itemsText (p :: items) = p.1 ++ .char ':' :: (p.2 ++ itemsText items) := by
  simp [itemsText]

/-- The text that is divided. -/
def text (d : Division) : Text := d.head ++ itemsText d.items

/-- After the text `before`, which is empty where a whole text is divided, the division has its keys
where keys may stand, and there are no others. -/
structure Proper (before : Text) (d : Division) : Prop where
  isKey : ∀ p ∈ d.items, IsKey p.1
  stands : ∀ first p rest, d.items = first ++ p :: rest →
    mayFollow (before ++ d.head ++ itemsText first) = true
  keyless_head : Keyless before d.head (itemsText d.items)
  keyless_value : ∀ first p rest, d.items = first ++ p :: rest →
    Keyless (before ++ d.head ++ itemsText first ++ p.1 ++ [.char ':']) p.2 (itemsText rest)

theorem proper_nil {before head : Text} : Proper before ⟨head, []⟩ ↔ Keyless before head [] := by
  constructor
  · intro h
    exact h.keyless_head
  · intro h
    exact ⟨by simp, by simp, h, by simp⟩

/-- What stands after the first key is divided as if it were the head. -/
theorem proper_cons {before head : Text} {p : Text × Text} {items : List (Text × Text)} :
    Proper before ⟨head, p :: items⟩ ↔
      IsKey p.1 ∧ mayFollow (before ++ head) = true ∧
        Keyless before head (itemsText (p :: items)) ∧
          Proper (before ++ head ++ p.1 ++ [.char ':']) ⟨p.2, items⟩ := by
  have hshift (first : List (Text × Text)) :
      before ++ head ++ p.1 ++ [.char ':'] ++ p.2 ++ itemsText first =
        before ++ head ++ itemsText (p :: first) := by
    simp [itemsText_cons]
  constructor
  · intro h
    refine ⟨h.isKey p List.mem_cons_self, ?_, h.keyless_head, ?_⟩
    · simpa [itemsText] using h.stands [] p items rfl
    · refine ⟨fun q hq => h.isKey q (List.mem_cons_of_mem p hq), fun first q rest hitems => ?_, ?_,
        fun first q rest hitems => ?_⟩
      · rw [hshift]
        exact h.stands (p :: first) q rest (congrArg (p :: ·) hitems)
      · simpa [itemsText] using h.keyless_value [] p items rfl
      · rw [hshift]
        exact h.keyless_value (p :: first) q rest (congrArg (p :: ·) hitems)
  · intro h
    obtain ⟨hk, hplace, hhead, hrest⟩ := h
    refine ⟨List.forall_mem_cons.2 ⟨hk, hrest.isKey⟩, fun first q rest hitems => ?_, hhead,
      fun first q rest hitems => ?_⟩
    · cases first with
      | nil => simpa [itemsText] using hplace
      | cons p' first =>
        obtain ⟨rfl, htail⟩ := List.cons_eq_cons.1 hitems
        rw [← hshift]
        exact hrest.stands first q rest htail
    · cases first with
      | nil =>
        obtain ⟨rfl, rfl⟩ := List.cons_eq_cons.1 hitems
        simpa [itemsText] using hrest.keyless_head
      | cons p' first =>
        obtain ⟨rfl, htail⟩ := List.cons_eq_cons.1 hitems
        rw [← hshift]
        exact hrest.keyless_value first q rest htail

theorem exists_proper (before s : Text) : ∃ d : Division, d.text = s ∧ Proper before d := by
  induction hn : s.length using Nat.strong_induction_on generalizing before s with
  | _ n ih =>
    subst hn
    rcases keyless_or_exists_first before s with hnone | ⟨a, k, rest, rfl, hk, hplace, ha⟩
    · exact ⟨⟨s, []⟩, List.append_nil s, proper_nil.2 hnone⟩
    · obtain ⟨d, rfl, hd⟩ := ih rest.length (by simp; omega) (before ++ a ++ k ++ [.char ':']) rest rfl
      have htext : itemsText ((k, d.head) :: d.items) = k ++ .char ':' :: d.text := itemsText_cons _ _
      have ha' : Keyless before a (itemsText ((k, d.head) :: d.items)) := by rwa [htext]
      exact ⟨⟨a, (k, d.head) :: d.items⟩, congrArg (a ++ ·) htext,
        proper_cons.2 ⟨hk, hplace, ha', hd⟩⟩

/-- No key stands in the head, so that it is no longer than the text before any key. -/
theorem Proper.length_head_le {before head : Text} {d : Division} {p : Text × Text}
    {items : List (Text × Text)} (h : Proper before d) (h' : Proper before ⟨head, p :: items⟩)
    (htext : d.text = text ⟨head, p :: items⟩) : d.head.length ≤ head.length := by
  obtain ⟨hk, hplace, -⟩ := proper_cons.1 h'
  exact h.keyless_head.length_le htext hplace ⟨p.1, _, hk, itemsText_cons p items⟩

theorem not_text_eq_of_nil {before head head' : Text} {p : Text × Text} {items : List (Text × Text)}
    (h : Proper before ⟨head, []⟩) (h' : Proper before ⟨head', p :: items⟩) :
    text ⟨head, []⟩ ≠ text ⟨head', p :: items⟩ := by
  intro htext
  have hle := h.length_head_le h' htext
  have hlength := congrArg List.length htext
  simp only [text, itemsText_cons, List.length_append, List.length_cons] at hlength hle
  simp [itemsText] at hlength
  omega

theorem Proper.eq_of_text_eq {before : Text} {d d' : Division} (h : Proper before d)
    (h' : Proper before d') (htext : d.text = d'.text) : d = d' := by
  obtain ⟨head, items⟩ := d
  obtain ⟨head', items'⟩ := d'
  induction items generalizing before head head' items' with
  | nil =>
    cases items' with
    | nil => simpa [text, itemsText] using htext
    | cons p' items' => exact absurd htext (not_text_eq_of_nil h h')
  | cons p items ih =>
    cases items' with
    | nil => exact absurd htext.symm (not_text_eq_of_nil h' h)
    | cons p' items' =>
      have hlength : head.length = head'.length :=
        Nat.le_antisymm (h.length_head_le h' htext) (h'.length_head_le h htext.symm)
      obtain ⟨rfl, hitems⟩ := List.append_inj htext hlength
      obtain ⟨hk, -, -, hrest⟩ := proper_cons.1 h
      obtain ⟨hk', -, -, hrest'⟩ := proper_cons.1 h'
      rw [itemsText_cons, itemsText_cons] at hitems
      obtain ⟨hkeys, hvalues⟩ := hk.eq_of_append_eq hk' hitems
      rw [← hkeys] at hrest'
      have hd := ih p.2 hrest p'.2 items' hrest' hvalues
      obtain ⟨hvalue, rfl⟩ := Division.mk.inj hd
      rw [Prod.ext hkeys hvalue]

/-! ## What a division gives -/

/-- The division with its head and its values read. -/
def header (d : Division) : Header :=
  ⟨Mark.read d.head, d.items.map fun p => (p.1, Mark.read p.2)⟩

/-- The head, if a character of it is escaped or no whitespace. -/
def fragment (d : Division) : Option (List Mark) :=
  if (Mark.read d.head).any fun m => m.escaped || !Text.isBlank m.char then some (Mark.read d.head)
  else none

/-- The pieces in order: the values under their keys, and before them, under no key, the head if
there is anything to it. -/
def tokens (d : Division) : List (Option Text × List Mark) :=
  d.fragment.toList.map (none, ·) ++ d.items.map fun p => (some p.1, Mark.read p.2)

theorem filter_isNone_tokens (d : Division) :
    d.tokens.filter (·.1.isNone) = d.fragment.toList.map (none, ·) := by
  have hvalues : (d.items.map fun p => (some p.1, Mark.read p.2)).filter (·.1.isNone) = [] := by
    rw [List.filter_eq_nil_iff]
    intro t ht
    obtain ⟨p, -, rfl⟩ := List.mem_map.1 ht
    exact Bool.false_ne_true
  rw [tokens, List.filter_append, hvalues, List.filter_eq_self.2 (by simp), List.append_nil]

theorem eq_nil_of_tokens_eq {d : Division} {first rest : List (Option Text × List Mark)}
    {t : Option Text × List Mark} (h : d.tokens = first ++ t :: rest) (ht : t.1 = none) :
    first = [] := by
  cases first with
  | nil => rfl
  | cons t' first =>
    have hmem : t ∈ d.tokens.tail := by
      rw [h]
      simp
    have hvalues : d.tokens.tail ⊆ d.items.map fun p => (some p.1, Mark.read p.2) := by
      rw [tokens]
      cases d.fragment with
      | none => exact List.Sublist.subset (List.tail_sublist _)
      | some ms => exact List.Subset.refl _
    obtain ⟨p, -, rfl⟩ := List.mem_map.1 (hvalues hmem)
    cases ht

end Division

/-- The pieces in which a header is taken in: what stands before the first key has none, and is
left out if trimming leaves nothing of it. -/
def tokens (h : Header) : List (Option Text × List Mark) :=
  (if (Mark.trim h.stray).isEmpty then [] else [(none, h.stray)]) ++
    h.assignments.map fun p => (some p.1, p.2)

theorem settings_eq_tokens (h : Header) :
    h.settings = h.tokens.filterMap fun t => t.1.map fun k => (k, setting k t.2) := by
  have hvalues : h.settings = h.assignments.filterMap fun p => some (p.1, setting p.1 p.2) :=
    (congrFun List.filterMap_eq_map h.assignments).symm
  rw [hvalues, tokens, List.filterMap_append, List.filterMap_map]
  split <;> rfl

theorem events_eq_tokens (h : Header) :
    h.events =
      (h.tokens.filter (·.1.isNone)).map fun t => .droppedText (Mark.chars (Mark.trim t.2)) := by
  rw [events, tokens, List.filter_append, List.filter_map]
  split <;> simp [Function.comp_def]

theorem Division.tokens_header (d : Division) : d.header.tokens = d.tokens := by
  have hstray : (Mark.trim (Mark.read d.head)).isEmpty =
      !(Mark.read d.head).any fun m => m.escaped || !Text.isBlank m.char := by
    rw [Bool.eq_iff_iff, List.isEmpty_iff, Mark.trim_eq_nil_iff, List.not_any_eq_all_not]
    simp [Mark.isGap, Mark.bare]
  rw [Header.tokens, tokens, header, fragment, hstray, List.map_map]
  cases (Mark.read d.head).any fun m => m.escaped || !Text.isBlank m.char <;> rfl

/-! ## Scanning -/

theorem key?_read_eq_none {s : Text} (h : ¬BeginsKey s) : key? (Mark.read s) = none := by
  rw [Option.eq_none_iff_forall_ne_some]
  intro p hp
  obtain ⟨word, dots, hms, hne, hword, hdots, -⟩ := key?_eq_some hp
  have hplain : plain (Mark.chars word) = word := map_chars_of_isWord hword
  refine h ⟨Mark.chars word, p.2.flatMap Mark.written, ⟨?_, fun c hc => ?_⟩, ?_⟩
  · intro hnil
    exact hne (List.map_eq_nil_iff.1 hnil)
  · obtain ⟨m, hm, rfl⟩ := List.mem_map.1 hc
    exact (Bool.and_eq_true_iff.1 (hword m hm)).2
  · rw [← Mark.flatMap_written_read s, hms, Mark.eq_colon_of_isColon hdots, List.flatMap_append,
      List.flatMap_cons, ← hplain, Mark.flatMap_written_plain, hplain]
    rfl

/-- A mark at which no key is found goes to what stands before the next one. -/
theorem scan_cons_of_keyless {before s part after : Text} {m : Mark} {ms : List Mark}
    (hbefore : Settled before) (hs : Mark.read s = [m])
    (hread : Mark.read (s ++ part ++ after) = m :: ms) (h : Keyless before (s ++ part) after) :
    scan (mayFollow before) (m :: ms) =
      ⟨m :: (scan (mayFollow (before ++ s)) ms).stray,
        (scan (mayFollow (before ++ s)) ms).assignments⟩ := by
  rw [mayFollow_append hbefore hs, scan_of_no_key]
  intro hplace
  have hne : s ++ part ≠ [] := by
    intro hnil
    rw [(List.append_eq_nil_iff.1 hnil).1] at hs
    cases hs
  rw [← hread]
  exact key?_read_eq_none (h [] (s ++ part) rfl hne (by rwa [List.append_nil]))

theorem scan_of_keyless {before part after : Text} (hbefore : Settled before)
    (hread : Mark.read (part ++ after) = Mark.read part ++ Mark.read after)
    (h : Keyless before part after) :
    scan (mayFollow before) (Mark.read part ++ Mark.read after) =
      ⟨Mark.read part ++ (scan (mayFollow (before ++ part)) (Mark.read after)).stray,
        (scan (mayFollow (before ++ part)) (Mark.read after)).assignments⟩ := by
  fun_induction Mark.read part generalizing before with
  | case1 => rw [List.append_nil, List.nil_append, List.nil_append]
  | case2 c =>
    have hkeyless : Keyless before ([c] ++ []) after := h
    exact scan_cons_of_keyless hbefore rfl hread hkeyless
  | case3 d s ih =>
    have hrest : Mark.read (s ++ after) = Mark.read s ++ Mark.read after := by
      simpa [Mark.read] using hread
    have hkeyless : Keyless before ([.char '\\', d] ++ s) after := h
    have hms : Mark.read ([.char '\\', d] ++ s ++ after) =
        ⟨d, true⟩ :: (Mark.read s ++ Mark.read after) := by
      rw [← hrest]
      exact Mark.settled_pair d _
    rw [List.cons_append, scan_cons_of_keyless hbefore rfl hms hkeyless,
      ih (hbefore.append (Mark.settled_pair d)) hrest hkeyless.of_append, List.append_assoc]
    rfl
  | case4 c d s hc ih =>
    have hrest : Mark.read (d :: s ++ after) = Mark.read (d :: s) ++ Mark.read after := by
      simpa [Mark.read, hc] using hread
    have hkeyless : Keyless before ([c] ++ d :: s) after := h
    have hms : Mark.read ([c] ++ d :: s ++ after) =
        ⟨c, false⟩ :: (Mark.read (d :: s) ++ Mark.read after) := by
      rw [← hrest]
      exact Mark.read_cons hc _
    have hone : Settled [c] := Mark.settled_of_not_mem (by simpa using Ne.symm hc)
    rw [List.cons_append, scan_cons_of_keyless hbefore rfl hms hkeyless,
      ih (hbefore.append hone) hrest hkeyless.of_append, List.append_assoc]
    rfl

/-- **Scanning finds the keys of a division,** and what stands between them. -/
theorem scan_of_proper {before : Text} {d : Division} (hbefore : Settled before)
    (h : d.Proper before) : scan (mayFollow before) (Mark.read d.text) = d.header := by
  obtain ⟨head, items⟩ := d
  induction items generalizing before head with
  | nil =>
    have hscan := scan_of_keyless hbefore (by simp [Mark.read]) (Division.proper_nil.1 h)
    simpa [Division.text, Division.itemsText, Division.header, Mark.read, scan] using hscan
  | cons p items ih =>
    obtain ⟨hk, hplace, hhead, hrest⟩ := Division.proper_cons.1 h
    have hsettled : Settled head := hbefore.of_append (settled_of_mayFollow hplace)
    have hslash : .char '\\' ∉ p.1 := hk.not_mem (by decide +kernel)
    have hkey : Settled (before ++ head ++ p.1) :=
      (settled_of_mayFollow hplace).append (Mark.settled_of_not_mem hslash)
    have hcolon : Settled [.char ':'] := Mark.settled_of_not_mem (by decide)
    have hplace' : mayFollow (before ++ head ++ p.1 ++ [.char ':']) = false :=
      mayFollow_append hkey (show Mark.read [.char ':'] = [colon] from rfl)
    have hvalue := ih (hkey.append hcolon) p.2 hrest
    rw [hplace'] at hvalue
    have hitems : Mark.read (Division.itemsText (p :: items)) =
        plain p.1 ++ colon :: Mark.read (Division.text ⟨p.2, items⟩) := by
      rw [Division.itemsText_cons, Mark.read_plain_append hslash, Mark.read_cons (by decide)]
      rfl
    have hread : Mark.read (head ++ Division.itemsText (p :: items)) =
        Mark.read head ++ Mark.read (Division.itemsText (p :: items)) := hsettled _
    show scan (mayFollow before) (Mark.read (head ++ Division.itemsText (p :: items))) = _
    rw [hread, scan_of_keyless hbefore hread hhead, hplace, hitems,
      scan_plain_append hk.ne_nil hk.isWord, hvalue]
    simp [Division.header]

/-- **A text divides in one way only, and scanning finds it.** What is not taken in as an option is at
most one piece, the first, and that is told. -/
theorem exists_division_scan (s : Text) :
    ∃ d : Division, (∀ d' : Division, d'.text = s ∧ d'.Proper [] ↔ d' = d) ∧
      scan true (Mark.read s) = d.header ∧ d.header.marks = Mark.read s ∧
      (scan true (Mark.read s)).tokens = d.tokens ∧
      (∀ first t rest, d.tokens = first ++ t :: rest → t.1 = none → first = []) ∧
      ∀ a defaults, Comment.inner a = s →
        (read a).settings = d.tokens.filterMap (fun t => t.1.map fun k => (k, setting k t.2)) ∧
          (parse a defaults).log =
            d.fragment.toList.map fun ms => .droppedText (Mark.chars (Mark.trim ms)) := by
  obtain ⟨d, rfl, hd⟩ := Division.exists_proper [] s
  have hscan : scan true (Mark.read d.text) = d.header := scan_of_proper Mark.settled_nil hd
  refine ⟨d, fun d' => ⟨?_, ?_⟩, hscan, ?_, ?_, fun _ _ _ => Division.eq_nil_of_tokens_eq, ?_⟩
  · rintro ⟨htext, hd'⟩
    exact hd'.eq_of_text_eq hd htext
  · rintro rfl
    exact ⟨rfl, hd⟩
  · rw [← hscan, marks_scan]
  · rw [hscan, d.tokens_header]
  · intro a defaults ha
    have hread : read a = d.header := by rw [read, ha, hscan]
    refine ⟨?_, ?_⟩
    · rw [hread, settings_eq_tokens, d.tokens_header]
    · show (read a).events = _
      rw [hread, events_eq_tokens, d.tokens_header, d.filter_isNone_tokens, List.map_map]
      rfl

/-- No key stands after whitespace that has a backslash, and a last backslash stands for itself. -/
example : (scan true (Mark.read "a\\ no:x k:v\\ m:w n:\\".toText)).tokens.map
      (fun t => (t.1, Mark.chars t.2)) =
    [(none, "a no:x ".toText), (some "k".toText, "v m:w ".toText), (some "n".toText, [.char '\\'])] := by
  cbv

end Header
end MarkupCatalog
