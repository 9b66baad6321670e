/-
Headers written one after the other, with a space between them. A text that begins with a key is read
after another one as it is read by itself, if the other one neither ends in a backslash that would take
the space nor closes a comment (`scan_append_space`, `inner_append`). So the assignments of the two come
one after the other, and all else that is read of the whole comes from them (`compound_append`).
-/
import MarkupCatalog.Proofs.Header.Division
import MarkupCatalog.Proofs.Options.Reading

namespace MarkupCatalog

namespace Header

open Mark (plain colon space)

/-! ## Scanning -/

/-- A key is read in the same way if a mark follows that can be no part of it. -/
theorem key?_append_cons {m : Mark} (hword : m.isWord = false) (hcolon : m.isColon = false)
    (ms r : List Mark) :
    key? (ms ++ m :: r) = (key? ms).map fun p => (p.1, p.2 ++ m :: r) := by
  rw [key?, key?, List.takeWhile_append, List.dropWhile_append]
  cases hdrop : ms.dropWhile Mark.isWord with
  | nil => simp [hword, hcolon]
  | cons x rest =>
    have hlen : (ms.takeWhile Mark.isWord).length ≠ ms.length := by
      have hms := congrArg List.length
        (List.takeWhile_append_dropWhile (p := Mark.isWord) (l := ms))
      rw [hdrop, List.length_append, List.length_cons] at hms
      omega
    rw [if_neg hlen]
    simp only [List.isEmpty_cons, Bool.false_eq_true, if_false, List.cons_append]
    split <;> rfl

theorem key?_append_space (ms r : List Mark) :
    key? (ms ++ space :: r) = (key? ms).map fun p => (p.1, p.2 ++ space :: r) :=
  key?_append_cons (by decide +kernel) (by decide) ms r

/-- What is trimmed off the end of a value anyway makes no difference to it. -/
theorem setting_congr {ms ms' : List Mark}
    (h : Text.dropTrailing Mark.isGap ms = Text.dropTrailing Mark.isGap ms') (k : Text) :
    setting k ms = setting k ms' := by
  rw [setting, setting, Mark.trim_congr h]

theorem events_congr {h h' : Header} (hstray : Text.dropTrailing Mark.isGap h.stray =
    Text.dropTrailing Mark.isGap h'.stray) : h.events = h'.events := by
  rw [events, events, Mark.trim_congr hstray]

theorem stray_of_beginsKey {s : Text} (h : BeginsKey s) : (scan true (Mark.read s)).stray = [] := by
  obtain ⟨k, rest, hk, rfl⟩ := h
  rw [Mark.read_plain_append (hk.not_mem (by decide +kernel)), Mark.read_cons (by decide)]
  exact congrArg stray (scan_plain_append hk.ne_nil hk.isWord (Mark.read rest))

/-- **Marks that begin with a key are scanned by themselves after a space.** What stands before them
gains the space, which is trimmed off. -/
theorem scan_append_space {r : List Mark} (hr : (scan true r).stray = []) (free : Bool)
    (ms : List Mark) :
    Text.dropTrailing Mark.isGap (scan free (ms ++ space :: r)).stray =
        Text.dropTrailing Mark.isGap (scan free ms).stray ∧
      (scan free (ms ++ space :: r)).settings =
        (scan free ms).settings ++ (scan true r).settings := by
  fun_induction scan free ms with
  | case1 free =>
    have hspace : Text.dropTrailing Mark.isGap [space] = [] := by decide
    rw [List.nil_append, scan_space, hr]
    exact ⟨hspace, rfl⟩
  | case2 free m rest k after hk a ih =>
    obtain ⟨hstray, hsettings⟩ := ih
    split at hk
    next hfree =>
      have hkey : key? (m :: (rest ++ space :: r)) = some (k, after ++ space :: r) := by
        rw [← List.cons_append, key?_append_space, hk]
        rfl
      subst hfree
      rw [List.cons_append, scan_of_key hkey]
      refine ⟨rfl, ?_⟩
      simp only [settings, List.map_cons, List.cons_append] at hsettings ⊢
      rw [hsettings, setting_congr hstray]
    next => cases hk
  | case3 free m rest hnone a ih =>
    obtain ⟨hstray, hsettings⟩ := ih
    have hkey : free = true → key? (m :: (rest ++ space :: r)) = none := by
      rintro rfl
      rw [← List.cons_append, key?_append_space, Option.map_eq_none_iff]
      simpa using hnone
    rw [List.cons_append, scan_of_no_key hkey]
    refine ⟨?_, hsettings⟩
    simp only [Text.dropTrailing, hstray]
    rfl

/-! ## Delimiters -/

theorem not_beginsOpen_of_beginsKey {s : Text} (h : BeginsKey s) : ¬Comment.BeginsOpen s := by
  obtain ⟨k, rest, hk, rfl⟩ := h
  rw [Comment.beginsOpen_iff, Text.trimLeft]
  cases k with
  | nil => exact absurd rfl hk.ne_nil
  | cons c k =>
    have hc := hk.isWord c List.mem_cons_self
    rw [List.cons_append, List.dropWhile_cons_of_neg (by simp [Text.isBlank_eq_false_of_isWord hc])]
    intro hopen
    obtain rfl : .char '<' = c := (List.cons_prefix_cons.1 hopen).1
    revert hc
    decide +kernel

/-- A text that begins with a key keeps it inside a comment. -/
theorem beginsKey_inner {s : Text} (h : BeginsKey s) : BeginsKey (Comment.inner s) := by
  rw [Comment.inner, Comment.withoutOpening_of_not (not_beginsOpen_of_beginsKey h)]
  obtain ⟨k, rest, hk, rfl⟩ := h
  exact ⟨k, _, hk, Comment.withoutClosing_append_cons (by decide) (by decide) k rest⟩

/-- Of two texts the first may begin and the second may end with a delimiter. -/
theorem inner_append {t₁ t₂ : Text} (hkey : BeginsKey t₂) (hclose : ¬Comment.EndsClosed t₁) :
    Comment.inner (t₁ ++ .char ' ' :: t₂) = Comment.inner t₁ ++ .char ' ' :: Comment.inner t₂ := by
  have hopen := not_beginsOpen_of_beginsKey hkey
  obtain ⟨k, rest, -, rfl⟩ := hkey
  have hcolon (u : Text) := Comment.withoutClosing_append_cons (c := ':') (by decide) (by decide) u
  have hjoin : Comment.withoutOpening t₁ ++ .char ' ' :: (k ++ .char ':' :: rest) =
      (Comment.withoutOpening t₁ ++ .char ' ' :: k) ++ .char ':' :: rest := by simp
  rw [Comment.inner_of_not_endsClosed hclose, Comment.inner, Comment.inner,
    Comment.withoutOpening_append_cons (by decide) hopen, Comment.withoutOpening_of_not hopen, hjoin,
    hcolon, hcolon]
  simp

/-- An opening delimiter has no backslash for what follows it. -/
theorem settled_inner {s : Text} (hslash : Even (s.rtakeWhile (· == .char '\\')).length)
    (hclose : ¬Comment.EndsClosed s) : Mark.Settled (Comment.inner s) := by
  have hs := Mark.settled_of_even hslash
  rw [Comment.inner_of_not_endsClosed hclose]
  by_cases hopen : Comment.BeginsOpen s
  · obtain ⟨g, r, hg, rfl⟩ := hopen
    have hnone : .char '\\' ∉ g ++ Comment.opening := by
      rw [List.mem_append, not_or]
      refine ⟨fun hmem => ?_, by decide⟩
      exact absurd (List.all_eq_true.1 hg _ hmem) (by decide)
    rw [← List.append_assoc] at hs
    rw [Comment.withoutOpening_append hg]
    exact (Mark.settled_of_not_mem hnone).of_append hs
  · rw [Comment.withoutOpening_of_not hopen]
    exact hs

/-! ## Two headers in one -/

/-- **The header of the whole is the header of the first part and then that of the second.** -/
theorem read_append {t₁ t₂ : Text} (hkey : BeginsKey t₂)
    (hslash : Even (t₁.rtakeWhile (· == .char '\\')).length) (hclose : ¬Comment.EndsClosed t₁) :
    (read (t₁ ++ .char ' ' :: t₂)).settings = (read t₁).settings ++ (read t₂).settings ∧
      (read (t₁ ++ .char ' ' :: t₂)).events = (read t₁).events := by
  have hmarks : Mark.read (Comment.inner (t₁ ++ .char ' ' :: t₂)) =
      Mark.read (Comment.inner t₁) ++ space :: Mark.read (Comment.inner t₂) := by
    rw [inner_append hkey hclose, settled_inner hslash hclose, Mark.read_cons (by decide)]
    rfl
  obtain ⟨hstray, hsettings⟩ := scan_append_space (stray_of_beginsKey (beginsKey_inner hkey)) true
    (Mark.read (Comment.inner t₁))
  rw [read, hmarks]
  exact ⟨hsettings, events_congr hstray⟩

/-- A text gives what two others give, one after the other. -/
structure Compound (t₁ t₂ t : Text) (defaults : Value) : Prop where
  /-- the assignments of both, in order and with their values, and no others -/
  settings : (read t).settings = (read t₁).settings ++ (read t₂).settings
  /-- keys of the first keep their places, and new ones of the second come after them -/
  keys : (read t).declared.map (·.1) =
    (read t₁).declared.map (·.1) ++
      ((read t₂).declared.map (·.1)).filter (· ∉ (read t₁).declared.map (·.1))
  /-- a key in both holds what the second gives it -/
  get? : ∀ k, (read t).declared.get? k =
    ((read t₂).declared.get? k).or ((read t₁).declared.get? k)
  /-- what is told is what the first alone tells -/
  log : (parse t defaults).log = (parse t₁ defaults).log
  /-- the wrap that is there after all assignments holds if it is given -/
  given : ∀ v, (read t).declared.get? Key.wrap = some v → v.isGiven = true →
    (parse t defaults).result = .ok ((read t).declared.put Key.wrap (.wrap v.toWrap))
  /-- and the defaults are looked at otherwise -/
  notGiven : (∀ v, (read t).declared.get? Key.wrap = some v → v.isGiven = false) →
    (parse t defaults).result =
      (defaultWrap? defaults).map fun w => (read t).declared.put Key.wrap (.wrap w)

/-- **Headers are read piece by piece:** what is written after a space and begins with a key gives its
options after those that stand before it. -/
theorem compound_append {t₁ t₂ : Text} (hkey : BeginsKey t₂)
    (hslash : Even (t₁.rtakeWhile (· == .char '\\')).length) (hclose : ¬Comment.EndsClosed t₁)
    (defaults : Value) : Compound t₁ t₂ (t₁ ++ .char ' ' :: t₂) defaults := by
  obtain ⟨hsettings, hevents⟩ := read_append hkey hslash hclose
  have hdeclared : (read (t₁ ++ .char ' ' :: t₂)).declared =
      Options.putAll (read t₂).settings (read t₁).declared := by
    rw [declared, hsettings, Options.putAll_append]
    rfl
  refine ⟨hsettings, ?_, fun k => ?_, hevents, fun v => result_parse_of_given defaults,
    result_parse_of_not_given defaults⟩
  · rw [hdeclared, Options.keys_putAll_append]
    rfl
  · have hsecond : (read t₂).declared = Options.putAll (read t₂).settings [] := rfl
    rw [hdeclared, hsecond, Options.get?_putAll, Options.get?_putAll, Options.get?, Option.or_none]

/-- A header with stray text, a list, a wrap and two backslashes at its end. -/
def openEnded : Text := "<!-- stray a:1 wrap:x:y b:\\\\".toText

/-- A header with a key of `openEnded`, no wrap after all and a closing delimiter. -/
def continuation : Text := "a:2:3 wrap: c:\\: -->".toText

theorem compound_append_continuation :
    BeginsKey continuation ∧ Even (openEnded.rtakeWhile (· == .char '\\')).length ∧
      ¬Comment.EndsClosed openEnded ∧
      Compound openEnded continuation (openEnded ++ .char ' ' :: continuation) .null := by
  have hword : ∀ c ∈ [.char 'a'], Text.isWord c = true :=
    List.forall_mem_singleton.2 (by decide +kernel)
  have hkey : BeginsKey continuation :=
    ⟨[.char 'a'], "2:3 wrap: c:\\: -->".toText, ⟨by decide, hword⟩, rfl⟩
  have hslash : Even (openEnded.rtakeWhile (· == .char '\\')).length :=
    ⟨1, by decide⟩
  have hclose : ¬Comment.EndsClosed openEnded := by decide
  exact ⟨hkey, hslash, hclose, compound_append hkey hslash hclose .null⟩

end Header
end MarkupCatalog
