/-
Where the texts of a request come from. Each is part of an argument, or what the settings say, and
paths are written in a normal form; so a request holds characters only if the arguments and the
settings do (`allChars_of_parse`).
-/
import MarkupCatalog.CommandLine.Arguments
import MarkupCatalog.Proofs.Outcome
import MarkupCatalog.Proofs.Text.Chars

namespace MarkupCatalog

open Text (allChars_of_subset)

/-- Both settings hold characters only. -/
structure Settings.AllChars (settings : Settings) : Prop where
  indent : Text.allChars settings.indent = true
  category : Text.allChars settings.category = true

theorem Path.allChars_normal {path : Text} (h : Text.allChars path = true) :
    Text.allChars (normal path) = true := by
  have hroot : Text.allChars (root path) = true := by
    unfold root
    split <;> rfl
  have hnames : ∀ name ∈ names path, Text.allChars name = true := fun name hname =>
    allChars_of_subset (Text.subset_of_mem_pieces (List.mem_filter.1 hname).1) h
  have hwhole : Text.allChars (root path ++ Text.joined [.char '/'] (names path)) = true := by
    rw [Text.allChars_append, hroot, Text.allChars_joined rfl hnames]
    rfl
  unfold normal
  split
  · rfl
  · exact hwhole

namespace CommandLine

/-! ## Tokens -/

/-- The texts of the token hold characters only. -/
def Token.allChars : Token → Bool
  | .value s | .unknown s => Text.allChars s
  | .dashes => true
  | .option _ _ attached => attached.all Text.allChars

theorem allChars_of_cut {sep s before after : Text} (h : Text.cut sep s = some (before, after))
    (hs : Text.allChars s = true) : Text.allChars after = true := by
  rw [Text.cut_eq_some h, Text.allChars_append, Bool.and_eq_true] at hs
  exact hs.2

theorem allChars_of_mem_candidates {s : Text} {p : Text × Token} (h : p ∈ candidates s)
    (hs : Text.allChars s = true) : p.2.allChars = true := by
  unfold candidates at h
  split at h
  · dsimp only at h
    split at h
    next b v hcut =>
      obtain ⟨q, -, rfl⟩ := List.mem_map.1 h
      exact allChars_of_cut hcut hs
    next =>
      obtain ⟨q, -, rfl⟩ := List.mem_map.1 h
      rfl
  · obtain ⟨q, -, rfl⟩ := List.mem_map.1 h
    exact allChars_of_subset (List.drop_subset 2 s) hs

theorem allChars_of_classify {s : Text} {t : Token} (h : classify s = .ok t)
    (hs : Text.allChars s = true) : t.allChars = true := by
  unfold classify at h
  split at h
  next =>
    split at h
    next =>
      rw [← Except.ok.inj h]
      rfl
    next =>
      dsimp only at h
      split at h
      next token hattached =>
        obtain ⟨⟨before, after⟩, hcut, hflag⟩ := Option.bind_eq_some_iff.1 hattached
        obtain ⟨flag, -, rfl⟩ := Option.map_eq_some_iff.1 hflag
        rw [← Except.ok.inj h]
        exact allChars_of_cut hcut hs
      next =>
        rw [← Except.ok.inj h]
        split <;> exact hs
      next p hcandidates =>
        rw [← Except.ok.inj h]
        exact allChars_of_mem_candidates (by simp [hcandidates]) hs
      next => cases h
  next =>
    rw [← Except.ok.inj h]
    exact hs

theorem allChars_of_tokens {ss : List Text} {ts : List Token} (h : tokens ss = .ok ts)
    (hss : ∀ s ∈ ss, Text.allChars s = true) : ∀ t ∈ ts, t.allChars = true := by
  induction ss generalizing ts with
  | nil =>
    obtain rfl := Except.ok.inj h
    simp
  | cons s ss ih =>
    obtain ⟨hs, hrest⟩ := List.forall_mem_cons.1 hss
    rw [tokens] at h
    split at h
    · rw [← Except.ok.inj h, List.forall_mem_cons]
      refine ⟨rfl, fun t ht => ?_⟩
      obtain ⟨s', hs', rfl⟩ := List.mem_map.1 ht
      exact hrest s' hs'
    · obtain ⟨t, hclassify, h⟩ := Outcome.bind_eq_ok_iff.1 h
      obtain ⟨ts', htokens, h⟩ := Outcome.bind_eq_ok_iff.1 h
      rw [← Except.ok.inj h, List.forall_mem_cons]
      exact ⟨allChars_of_classify hclassify hs, ih htokens hrest⟩

/-! ## Requests -/

/-- The texts of the request hold characters only. -/
structure Request.AllChars (r : Request) : Prop where
  inputs : ∀ p ∈ r.inputs, Text.allChars p = true
  indent : ∀ s, r.indent = some s → Text.allChars s = true
  wrap : ∀ s, r.wrap = some s → Text.allChars s = true
  templateBefore : ∀ s, r.templateBefore = some s → Text.allChars s = true
  templateAfter : ∀ s, r.templateAfter = some s → Text.allChars s = true

theorem allChars_of_given? {s t : Text} (h : given? s = some t) (hs : Text.allChars s = true) :
    Text.allChars t = true := by
  rw [given?] at h
  split at h
  · cases h
  · exact Option.some.inj h ▸ hs

namespace Gathered

theorem allChars_start {settings : Settings} (h : settings.AllChars) :
    (start settings).request.AllChars := by
  constructor
  case inputs => simp [start]
  case wrap => simp [start]
  all_goals
    intro s hs
    rw [← Option.some.inj hs]
  case indent => exact h.indent
  case templateBefore => rfl
  case templateAfter => rfl

theorem allChars_take {g : Gathered} (h : g.request.AllChars) {value : Option Text}
    (hvalue : ∀ s, value = some s → Text.allChars s = true) (flag : Flag) :
    (g.take flag value).request.AllChars := by
  cases flag with
  | help | output | verbose => exact { h with }
  | indent => exact { h with indent := hvalue }
  | wrap => exact { h with wrap := hvalue }
  | templateBefore => exact { h with templateBefore := hvalue }
  | templateAfter => exact { h with templateAfter := hvalue }

theorem allChars_take_given? {g : Gathered} (h : g.request.AllChars) {s : Text}
    (hs : Text.allChars s = true) (flag : Flag) :
    (g.take flag (given? s)).request.AllChars :=
  allChars_take h (fun _ ht => allChars_of_given? ht hs) flag

theorem allChars_foldl_take {g : Gathered} (h : g.request.AllChars) (flags : List Flag) :
    (flags.foldl (fun g f => g.take f none) g).request.AllChars := by
  induction flags generalizing g with
  | nil => exact h
  | cons f flags ih => exact ih (allChars_take h (by simp) f)

theorem allChars_value {g : Gathered} (h : g.request.AllChars) {s : Text}
    (hs : Text.allChars s = true) : (g.value s).request.AllChars := by
  rw [value]
  split
  · exact h
  · refine { h with inputs := fun p hp => ?_ }
    rcases List.mem_append.1 hp with hp | hp
    · exact h.inputs p hp
    · rw [List.mem_singleton.1 hp]
      exact Path.allChars_normal hs

theorem request_dashes (g : Gathered) : g.dashes.request = g.request := by
  rw [dashes]
  split <;> rfl

theorem request_of_finish {g : Gathered} {r : Request} (h : g.finish = .ok r) : g.request = r := by
  rw [finish] at h
  split at h
  · cases h
  · split at h
    · exact Except.ok.inj h
    · cases h

end Gathered

theorem allChars_of_gather {g : Gathered} {ts : List Token} {r : Request}
    (hg : g.request.AllChars) (hts : ∀ t ∈ ts, t.allChars = true)
    (h : gather g ts = .ok (.request r)) : r.AllChars := by
  fun_induction gather g ts with
  | case1 g =>
    obtain ⟨r', hfinish, hr⟩ := Outcome.map_eq_ok_iff.1 h
    rwa [Gathered.request_of_finish hfinish, ← Call.request.inj hr] at hg
  | case2 g s ts ih =>
    obtain ⟨hs, hrest⟩ := List.forall_mem_cons.1 hts
    exact ih (Gathered.allChars_value hg hs) hrest h
  | case3 g ts ih =>
    obtain ⟨-, hrest⟩ := List.forall_mem_cons.1 hts
    rw [← g.request_dashes] at hg
    exact ih hg hrest h
  | case4 g s ts ih =>
    obtain ⟨-, hrest⟩ := List.forall_mem_cons.1 hts
    exact ih hg hrest h
  | case5 g flag letter attached ts hvalue ih =>
    obtain ⟨hattached, hrest⟩ := List.forall_mem_cons.1 hts
    exact ih (Gathered.allChars_take_given? (g := g.endRun) hg hattached flag) hrest h
  | case6 g flag attached ts hvalue ih =>
    obtain ⟨-, hrest⟩ := List.forall_mem_cons.1 hts
    obtain ⟨flags, -, h⟩ := Outcome.bind_eq_ok_iff.1 h
    split at h
    · cases h
    · exact ih flags (Gathered.allChars_foldl_take (g := g.endRun) hg flags) hrest h
  | case9 g flag letter hhelp hvalue v ts ih =>
    obtain ⟨-, htail⟩ := List.forall_mem_cons.1 hts
    obtain ⟨hv, hrest⟩ := List.forall_mem_cons.1 htail
    exact ih (Gathered.allChars_take_given? (g := g.endRun) hg hv flag) hrest h
  | case11 g flag letter ts hhelp hvalue ih =>
    obtain ⟨-, hrest⟩ := List.forall_mem_cons.1 hts
    exact ih (Gathered.allChars_take (g := g.endRun) hg (by simp) flag) hrest h
  | _ => cases h

/-- **A request is made of its arguments and of the settings.** -/
theorem allChars_of_parse {settings : Settings} {arguments : List Text} {r : Request}
    (hsettings : settings.AllChars) (harguments : ∀ s ∈ arguments, Text.allChars s = true)
    (h : parse settings arguments = .ok (.request r)) : r.AllChars := by
  obtain ⟨ts, htokens, hgather⟩ := Outcome.bind_eq_ok_iff.1 h
  exact allChars_of_gather (Gathered.allChars_start hsettings)
    (allChars_of_tokens htokens harguments) hgather

end CommandLine
end MarkupCatalog
