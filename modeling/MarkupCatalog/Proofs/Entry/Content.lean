/-
The content of a block on its way into an entry. Laying out a body only ever takes away whitespace or
puts it there: at the ends of lines, in place of tabs, in the margin and between lines
(`squeeze_unlines_lines`, `squeeze_view`). `keepsContent_parse`: so the fragment and the view of an
entry hold what its block holds, and the identifier of the view is that of the body inside its wrap.
-/
import Mathlib.Data.List.Basic
import MarkupCatalog.Proofs.Entry.Parse
import MarkupCatalog.Proofs.Layout.Margin

namespace MarkupCatalog

open Text (squeeze allBlank unlines)

/-! ## Lines -/

namespace Layout

theorem squeeze_unlines (ls : List Text) : squeeze (unlines ls) = ls.flatMap squeeze := by
  induction ls with
  | nil => rfl
  | cons l ls ih =>
    cases ls with
    | nil => simp [unlines, Text.joined]
    | cons m ls =>
      have hbreak : squeeze [.char '\n'] = [] := by decide
      rw [unlines, Text.joined_cons_cons, Text.squeeze_append, Text.squeeze_append, hbreak,
        List.append_nil, List.flatMap_cons, ← ih]
      rfl

theorem squeeze_of_allBlank {s : Text} (h : allBlank s = true) : squeeze s = [] :=
  Text.squeeze_eq_nil_iff.2 h

/-- The first tab of a line is whitespace, and so is what takes its place. -/
theorem squeeze_untab {indent : Text} (h : allBlank indent = true) (line : Text) :
    squeeze (untab indent line) = squeeze line := by
  induction line with
  | nil => rfl
  | cons c s ih =>
    unfold untab
    split
    next htab =>
      have hblank : squeeze [.char '\t'] = [] := by decide
      rw [htab, Text.squeeze_append, squeeze_of_allBlank h, ← List.singleton_append,
        Text.squeeze_append, hblank]
    next =>
      rw [← List.singleton_append, Text.squeeze_append, ih, ← Text.squeeze_append]
      rfl

/-- What is cropped of a line is part of its indentation. -/
theorem squeeze_drop {k : Nat} {line : Text} (h : k ≤ lead line) :
    squeeze (line.drop k) = squeeze line := by
  conv =>
    rhs
    rw [← List.take_append_drop k line, Text.squeeze_append, squeeze_of_allBlank (allBlank_take h),
      List.nil_append]

theorem flatMap_squeeze_content (body : Text) : (content body).flatMap squeeze = squeeze body := by
  obtain ⟨before, after, hlines, hempty, -, -⟩ := isContent_content body
  have hnil {ls : List Text} (h : ∀ l ∈ ls, l = []) : ls.flatMap squeeze = [] :=
    List.flatMap_eq_nil_iff.2 fun l hl => by rw [h l hl]; rfl
  calc (content body).flatMap squeeze
      = (before ++ content body ++ after).flatMap squeeze := by
        rw [List.flatMap_append, List.flatMap_append,
          hnil fun l hl => hempty l (List.mem_append_left _ hl),
          hnil fun l hl => hempty l (List.mem_append_right _ hl), List.append_nil, List.nil_append]
    _ = (Text.lines body).flatMap squeeze := by
        rw [← hlines, List.flatMap_map]
        exact List.flatMap_congr fun l _ => Text.squeeze_trimRight l
    _ = squeeze body := by rw [← squeeze_unlines, Text.unlines_lines]

/-- **Laying out a body keeps its content,** as long as tabs give way to whitespace. -/
theorem squeeze_unlines_lines {indent : Text} (h : allBlank indent = true) (body : Text) :
    squeeze (unlines (lines indent body)) = squeeze body := by
  obtain ⟨k, hleast, hlines⟩ := lines_eq indent body
  have hdrop : ∀ l ∈ (content body).map (untab indent), squeeze (l.drop k) = squeeze l := by
    intro l hl
    by_cases hne : l = []
    · simp [hne]
    · exact squeeze_drop (le_lead_of_isLeast hleast hl hne)
  calc squeeze (unlines (lines indent body))
      = ((content body).map (untab indent)).flatMap fun l => squeeze (l.drop k) := by
        rw [squeeze_unlines, hlines, List.flatMap_map]
    _ = ((content body).map (untab indent)).flatMap squeeze := List.flatMap_congr hdrop
    _ = (content body).flatMap squeeze := by
        rw [List.flatMap_map]
        exact List.flatMap_congr fun l _ => squeeze_untab h l
    _ = squeeze body := flatMap_squeeze_content body

/-- A text inside a wrap, if there is one. -/
def framed (w : Wrap) (s : Text) : Text :=
  if w.isSet then w.before.content ++ s ++ w.after.content else s

theorem squeeze_view (w : Wrap) (ls : List Text) :
    squeeze (view w ls) = squeeze (framed w (unlines ls)) := by
  have hstep : squeeze step = [] := by decide
  have hindent : (indent step ls).flatMap squeeze = ls.flatMap squeeze := by
    simp [indent, List.flatMap_map, Text.squeeze_append, hstep]
  unfold view framed
  split
  next =>
    rw [squeeze_unlines, Text.squeeze_append, Text.squeeze_append, squeeze_unlines,
      List.flatMap_append, List.flatMap_append, hindent]
    simp [squeeze]
  next => rfl

end Layout

/-! ## Entries -/

namespace Entry

open Layout (framed)

/-- The fragment and the view of an entry hold what a body and a wrap hold, but for whitespace. -/
structure KeepsContent (body : Text) (w : Wrap) (e : Entry) : Prop where
  fragment : ∃ s, e.fragment = .text s ∧ squeeze s = squeeze body
  view : ∃ s, e.view = .text s ∧ squeeze s = squeeze (framed w body)
  viewId : e.viewId.Identifies (framed w body)

theorem keepsContent_of_derived {r : Reading} {before after : Entry} {w : Wrap}
    (hindent : allBlank r.config.indent = true) (hwrap : r.options.get? Key.wrap = some (.wrap w))
    (h : Derived r before after) : KeepsContent r.body w after := by
  obtain ⟨w', hwrap', hview, hviewId⟩ := h.view
  obtain rfl : w' = w := by simpa [hwrap] using hwrap'.symm
  have hlines := Layout.squeeze_unlines_lines hindent r.body
  have hframed : squeeze (Layout.view w' (Layout.lines r.config.indent r.body)) =
      squeeze (framed w' r.body) := by
    rw [Layout.squeeze_view]
    unfold framed
    split
    next => simp only [Text.squeeze_append, hlines]
    next => exact hlines
  constructor
  case fragment => exact ⟨_, h.fragment, hlines⟩
  case view => exact ⟨_, hview, hframed⟩
  case viewId => exact hviewId.congr hframed

/-- **No content is lost or invented on the way into an entry,** whatever the layout of the block is,
as long as its tabs give way to whitespace. -/
theorem keepsContent_parse {settings : Settings} {e : Entry} {src : Text} {v : Value}
    {config : Config} (hconfig : Config.merge? settings v = .ok config)
    (hindent : allBlank config.indent = true)
    (h : (step settings e (.parse src v)).result = .ok (some true)) :
    ∃ r w, Reads settings src v r ∧ r.options.get? Key.wrap = some (.wrap w) ∧
      KeepsContent r.body w (step settings e (.parse src v)).entry := by
  obtain ⟨r, hr, -, hderived⟩ := exists_derived_of_parse h
  obtain rfl : r.config = config := Except.ok.inj (hr.config.symm.trans hconfig)
  obtain ⟨w, hwrap, -⟩ := hderived.view
  exact ⟨r, w, hr, hwrap, keepsContent_of_derived hindent hwrap hderived⟩

/-- A block with tabs inside and in front of its lines, blank lines around them, and a wrap. -/
def tabbed : Text :=
  "<!-- extract:a wrap:<b>\t:</b> -->\r\n \n\t\t<p>\tx y\u2003\n\n\t <i> <!--endextract-->".toText

/-- A map in place of a configuration, in which a no-break space and a tab stand for a tab. -/
def spaced : Value := .map [(.text "indent".toText, .text "\u00a0\t".toText)]

theorem keepsContent_parse_tabbed :
    ∃ config, Config.merge? .standard spaced = .ok config ∧ allBlank config.indent = true ∧
      (step .standard (.blank .standard) (.parse tabbed spaced)).result = .ok (some true) ∧
      ∃ r w, Reads .standard tabbed spaced r ∧ r.options.get? Key.wrap = some (.wrap w) ∧
        KeepsContent r.body w (step .standard (.blank .standard) (.parse tabbed spaced)).entry := by
  have hconfig : Config.merge? .standard spaced =
      .ok { Config.standard .standard with indent := "\u00a0\t".toText } := rfl
  have hindent : allBlank "\u00a0\t".toText = true := by decide
  have h : (step .standard (.blank .standard) (.parse tabbed spaced)).result = .ok (some true) := by
    decide +kernel
  exact ⟨_, hconfig, hindent, h, keepsContent_parse hconfig hindent h⟩

end Entry
end MarkupCatalog
