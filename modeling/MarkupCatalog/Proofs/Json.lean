/-
JSON text that can be written as bytes. On one line every code point outside ASCII is escaped, so a
string holds characters only, whatever it is a string of (`allChars_quote_ascii`). Over several lines
all stands as it is, and the text of a document holds characters only if the texts in the document
do (`allChars_indented`).
-/
import MarkupCatalog.Json
import MarkupCatalog.Proofs.Text.Chars

namespace MarkupCatalog.Json

mutual

/-- The texts in the document hold characters only. -/
def allChars : Json → Bool
  | .null | .bool _ => true
  | .number written => Text.allChars written
  | .string s => Text.allChars s
  | .array items => allCharsItems items
  | .object members => allCharsMembers members

def allCharsItems : List Json → Bool
  | [] => true
  | j :: js => allChars j && allCharsItems js

def allCharsMembers : List (Text × Json) → Bool
  | [] => true
  | (k, j) :: ms => Text.allChars k && allChars j && allCharsMembers ms

end

theorem allCharsItems_strings {ss : List Text} (h : ∀ s ∈ ss, Text.allChars s = true) :
    allCharsItems (ss.map .string) = true := by
  induction ss with
  | nil => rfl
  | cons s ss ih =>
    show (Text.allChars s && allCharsItems (ss.map .string)) = true
    rw [h s List.mem_cons_self, ih fun s' hs' => h s' (List.mem_cons_of_mem s hs'), Bool.and_true]

/-! ## Strings -/

theorem allChars_escape (c : CodePoint) : Text.allChars (escape c) = true := by
  have hunit (n : Nat) : Text.allChars (unitEscape n) = true := Text.allChars_hex 4 n
  unfold escape
  dsimp only
  split
  · exact hunit _
  · rw [Text.allChars_append, hunit, hunit, Bool.and_true]

theorem allChars_stringChar {ascii : Bool} {c : CodePoint} (h : c.isChar = true) :
    Text.allChars (stringChar ascii c) = true := by
  have hself : Text.allChars [c] = true := by rw [Text.allChars_cons, h, Text.allChars_nil]; rfl
  have hescaped : Text.allChars [.char '\\', c] = true := by rw [Text.allChars_cons, hself]; rfl
  unfold stringChar
  repeat' split
  all_goals first | exact hescaped | exact hself | exact allChars_escape c | rfl

/-- A surrogate is escaped where all but ASCII is. -/
theorem allChars_stringChar_ascii (c : CodePoint) : Text.allChars (stringChar true c) = true := by
  cases c with
  | char c => exact allChars_stringChar rfl
  | surrogate n =>
    have hbig : 0x7f ≤ (CodePoint.surrogate n).toNat := by
      simp only [CodePoint.toNat]
      omega
    simp [stringChar, hbig, allChars_escape]

theorem allChars_quote {ascii : Bool} {s : Text}
    (h : ∀ c ∈ s, Text.allChars (stringChar ascii c) = true) :
    Text.allChars (quote ascii s) = true := by
  have hinner : Text.allChars (s.flatMap (stringChar ascii)) = true := by
    refine Text.allChars_iff.2 fun c hc => ?_
    obtain ⟨c', hc', hmem⟩ := List.mem_flatMap.1 hc
    exact Text.allChars_iff.1 (h c' hc') c hmem
  simp [quote, hinner, CodePoint.isChar]

theorem allChars_quote_ascii (s : Text) : Text.allChars (quote true s) = true :=
  allChars_quote fun c _ => allChars_stringChar_ascii c

theorem allChars_quote_of_allChars {s : Text} (h : Text.allChars s = true) (ascii : Bool) :
    Text.allChars (quote ascii s) = true :=
  allChars_quote fun c hc => allChars_stringChar (Text.allChars_iff.1 h c hc)

theorem allChars_compact_strings (ss : List Text) :
    Text.allChars (compact (.array (ss.map .string))) = true := by
  have hitems : ∀ t ∈ compactItems (ss.map .string), Text.allChars t = true := by
    induction ss with
    | nil => simp [compactItems]
    | cons s ss ih =>
      rw [List.map_cons, compactItems, List.forall_mem_cons]
      exact ⟨allChars_quote_ascii s, ih⟩
  have hjoined : Text.allChars (Text.joined ", ".toText (compactItems (ss.map .string))) = true :=
    Text.allChars_joined rfl hitems
  simp only [compact, List.cons_append, Text.allChars_cons, Text.allChars_append, hjoined]
  rfl

/-! ## Documents -/

theorem allChars_lineBreak (level : Nat) : Text.allChars (lineBreak level) = true := by
  refine Text.allChars_iff.2 fun c hc => ?_
  rcases List.mem_cons.1 hc with rfl | hc
  · rfl
  · rw [List.eq_of_mem_replicate hc]
    rfl

theorem allChars_block {level : Nat} {opening closing : CodePoint} {parts : List Text}
    (hopening : opening.isChar = true) (hclosing : closing.isChar = true)
    (h : ∀ t ∈ parts, Text.allChars t = true) :
    Text.allChars (block level opening closing parts) = true := by
  have hsep : Text.allChars (.char ',' :: lineBreak (level + 1)) = true :=
    allChars_lineBreak (level + 1)
  have hjoined := Text.allChars_joined hsep h
  unfold block
  split
  · simp [hopening, hclosing]
  · simp [hopening, hclosing, hjoined, allChars_lineBreak]

mutual

/-- **A document whose texts hold characters only has a text that does.** -/
theorem allChars_indented (level : Nat) :
    ∀ j : Json, allChars j = true → Text.allChars (indented level j) = true
  | .null, _ => rfl
  | .bool true, _ => rfl
  | .bool false, _ => rfl
  | .number _, h => h
  | .string _, h => allChars_quote_of_allChars h false
  | .array items, h => allChars_block rfl rfl (allChars_indentedItems (level + 1) items h)
  | .object members, h => allChars_block rfl rfl (allChars_indentedMembers (level + 1) members h)

theorem allChars_indentedItems (level : Nat) :
    ∀ js : List Json, allCharsItems js = true →
      ∀ t ∈ indentedItems level js, Text.allChars t = true
  | [], _ => by simp [indentedItems]
  | j :: js, h => by
    rw [allCharsItems, Bool.and_eq_true] at h
    rw [indentedItems, List.forall_mem_cons]
    exact ⟨allChars_indented level j h.1, allChars_indentedItems level js h.2⟩

theorem allChars_indentedMembers (level : Nat) :
    ∀ ms : List (Text × Json), allCharsMembers ms = true →
      ∀ t ∈ indentedMembers level ms, Text.allChars t = true
  | [], _ => by simp [indentedMembers]
  | (k, j) :: ms, h => by
    simp only [allCharsMembers, Bool.and_eq_true] at h
    rw [indentedMembers, List.forall_mem_cons]
    refine ⟨?_, allChars_indentedMembers level ms h.2⟩
    have hquoted := allChars_quote_of_allChars h.1.1 false
    simp only [Text.allChars_append, hquoted, allChars_indented level j h.1.2]
    rfl

end

end MarkupCatalog.Json
