/-
Identifiers of texts: the beginning of the SHA-1 digest of what is left of the text without its
whitespace. So a text keeps its identifier however it is indented and broken into lines
(`identify?_congr`). A surrogate has no bytes, so a text has an identifier exactly if it holds
characters only (`exists_identify?_iff`).
-/
import MarkupCatalog.Digest.Sha1
import MarkupCatalog.Fault

namespace MarkupCatalog

/-- How many characters an identifier has. -/
def identifierLength : Nat := 8

/-- The identifier of a text, or the surrogates for which it has none. -/
def identify? (s : Text) : Except Fault Text :=
  match Utf8.encode (Text.squeeze s) with
  | .error u => .error (.unencodable u)
  | .ok bytes =>
    .ok (((Sha1.digest bytes).flatMap fun w => Text.hex 8 w.toNat).take identifierLength)

theorem identify?_congr {s t : Text} (h : Text.squeeze s = Text.squeeze t) :
    identify? s = identify? t := by
  rw [identify?, identify?, h]

theorem exists_identify?_iff {s : Text} : (∃ i, identify? s = .ok i) ↔ Text.allChars s = true := by
  rw [← Text.allChars_squeeze, ← Utf8.exists_encode_iff, identify?]
  cases Utf8.encode (Text.squeeze s) <;> simp

/-- Only surrogates keep a text from having an identifier. -/
theorem exists_unencodable_of_identify? {s : Text} {f : Fault} (h : identify? s = .error f) :
    ∃ u, f = .unencodable u := by
  rw [identify?] at h
  split at h
  next u _ => exact ⟨u, (Except.error.inj h).symm⟩
  next => cases h

end MarkupCatalog
