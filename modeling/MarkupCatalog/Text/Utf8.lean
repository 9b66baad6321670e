/-
UTF-8. `encode` writes a text as bytes and stops at a surrogate, which has none; in a file name a
surrogate may stand for a byte (`encodeName`). `decode` reads bytes back and, where they are no UTF-8,
says which bytes are at fault and why: the longest run that could still have begun a character. What
can be written holds characters only (`exists_encode_iff`), and nothing else is ever read
(`allChars_of_decode`).
-/
import MarkupCatalog.Text.Digit
import MarkupCatalog.Text.Quoted

namespace MarkupCatalog

namespace Utf8

/-! ## Writing -/

/-- The first surrogates of a text that have no bytes: where they begin, and the whole run of them. -/
structure Unencodable where
  position : Nat
  run : List CodePoint
deriving DecidableEq, Repr

def Unencodable.message (u : Unencodable) : Text :=
  let place :=
    match u.run with
    | [c] => "character '\\u".toText ++ Text.hex 4 c.toNat ++ "' in position ".toText ++
        Text.ofNat u.position
    | cs => "characters in position ".toText ++ Text.ofNat u.position ++ "-".toText ++
        Text.ofNat (u.position + cs.length - 1)
  "'utf-8' codec can't encode ".toText ++ place ++ ": surrogates not allowed".toText

/-- The bytes of the text from `position` on, where a surrogate may have a byte of its own. -/
def encodeFrom (byte? : Fin 0x800 → Option UInt8) (position : Nat) :
    Text → Except Unencodable (List UInt8)
  | [] => .ok []
  | .char c :: s => (encodeFrom byte? (position + 1) s).map (String.utf8EncodeChar c ++ ·)
  | .surrogate n :: s =>
    match byte? n with
    | some b => (encodeFrom byte? (position + 1) s).map (b :: ·)
    | none => .error ⟨position, .surrogate n :: s.takeWhile fun c => !c.isChar⟩

/-- A text as bytes. -/
def encode (s : Text) : Except Unencodable (List UInt8) := encodeFrom (fun _ => none) 0 s

theorem exists_encodeFrom_iff {position : Nat} {s : Text} :
    (∃ bytes, encodeFrom (fun _ => none) position s = .ok bytes) ↔ Text.allChars s = true := by
  induction s generalizing position with
  | nil => simp [encodeFrom, Text.allChars]
  | cons c s ih =>
    cases c with
    | surrogate n => simp [encodeFrom, Text.allChars, CodePoint.isChar]
    | char c =>
      have hs : Text.allChars (.char c :: s) = Text.allChars s := by
        simp [Text.allChars, CodePoint.isChar]
      rw [hs, ← @ih (position + 1), encodeFrom]
      cases encodeFrom (fun _ => none) (position + 1) s <;> simp [Except.map]

theorem exists_encode_iff {s : Text} : (∃ bytes, encode s = .ok bytes) ↔ Text.allChars s = true :=
  exists_encodeFrom_iff

/-- The byte that a surrogate stands for in a file name: U+DC80 to U+DCFF stand for the bytes from
0x80 on, which no character begins with. -/
def nameByte? (n : Fin 0x800) : Option UInt8 :=
  if 0x480 ≤ n.val ∧ n.val < 0x500 then some (UInt8.ofNat (n.val - 0x400)) else none

/-- A file name as bytes. -/
def encodeName (s : Text) : Except Unencodable (List UInt8) := encodeFrom nameByte? 0 s

/-! ## Reading -/

/-- Why a run of bytes begins no character. -/
inductive Reason where
  | start
  | continuation
  | truncated
deriving DecidableEq, Repr

/-- The first bytes that are no UTF-8: where they begin, what they are, and why. -/
structure Malformed where
  position : Nat
  bytes : List UInt8
  reason : Reason
deriving DecidableEq, Repr

def Reason.message : Reason → Text
  | .start => "invalid start byte".toText
  | .continuation => "invalid continuation byte".toText
  | .truncated => "unexpected end of data".toText

def Malformed.message (m : Malformed) : Text :=
  let place :=
    match m.bytes with
    | [b] => "byte 0x".toText ++ Text.hex 2 b.toNat ++ " in position ".toText ++
        Text.ofNat m.position
    | bs => "bytes in position ".toText ++ Text.ofNat m.position ++ [.char '-'] ++
        Text.ofNat (m.position + bs.length - 1)
  "'utf-8' codec can't decode ".toText ++ place ++ [.char ':', .char ' '] ++ m.reason.message

/-- The character of these six-bit groups. -/
def ofGroups (groups : List UInt8) : Char :=
  Char.ofNat (groups.foldl (fun n b => n * 64 + b.toNat % 64) 0)

/-- A byte between two bounds, which belong to the range. -/
def within (lo hi b : UInt8) : Bool := lo ≤ b && b ≤ hi

/-- The second bytes that may follow a first byte of a three-byte character. They leave out what a
shorter form can write and the surrogates. -/
def second₃ (b : UInt8) : UInt8 → Bool :=
  within (if b = 0xe0 then 0xa0 else 0x80) (if b = 0xed then 0x9f else 0xbf)

/-- The second bytes that may follow a first byte of a four-byte character. They leave out what a
shorter form can write and what lies above U+10FFFF. -/
def second₄ (b : UInt8) : UInt8 → Bool :=
  within (if b = 0xf0 then 0x90 else 0x80) (if b = 0xf4 then 0x8f else 0xbf)

/-- The text of the bytes from `position` on. -/
def decodeFrom (position : Nat) : List UInt8 → Except Malformed Text
  | [] => .ok []
  | b :: rest =>
    let fail (bytes : List UInt8) (reason : Reason) : Except Malformed Text :=
      .error ⟨position, bytes, reason⟩
    if b < 0x80 then (decodeFrom (position + 1) rest).map (.char (Char.ofNat b.toNat) :: ·)
    else if b < 0xc2 then fail [b] .start
    else if b < 0xe0 then
      match rest with
      | [] => fail [b] .truncated
      | c :: rest =>
        if within 0x80 0xbf c then
          (decodeFrom (position + 2) rest).map (.char (ofGroups [b % 0x20, c]) :: ·)
        else fail [b] .continuation
    else if b < 0xf0 then
      match rest with
      | [] => fail [b] .truncated
      | c :: rest =>
        if !second₃ b c then fail [b] .continuation
        else
          match rest with
          | [] => fail [b, c] .truncated
          | d :: rest =>
            if within 0x80 0xbf d then
              (decodeFrom (position + 3) rest).map (.char (ofGroups [b % 0x10, c, d]) :: ·)
            else fail [b, c] .continuation
    else if b < 0xf5 then
      match rest with
      | [] => fail [b] .truncated
      | c :: rest =>
        if !second₄ b c then fail [b] .continuation
        else
          match rest with
          | [] => fail [b, c] .truncated
          | d :: rest =>
            if !within 0x80 0xbf d then fail [b, c] .continuation
            else
              match rest with
              | [] => fail [b, c, d] .truncated
              | e :: rest =>
                if within 0x80 0xbf e then
                  (decodeFrom (position + 4) rest).map (.char (ofGroups [b % 0x08, c, d, e]) :: ·)
                else fail [b, c, d] .continuation
    else fail [b] .start

/-- The text of the bytes, or the first bytes at fault. -/
def decode (bytes : List UInt8) : Except Malformed Text := decodeFrom 0 bytes

theorem allChars_of_map_cons {r : Except Malformed Text} {c : Char} {s : Text}
    (hr : ∀ {t : Text}, r = .ok t → Text.allChars t = true) (h : r.map (.char c :: ·) = .ok s) :
    Text.allChars s = true := by
  cases r with
  | error m => cases h
  | ok t =>
    obtain rfl := Except.ok.inj h
    show Text.allChars t = true
    exact hr rfl

theorem allChars_of_decodeFrom {position : Nat} {bytes : List UInt8} {s : Text}
    (h : decodeFrom position bytes = .ok s) : Text.allChars s = true := by
  -- each case ends the text, reads one character or finds a fault
  fun_induction decodeFrom position bytes generalizing s with
  | case1 =>
    obtain rfl := Except.ok.inj h
    rfl
  | case2 _ _ _ _ ih => exact allChars_of_map_cons ih h
  | case5 _ _ _ _ _ _ _ _ ih => exact allChars_of_map_cons ih h
  | case10 _ _ _ _ _ _ _ _ _ _ _ ih => exact allChars_of_map_cons ih h
  | case17 _ _ _ _ _ _ _ _ _ _ _ _ _ _ ih => exact allChars_of_map_cons ih h
  | _ => cases h

theorem allChars_of_decode {bytes : List UInt8} {s : Text} (h : decode bytes = .ok s) :
    Text.allChars s = true := allChars_of_decodeFrom h

example : (decode [0x41, 0xf0, 0x9f, 0x98, 0x80, 0xc3, 0xa9]).toOption = some "A😀é".toText := by
  decide
example : (match decode [0x41, 0xe2, 0x82] with | .error m => m.message | .ok s => s) =
    "'utf-8' codec can't decode bytes in position 1-2: unexpected end of data".toText := by
  decide +kernel

end Utf8
end MarkupCatalog
