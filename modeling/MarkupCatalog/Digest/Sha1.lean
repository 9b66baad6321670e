/-
SHA-1 over lists of bytes: padding to whole blocks of 64 bytes, the schedule of 80 words of a
block, and 80 rounds on five words of 32 bits. `digest` gives the five words at the end.
-/

namespace MarkupCatalog.Sha1

/-- The five words that the rounds change. -/
structure State where
  a : UInt32
  b : UInt32
  c : UInt32
  d : UInt32
  e : UInt32

def State.start : State := ⟨0x67452301, 0xefcdab89, 0x98badcfe, 0x10325476, 0xc3d2e1f0⟩

def State.add (s t : State) : State := ⟨s.a + t.a, s.b + t.b, s.c + t.c, s.d + t.d, s.e + t.e⟩

def State.words (s : State) : List UInt32 := [s.a, s.b, s.c, s.d, s.e]

def rotateLeft (x n : UInt32) : UInt32 := (x <<< n) ||| (x >>> (32 - n))

/-- The last `width` bytes of a number, the highest first. -/
def bigEndian : (width : Nat) → (n : Nat) → List UInt8
  | 0, _ => []
  | width + 1, n => bigEndian width (n / 256) ++ [UInt8.ofNat n]

/-- The message, a bit 1, zeros, and the message's length in bits: whole blocks. -/
def padded (message : List UInt8) : List UInt8 :=
  message ++ 0x80 :: List.replicate ((119 - message.length % 64) % 64) 0 ++
    bigEndian 8 (8 * message.length)

/-- The bytes as words, the highest byte first; up to three bytes at the end are left out. -/
def words : List UInt8 → List UInt32
  | a :: b :: c :: d :: rest =>
    (a.toUInt32 <<< 24 ||| b.toUInt32 <<< 16 ||| c.toUInt32 <<< 8 ||| d.toUInt32) :: words rest
  | _ => []

/-- `n` more words of a schedule that is held with its newest word first. -/
def extend : (n : Nat) → List UInt32 → List UInt32
  | 0, ws => ws
  | n + 1, ws =>
    let w := ws.getD 2 0 ^^^ ws.getD 7 0 ^^^ ws.getD 13 0 ^^^ ws.getD 15 0
    extend n (rotateLeft w 1 :: ws)

/-- One round with the word `w`, by its number. -/
def round (s : State) (w : UInt32) (number : Nat) : State :=
  let (f, k) : UInt32 × UInt32 :=
    if number < 20 then ((s.b &&& s.c) ||| (~~~s.b &&& s.d), 0x5a827999)
    else if number < 40 then (s.b ^^^ s.c ^^^ s.d, 0x6ed9eba1)
    else if number < 60 then ((s.b &&& s.c) ||| (s.b &&& s.d) ||| (s.c &&& s.d), 0x8f1bbcdc)
    else (s.b ^^^ s.c ^^^ s.d, 0xca62c1d6)
  ⟨rotateLeft s.a 5 + f + s.e + k + w, s.a, rotateLeft s.b 30, s.c, s.d⟩

/-- The rounds of one block of 16 words. -/
def block (s : State) (ws : List UInt32) : State :=
  let schedule := (extend 64 ws.reverse).reverse
  s.add (schedule.zipIdx.foldl (fun s w => round s w.1 w.2) s)

/-- All whole blocks of 16 words, one after the other. -/
def blocks (s : State) (ws : List UInt32) : State :=
  match _h : ws.drop 15 with
  | [] => s
  | _ :: rest => blocks (block s (ws.take 16)) rest
termination_by ws.length
decreasing_by
  have := congrArg List.length _h
  simp only [List.length_drop, List.length_cons] at this
  omega

/-- The five words of the digest. -/
def digest (message : List UInt8) : List UInt32 :=
  (blocks .start (words (padded message))).words

end MarkupCatalog.Sha1
