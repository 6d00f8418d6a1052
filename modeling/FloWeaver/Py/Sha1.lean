import FloWeaver.Lib.Pieces

/-!
# SHA-1

`hashlib.sha1(text.encode("utf-8")).hexdigest()`.  The message is padded to whole blocks of 64
bytes; each block gives 80 words, and each word turns the five words of the state over once.

* `Sha1.padded`, `Sha1.sixtyFour_dvd_length_padded` — the padding leaves no block open.
* `Sha1.schedule`, `Sha1.compress` — the words of a block, and what they do to the state.
* `sha1`, `length_sha1` — the digest, always forty digits.
-/

namespace FloWeaver.Py

namespace Sha1

/-- The five words of the state. -/
structure State where
  a : BitVec 32
  b : BitVec 32
  c : BitVec 32
  d : BitVec 32
  e : BitVec 32

def State.add (s t : State) : State where
  a := s.a + t.a
  b := s.b + t.b
  c := s.c + t.c
  d := s.d + t.d
  e := s.e + t.e

def initial : State where
  a := 0x67452301#32
  b := 0xefcdab89#32
  c := 0x98badcfe#32
  d := 0x10325476#32
  e := 0xc3d2e1f0#32

/-! ## Padding -/

/-- The lowest `n` bytes of a number, the highest one first. -/
def bigEndian : ℕ → ℕ → List ℕ
  | 0, _ => []
  | n + 1, v => bigEndian n (v / 256) ++ [v % 256]

@[simp] theorem length_bigEndian (n v : ℕ) : (bigEndian n v).length = n := by
  induction n generalizing v with
  | zero => rfl
  | succ n ih => rw [bigEndian, List.length_append, ih, List.length_singleton]

/-- A one bit, zeros, and the length in bits fill the last block. -/
def padded (bytes : List ℕ) : List ℕ :=
  bytes ++ 0x80 :: List.replicate ((119 - bytes.length % 64) % 64) 0 ++
    bigEndian 8 (8 * bytes.length)

theorem sixtyFour_dvd_length_padded (bytes : List ℕ) : 64 ∣ (padded bytes).length := by
  simp only [padded, List.length_append, List.length_cons, List.length_replicate, length_bigEndian]
  omega

/-! ## Compression -/

def word (bytes : List ℕ) : BitVec 32 := BitVec.ofNat 32 (bytes.foldl (fun v b => 256 * v + b) 0)

/-- The next words of the schedule; the window holds the sixteen that follow. -/
def schedule : ℕ → List (BitVec 32) → List (BitVec 32)
  | 0, _ => []
  | n + 1, window =>
    let w := fun i => window.getD i 0
    w 0 :: schedule n (window.tail ++ [(w 13 ^^^ w 8 ^^^ w 2 ^^^ w 0).rotateLeft 1])

def State.turn (s : State) (f k w : BitVec 32) : State where
  a := s.a.rotateLeft 5 + f + s.e + k + w
  b := s.a
  c := s.b.rotateLeft 30
  d := s.c
  e := s.d

/-- One round; the mixing function changes every twenty rounds. -/
def State.round (s : State) (row : BitVec 32 × ℕ) : State :=
  if row.2 < 20 then s.turn (s.b &&& s.c ||| ~~~s.b &&& s.d) 0x5a827999#32 row.1
  else if row.2 < 40 then s.turn (s.b ^^^ s.c ^^^ s.d) 0x6ed9eba1#32 row.1
  else if row.2 < 60 then
    s.turn (s.b &&& s.c ||| s.b &&& s.d ||| s.c &&& s.d) 0x8f1bbcdc#32 row.1
  else s.turn (s.b ^^^ s.c ^^^ s.d) 0xca62c1d6#32 row.1

def compress (s : State) (block : List ℕ) : State :=
  s.add ((schedule 80 ((ListCut.chunks 4 block).map word)).zipIdx.foldl State.round s)

def hexWord (w : BitVec 32) : List Char :=
  (bigEndian 4 w.toNat).flatMap fun b => [Nat.digitChar (b / 16), Nat.digitChar (b % 16)]

def State.digits (s : State) : List Char := [s.a, s.b, s.c, s.d, s.e].flatMap hexWord

end Sha1

/-- The bytes of a text. -/
def utf8 (text : String) : List ℕ :=
  text.toList.flatMap fun c => (String.utf8EncodeChar c).map UInt8.toNat

/-- `hashlib.sha1(text.encode("utf-8")).hexdigest()`. -/
def sha1 (text : String) : String :=
  String.ofList
    ((ListCut.chunks 64 (Sha1.padded (utf8 text))).foldl Sha1.compress Sha1.initial).digits

theorem length_sha1 (text : String) : (sha1 text).length = 40 := by
  simp [sha1, Sha1.State.digits, Sha1.hexWord]

example : sha1 "abc" = "a9993e364706816aba3e25717850c26c9cd0d89d" := by decide +kernel

end FloWeaver.Py
