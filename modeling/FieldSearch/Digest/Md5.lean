/-!
The digest MD5 of RFC 1321. The message is padded to whole blocks of sixteen words, each block turns
over a state of four words in sixty-four rounds, and the digest is the state, low bytes first.
-/

namespace FieldSearch.Md5

structure State where
  a : UInt32
  b : UInt32
  c : UInt32
  d : UInt32
  deriving DecidableEq, Repr

def initial : State :=
  ⟨0x67452301, 0xefcdab89, 0x98badcfe, 0x10325476⟩

/-- The constants of the rounds: the whole part of `2 ^ 32 * |sin (i + 1)|`. -/
def constants : List UInt32 :=
  [0xd76aa478, 0xe8c7b756, 0x242070db, 0xc1bdceee, 0xf57c0faf, 0x4787c62a, 0xa8304613, 0xfd469501,
    0x698098d8, 0x8b44f7af, 0xffff5bb1, 0x895cd7be, 0x6b901122, 0xfd987193, 0xa679438e, 0x49b40821,
    0xf61e2562, 0xc040b340, 0x265e5a51, 0xe9b6c7aa, 0xd62f105d, 0x02441453, 0xd8a1e681, 0xe7d3fbc8,
    0x21e1cde6, 0xc33707d6, 0xf4d50d87, 0x455a14ed, 0xa9e3e905, 0xfcefa3f8, 0x676f02d9, 0x8d2a4c8a,
    0xfffa3942, 0x8771f681, 0x6d9d6122, 0xfde5380c, 0xa4beea44, 0x4bdecfa9, 0xf6bb4b60, 0xbebfbc70,
    0x289b7ec6, 0xeaa127fa, 0xd4ef3085, 0x04881d05, 0xd9d4d039, 0xe6db99e5, 0x1fa27cf8, 0xc4ac5665,
    0xf4292244, 0x432aff97, 0xab9423a7, 0xfc93a039, 0x655b59c3, 0x8f0ccc92, 0xffeff47d, 0x85845dd1,
    0x6fa87e4f, 0xfe2ce6e0, 0xa3014314, 0x4e0811a1, 0xf7537e82, 0xbd3af235, 0x2ad7d2bb, 0xeb86d391]

/-- The rotations of a group of sixteen rounds, which repeat after four. -/
def rotations (group : Nat) : List UInt32 :=
  match group with
  | 0 => [7, 12, 17, 22]
  | 1 => [5, 9, 14, 20]
  | 2 => [4, 11, 16, 23]
  | _ => [6, 10, 15, 21]

def rotateLeft (x n : UInt32) : UInt32 :=
  (x <<< n) ||| (x >>> (32 - n))

/-- The function of a group of rounds. -/
def mix (group : Nat) (b c d : UInt32) : UInt32 :=
  match group with
  | 0 => (b &&& c) ||| (~~~b &&& d)
  | 1 => (d &&& b) ||| (~~~d &&& c)
  | 2 => b ^^^ c ^^^ d
  | _ => c ^^^ (b ||| ~~~d)

/-- The word that a round takes from the block. -/
def wordIndex (round : Nat) : Nat :=
  match round / 16 with
  | 0 => round
  | 1 => (5 * round + 1) % 16
  | 2 => (3 * round + 5) % 16
  | _ => 7 * round % 16

def step (block : Array UInt32) (state : State) (round : Nat × UInt32) : State :=
  let group := round.1 / 16
  let sum := state.a + mix group state.b state.c state.d + round.2
    + block.getD (wordIndex round.1) 0
  let rotated := rotateLeft sum ((rotations group).getD (round.1 % 4) 0)
  ⟨state.d, state.b + rotated, state.b, state.c⟩

def turn (state : State) (block : Array UInt32) : State :=
  let after := ((List.range 64).zip constants).foldl (step block) state
  ⟨state.a + after.a, state.b + after.b, state.c + after.c, state.d + after.d⟩

/-- A number in bytes, the low ones first. -/
def lowBytes : Nat → Nat → List UInt8
  | 0, _ => []
  | width + 1, n => UInt8.ofNat (n % 256) :: lowBytes width (n / 256)

/-- A set bit, zeros, and the length of the message in bits. -/
def padding (length : Nat) : List UInt8 :=
  0x80 :: List.replicate ((119 - length % 64) % 64) 0 ++ lowBytes 8 (8 * length % UInt64.size)

def words : List UInt8 → List UInt32
  | a :: b :: c :: d :: r =>
    (a.toUInt32 ||| (b.toUInt32 <<< 8) ||| (c.toUInt32 <<< 16) ||| (d.toUInt32 <<< 24)) :: words r
  | _ => []

/-- The blocks of sixteen words, as many as there are. -/
def blocks : Nat → List UInt32 → List (Array UInt32)
  | 0, _ => []
  | count + 1, ws => (ws.take 16).toArray :: blocks count (ws.drop 16)

/-- The digest of a message. -/
def digest (message : List UInt8) : List UInt8 :=
  let ws := words (message ++ padding message.length)
  let state := (blocks (ws.length / 16) ws).foldl turn initial
  [state.a, state.b, state.c, state.d].flatMap fun word => lowBytes 4 word.toNat

def hexByte (byte : UInt8) : List Char :=
  [Nat.digitChar (byte.toNat / 16), Nat.digitChar (byte.toNat % 16)]

/-- The digest of an encoded text, in hexadecimal. -/
def hex (text : String) : String :=
  String.ofList ((digest text.toUTF8.toList).flatMap hexByte)

end FieldSearch.Md5
