import MapReplica.Text.Utf8
import MapReplica.Number.Numeral

/-!
# The MD5 digest

The message is filled up to whole blocks of 64 octets, every block is folded into
four words, and the digest is written as 32 hexadecimal digits.
-/

namespace MapReplica.Md5

/-- The four words that are carried from block to block. -/
structure Chain where
  a : UInt32
  b : UInt32
  c : UInt32
  d : UInt32

/-- The words before the first block. -/
def Chain.initial : Chain := ⟨0x67452301, 0xefcdab89, 0x98badcfe, 0x10325476⟩

/-- The constants of the 64 steps: the whole part of `2 ^ 32 * |sin (step + 1)|`. -/
def constants : List UInt32 :=
  [0xd76aa478, 0xe8c7b756, 0x242070db, 0xc1bdceee, 0xf57c0faf, 0x4787c62a, 0xa8304613, 0xfd469501,
   0x698098d8, 0x8b44f7af, 0xffff5bb1, 0x895cd7be, 0x6b901122, 0xfd987193, 0xa679438e, 0x49b40821,
   0xf61e2562, 0xc040b340, 0x265e5a51, 0xe9b6c7aa, 0xd62f105d, 0x02441453, 0xd8a1e681, 0xe7d3fbc8,
   0x21e1cde6, 0xc33707d6, 0xf4d50d87, 0x455a14ed, 0xa9e3e905, 0xfcefa3f8, 0x676f02d9, 0x8d2a4c8a,
   0xfffa3942, 0x8771f681, 0x6d9d6122, 0xfde5380c, 0xa4beea44, 0x4bdecfa9, 0xf6bb4b60, 0xbebfbc70,
   0x289b7ec6, 0xeaa127fa, 0xd4ef3085, 0x04881d05, 0xd9d4d039, 0xe6db99e5, 0x1fa27cf8, 0xc4ac5665,
   0xf4292244, 0x432aff97, 0xab9423a7, 0xfc93a039, 0x655b59c3, 0x8f0ccc92, 0xffeff47d, 0x85845dd1,
   0x6fa87e4f, 0xfe2ce6e0, 0xa3014314, 0x4e0811a1, 0xf7537e82, 0xbd3af235, 0x2ad7d2bb, 0xeb86d391]

/-- How far each of the four steps of a round turns its word. -/
def turns (round : Nat) : List UInt32 :=
  match round with
  | 0 => [7, 12, 17, 22]
  | 1 => [5, 9, 14, 20]
  | 2 => [4, 11, 16, 23]
  | _ => [6, 10, 15, 21]

/-- Turns a word to the left by fewer than 32 places. -/
def rotate (word turn : UInt32) : UInt32 :=
  (word <<< turn) ||| (word >>> (32 - turn))

/-- The mixing function of a round and the word of the block that a step of it takes. -/
def mix (chain : Chain) (step : Nat) : UInt32 × Nat :=
  match step / 16 with
  | 0 => ((chain.b &&& chain.c) ||| (~~~chain.b &&& chain.d), step)
  | 1 => ((chain.d &&& chain.b) ||| (~~~chain.d &&& chain.c), (5 * step + 1) % 16)
  | 2 => (chain.b ^^^ chain.c ^^^ chain.d, (3 * step + 5) % 16)
  | _ => (chain.c ^^^ (chain.b ||| ~~~chain.d), (7 * step) % 16)

/-- One of the 64 steps on a block of sixteen words. -/
def Chain.step (words : List UInt32) (chain : Chain) (step : Nat) (constant : UInt32) : Chain :=
  let (mixed, place) := mix chain step
  let sum := chain.a + mixed + constant + words.getD place 0
  let turn := (turns (step / 16)).getD (step % 4) 0
  ⟨chain.d, chain.b + rotate sum turn, chain.b, chain.c⟩

/-- Folds a block into the chain. -/
def Chain.absorb (chain : Chain) (words : List UInt32) : Chain :=
  let last := constants.zipIdx.foldl (fun chain (constant, step) => chain.step words step constant) chain
  ⟨chain.a + last.a, chain.b + last.b, chain.c + last.c, chain.d + last.d⟩

/-- The octets of a number, the lowest first. -/
def littleEndian : Nat → Nat → Bytes
  | 0, _ => []
  | count + 1, n => UInt8.ofNat (n % 256) :: littleEndian count (n / 256)

/-- A message with a one bit, zeros and its length in bits, filled up to whole blocks. -/
def pad (message : Bytes) : Bytes :=
  let used := (message.length + 9) % 64
  let zeros := if used = 0 then 0 else 64 - used
  message ++ 0x80 :: (List.replicate zeros 0 ++ littleEndian 8 (message.length * 8))

/-- The words of octets, four octets each, the lowest first. -/
def words : Bytes → List UInt32
  | a :: b :: c :: d :: rest =>
      UInt32.ofNat (a.toNat + 256 * (b.toNat + 256 * (c.toNat + 256 * d.toNat))) :: words rest
  | _ => []

/-- Folds words into the chain, sixteen at a time; `blocks` bounds the number of blocks. -/
def absorbAll : Nat → Chain → List UInt32 → Chain
  | 0, chain, _ => chain
  | blocks + 1, chain, words => absorbAll blocks (chain.absorb (words.take 16)) (words.drop 16)

/-- The digest of a message: 32 hexadecimal digits. -/
def digest (message : Bytes) : String :=
  let padded := pad message
  let chain := absorbAll (padded.length / 64) Chain.initial (words padded)
  let octets := [chain.a, chain.b, chain.c, chain.d].flatMap fun word => littleEndian 4 word.toNat
  String.ofList (octets.flatMap fun octet => [Number.hexDigit (octet.toNat / 16), Number.hexDigit (octet.toNat % 16)])

end MapReplica.Md5
