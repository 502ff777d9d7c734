/-!
# The keystream behind a shuffle

A seed of sixty-four bits is stretched to a key of eight words. The keystream of a key is the
sequence of ChaCha blocks with twenty rounds, a sixty-four bit block counter and a zero nonce;
`word key i` is its `i`th word, so a reader of the stream only needs to count what it took.
-/
namespace PokerHand.Shuffle

/-- The sixteen words of a keystream block. -/
abbrev Block := Vector UInt32 16

/-- The eight words of a key. -/
abbrev Key := Vector UInt32 8

namespace KeyStream

def rotateLeft (x n : UInt32) : UInt32 := (x <<< n) ||| (x >>> (32 - n))

def rotateRight (x n : UInt32) : UInt32 := (x >>> n) ||| (x <<< (32 - n))

/-- Adds word `b` to word `a`, then mixes the sum into word `d` and turns that by `n` bits. -/
def mix (v : Block) (a b d : Fin 16) (n : UInt32) : Block :=
  let sum := v[a] + v[b]
  (v.set a sum a.isLt).set d (rotateLeft (v[d] ^^^ sum) n) d.isLt

/-- The quarter round on the words `a`, `b`, `c` and `d`. -/
def quarterRound (v : Block) (a b c d : Fin 16) : Block :=
  mix (mix (mix (mix v a b d 16) c d b 12) a b d 8) c d b 7

/-- A column round and a diagonal round. -/
def doubleRound (v : Block) : Block :=
  let v := quarterRound v 0 4 8 12
  let v := quarterRound v 1 5 9 13
  let v := quarterRound v 2 6 10 14
  let v := quarterRound v 3 7 11 15
  let v := quarterRound v 0 5 10 15
  let v := quarterRound v 1 6 11 12
  let v := quarterRound v 2 7 8 13
  quarterRound v 3 4 9 14

/-- The words before the rounds: four constants, the key, the counter and the nonce. -/
def initialBlock (key : Key) (counter : Nat) : Block :=
  #v[0x61707865, 0x3320646e, 0x79622d32, 0x6b206574,
    key[0], key[1], key[2], key[3], key[4], key[5], key[6], key[7],
    (UInt64.ofNat counter).toUInt32, (UInt64.ofNat counter >>> 32).toUInt32, 0, 0]

/-- The block at `counter`. -/
def block (key : Key) (counter : Nat) : Block :=
  let v := initialBlock key counter
  (Nat.repeat doubleRound 10 v).zipWith (· + ·) v

/-- The `i`th word of the stream. -/
def word (key : Key) (i : Nat) : UInt32 :=
  (block key (i / 16)).get ⟨i % 16, Nat.mod_lt i (by decide)⟩

/-- The state of the seed's own generator after one more step. -/
def stepSeed (s : UInt64) : UInt64 := s * 6364136223846793005 + 11634580027462260723

/-- The key word that a state of the seed's generator yields. -/
def keyWord (s : UInt64) : UInt32 :=
  rotateRight (((s >>> 18) ^^^ s) >>> 27).toUInt32 (s >>> 59).toUInt32

/-- The states after one, two, and up to `n` steps. -/
def seedStates : (n : Nat) → UInt64 → Vector UInt64 n
  | 0, _ => #v[]
  | n + 1, s => ((seedStates n (stepSeed s)).insertIdx 0 (stepSeed s))

/-- The key that belongs to a seed. -/
def keyOfSeed (seed : UInt64) : Key := (seedStates 8 seed).map keyWord

end KeyStream

end PokerHand.Shuffle
