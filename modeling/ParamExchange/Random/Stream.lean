/-
A stream of random words: the blocks of the ChaCha cipher with twelve rounds, under a key that is
stretched from a seed of 64 bits and with a counter that starts at zero.
-/

namespace ParamExchange.Random

/-! ## The block function -/

/-- The sixteen words that a block is computed from. -/
abbrev Block := Vector UInt32 16

/-- A word turned left by `n` bits, `n` between 1 and 31. -/
def turn (x n : UInt32) : UInt32 := (x <<< n) ||| (x >>> (32 - n))

/-- The quarter round on four words of a block. -/
def quarter (s : Block) (a b c d : Fin 16) : Block :=
  let s := s.set a (s[a] + s[b])
  let s := s.set d (turn (s[d] ^^^ s[a]) 16)
  let s := s.set c (s[c] + s[d])
  let s := s.set b (turn (s[b] ^^^ s[c]) 12)
  let s := s.set a (s[a] + s[b])
  let s := s.set d (turn (s[d] ^^^ s[a]) 8)
  let s := s.set c (s[c] + s[d])
  s.set b (turn (s[b] ^^^ s[c]) 7)

/-- Two rounds: the quarter round on the columns and on the diagonals. -/
def twoRounds (s : Block) : Block :=
  let s := quarter s 0 4 8 12
  let s := quarter s 1 5 9 13
  let s := quarter s 2 6 10 14
  let s := quarter s 3 7 11 15
  let s := quarter s 0 5 10 15
  let s := quarter s 1 6 11 12
  let s := quarter s 2 7 8 13
  quarter s 3 4 9 14

/-- The block after twelve rounds, added to the block before them. -/
def mix (s : Block) : Block :=
  let mixed := Nat.repeat twoRounds 6 s
  Vector.zipWith (· + ·) s mixed

/-! ## Seeds -/

/-- One step of the generator that stretches a seed. -/
def stretch (s : UInt64) : UInt64 := s * 6364136223846793005 + 11634580027462260723

/-- The word that a state of that generator gives. -/
def output (s : UInt64) : UInt32 :=
  let x := (((s >>> 18) ^^^ s) >>> 27).toUInt32
  let n := (s >>> 59).toUInt32
  if n = 0 then x else (x >>> n) ||| (x <<< (32 - n))

/-- The words of a key, from the state `s` of the generator on. -/
def keyWords (s : UInt64) : Nat → List UInt32
  | 0 => []
  | count + 1 => output (stretch s) :: keyWords (stretch s) count

/-! ## The stream -/

/-- A stream: its key, the number of the next block, and the words of the last one that have not
been taken. -/
structure Stream where
  key : List UInt32
  counter : UInt64
  pending : List UInt32

namespace Stream

/-- The stream of a seed. -/
def ofSeed (seed : UInt64) : Stream := ⟨keyWords seed 8, 0, []⟩

/-- The words that every block begins with. -/
def constants : List UInt32 := [0x61707865, 0x3320646E, 0x79622D32, 0x6B206574]

/-- The block that a number and a key stand for: the constants, the key, the number and zeros. -/
def block (key : List UInt32) (counter : UInt64) : Block :=
  let words := constants ++ key ++ [counter.toUInt32, (counter >>> 32).toUInt32, 0, 0]
  Vector.ofFn fun i => words.getD i 0

/-- The next word. -/
def word (s : Stream) : UInt32 × Stream :=
  match s.pending with
  | w :: rest => (w, { s with pending := rest })
  | [] =>
    let words := (mix (block s.key s.counter)).toList
    (words.headD 0, { s with counter := s.counter + 1, pending := words.drop 1 })

/-- The next two words as one, of which the first is the lower half. -/
def doubleWord (s : Stream) : UInt64 × Stream :=
  let (low, s) := s.word
  let (high, s) := s.word
  (high.toUInt64 <<< 32 ||| low.toUInt64, s)

end Stream

end ParamExchange.Random
