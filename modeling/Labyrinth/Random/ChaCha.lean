import Labyrinth.Random.Words

/-!
# The ChaCha stream with eight rounds

The state of the cipher is four rows of four words: constants, two rows of key, and a row
with a block counter. A block is the state after four double rounds, added to the state
itself, read row by row. A double round mixes the columns and then the diagonals; the
diagonals become columns when the rows are rotated. The key is spread from a 64-bit seed
by a linear generator with permuted output.
-/

namespace Labyrinth

/-- Four words side by side. -/
structure WordRow where
  /-- The first word. -/
  a : UInt32
  /-- The second word. -/
  b : UInt32
  /-- The third word. -/
  c : UInt32
  /-- The fourth word. -/
  d : UInt32
  deriving DecidableEq, Repr

namespace WordRow

/-- Combines two rows word by word. -/
def zipWith (f : UInt32 → UInt32 → UInt32) (r s : WordRow) : WordRow :=
  ⟨f r.a s.a, f r.b s.b, f r.c s.c, f r.d s.d⟩

/-- The sum word by word. -/
def add (r s : WordRow) : WordRow := zipWith (· + ·) r s

/-- The exclusive or of two rows, its words rotated to the left. -/
def xorRotate (n : UInt32) (r s : WordRow) : WordRow :=
  zipWith (fun x y => (x ^^^ y) <<< n ||| (x ^^^ y) >>> (32 - n)) r s

/-- The words moved one place to the left; the first becomes the last. -/
def shift (r : WordRow) : WordRow := ⟨r.b, r.c, r.d, r.a⟩

/-- The words in order. -/
def toList (r : WordRow) : List UInt32 := [r.a, r.b, r.c, r.d]

end WordRow

/-- The state of the cipher. -/
structure CipherState where
  /-- The constants. -/
  r0 : WordRow
  /-- The first half of the key. -/
  r1 : WordRow
  /-- The second half of the key. -/
  r2 : WordRow
  /-- The counter. -/
  r3 : WordRow
  deriving DecidableEq, Repr

namespace CipherState

/-- Mixes every column. -/
def mixColumns (s : CipherState) : CipherState :=
  let r0 := s.r0.add s.r1
  let r3 := s.r3.xorRotate 16 r0
  let r2 := s.r2.add r3
  let r1 := s.r1.xorRotate 12 r2
  let r0 := r0.add r1
  let r3 := r3.xorRotate 8 r0
  let r2 := r2.add r3
  let r1 := r1.xorRotate 7 r2
  ⟨r0, r1, r2, r3⟩

/-- Mixes the columns, then the diagonals. -/
def doubleRound (s : CipherState) : CipherState :=
  let s := s.mixColumns
  let s := mixColumns ⟨s.r0, s.r1.shift, s.r2.shift.shift, s.r3.shift.shift.shift⟩
  ⟨s.r0, s.r1.shift.shift.shift, s.r2.shift.shift, s.r3.shift⟩

/-- The words of the block that belongs to a state. -/
def block (s : CipherState) : List UInt32 :=
  let t := s.doubleRound.doubleRound.doubleRound.doubleRound
  (s.r0.add t.r0).toList ++ (s.r1.add t.r1).toList ++ (s.r2.add t.r2).toList
    ++ (s.r3.add t.r3).toList

end CipherState

/-- A stream of blocks, and what is left of the block begun. -/
structure ChaCha where
  /-- The first half of the key. -/
  key1 : WordRow
  /-- The second half of the key. -/
  key2 : WordRow
  /-- The number of the next block. -/
  counter : UInt64
  /-- The words left of the block begun. -/
  ready : List UInt32
  deriving DecidableEq, Repr

namespace ChaCha

/-- The words that spell "expand 32-byte k". -/
def constants : WordRow := ⟨0x61707865, 0x3320646e, 0x79622d32, 0x6b206574⟩

/-- The next block of the stream. -/
def nextBlock (g : ChaCha) : List UInt32 :=
  CipherState.block
    ⟨constants, g.key1, g.key2, ⟨g.counter.toUInt32, (g.counter >>> 32).toUInt32, 0, 0⟩⟩

/-- The next word of the stream. -/
def next (g : ChaCha) : UInt32 × ChaCha :=
  match g.ready with
  | w :: ready => (w, { g with ready := ready })
  | [] =>
    let words := g.nextBlock
    (words.headD 0, { g with counter := g.counter + 1, ready := words.tail })

instance : WordSource ChaCha where
  next := next

/-- One step of the generator that spreads a seed. -/
def spread (seed : UInt64) : UInt64 := seed * 6364136223846793005 + 11634580027462260723

/-- The output of the generator that spreads a seed: its high bits, rotated by its highest. -/
def spreadOutput (seed : UInt64) : UInt32 :=
  let x := (((seed >>> 18) ^^^ seed) >>> 27).toUInt32
  let n := (seed >>> 59).toUInt32
  x >>> n ||| x <<< ((32 - n) % 32)

/-- A row of key, and the seed after it. -/
def keyRow (seed : UInt64) : WordRow × UInt64 :=
  let s1 := spread seed
  let s2 := spread s1
  let s3 := spread s2
  let s4 := spread s3
  (⟨spreadOutput s1, spreadOutput s2, spreadOutput s3, spreadOutput s4⟩, s4)

/-- The stream of a seed. -/
def ofSeed (seed : UInt64) : ChaCha :=
  let (key1, seed) := keyRow seed
  let (key2, _) := keyRow seed
  ⟨key1, key2, 0, []⟩

/-- The first words of a key, and the first words of a stream. -/
example : (ofSeed 0).key1.toList.take 3 = [0xf973f2ec, 0x45cdb581, 0x7346f087] ∧
    (ofSeed 42).nextBlock.take 4 = [962419617, 2928721845, 628724104, 4081401798] := by
  decide +kernel

end ChaCha

end Labyrinth
