import Labyrinth.Level.Grid

/-!
# Fingerprints of grids

The fingerprint of a grid is a 64-bit number made of all that the grid is: its sides, the
numbers of its tiles, its start and its goal, as bytes. The bytes go one by one into a
product modulo 2^64. `Grid.digest` takes it from the parts of the grid, one after another,
without a list of bytes.
-/

namespace Labyrinth

namespace Fingerprint

/-- The fingerprint of no bytes. -/
def offset : UInt64 := 0xcbf29ce484222325

/-- The factor for each byte. -/
def prime : UInt64 := 0x100000001b3

/-- The fingerprint with one more byte. -/
def addByte (h : UInt64) (b : UInt8) : UInt64 := (h ^^^ b.toUInt64) * prime

/-- The fingerprint of some bytes. -/
def ofBytes (bytes : List UInt8) : UInt64 := bytes.foldl addByte offset

/-- The four bytes of a word, lowest first. -/
def wordBytes (w : UInt32) : List UInt8 :=
  [w.toUInt8, (w >>> 8).toUInt8, (w >>> 16).toUInt8, (w >>> 24).toUInt8]

/-- A coordinate as a word, in two's complement. -/
def coordinate (n : Int) : UInt32 := UInt32.ofNat (n % 4294967296).toNat

/-- The bytes of a cell: those of its two coordinates. -/
def positionBytes (p : Position) : List UInt8 :=
  wordBytes (coordinate p.x) ++ wordBytes (coordinate p.y)

/-- The fingerprint with the bytes of one more word. -/
def addWord (h : UInt64) (w : UInt32) : UInt64 := (wordBytes w).foldl addByte h

/-- The fingerprint with the coordinates of one more cell. -/
def addPosition (h : UInt64) (p : Position) : UInt64 :=
  addWord (addWord h (coordinate p.x)) (coordinate p.y)

end Fingerprint

namespace Grid

open Fingerprint

/-- All that a grid is, as bytes. -/
def bytes (g : Grid) : List UInt8 :=
  wordBytes (UInt32.ofNat g.width) ++ wordBytes (UInt32.ofNat g.height)
    ++ g.tiles.toList.map Tile.ordinal ++ positionBytes g.start ++ positionBytes g.goal

/-- The fingerprint of a grid. -/
def fingerprint (g : Grid) : UInt64 := ofBytes g.bytes

/-- The fingerprint of a grid, taken part by part. -/
def digest (g : Grid) : UInt64 :=
  let sides := addWord (addWord offset (UInt32.ofNat g.width)) (UInt32.ofNat g.height)
  let tiles := g.tiles.foldl (fun h t => addByte h t.ordinal) sides
  addPosition (addPosition tiles g.start) g.goal

end Grid

end Labyrinth
