import Mathlib.Algebra.Group.Nat.Defs
import Mathlib.Logic.ExistsUnique
import Mathlib.Tactic.ByContra
import Labyrinth.Level.Fingerprint
import Labyrinth.Proofs.Level.Views
import Labyrinth.Proofs.Run.Safety

/-!
# Fingerprints tell apart what differs in one place

A byte can be taken back out of a fingerprint: the factor is odd, so it has an inverse modulo 2^64.
Hence two fingerprints that differ go on to differ whatever bytes they both take, and two rows of
bytes that differ in one place have different fingerprints (`Fingerprint.ofBytes_ne`). The bytes of
a grid say all that the grid is, as far as its sides and the coordinates of its ends have 32 bits
(`Grid.bytes_inj`). So no change of a single tile goes unseen.
-/

namespace Labyrinth

namespace Fingerprint

variable {h k : UInt64} {b c : UInt8}

/-! ## One byte more -/

/-- What undoes the factor of a byte. -/
def inverse : UInt64 := 0xce965057aff6957b

theorem prime_mul_inverse : prime * inverse = 1 := by decide

theorem mul_prime_inj : h * prime = k * prime ↔ h = k := by
  constructor
  · intro heq
    have hback (n : UInt64) : n * prime * inverse = n := by
      rw [UInt64.mul_assoc, prime_mul_inverse, UInt64.mul_one]
    rw [← hback h, heq, hback]
  · rintro rfl
    rfl

/-- The same byte leaves different fingerprints different. -/
theorem addByte_left_inj : addByte h b = addByte k b ↔ h = k := by
  rw [addByte, addByte, mul_prime_inj, UInt64.xor_left_inj]

/-- Different bytes make one fingerprint into two. -/
theorem addByte_right_inj : addByte h b = addByte h c ↔ b = c := by
  rw [addByte, addByte, mul_prime_inj, UInt64.xor_right_inj, UInt8.toUInt64_inj]

/-- A byte in numbers: its bits are put in, then the factor is applied modulo 2^64. -/
theorem toNat_addByte (h : UInt64) (b : UInt8) :
    (addByte h b).toNat = (h.toNat ^^^ b.toNat) * 1099511628211 % 2 ^ 64 := by
  rw [addByte, UInt64.toNat_mul, UInt64.toNat_xor, UInt8.toNat_toUInt64]
  rfl

/-! ## Rows of bytes -/

/-- Fingerprints that differ stay different, however many bytes they both take. -/
theorem foldl_addByte_inj (bytes : List UInt8) :
    bytes.foldl addByte h = bytes.foldl addByte k ↔ h = k := by
  induction bytes generalizing h k with
  | nil => exact Iff.rfl
  | cons b bytes ih => rw [List.foldl_cons, List.foldl_cons, ih, addByte_left_inj]

theorem toNat_foldl_addByte (bytes : List UInt8) (h : UInt64) :
    (bytes.foldl addByte h).toNat =
      bytes.foldl (fun n b => (n ^^^ b.toNat) * 1099511628211 % 2 ^ 64) h.toNat := by
  induction bytes generalizing h with
  | nil => rfl
  | cons b bytes ih => rw [List.foldl_cons, List.foldl_cons, ih, toNat_addByte]

/-- One byte changed changes the fingerprint, whatever comes before it and after it. -/
theorem ofBytes_ne (before after : List UInt8) (hne : b ≠ c) :
    ofBytes (before ++ b :: after) ≠ ofBytes (before ++ c :: after) := by
  intro heq
  rw [ofBytes, ofBytes, List.foldl_append, List.foldl_append, List.foldl_cons, List.foldl_cons,
    foldl_addByte_inj, addByte_right_inj] at heq
  exact hne heq

/-- Lists of one length that differ in one place are alike before it and after it. -/
theorem exists_parts_of_existsUnique {α : Type} {xs ys : List α} (hlength : xs.length = ys.length)
    (h : ∃! i : Nat, xs[i]? ≠ ys[i]?) :
    ∃ before x y after, x ≠ y ∧ xs = before ++ x :: after ∧ ys = before ++ y :: after := by
  obtain ⟨i, hi, honly⟩ := h
  have hsame {j : Nat} (hj : j ≠ i) : xs[j]? = ys[j]? := by
    by_contra hdiffer
    exact hj (honly j hdiffer)
  have hx : i < xs.length := by
    by_contra hover
    apply hi
    rw [List.getElem?_eq_none (by omega), List.getElem?_eq_none (by omega)]
  have hy : i < ys.length := hlength ▸ hx
  have hbefore : xs.take i = ys.take i := by
    apply List.ext_getElem?
    intro j
    rw [List.getElem?_take, List.getElem?_take]
    split
    · exact hsame (by omega)
    · rfl
  have hafter : xs.drop (i + 1) = ys.drop (i + 1) := by
    apply List.ext_getElem?
    intro j
    rw [List.getElem?_drop, List.getElem?_drop]
    exact hsame (by omega)
  have hne : xs[i] ≠ ys[i] := by
    simpa only [List.getElem?_eq_getElem hx, List.getElem?_eq_getElem hy, ne_eq,
      Option.some.injEq] using hi
  refine ⟨xs.take i, xs[i], ys[i], xs.drop (i + 1), hne, ?_, ?_⟩
  · rw [List.getElem_cons_drop hx, List.take_append_drop]
  · rw [hbefore, hafter, List.getElem_cons_drop hy, List.take_append_drop]

/-! ## The bytes of words and cells -/

@[simp] theorem length_wordBytes (w : UInt32) : (wordBytes w).length = 4 := rfl

@[simp] theorem length_positionBytes (p : Position) : (positionBytes p).length = 8 := rfl

/-- A word is known from its bytes. -/
theorem wordBytes_inj {v w : UInt32} (h : wordBytes v = wordBytes w) : v = w := by
  simp only [wordBytes, List.cons.injEq, and_true, ← UInt8.toNat_inj, UInt32.toNat_toUInt8,
    UInt32.toNat_shiftRight, Nat.shiftRight_eq_div_pow, UInt32.reduceToNat, Nat.reduceMod,
    Nat.reducePow] at h
  have hv := v.toNat_lt
  have hw := w.toNat_lt
  apply UInt32.toNat_inj.mp
  omega

/-- A side of 32 bits is known from its word. -/
theorem side_inj {m n : Nat} (hm : m < 4294967296) (hn : n < 4294967296)
    (h : UInt32.ofNat m = UInt32.ofNat n) : m = n := by
  rw [← UInt32.toNat_inj, UInt32.toNat_ofNat', UInt32.toNat_ofNat'] at h
  omega

/-- A coordinate of 32 bits is known from its word. -/
theorem coordinate_inj {m n : Int} (hm : -2147483648 ≤ m ∧ m ≤ 2147483647)
    (hn : -2147483648 ≤ n ∧ n ≤ 2147483647) (h : coordinate m = coordinate n) : m = n := by
  rw [coordinate, coordinate, ← UInt32.toNat_inj, UInt32.toNat_ofNat', UInt32.toNat_ofNat'] at h
  omega

/-- The word of a 32-bit integer has the same bits. -/
theorem coordinate_toInt (n : Int32) : coordinate n.toInt = n.toUInt32 := by
  have hbits : n.toInt = n.toBitVec.toInt := rfl
  have hword : n.toUInt32.toNat = n.toBitVec.toNat := rfl
  have hlt := n.toBitVec.isLt
  apply UInt32.toNat_inj.mp
  rw [coordinate, UInt32.toNat_ofNat', hword, hbits, BitVec.toInt_eq_toNat_cond]
  split <;> omega

/-- A cell whose coordinates have 32 bits is known from its bytes. -/
theorem positionBytes_inj {p q : Position} (hp : p.IsInt32) (hq : q.IsInt32)
    (h : positionBytes p = positionBytes q) : p = q := by
  obtain ⟨hx, hy⟩ := List.append_inj h rfl
  obtain ⟨px, py⟩ := p
  obtain ⟨qx, qy⟩ := q
  rw [Position.mk.injEq]
  exact ⟨coordinate_inj hp.1 hq.1 (wordBytes_inj hx), coordinate_inj hp.2 hq.2 (wordBytes_inj hy)⟩

end Fingerprint

attribute [ext] Grid

namespace Grid

open Fingerprint

variable {g k : Grid}

/-- The sides of a grid and the coordinates of its ends have 32 bits. -/
structure InWords (g : Grid) : Prop where
  /-- The number of columns is a word. -/
  width_lt : g.width < 4294967296
  /-- The number of rows is a word. -/
  height_lt : g.height < 4294967296
  /-- The start has 32-bit coordinates. -/
  start : g.start.IsInt32
  /-- The goal has 32-bit coordinates. -/
  goal : g.goal.IsInt32

/-- A change of a tile changes none of this. -/
theorem InWords.set (h : g.InWords) (p : Position) (t : Tile) : (g.set p t).InWords := by
  constructor
  · rw [width_set]; exact h.width_lt
  · rw [height_set]; exact h.height_lt
  · rw [start_set]; exact h.start
  · rw [goal_set]; exact h.goal

/-- Part by part a grid gives the fingerprint of its bytes. -/
theorem digest_eq_fingerprint (g : Grid) : g.digest = g.fingerprint := by
  have htiles (h : UInt64) : g.tiles.foldl (fun h t => addByte h t.ordinal) h =
      (g.tiles.toList.map Tile.ordinal).foldl addByte h := by
    rw [List.foldl_map, Array.foldl_toList]
  simp only [digest, htiles, fingerprint, ofBytes, bytes, List.foldl_append, addPosition, addWord,
    positionBytes]

/-- A grid is known from its bytes. -/
theorem bytes_inj (hg : g.InWords) (hk : k.InWords) (h : g.bytes = k.bytes) : g = k := by
  -- All parts but the tiles have a fixed length, so the goal and the start come off the end, the
  -- sides off the beginning.
  obtain ⟨h, hgoal⟩ := List.append_inj' h (by simp)
  obtain ⟨h, hstart⟩ := List.append_inj' h (by simp)
  obtain ⟨h, htiles⟩ := List.append_inj h (by simp)
  obtain ⟨hwidth, hheight⟩ := List.append_inj h (by simp)
  apply Grid.ext
  · exact side_inj hg.width_lt hk.width_lt (wordBytes_inj hwidth)
  · exact side_inj hg.height_lt hk.height_lt (wordBytes_inj hheight)
  · exact Array.toList_inj.mp ((List.map_inj_right fun _ _ => Tile.ordinal_injective).mp htiles)
  · exact positionBytes_inj hg.start hk.start hstart
  · exact positionBytes_inj hg.goal hk.goal hgoal

/-- Grids of one size that differ in the tile of one cell differ in one place of their rows of
tiles. -/
theorem existsUnique_tiles (hwidth : g.width = k.width) (hheight : g.height = k.height)
    (h : ∃! p, g.get? p ≠ k.get? p) :
    ∃! i : Nat, g.tiles.toList[i]? ≠ k.tiles.toList[i]? := by
  have hsize : g.tiles.size = k.tiles.size := by rw [g.size_tiles, k.size_tiles, hwidth, hheight]
  have hbounds (p : Position) : g.InBounds p ↔ k.InBounds p := by
    rw [InBounds, InBounds, hwidth, hheight]
  have hindex (p : Position) : g.index p = k.index p := by rw [index, index, hwidth]
  obtain ⟨p, hp, honly⟩ := h
  have hin : g.InBounds p := by
    by_contra hout
    apply hp
    rw [get?, if_neg hout, get?, if_neg (mt (hbounds p).mpr hout)]
  refine ⟨g.index p, ?_, fun i hi => ?_⟩
  · rw [get?_of_inBounds hin, get?_of_inBounds ((hbounds p).mp hin), ← hindex] at hp
    simpa only [Array.getElem?_toList] using hp
  · have hlt : i < g.tiles.size := by
      by_contra hover
      apply hi
      rw [List.getElem?_eq_none (by simpa using hover),
        List.getElem?_eq_none (by simpa [← hsize] using hover)]
    have hcell := inBounds_cellAt hlt
    have hdiffer : g.get? (g.cellAt i) ≠ k.get? (g.cellAt i) := by
      rw [get?_of_inBounds hcell, get?_of_inBounds ((hbounds _).mp hcell), ← hindex, index_cellAt]
      simpa only [Array.getElem?_toList] using hi
    rw [← honly _ hdiffer, index_cellAt]

/-- Grids alike but for one tile have different fingerprints. -/
theorem fingerprint_ne (hwidth : g.width = k.width) (hheight : g.height = k.height)
    (hstart : g.start = k.start) (hgoal : g.goal = k.goal) (h : ∃! p, g.get? p ≠ k.get? p) :
    g.fingerprint ≠ k.fingerprint := by
  have hlength : g.tiles.toList.length = k.tiles.toList.length := by
    simp only [Array.length_toList, g.size_tiles, k.size_tiles, hwidth, hheight]
  obtain ⟨before, t, u, after, hne, hg, hk⟩ :=
    exists_parts_of_existsUnique hlength (existsUnique_tiles hwidth hheight h)
  have hbytes := ofBytes_ne
    (wordBytes (UInt32.ofNat k.width) ++ wordBytes (UInt32.ofNat k.height)
      ++ before.map Tile.ordinal)
    (after.map Tile.ordinal ++ positionBytes k.start ++ positionBytes k.goal)
    (mt Tile.ordinal_injective hne)
  simpa only [fingerprint, bytes, hg, hk, hwidth, hheight, hstart, hgoal, List.map_append,
    List.map_cons, List.append_assoc, List.cons_append] using hbytes

/-- A fingerprint takes the bytes of a grid one by one, each by putting its bits in and applying a
factor modulo 2^64; the coordinates go in as 32-bit words. These bytes say all that the grid is. Of
two rows of bytes, equally long, that differ in one place the fingerprints differ, and so do those
of two grids with the same sides, start and goal that differ in the tile of one cell. -/
theorem fingerprint_tells_tiles_apart :
    (∀ g : Grid, g.digest = g.fingerprint ∧
      g.fingerprint.toNat =
        g.bytes.foldl (fun n b => (n ^^^ b.toNat) * 1099511628211 % 2 ^ 64)
          14695981039346656037) ∧
    (∀ x y : Int32,
      positionBytes ⟨x.toInt, y.toInt⟩ = wordBytes x.toUInt32 ++ wordBytes y.toUInt32) ∧
    (∀ g k : Grid, g.InWords → k.InWords → g.bytes = k.bytes → g = k) ∧
    (∀ xs ys : List UInt8, xs.length = ys.length → (∃! i : Nat, xs[i]? ≠ ys[i]?) →
      ofBytes xs ≠ ofBytes ys) ∧
    ∀ g k : Grid, g.width = k.width → g.height = k.height → g.start = k.start → g.goal = k.goal →
      (∃! p, g.get? p ≠ k.get? p) → g.fingerprint ≠ k.fingerprint := by
  refine ⟨fun g => ⟨g.digest_eq_fingerprint, ?_⟩, fun x y => ?_, fun g k => bytes_inj, ?_, ?_⟩
  · exact toNat_foldl_addByte g.bytes offset
  · rw [← coordinate_toInt, ← coordinate_toInt]
    rfl
  · intro xs ys hlength honly
    obtain ⟨before, x, y, after, hne, rfl, rfl⟩ := exists_parts_of_existsUnique hlength honly
    exact ofBytes_ne before after hne
  · exact fun g k => fingerprint_ne

/-- Opening one wall of three by two is seen, and closing it again gives the grid that was
before. -/
theorem fingerprint_tells_tiles_apart_three_by_two :
    let g := Grid.filled 3 2
    let opened := g.set ⟨1, 1⟩ .path
    (∃! p, g.get? p ≠ opened.get? p) ∧ g.fingerprint ≠ opened.fingerprint ∧
      g.InWords ∧ (opened.set ⟨1, 1⟩ .wall).bytes = g.bytes ∧ opened.set ⟨1, 1⟩ .wall = g ∧
      ofBytes [3, 1, 4] ≠ ofBytes [3, 7, 4] := by
  intro g opened
  obtain ⟨-, -, hknown, hbytes, htiles⟩ := fingerprint_tells_tiles_apart
  have honly : ∃! p, g.get? p ≠ opened.get? p := by
    refine ⟨⟨1, 1⟩, by decide, fun p hp => ?_⟩
    by_contra hne
    apply hp
    rw [get?_set, if_neg fun h => hne h.1]
  have horigin : (⟨0, 0⟩ : Position).IsInt32 := by simp [Position.IsInt32]
  have hwords : g.InWords := ⟨by decide, by decide, horigin, horigin⟩
  have hsame : (opened.set ⟨1, 1⟩ .wall).bytes = g.bytes := by decide
  refine ⟨honly, htiles g opened rfl rfl rfl rfl honly, hwords, hsame, ?_, ?_⟩
  · exact hknown _ _ ((hwords.set _ _).set _ _) hwords hsame
  · apply hbytes [3, 1, 4] [3, 7, 4] rfl
    refine ⟨1, by decide, fun i hi => ?_⟩
    rcases i with _ | _ | _ | i
    · exact absurd rfl hi
    · rfl
    · exact absurd rfl hi
    · exact absurd rfl hi

end Grid

end Labyrinth
