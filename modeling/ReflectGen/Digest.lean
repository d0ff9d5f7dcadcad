import ReflectGen.Text.Basic

/-!
# Content digests

A rendered source is identified by the first eight bytes of its BLAKE2b-256 digest.  The
compression function works on sixteen words of 64 bits; blocks are 128 bytes, the last one filled
up with zeros.
-/

namespace ReflectGen

namespace Digest

/-- The initial chaining words. -/
def initial : List UInt64 :=
  [0x6a09e667f3bcc908, 0xbb67ae8584caa73b, 0x3c6ef372fe94f82b, 0xa54ff53a5f1d36f1,
    0x510e527fade682d1, 0x9b05688c2b3e6c1f, 0x1f83d9abfb41bd6b, 0x5be0cd19137e2179]

/-- The order in which each round takes the sixteen words of a block. -/
def schedule : List (List Nat) :=
  [[0, 1, 2, 3, 4, 5, 6, 7, 8, 9, 10, 11, 12, 13, 14, 15],
    [14, 10, 4, 8, 9, 15, 13, 6, 1, 12, 0, 2, 11, 7, 5, 3],
    [11, 8, 12, 0, 5, 2, 15, 13, 10, 14, 3, 6, 7, 1, 9, 4],
    [7, 9, 3, 1, 13, 12, 11, 14, 2, 6, 5, 10, 4, 0, 15, 8],
    [9, 0, 5, 7, 2, 4, 10, 15, 14, 1, 11, 12, 6, 8, 3, 13],
    [2, 12, 6, 10, 0, 11, 8, 3, 4, 13, 7, 5, 15, 14, 1, 9],
    [12, 5, 1, 15, 14, 13, 4, 10, 0, 7, 6, 3, 9, 2, 8, 11],
    [13, 11, 7, 14, 12, 1, 3, 9, 5, 0, 15, 4, 8, 6, 2, 10],
    [6, 15, 14, 9, 11, 3, 0, 8, 12, 2, 13, 7, 1, 4, 10, 5],
    [10, 2, 8, 4, 7, 6, 1, 5, 15, 11, 9, 14, 3, 12, 13, 0],
    [0, 1, 2, 3, 4, 5, 6, 7, 8, 9, 10, 11, 12, 13, 14, 15],
    [14, 10, 4, 8, 9, 15, 13, 6, 1, 12, 0, 2, 11, 7, 5, 3]]

/-- The columns and diagonals that a round mixes, in order. -/
def lanes : List (Nat × Nat × Nat × Nat) :=
  [(0, 4, 8, 12), (1, 5, 9, 13), (2, 6, 10, 14), (3, 7, 11, 15),
    (0, 5, 10, 15), (1, 6, 11, 12), (2, 7, 8, 13), (3, 4, 9, 14)]

/-- Rotation to the right. -/
def rotate (x : UInt64) (n : UInt64) : UInt64 := (x >>> n) ||| (x <<< (64 - n))

/-- Mixes four words of the state with two words of the block. -/
def mix (v : Array UInt64) (lane : Nat × Nat × Nat × Nat) (x y : UInt64) : Array UInt64 :=
  let (i, j, k, l) := lane
  let a := v.getD i 0 + v.getD j 0 + x
  let d := rotate (v.getD l 0 ^^^ a) 32
  let c := v.getD k 0 + d
  let b := rotate (v.getD j 0 ^^^ c) 24
  let a := a + b + y
  let d := rotate (d ^^^ a) 16
  let c := c + d
  let b := rotate (b ^^^ c) 63
  (((v.setIfInBounds i a).setIfInBounds j b).setIfInBounds k c).setIfInBounds l d

/-- One round: the eight lanes in order, each with the next two words of the schedule. -/
def round (block : Array UInt64) (v : Array UInt64) (order : List Nat) : Array UInt64 :=
  let rec go : List (Nat × Nat × Nat × Nat) → List Nat → Array UInt64 → Array UInt64
    | lane :: lanes, p :: q :: order, v =>
      go lanes order (mix v lane (block.getD p 0) (block.getD q 0))
    | _, _, v => v
  go lanes order v

/-- The word whose bytes, lowest first, are given. -/
def word (bytes : Text) : UInt64 := bytes.foldr (fun b w => w * 256 + b.toUInt64) 0

/-- The sixteen words of a block. -/
def words (block : Text) : Array UInt64 :=
  ((List.range 16).map fun i => word ((block.drop (8 * i)).take 8)).toArray

/-- Takes a block into the chaining words; `count` is the number of bytes read up to its end. -/
def compress (h : Array UInt64) (block : Text) (count : Nat) (final : Bool) : Array UInt64 :=
  let m := words block
  let v := h ++ initial.toArray
  let v := v.setIfInBounds 12 (v.getD 12 0 ^^^ count.toUInt64)
  let v := if final then v.setIfInBounds 14 (v.getD 14 0 ^^^ 0xFFFFFFFFFFFFFFFF) else v
  let v := schedule.foldl (round m) v
  ((List.range 8).map fun i => h.getD i 0 ^^^ v.getD i 0 ^^^ v.getD (i + 8) 0).toArray

/-- Takes all blocks of the rest of a text; the number bounds the blocks that are left. -/
def blocks : (fuel : Nat) → Array UInt64 → (read : Nat) → Text → Array UInt64
  | 0, h, _, _ => h
  | n + 1, h, read, t =>
    let block := t.take 128
    let rest := t.drop 128
    let count := read + block.length
    if rest.isEmpty then compress h block count true
    else blocks n (compress h block count false) count rest

/-- The chaining words before the first block of an unkeyed digest of 32 bytes. -/
def start : Array UInt64 :=
  (initial.toArray).setIfInBounds 0 (initial.headD 0 ^^^ 0x01010020)

/-- The eight bytes of a word, lowest first. -/
def wordBytes (w : UInt64) : Text :=
  (List.range 8).map fun i => (w >>> (8 * i).toUInt64).toUInt8

/-- The BLAKE2b-256 digest of a text. -/
def blake2b256 (t : Text) : Text :=
  ((blocks (t.length / 128 + 1) start 0 t).toList.take 4).flatMap wordBytes

/-- The digest that identifies a content: sixteen hexadecimal digits. -/
def ofContent (t : Text) : Text := (blake2b256 t).take 8 |>.flatMap fun b => Text.hex 2 b.toNat

end Digest

end ReflectGen
