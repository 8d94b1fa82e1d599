/-!
# BLAKE3

The unkeyed BLAKE3 hash with a digest of eight words. The input is cut into chunks of 1024 bytes, a
chunk into blocks of 64; the chunks are the leaves of a binary tree whose left subtrees are the
largest powers of two that leave something to their right.

A tree vertex is a `Node`: a compression that is still to be run. Running it plainly gives the
vertex's chaining value, running it with the root flag gives the digest.
-/

namespace HashLoader.Blake3

/-- The initial chaining value. -/
def iv : Vector UInt32 8 :=
  #v[0x6A09E667, 0xBB67AE85, 0x3C6EF372, 0xA54FF53A, 0x510E527F, 0x9B05688C, 0x1F83D9AB, 0x5BE0CD19]

/-- The order in which a round hands its message words to the next one. -/
def schedule : Vector (Fin 16) 16 := #v[2, 6, 3, 10, 7, 0, 4, 13, 1, 11, 12, 5, 9, 14, 15, 8]

def chunkLen : Nat := 1024
def blockLen : Nat := 64

def chunkStart : UInt32 := 1
def chunkEnd : UInt32 := 2
def parentFlag : UInt32 := 4
def rootFlag : UInt32 := 8

/-- Rotation of a word to the right by `n` bits, `0 < n < 32`. -/
def rotateRight (x n : UInt32) : UInt32 := (x >>> n) ||| (x <<< (32 - n))

/-- Mixes two message words into four words of the state. -/
def mix (v : Vector UInt32 16) (a b c d : Fin 16) (x y : UInt32) : Vector UInt32 16 :=
  let va := v[a] + v[b] + x
  let vd := rotateRight (v[d] ^^^ va) 16
  let vc := v[c] + vd
  let vb := rotateRight (v[b] ^^^ vc) 12
  let va := va + vb + y
  let vd := rotateRight (vd ^^^ va) 8
  let vc := vc + vd
  let vb := rotateRight (vb ^^^ vc) 7
  (((v.set a va).set b vb).set c vc).set d vd

/-- One round: the four columns of the state, then its four diagonals. -/
def round (v m : Vector UInt32 16) : Vector UInt32 16 :=
  -- The columns.
  let v := mix v 0 4 8 12 m[0] m[1]
  let v := mix v 1 5 9 13 m[2] m[3]
  let v := mix v 2 6 10 14 m[4] m[5]
  let v := mix v 3 7 11 15 m[6] m[7]
  -- The diagonals.
  let v := mix v 0 5 10 15 m[8] m[9]
  let v := mix v 1 6 11 12 m[10] m[11]
  let v := mix v 2 7 8 13 m[12] m[13]
  mix v 3 4 9 14 m[14] m[15]

/-- Runs `n` rounds, each with its message words in the order of the one before, rescheduled. -/
def rounds : (n : Nat) → (v m : Vector UInt32 16) → Vector UInt32 16
  | 0, v, _ => v
  | n + 1, v, m => rounds n (round v m) (schedule.map fun i => m[i])

/-- A compression that is still to be run. -/
structure Node where
  /-- The chaining value that goes in. -/
  input : Vector UInt32 8
  /-- The message block, padded with zeros. -/
  block : Vector UInt32 16
  /-- The index of the chunk, zero for a parent. -/
  counter : UInt64
  /-- How many bytes of the block are message. -/
  len : UInt32
  flags : UInt32

/-- Runs the compression with further flags and keeps the first eight words. -/
def Node.compress (n : Node) (extra : UInt32) : Vector UInt32 8 :=
  let h := n.input
  let start : Vector UInt32 16 :=
    #v[h[0], h[1], h[2], h[3], h[4], h[5], h[6], h[7], iv[0], iv[1], iv[2], iv[3],
      n.counter.toUInt32, (n.counter >>> 32).toUInt32, n.len, n.flags ||| extra]
  let v := rounds 7 start n.block
  #v[v[0] ^^^ v[8], v[1] ^^^ v[9], v[2] ^^^ v[10], v[3] ^^^ v[11],
    v[4] ^^^ v[12], v[5] ^^^ v[13], v[6] ^^^ v[14], v[7] ^^^ v[15]]

/-- The chaining value of a vertex. -/
def Node.chaining (n : Node) : Vector UInt32 8 := n.compress 0

/-- The digest of the tree whose root the vertex is. -/
def Node.digest (n : Node) : Vector UInt32 8 := n.compress rootFlag

/-- The vertex over two subtrees. -/
def Node.parent (left right : Node) : Node where
  input := iv
  block := left.chaining ++ right.chaining
  counter := 0
  len := 64
  flags := parentFlag

/-- The little-endian word at `i`; bytes from `stop` on count as zero. -/
def wordAt (data : Array UInt8) (stop i : Nat) : UInt32 :=
  byte i ||| byte (i + 1) <<< 8 ||| byte (i + 2) <<< 16 ||| byte (i + 3) <<< 24
where
  byte (j : Nat) : UInt32 := if j < stop then (data.getD j 0).toUInt32 else 0

/-- The block at `start`, zeros from `stop` on. -/
def blockAt (data : Array UInt8) (stop start : Nat) : Vector UInt32 16 :=
  Vector.ofFn fun i => wordAt data stop (start + 4 * i)

/-- The vertex of a chunk from its block at `start` on, of which `len` bytes are left. Only the
first block carries the start flag, only the last one the end flag. -/
def chunkFrom (data : Array UInt8) (index : Nat) (input : Vector UInt32 8) (flags : UInt32)
    (start len : Nat) : Node :=
  if len ≤ blockLen then
    { input, block := blockAt data (start + len) start, counter := index.toUInt64,
      len := len.toUInt32, flags := flags ||| chunkEnd }
  else
    let node : Node :=
      { input, block := blockAt data (start + len) start, counter := index.toUInt64,
        len := 64, flags }
    chunkFrom data index node.chaining 0 (start + blockLen) (len - blockLen)
termination_by len
decreasing_by simp only [blockLen] at *; omega

/-- How much of more than a chunk goes to the left: the largest power of two of whole chunks that
leaves something to the right. -/
def leftLen (len : Nat) : Nat := chunkLen * 1 <<< ((len - 1) / chunkLen).log2

theorem leftLen_pos (len : Nat) : 0 < leftLen len :=
  Nat.mul_pos (by decide) (by rw [Nat.one_shiftLeft]; exact Nat.two_pow_pos _)

theorem leftLen_lt {len : Nat} (h : chunkLen < len) : leftLen len < len := by
  have hne : (len - 1) / chunkLen ≠ 0 := by
    simp only [chunkLen] at *
    omega
  have hle := Nat.log2_self_le hne
  have hmul := Nat.mul_le_mul_left chunkLen hle
  have hdiv := Nat.mul_div_le (len - 1) chunkLen
  rw [leftLen, Nat.one_shiftLeft]
  omega

/-- The vertex of the tree over the `len` bytes at `start`, whose first chunk has number `index`. -/
def subtree (data : Array UInt8) (index start len : Nat) : Node :=
  if h : len ≤ chunkLen then
    chunkFrom data index iv chunkStart start len
  else
    have := leftLen_lt (Nat.lt_of_not_le h)
    have := leftLen_pos len
    .parent (subtree data index start (leftLen len))
      (subtree data (index + leftLen len / chunkLen) (start + leftLen len) (len - leftLen len))
termination_by len

/-- The eight words of the hash of `data`. -/
def hash (data : Array UInt8) : Vector UInt32 8 := (subtree data 0 0 data.size).digest

end HashLoader.Blake3
