/-! # BLAKE3

The hash of a sequence of bytes: chunks of 1024 bytes, each a chain of blocks of 64, are the leaves
of a binary tree whose left subtrees are complete, and the root is compressed once more under a flag
of its own. `hexDigest` gives the 256 bits of it for the UTF-8 bytes of a text. -/

namespace DialogueWindows.Blake3

abbrev Words (n : Nat) := Vector UInt32 n

def initial : Words 8 :=
  #v[0x6a09e667, 0xbb67ae85, 0x3c6ef372, 0xa54ff53a, 0x510e527f, 0x9b05688c, 0x1f83d9ab, 0x5be0cd19]

def chunkStart : UInt32 := 1
def chunkEnd : UInt32 := 2
def parentNode : UInt32 := 4
def root : UInt32 := 8

/-! ### Compression -/

def rotateRight (x n : UInt32) : UInt32 :=
  (x >>> n) ||| (x <<< (32 - n))

/-- Mixes two words of the message into four words of the state. -/
def mix (v : Words 16) (a b c d : Fin 16) (x y : UInt32) : Words 16 :=
  let v := v.set a (v[a] + v[b] + x)
  let v := v.set d (rotateRight (v[d] ^^^ v[a]) 16)
  let v := v.set c (v[c] + v[d])
  let v := v.set b (rotateRight (v[b] ^^^ v[c]) 12)
  let v := v.set a (v[a] + v[b] + y)
  let v := v.set d (rotateRight (v[d] ^^^ v[a]) 8)
  let v := v.set c (v[c] + v[d])
  v.set b (rotateRight (v[b] ^^^ v[c]) 7)

/-- Mixes the columns of the state, then its diagonals. -/
def mixAll (v m : Words 16) : Words 16 :=
  let v := mix v 0 4 8 12 m[0] m[1]
  let v := mix v 1 5 9 13 m[2] m[3]
  let v := mix v 2 6 10 14 m[4] m[5]
  let v := mix v 3 7 11 15 m[6] m[7]
  let v := mix v 0 5 10 15 m[8] m[9]
  let v := mix v 1 6 11 12 m[10] m[11]
  let v := mix v 2 7 8 13 m[12] m[13]
  mix v 3 4 9 14 m[14] m[15]

def permute (m : Words 16) : Words 16 :=
  #v[m[2], m[6], m[3], m[10], m[7], m[0], m[4], m[13],
    m[1], m[11], m[12], m[5], m[9], m[14], m[15], m[8]]

/-- So many rounds, with the message permuted between two of them. -/
def rounds : Nat → Words 16 → Words 16 → Words 16
  | 0, v, _ => v
  | n + 1, v, m => rounds n (mixAll v m) (permute m)

/-- A block to be compressed, with all that goes into the compression. -/
structure Node where
  chain : Words 8
  block : Words 16
  counter : UInt64
  length : UInt32
  flags : UInt32

namespace Node

def compress (n : Node) (flags : UInt32) : Words 8 :=
  let v : Words 16 :=
    n.chain ++ #v[initial[0], initial[1], initial[2], initial[3],
      n.counter.toUInt32, (n.counter >>> 32).toUInt32, n.length, n.flags ||| flags]
  let v := rounds 7 v n.block
  #v[v[0] ^^^ v[8], v[1] ^^^ v[9], v[2] ^^^ v[10], v[3] ^^^ v[11],
    v[4] ^^^ v[12], v[5] ^^^ v[13], v[6] ^^^ v[14], v[7] ^^^ v[15]]

/-- What the node hands to its parent, or a block to the next. -/
def chaining (n : Node) : Words 8 :=
  n.compress 0

/-- The node over two subtrees. -/
def parent (left right : Node) : Node :=
  { chain := initial
    block := left.chaining ++ right.chaining
    counter := 0
    length := 64
    flags := parentNode }

end Node

/-! ### Chunks -/

/-- Pieces of `n + 1` elements; the last may be shorter, and there is always one. -/
def pieces {α : Type} (n : Nat) (xs : List α) : List (List α) :=
  if h : xs.length ≤ n + 1 then [xs]
  else xs.take (n + 1) :: pieces n (xs.drop (n + 1))
termination_by xs.length
decreasing_by simp only [List.length_drop]; omega

/-- The word at a position of a block, its lowest byte first, with zeros behind the end. -/
def wordAt (bytes : List UInt8) (i : Nat) : UInt32 :=
  let byte (j : Nat) : UInt32 := (bytes.getD (4 * i + j) 0).toUInt32
  byte 0 ||| (byte 1 <<< 8) ||| (byte 2 <<< 16) ||| (byte 3 <<< 24)

/-- The last block of a chunk as a node, after the blocks before it have been chained. -/
def chain (counter : UInt64) (value : Words 8) (flags : UInt32) : List (List UInt8) → Node
  | [] =>
    { chain := value, block := Vector.replicate 16 0, counter, length := 0,
      flags := flags ||| chunkEnd }
  | [last] =>
    { chain := value, block := Vector.ofFn fun i => wordAt last i, counter,
      length := last.length.toUInt32, flags := flags ||| chunkEnd }
  | b :: rest =>
    let n : Node :=
      { chain := value, block := Vector.ofFn fun i => wordAt b i, counter, length := 64, flags }
    chain counter n.chaining 0 rest

def leaf (counter : Nat) (bytes : List UInt8) : Node :=
  chain counter.toUInt64 initial chunkStart (pieces 63 bytes)

/-! ### The tree -/

/-- The greatest power of two below `n`, for `n` from 2 on. -/
def leftSize (n : Nat) : Nat :=
  1 <<< (n - 1).log2

theorem leftSize_lt {n : Nat} (h : 2 ≤ n) : leftSize n < n := by
  have := Nat.log2_self_le (n := n - 1) (by omega)
  rw [leftSize, Nat.one_shiftLeft]
  omega

theorem leftSize_pos (n : Nat) : 0 < leftSize n := by
  rw [leftSize, Nat.one_shiftLeft]
  exact Nat.two_pow_pos _

/-- The node over a sequence of leaves. -/
def tree (leaves : List Node) : Node :=
  match leaves with
  | [] => leaf 0 []
  | [n] => n
  | a :: b :: rest =>
    let all := a :: b :: rest
    let left := leftSize all.length
    .parent (tree (all.take left)) (tree (all.drop left))
termination_by leaves.length
decreasing_by
  all_goals
    have hlt := leftSize_lt (n := (a :: b :: rest).length) (by simp)
    have hpos := leftSize_pos (a :: b :: rest).length
    simp only [List.length_take, List.length_drop]
    omega

def hash (bytes : List UInt8) : Words 8 :=
  (tree ((pieces 1023 bytes).mapIdx leaf)).compress root

/-! ### Text -/

/-- Two lower-case hexadecimal digits. -/
def hexByte (b : UInt8) : List Char :=
  [Nat.digitChar (b.toNat / 16), Nat.digitChar (b.toNat % 16)]

/-- A word as hexadecimal digits, its lowest byte first. -/
def hexWord (w : UInt32) : List Char :=
  [w.toUInt8, (w >>> 8).toUInt8, (w >>> 16).toUInt8, (w >>> 24).toUInt8].flatMap hexByte

def hexDigest (text : String) : String :=
  String.ofList ((hash text.toUTF8.toList).toList.flatMap hexWord)

end DialogueWindows.Blake3
