import UriRouting.Snapshot.Bytes
/-!
# The BLAKE3 hash

A text of bytes is cut into chunks of 1024 bytes, and each chunk into blocks of 64 bytes. The blocks
of a chunk are compressed one after another, and the chunks are the leaves of a binary tree whose
left subtrees are complete. The hash is the compression at the root.
-/

namespace UriRouting.Snapshot

/-- A hash of 32 bytes. -/
structure Digest where
  /-- The bytes of the hash. -/
  bytes : Bytes
  /-- There are 32 of them. -/
  length_eq : bytes.length = 32
deriving DecidableEq

namespace Blake3

/-- Eight words. -/
abbrev Chain := Vector UInt32 8

/-- Sixteen words. -/
abbrev Words := Vector UInt32 16

/-- The words that hashing starts from. -/
def initial : Chain :=
  #v[0x6A09E667, 0xBB67AE85, 0x3C6EF372, 0xA54FF53A, 0x510E527F, 0x9B05688C, 0x1F83D9AB, 0x5BE0CD19]

/-- Turns a word right. -/
def rotate (w : UInt32) (count : UInt32) : UInt32 :=
  (w >>> count) ||| (w <<< (32 - count))

/-- Mixes four words of a state with two words of a message. -/
def mix (state : Words) (a b c d : Fin 16) (x y : UInt32) : Words :=
  let a₁ := state[a] + state[b] + x
  let d₁ := rotate (state[d] ^^^ a₁) 16
  let c₁ := state[c] + d₁
  let b₁ := rotate (state[b] ^^^ c₁) 12
  let a₂ := a₁ + b₁ + y
  let d₂ := rotate (d₁ ^^^ a₂) 8
  let c₂ := c₁ + d₂
  let b₂ := rotate (b₁ ^^^ c₂) 7
  (((state.set a a₂).set b b₂).set c c₂).set d d₂

/-- One round: the four columns, then the four diagonals. -/
def round (state message : Words) : Words :=
  let state := mix state 0 4 8 12 message[0] message[1]
  let state := mix state 1 5 9 13 message[2] message[3]
  let state := mix state 2 6 10 14 message[4] message[5]
  let state := mix state 3 7 11 15 message[6] message[7]
  let state := mix state 0 5 10 15 message[8] message[9]
  let state := mix state 1 6 11 12 message[10] message[11]
  let state := mix state 2 7 8 13 message[12] message[13]
  mix state 3 4 9 14 message[14] message[15]

/-- The order of the words of a message in the next round. -/
def reorder (message : Words) : Words :=
  #v[message[2], message[6], message[3], message[10], message[7], message[0], message[4],
    message[13], message[1], message[11], message[12], message[5], message[9], message[14],
    message[15], message[8]]

/-- Some rounds, the message reordered between them. -/
def rounds : Nat → Words → Words → Words
  | 0, state, _ => state
  | n + 1, state, message => rounds n (round state message) (reorder message)

/-- What is compressed: the words so far, a block with its counter and length, and flags. -/
structure Input where
  /-- The words so far. -/
  chain : Chain
  /-- The words of the block. -/
  block : Words
  /-- The number of the chunk. -/
  counter : UInt64
  /-- The number of bytes in the block. -/
  length : UInt32
  /-- The sum of the flags. -/
  flags : UInt32

/-- The words that an input is compressed to. -/
def compress (input : Input) : Chain :=
  let chain := input.chain
  let start : Words :=
    #v[chain[0], chain[1], chain[2], chain[3], chain[4], chain[5], chain[6], chain[7],
      initial[0], initial[1], initial[2], initial[3],
      input.counter.toUInt32, (input.counter >>> 32).toUInt32, input.length, input.flags]
  let state := rounds 7 start input.block
  Vector.ofFn fun i => state[i.val] ^^^ state[i.val + 8]

/-- The flag of the first block of a chunk. -/
def chunkStart : UInt32 := 1

/-- The flag of the last block of a chunk. -/
def chunkEnd : UInt32 := 2

/-- The flag of an inner node of the tree. -/
def parent : UInt32 := 4

/-- The flag of the root of the tree. -/
def root : UInt32 := 8

/-- The words of a block, which is filled up with zeros. -/
def blockWords (block : Bytes) : Words :=
  let bytes := block.toArray
  Vector.ofFn fun i =>
    UInt32.ofNat (ofLittleEndian ((List.range 4).map fun j => bytes.getD (4 * i.val + j) 0))

/-- The last compression of a chunk, given the words and flags in front of the rest of it. -/
def chunkInput (counter : UInt64) (chain : Chain) (flags : UInt32) (bytes : Bytes) : Input :=
  if 64 < bytes.length then
    let next := compress ⟨chain, blockWords (bytes.take 64), counter, 64, flags⟩
    chunkInput counter next 0 (bytes.drop 64)
  else ⟨chain, blockWords bytes, counter, UInt32.ofNat bytes.length, flags + chunkEnd⟩
termination_by bytes.length
decreasing_by
  simp only [List.length_drop]
  omega

/-- The number of bytes in the left subtree of a text of more than one chunk: the greatest power of
two of chunks that leaves something for the right subtree. -/
def leftSize (length : Nat) : Nat :=
  1024 * Nat.pow 2 ((length - 1) / 1024).log2

theorem leftSize_pos (length : Nat) : 0 < leftSize length :=
  Nat.mul_pos (by decide) (Nat.pow_pos (by decide))

theorem leftSize_lt {length : Nat} (h : 1024 < length) : leftSize length < length := by
  have hne : (length - 1) / 1024 ≠ 0 := by
    have := Nat.div_le_div_right (c := 1024) (show 1024 ≤ length - 1 by omega)
    omega
  have hlog := Nat.log2_self_le hne
  have hmul := Nat.div_mul_le_self (length - 1) 1024
  unfold leftSize
  calc
    1024 * 2 ^ ((length - 1) / 1024).log2 ≤ 1024 * ((length - 1) / 1024) :=
      Nat.mul_le_mul_left _ hlog
    _ < length := by omega

/-- The last compression of a subtree whose first chunk has the given number. -/
def treeInput (counter : UInt64) (bytes : Bytes) : Input :=
  if 1024 < bytes.length then
    let size := leftSize bytes.length
    let left := compress (treeInput counter (bytes.take size))
    let right := compress (treeInput (counter + UInt64.ofNat (size / 1024)) (bytes.drop size))
    ⟨initial, left ++ right, 0, 64, parent⟩
  else chunkInput counter initial chunkStart bytes
termination_by bytes.length
decreasing_by
  · rename_i h
    have := leftSize_lt h
    simp only [List.length_take]
    omega
  · rename_i h
    have := leftSize_lt h
    have := leftSize_pos bytes.length
    simp only [List.length_drop]
    omega

/-- The bytes of eight words. -/
def digestOf (words : Chain) : Digest :=
  ⟨List.ofFn fun i : Fin 32 =>
    (words.get ⟨i.val / 4, by omega⟩ >>> UInt32.ofNat (8 * (i.val % 4))).toUInt8, List.length_ofFn⟩

/-- The hash of some bytes. -/
def hash (bytes : Bytes) : Digest :=
  let input := treeInput 0 bytes
  digestOf (compress { input with flags := input.flags + root })

end Blake3

end UriRouting.Snapshot
