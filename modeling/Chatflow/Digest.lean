/-
# Digests

The digest of a text is the BLAKE3 hash of its bytes, as 64 hexadecimal digits.  The bytes are cut
into chunks of 1024 and the chunks are hashed in a binary tree: the left part of every inner node
is the largest power of two of chunks that leaves something for the right part.  Each chunk is
hashed in blocks of 64 bytes, the result of each block being the starting point of the next.
-/
import Chatflow.Document

namespace Chatflow.Digest

/-- Eight words: what is passed on from block to block and from chunk to parent. -/
abbrev Chain := Vector UInt32 8

/-- Sixteen words: a block of input, or the state of the compression function. -/
abbrev Block := Vector UInt32 16

/-- The words that every hash starts from. -/
def initial : Chain :=
  #v[0x6A09E667, 0xBB67AE85, 0x3C6EF372, 0xA54FF53A, 0x510E527F, 0x9B05688C, 0x1F83D9AB, 0x5BE0CD19]

/-- Marks the first block of a chunk. -/
def chunkStart : UInt32 := 1

/-- Marks the last block of a chunk. -/
def chunkEnd : UInt32 := 2

/-- Marks a parent. -/
def parent : UInt32 := 4

/-- Marks the last compression of all. -/
def root : UInt32 := 8

/-- The bits of a word moved to the right, those that fall out coming back on the left. -/
def rotateRight (x n : UInt32) : UInt32 := (x >>> n) ||| (x <<< (32 - n))

/-- Mixes two words into four words of the state. -/
def quarter (v : Block) (a b c d : Fin 16) (x y : UInt32) : Block :=
  let v := v.set a (v[a] + v[b] + x)
  let v := v.set d (rotateRight (v[d] ^^^ v[a]) 16)
  let v := v.set c (v[c] + v[d])
  let v := v.set b (rotateRight (v[b] ^^^ v[c]) 12)
  let v := v.set a (v[a] + v[b] + y)
  let v := v.set d (rotateRight (v[d] ^^^ v[a]) 8)
  let v := v.set c (v[c] + v[d])
  v.set b (rotateRight (v[b] ^^^ v[c]) 7)

/-- Mixes a block into the state, by columns and by diagonals. -/
def round (v m : Block) : Block :=
  let v := quarter v 0 4 8 12 m[0] m[1]
  let v := quarter v 1 5 9 13 m[2] m[3]
  let v := quarter v 2 6 10 14 m[4] m[5]
  let v := quarter v 3 7 11 15 m[6] m[7]
  let v := quarter v 0 5 10 15 m[8] m[9]
  let v := quarter v 1 6 11 12 m[10] m[11]
  let v := quarter v 2 7 8 13 m[12] m[13]
  quarter v 3 4 9 14 m[14] m[15]

/-- The words of a block in the order in which the next round takes them. -/
def permute (m : Block) : Block :=
  #v[m[2], m[6], m[3], m[10], m[7], m[0], m[4], m[13],
    m[1], m[11], m[12], m[5], m[9], m[14], m[15], m[8]]

/-- A number of rounds. -/
def rounds : Nat → Block → Block → Block
  | 0, v, _ => v
  | n + 1, v, m => rounds n (round v m) (permute m)

/-- Hashes a block of `length` bytes into the chain. -/
def compress (h : Chain) (m : Block) (counter : UInt64) (length flags : UInt32) : Chain :=
  let v : Block := #v[h[0], h[1], h[2], h[3], h[4], h[5], h[6], h[7],
    initial[0], initial[1], initial[2], initial[3],
    counter.toUInt32, (counter >>> 32).toUInt32, length, flags]
  let v := rounds 7 v m
  #v[v[0] ^^^ v[8], v[1] ^^^ v[9], v[2] ^^^ v[10], v[3] ^^^ v[11],
    v[4] ^^^ v[12], v[5] ^^^ v[13], v[6] ^^^ v[14], v[7] ^^^ v[15]]

/-- The byte at a place before `stop`, and zero from there on. -/
def byteAt (bytes : ByteArray) (stop i : Nat) : UInt32 :=
  if h : i < bytes.size then if i < stop then bytes[i].toUInt32 else 0 else 0

/-- The word at a place, its lowest byte first. -/
def wordAt (bytes : ByteArray) (stop i : Nat) : UInt32 :=
  byteAt bytes stop i ||| (byteAt bytes stop (i + 1) <<< 8) |||
    (byteAt bytes stop (i + 2) <<< 16) ||| (byteAt bytes stop (i + 3) <<< 24)

/-- The block at a place, filled up with zeros. -/
def blockAt (bytes : ByteArray) (stop i : Nat) : Block :=
  Vector.ofFn fun k : Fin 16 => wordAt bytes stop (i + 4 * k)

/-- Hashes the blocks from `i` to `stop`, of which the last also gets the marks `flags`. -/
def chunkFrom (bytes : ByteArray) (counter : UInt64) (flags : UInt32) (h : Chain) (first : UInt32)
    (stop i : Nat) : Chain :=
  if stop ≤ i + 64 then
    compress h (blockAt bytes stop i) counter (stop - i).toUInt32 (first ||| chunkEnd ||| flags)
  else
    chunkFrom bytes counter flags (compress h (blockAt bytes stop i) counter 64 first) 0 stop
      (i + 64)
termination_by stop - i

/-- The bytes of a chunk. -/
def chunkSize : Nat := 1024

/-- How many of `length` bytes, more than a chunk, stand in the left part of their tree. -/
def leftLength (length : Nat) : Nat := chunkSize <<< Nat.log2 ((length - 1) / chunkSize)

theorem leftLength_lt {length : Nat} (h : chunkSize < length) : leftLength length < length := by
  have h1 : (length - 1) / chunkSize ≠ 0 := by
    simp [chunkSize] at *; omega
  have h2 := Nat.log2_self_le h1
  have h3 : chunkSize * ((length - 1) / chunkSize) ≤ length - 1 := Nat.mul_div_le _ _
  have h4 : leftLength length ≤ chunkSize * ((length - 1) / chunkSize) := by
    rw [leftLength, Nat.shiftLeft_eq]
    exact Nat.mul_le_mul_left _ h2
  omega

theorem leftLength_pos (length : Nat) : 0 < leftLength length := by
  rw [leftLength, Nat.shiftLeft_eq]
  exact Nat.mul_pos (by decide) (Nat.two_pow_pos _)

/-- Hashes `length` bytes from `start` on as a tree of chunks; `flags` go to the last
compression. -/
def tree (bytes : ByteArray) (flags : UInt32) (start length : Nat) : Chain :=
  if _h : length ≤ chunkSize then
    chunkFrom bytes (start / chunkSize).toUInt64 flags initial chunkStart (start + length) start
  else
    let left := tree bytes 0 start (leftLength length)
    let right := tree bytes 0 (start + leftLength length) (length - leftLength length)
    compress initial (left ++ right) 0 64 (parent ||| flags)
termination_by length
decreasing_by
  · exact leftLength_lt (by omega)
  · have := leftLength_pos length
    have := leftLength_lt (Nat.lt_of_not_le _h)
    omega

/-- The hash of bytes. -/
def ofBytes (bytes : ByteArray) : Chain := tree bytes root 0 bytes.size

/-- The digits of a byte. -/
def byteHex (b : UInt32) : List Char :=
  [Nat.digitChar (b.toNat / 16 % 16), Nat.digitChar (b.toNat % 16)]

/-- The digits of a word, its lowest byte first. -/
def wordHex (w : UInt32) : List Char :=
  byteHex w ++ byteHex (w >>> 8) ++ byteHex (w >>> 16) ++ byteHex (w >>> 24)

/-- A hash in hexadecimal digits. -/
def hex (h : Chain) : String := String.ofList (h.toList.flatMap wordHex)

/-- The digest of a text. -/
def ofText (s : String) : String := hex (ofBytes s.toUTF8)

end Chatflow.Digest

/-- The digest of a document's text. -/
def Chatflow.Document.digest (d : Chatflow.Document) : String := Chatflow.Digest.ofText d.text
