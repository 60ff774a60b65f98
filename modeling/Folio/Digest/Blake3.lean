/-!
# The BLAKE3 digest

The input is cut into chunks of 1024 bytes and each chunk into blocks of 64
bytes.  The blocks of a chunk are compressed one after the other; the chaining
values of the chunks are combined pairwise, level by level, an odd one out going
up unchanged, until one node is left.  The last compression carries a flag of its
own and gives the digest of 32 bytes.
-/

namespace Folio.Digest

/-- Four words that are worked on side by side. -/
structure Row where
  w0 : UInt32
  w1 : UInt32
  w2 : UInt32
  w3 : UInt32
deriving DecidableEq, Inhabited

namespace Row

/-- Apply an operation lane by lane. -/
def zip (f : UInt32 → UInt32 → UInt32) (x y : Row) : Row :=
  ⟨f x.w0 y.w0, f x.w1 y.w1, f x.w2 y.w2, f x.w3 y.w3⟩

/-- Add lane by lane. -/
def add (x y : Row) : Row := zip (· + ·) x y

/-- Combine lane by lane by exclusive or. -/
def xor (x y : Row) : Row := zip (· ^^^ ·) x y

/-- Rotate every word to the right. -/
def rotateWords (x : Row) (count : UInt32) : Row :=
  let rotate (word : UInt32) := (word >>> count) ||| (word <<< (32 - count))
  ⟨rotate x.w0, rotate x.w1, rotate x.w2, rotate x.w3⟩

/-- Move every word one lane to the left. -/
def shiftLanes (x : Row) : Row := ⟨x.w1, x.w2, x.w3, x.w0⟩

/-- The four words in order. -/
def toList (x : Row) : List UInt32 := [x.w0, x.w1, x.w2, x.w3]

end Row

/-- A chaining value of eight words. -/
structure Chain where
  low : Row
  high : Row
deriving DecidableEq, Inhabited

/-- The words that every computation starts with. -/
def initial : Chain :=
  ⟨⟨0x6A09E667, 0xBB67AE85, 0x3C6EF372, 0xA54FF53A⟩,
   ⟨0x510E527F, 0x9B05688C, 0x1F83D9AB, 0x5BE0CD19⟩⟩

/-- The sixteen words that are being mixed, in four rows. -/
structure Mixture where
  a : Row
  b : Row
  c : Row
  d : Row

/-- Mix each column with a pair of message words. -/
def Mixture.mixColumns (state : Mixture) (x y : Row) : Mixture :=
  let a := (state.a.add state.b).add x
  let d := (state.d.xor a).rotateWords 16
  let c := state.c.add d
  let b := (state.b.xor c).rotateWords 12
  let a := (a.add b).add y
  let d := (d.xor a).rotateWords 8
  let c := c.add d
  let b := (b.xor c).rotateWords 7
  ⟨a, b, c, d⟩

/-- Turn the diagonals into columns. -/
def Mixture.skew (state : Mixture) : Mixture :=
  ⟨state.a, state.b.shiftLanes, state.c.shiftLanes.shiftLanes,
    state.d.shiftLanes.shiftLanes.shiftLanes⟩

/-- Turn the columns back into diagonals. -/
def Mixture.unskew (state : Mixture) : Mixture :=
  ⟨state.a, state.b.shiftLanes.shiftLanes.shiftLanes, state.c.shiftLanes.shiftLanes,
    state.d.shiftLanes⟩

/-- The sixteen words of a block. -/
structure Block where
  m0 : Row
  m1 : Row
  m2 : Row
  m3 : Row
deriving DecidableEq, Inhabited

/-- Reorder the words of a block between two rounds. -/
def Block.permute (m : Block) : Block :=
  ⟨⟨m.m0.w2, m.m1.w2, m.m0.w3, m.m2.w2⟩, ⟨m.m1.w3, m.m0.w0, m.m1.w0, m.m3.w1⟩,
   ⟨m.m0.w1, m.m2.w3, m.m3.w0, m.m1.w1⟩, ⟨m.m2.w1, m.m3.w2, m.m3.w3, m.m2.w0⟩⟩

/-- One round: the columns take the first half of the block, the diagonals the
second. -/
def Mixture.round (state : Mixture) (m : Block) : Mixture :=
  let columns := state.mixColumns ⟨m.m0.w0, m.m0.w2, m.m1.w0, m.m1.w2⟩
    ⟨m.m0.w1, m.m0.w3, m.m1.w1, m.m1.w3⟩
  (columns.skew.mixColumns ⟨m.m2.w0, m.m2.w2, m.m3.w0, m.m3.w2⟩
    ⟨m.m2.w1, m.m2.w3, m.m3.w1, m.m3.w3⟩).unskew

/-- A number of rounds, the block being reordered in between. -/
def Mixture.rounds (state : Mixture) (m : Block) : Nat → Mixture
  | 0 => state
  | n + 1 => (state.round m).rounds m.permute n

/-- What one compression works on. -/
structure Node where
  chain : Chain
  block : Block
  counter : Nat
  size : Nat
  flags : UInt32

/-- The flag of the first block of a chunk. -/
def chunkStart : UInt32 := 1

/-- The flag of the last block of a chunk. -/
def chunkEnd : UInt32 := 2

/-- The flag of a node above two others. -/
def parentFlag : UInt32 := 4

/-- The flag of the last compression. -/
def rootFlag : UInt32 := 8

/-- Compress a node to a chaining value. -/
def Node.compress (node : Node) (extra : UInt32) : Chain :=
  let start : Mixture :=
    ⟨node.chain.low, node.chain.high, initial.low,
      ⟨node.counter.toUInt32, (node.counter >>> 32).toUInt32, node.size.toUInt32,
        node.flags ||| extra⟩⟩
  let mixed := start.rounds node.block 7
  ⟨mixed.a.xor mixed.c, mixed.b.xor mixed.d⟩

/-- The little-endian word at the front of a list of bytes; missing bytes count
as zero. -/
def takeWord : List UInt8 → UInt32 × List UInt8
  | b0 :: b1 :: b2 :: b3 :: rest =>
      (b0.toUInt32 ||| (b1.toUInt32 <<< 8) ||| (b2.toUInt32 <<< 16) ||| (b3.toUInt32 <<< 24),
        rest)
  | bytes =>
      let byte (i : Nat) : UInt32 := (bytes[i]?.getD 0).toUInt32
      (byte 0 ||| (byte 1 <<< 8) ||| (byte 2 <<< 16), [])

/-- The row of words at the front of a list of bytes. -/
def takeRow (bytes : List UInt8) : Row × List UInt8 :=
  let (w0, bytes) := takeWord bytes
  let (w1, bytes) := takeWord bytes
  let (w2, bytes) := takeWord bytes
  let (w3, bytes) := takeWord bytes
  (⟨w0, w1, w2, w3⟩, bytes)

/-- A block from at most 64 bytes. -/
def Block.ofBytes (bytes : List UInt8) : Block :=
  let (m0, bytes) := takeRow bytes
  let (m1, bytes) := takeRow bytes
  let (m2, bytes) := takeRow bytes
  let (m3, _) := takeRow bytes
  ⟨m0, m1, m2, m3⟩

/-- Cut a list into pieces of a size; the last piece is the rest, and an empty
list is one empty piece. -/
def pieces (size : Nat) : (steps : Nat) → List UInt8 → List (List UInt8)
  | 0, _ => []
  | steps + 1, bytes =>
      match bytes.drop size with
      | [] => [bytes]
      | rest => bytes.take size :: pieces size steps rest

/-- Compress the blocks of a chunk up to the last one, which is left pending. -/
def chunkFrom (counter : Nat) (chain : Chain) (flags : UInt32) : List (List UInt8) → Node
  | [] => ⟨chain, .ofBytes [], counter, 0, flags ||| chunkEnd⟩
  | [last] => ⟨chain, .ofBytes last, counter, last.length, flags ||| chunkEnd⟩
  | block :: rest =>
      let node : Node := ⟨chain, .ofBytes block, counter, block.length, flags⟩
      chunkFrom counter (node.compress 0) 0 rest

/-- The node of a chunk. -/
def chunkNode (counter : Nat) (bytes : List UInt8) : Node :=
  chunkFrom counter initial chunkStart (pieces 64 (bytes.length + 1) bytes)

/-- The nodes of consecutive chunks. -/
def chunkNodes (counter : Nat) : List (List UInt8) → List Node
  | [] => []
  | bytes :: rest => chunkNode counter bytes :: chunkNodes (counter + 1) rest

/-- The node above two nodes. -/
def parentNode (left right : Node) : Node :=
  let left := left.compress 0
  let right := right.compress 0
  ⟨initial, ⟨left.low, left.high, right.low, right.high⟩, 0, 64, parentFlag⟩

/-- Combine neighbouring nodes; an odd one out stays. -/
def combineLevel : List Node → List Node
  | left :: right :: rest => parentNode left right :: combineLevel rest
  | nodes => nodes

/-- Combine level by level until one node is left. -/
def combine : (levels : Nat) → List Node → Node
  | 0, nodes => nodes.headD (chunkNode 0 [])
  | levels + 1, nodes =>
      match nodes with
      | [single] => single
      | nodes => combine levels (combineLevel nodes)

/-- The eight words of a digest. -/
def blake3Words (bytes : List UInt8) : List UInt32 :=
  let nodes := chunkNodes 0 (pieces 1024 (bytes.length + 1) bytes)
  let root := (combine nodes.length nodes).compress rootFlag
  root.low.toList ++ root.high.toList

/-- The two lower-case hexadecimal digits of a byte. -/
def byteHex (byte : UInt8) : List Char :=
  [Nat.digitChar (byte.toNat / 16), Nat.digitChar (byte.toNat % 16)]

/-- The eight hexadecimal digits of a word, least significant byte first. -/
def wordHex (word : UInt32) : List Char :=
  byteHex word.toUInt8 ++ byteHex (word >>> 8).toUInt8 ++
    byteHex (word >>> 16).toUInt8 ++ byteHex (word >>> 24).toUInt8

/-- The digest of bytes in hexadecimal. -/
def blake3Hex (bytes : List UInt8) : List Char :=
  (blake3Words bytes).flatMap wordHex

/-- The digest of the UTF-8 encoding of a text in hexadecimal. -/
def blake3 (text : String) : String :=
  String.ofList (blake3Hex text.toUTF8.data.toList)

/-- The first eight hexadecimal digits of the digest of a text. -/
def stamp (text : String) : String :=
  String.ofList ((blake3Hex text.toUTF8.data.toList).take 8)

theorem length_blake3Hex (bytes : List UInt8) : (blake3Hex bytes).length = 64 := by
  simp [blake3Hex, blake3Words, Row.toList, wordHex, byteHex]

end Folio.Digest
