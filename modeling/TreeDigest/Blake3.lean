import TreeDigest.Digest

/-!
The BLAKE3 hash of a byte string.

The input is cut into chunks of 1024 bytes and each chunk into blocks of 64.
A chunk is compressed block by block. The chunks are the leaves of a binary
tree in which every left subtree is complete; joining neighbours level by
level, with an odd last node carried up as it is, builds exactly that tree.
The last compression, of the only chunk or of the topmost join, is the root
and gives the digest.
-/

namespace TreeDigest.Blake3

/-- The initial chaining value. -/
def initial : Vector UInt32 8 :=
  #v[0x6A09E667, 0xBB67AE85, 0x3C6EF372, 0xA54FF53A, 0x510E527F, 0x9B05688C, 0x1F83D9AB, 0x5BE0CD19]

/-- Where each message word of the next round comes from. -/
def permutation : Vector (Fin 16) 16 := #v[2, 6, 3, 10, 7, 0, 4, 13, 1, 11, 12, 5, 9, 14, 15, 8]

/-- The flags of a compression. -/
def chunkStart : UInt32 := 1
@[inherit_doc chunkStart] def chunkEnd : UInt32 := 2
@[inherit_doc chunkStart] def parent : UInt32 := 4
@[inherit_doc chunkStart] def root : UInt32 := 8

/-- Rotation of a word to the right. -/
def rotateRight (w : UInt32) (n : UInt32) : UInt32 := (w >>> n) ||| (w <<< (32 - n))

/-- The sixteen words that a compression works on. -/
abbrev State := Vector UInt32 16

/-- The quarter round on four words of the state. -/
def mix (s : State) (a b c d : Fin 16) (x y : UInt32) : State :=
  let va := s[a] + s[b] + x
  let vd := rotateRight (s[d] ^^^ va) 16
  let vc := s[c] + vd
  let vb := rotateRight (s[b] ^^^ vc) 12
  let va := va + vb + y
  let vd := rotateRight (vd ^^^ va) 8
  let vc := vc + vd
  let vb := rotateRight (vb ^^^ vc) 7
  (((s.set a va).set b vb).set c vc).set d vd

/-- One round: the columns, then the diagonals. -/
def round (s : State) (m : Vector UInt32 16) : State :=
  let s := mix s 0 4 8 12 m[0] m[1]
  let s := mix s 1 5 9 13 m[2] m[3]
  let s := mix s 2 6 10 14 m[4] m[5]
  let s := mix s 3 7 11 15 m[6] m[7]
  let s := mix s 0 5 10 15 m[8] m[9]
  let s := mix s 1 6 11 12 m[10] m[11]
  let s := mix s 2 7 8 13 m[12] m[13]
  mix s 3 4 9 14 m[14] m[15]

/-- The given number of rounds, the message words permuted between them. -/
def rounds : Nat → State → Vector UInt32 16 → State
  | 0, s, _ => s
  | n + 1, s, m => rounds n (round s m) (permutation.map fun i => m[i])

/-- A compression that has still to be made. -/
structure Node where
  chain : Vector UInt32 8
  block : Vector UInt32 16
  counter : UInt64
  length : UInt32
  flags : UInt32

/-- The eight words that a compression leaves. -/
def Node.compress (n : Node) (flags : UInt32) : Vector UInt32 8 :=
  let h := n.chain
  let s : State := #v[h[0], h[1], h[2], h[3], h[4], h[5], h[6], h[7],
    initial[0], initial[1], initial[2], initial[3],
    n.counter.toUInt32, (n.counter >>> 32).toUInt32, n.length, flags]
  let s := rounds 7 s n.block
  .ofFn fun i : Fin 8 => s[i.val] ^^^ s[i.val + 8]

/-- The chaining value that a node hands on. -/
def Node.value (n : Node) : Vector UInt32 8 := n.compress n.flags

/-- The word of four bytes, the lowest first; missing bytes are zero. -/
def word : Bytes → UInt32
  | [] => 0
  | b :: rest => b.toUInt32 ||| (word rest <<< 8)

/-- The sixteen words of a block of at most 64 bytes. -/
def blockWords (block : Bytes) : Vector UInt32 16 :=
  let bytes := block.toArray
  .ofFn fun i : Fin 16 => word (bytes.extract (4 * i.val) (4 * i.val + 4)).toList

/-- The pieces of the given length of a byte string, the last one shorter. -/
def cut (size : Nat) (bytes : Bytes) : List Bytes := go bytes.length bytes
where
  /-- At most as many pieces as given. -/
  go : Nat → Bytes → List Bytes
    | 0, _ => []
    | _ + 1, [] => []
    | n + 1, b :: rest => (b :: rest).take size :: go n ((b :: rest).drop size)

/-- The node of a chunk, from the blocks still to come and the flag for the
first of them. -/
def chunkNode (counter : UInt64) (chain : Vector UInt32 8) (start : UInt32) : List Bytes → Node
  | [] => ⟨chain, .replicate 16 0, counter, 0, start ||| chunkEnd⟩
  | [last] => ⟨chain, blockWords last, counter, UInt32.ofNat last.length, start ||| chunkEnd⟩
  | block :: rest =>
    let node : Node := ⟨chain, blockWords block, counter, UInt32.ofNat block.length, start⟩
    chunkNode counter node.value 0 rest

/-- The node that joins two neighbours. -/
def join (left right : Node) : Node :=
  ⟨initial, (left.value ++ right.value : Vector UInt32 (8 + 8)), 0, 64, parent⟩

/-- The nodes one level up. -/
def level : List Node → List Node
  | left :: right :: rest => join left right :: level rest
  | nodes => nodes

/-- The topmost node, after at most the given number of levels. -/
def top : Nat → Node → List Node → Node
  | _, first, [] => first
  | 0, first, _ => first
  | n + 1, first, second :: rest => top n (join first second) (level rest)

/-- The four bytes of a word, the lowest first. -/
def wordBytes (w : UInt32) : Vector UInt8 4 :=
  #v[w.toUInt8, (w >>> 8).toUInt8, (w >>> 16).toUInt8, (w >>> 24).toUInt8]

/-- The digest of the topmost node. -/
def Node.digest (n : Node) : Digest :=
  let words := n.compress (n.flags ||| root)
  ⟨.ofFn fun i : Fin 32 => (wordBytes (words.get ⟨i.val / 4, by omega⟩)).get ⟨i.val % 4, by omega⟩⟩

/-- The BLAKE3 digest of a byte string. -/
def hash (bytes : Bytes) : Digest :=
  let node (chunk : Bytes) (index : Nat) : Node :=
    chunkNode (UInt64.ofNat index) initial chunkStart (cut 64 chunk)
  match (cut 1024 bytes).mapIdx fun i chunk => node chunk i with
  | [] => (node [] 0).digest
  | first :: rest => (top bytes.length first rest).digest

end TreeDigest.Blake3
