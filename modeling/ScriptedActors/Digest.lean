import ScriptedActors.Text.Utf8
set_option autoImplicit false

/-!
# Digests

The BLAKE3 digest of a byte sequence. The bytes are cut into chunks of 1024 and these into blocks
of 64; the chunks are the leaves of a binary tree whose nodes are joined pairwise, level by level,
where an odd one at the end of a level moves up as it is.
-/
namespace ScriptedActors.Digest

/-- The words of a state or a block, at most sixteen. -/
abbrev Words := Array UInt32

def initialWords : Words :=
  #[0x6A09E667, 0xBB67AE85, 0x3C6EF372, 0xA54FF53A, 0x510E527F, 0x9B05688C, 0x1F83D9AB, 0x5BE0CD19]

def permutation : Array Nat := #[2, 6, 3, 10, 7, 0, 4, 13, 1, 11, 12, 5, 9, 14, 15, 8]

def chunkStart : UInt32 := 1
def chunkEnd : UInt32 := 2
def parent : UInt32 := 4
def root : UInt32 := 8

def rotateRight (x : UInt32) (n : UInt32) : UInt32 := (x >>> n) ||| (x <<< (32 - n))

def mix (state : Words) (a b c d : Nat) (x y : UInt32) : Words :=
  let va := state.getD a 0
  let vb := state.getD b 0
  let vc := state.getD c 0
  let vd := state.getD d 0
  let va := va + vb + x
  let vd := rotateRight (vd ^^^ va) 16
  let vc := vc + vd
  let vb := rotateRight (vb ^^^ vc) 12
  let va := va + vb + y
  let vd := rotateRight (vd ^^^ va) 8
  let vc := vc + vd
  let vb := rotateRight (vb ^^^ vc) 7
  (((state.setIfInBounds a va).setIfInBounds b vb).setIfInBounds c vc).setIfInBounds d vd

def lanes : List (Nat × Nat × Nat × Nat) :=
  [(0, 4, 8, 12), (1, 5, 9, 13), (2, 6, 10, 14), (3, 7, 11, 15),
    (0, 5, 10, 15), (1, 6, 11, 12), (2, 7, 8, 13), (3, 4, 9, 14)]

def round (state block : Words) : Words :=
  (lanes.zipIdx).foldl (fun s ((a, b, c, d), i) =>
    mix s a b c d (block.getD (2 * i) 0) (block.getD (2 * i + 1) 0)) state

def rounds : Nat → Words → Words → Words
  | 0, state, _ => state
  | n + 1, state, block => rounds n (round state block) (permutation.map fun i => block.getD i 0)

/-- What is compressed at one node: the words so far, a block, its place and its length. -/
structure Node where
  chaining : Words
  block : Words
  counter : Nat
  length : Nat
  flags : UInt32

def Node.compress (n : Node) : Words :=
  let state := n.chaining ++ initialWords.take 4 ++
    #[UInt32.ofNat n.counter, UInt32.ofNat (n.counter >>> 32), UInt32.ofNat n.length, n.flags]
  let mixed := rounds 7 state n.block
  (Array.range 8).map fun i => mixed.getD i 0 ^^^ mixed.getD (i + 8) 0

/-- The words of up to 64 bytes, the least byte first, with zeros after them. -/
def wordsOf (bytes : List UInt8) : Words :=
  let bytes := bytes.toArray
  (Array.range 16).map fun i =>
    (bytes.getD (4 * i) 0).toUInt32 ||| ((bytes.getD (4 * i + 1) 0).toUInt32 <<< 8) |||
      ((bytes.getD (4 * i + 2) 0).toUInt32 <<< 16) ||| ((bytes.getD (4 * i + 3) 0).toUInt32 <<< 24)

def pieces {α : Type} (size : Nat) : Nat → List α → List (List α)
  | 0, _ => []
  | limit + 1, xs => if xs = [] then [] else xs.take size :: pieces size limit (xs.drop size)

def cut {α : Type} (size : Nat) (xs : List α) : List (List α) :=
  match pieces size (xs.length / size + 1) xs with
  | [] => [[]]
  | ps => ps

def chunkFrom (counter : Nat) (chaining : Words) (flags : UInt32) : List (List UInt8) → Node
  | [] => ⟨chaining, wordsOf [], counter, 0, flags ||| chunkEnd⟩
  | [block] => ⟨chaining, wordsOf block, counter, block.length, flags ||| chunkEnd⟩
  | block :: blocks =>
    chunkFrom counter (Node.compress ⟨chaining, wordsOf block, counter, block.length, flags⟩) 0 blocks

def chunk (counter : Nat) (bytes : List UInt8) : Node :=
  chunkFrom counter initialWords chunkStart (cut 64 bytes)

def join (left right : Node) : Node :=
  ⟨initialWords, left.compress ++ right.compress, 0, 64, parent⟩

/-- Join the nodes of one level pairwise. -/
def level : List Node → List Node
  | left :: right :: nodes => join left right :: level nodes
  | nodes => nodes

def top : Nat → List Node → Option Node
  | _, [] => none
  | _, [node] => some node
  | 0, node :: _ => some node
  | limit + 1, nodes => top limit (level nodes)

def bytesOf (words : Words) : List UInt8 :=
  words.toList.flatMap fun (w : UInt32) => [w.toUInt8, (w >>> 8).toUInt8, (w >>> 16).toUInt8, (w >>> 24).toUInt8]

def ofBytes (bytes : List UInt8) : List UInt8 :=
  let chunks := (cut 1024 bytes).zipIdx.map fun (piece, i) => chunk i piece
  match top chunks.length chunks with
  | none => []
  | some node => bytesOf ({ node with flags := node.flags ||| root }).compress

def hexText (bytes : List UInt8) : String :=
  String.ofList (bytes.flatMap fun b => [Nat.digitChar (b.toNat / 16), Nat.digitChar (b.toNat % 16)])

def ofText (text : String) : String := hexText (ofBytes (Text.Utf8.encode text))

end ScriptedActors.Digest
