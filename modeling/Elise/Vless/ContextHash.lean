/-
Elise/Vless/ContextHash.lean

How a context is hashed before a key is derived from it
(protocol/vless/encryption/kdf.rs), and the hash function BLAKE3 that it is to be.

A context may be any bytes, while the library wants text, so the hash is computed by hand.
The arrays of words are vectors: the state has 16 words, of which the rows of the matrix follow
each other (`rows`).

The specification cuts the input into chunks of 1024 bytes, whose chaining values are the
leaves of a binary tree.  The compression works on a matrix of four by four words, of which
first the columns and then the diagonals are mixed.  The flags tell apart the first and the
last block of a chunk, the inner nodes of the tree and the root of it.

The result is the hash of the specification (`Blake3.hashContext`): one call of `g` mixes one
column or one diagonal (`g_columns`, `g_diagonals`), the loop over the blocks of a chunk is
`Blake3.chunkRest`, and the loop over the levels is the tree (`HashTree.reduce_eq`).
-/
import Elise.Lib.BlockTree

/-! ### The hash function -/

namespace Blake3

def iv : Vector UInt32 8 :=
  #v[0x6A09E667, 0xBB67AE85, 0x3C6EF372, 0xA54FF53A, 0x510E527F, 0x9B05688C, 0x1F83D9AB, 0x5BE0CD19]

/-- How the words of a message are permuted after a round. -/
def permutation : Vector (Fin 16) 16 := #v[2, 6, 3, 10, 7, 0, 4, 13, 1, 11, 12, 5, 9, 14, 15, 8]

def chunkStart : UInt32 := 1
def chunkEnd : UInt32 := 2
def parent : UInt32 := 4
def rootFlag : UInt32 := 8
def deriveKeyContext : UInt32 := 32

def rotateRight (x n : UInt32) : UInt32 := x >>> n ||| x <<< (32 - n)

/-- A column, or a diagonal, of the matrix. -/
structure Quad where
  a : UInt32
  b : UInt32
  c : UInt32
  d : UInt32

/-- A half of the function `G`. -/
def Quad.stir (q : Quad) (m r r' : UInt32) : Quad :=
  let a := q.a + q.b + m
  let d := rotateRight (q.d ^^^ a) r
  let c := q.c + d
  let b := rotateRight (q.b ^^^ c) r'
  ⟨a, b, c, d⟩

/-- The function `G`. -/
def Quad.mix (q : Quad) (x y : UInt32) : Quad := (q.stir x 16 12).stir y 8 7

/-- The matrix, by its columns or by its diagonals. -/
structure Quads where
  first : Quad
  second : Quad
  third : Quad
  fourth : Quad

/-- The diagonals of a matrix: the rows are shifted by 0, 1, 2 and 3 places. -/
def Quads.diagonals (v : Quads) : Quads :=
  ⟨⟨v.first.a, v.second.b, v.third.c, v.fourth.d⟩, ⟨v.second.a, v.third.b, v.fourth.c, v.first.d⟩,
    ⟨v.third.a, v.fourth.b, v.first.c, v.second.d⟩, ⟨v.fourth.a, v.first.b, v.second.c, v.third.d⟩⟩

/-- The columns of the matrix with these diagonals. -/
def Quads.columns (v : Quads) : Quads :=
  ⟨⟨v.first.a, v.fourth.b, v.third.c, v.second.d⟩, ⟨v.second.a, v.first.b, v.fourth.c, v.third.d⟩,
    ⟨v.third.a, v.second.b, v.first.c, v.fourth.d⟩, ⟨v.fourth.a, v.third.b, v.second.c, v.first.d⟩⟩

theorem Quads.columns_diagonals (v : Quads) : v.diagonals.columns = v := rfl

/-- The columns are mixed, and then the diagonals. -/
def round (v : Quads) (m : Vector UInt32 16) : Quads :=
  let v : Quads := ⟨v.first.mix m[0] m[1], v.second.mix m[2] m[3], v.third.mix m[4] m[5],
    v.fourth.mix m[6] m[7]⟩
  let v := v.diagonals
  let v : Quads := ⟨v.first.mix m[8] m[9], v.second.mix m[10] m[11], v.third.mix m[12] m[13],
    v.fourth.mix m[14] m[15]⟩
  v.columns

/-- Rounds, and between them the words of the message are permuted. -/
def rounds : (count : Nat) → Quads → Vector UInt32 16 → Quads
  | 0, v, _ => v
  | 1, v, m => round v m
  | count + 2, v, m => rounds (count + 1) (round v m) (permutation.map fun i => m[i])

/-- The chaining value of a block: `t` is the counter, `b` the length of the block, and `d` the
flags. -/
def compress (h : Vector UInt32 8) (m : Vector UInt32 16) (t : UInt64) (b d : UInt32) : Vector UInt32 8 :=
  let v := rounds 7 ⟨⟨h[0], h[4], iv[0], t.toUInt32⟩, ⟨h[1], h[5], iv[1], (t >>> 32).toUInt32⟩,
    ⟨h[2], h[6], iv[2], b⟩, ⟨h[3], h[7], iv[3], d⟩⟩ m
  #v[v.first.a ^^^ v.first.c, v.second.a ^^^ v.second.c, v.third.a ^^^ v.third.c, v.fourth.a ^^^ v.fourth.c,
    v.first.b ^^^ v.first.d, v.second.b ^^^ v.second.d, v.third.b ^^^ v.third.d, v.fourth.b ^^^ v.fourth.d]

/-- The words of a block, of which the missing bytes are zeros. -/
def blockWords (block : List UInt8) : Vector UInt32 16 := Vector.ofFn fun i => Net.u32LeAt block (4 * i)

/-- The chaining value of what is left of a chunk.  All blocks but the last one are full. -/
def chunkRest (flags lastFlags : UInt32) (counter : UInt64) (start : UInt32) (h : Vector UInt32 8)
    (input : List UInt8) : Vector UInt32 8 :=
  if _h : 64 < input.length then
    chunkRest flags lastFlags counter 0
      (compress h (blockWords (input.take 64)) counter 64 (flags ||| start)) (input.drop 64)
  else
    compress h (blockWords input) counter (UInt32.ofNat input.length) (flags ||| start ||| lastFlags)
termination_by input.length
decreasing_by
  rw [List.length_drop]
  omega

/-- The chaining value of a chunk. -/
def chunk (flags : UInt32) (counter : Nat) (input : List UInt8) : Vector UInt32 8 :=
  chunkRest flags chunkEnd (UInt64.ofNat counter) chunkStart iv input

/-- The chaining value of two of them. -/
def parentNode (flags : UInt32) (left right : Vector UInt32 8) : Vector UInt32 8 :=
  compress iv (left ++ right) 0 64 (flags ||| parent)

/-- The words that are put out: the flag of the root is on the last compression. -/
def root (flags : UInt32) (input : List UInt8) : Vector UInt32 8 :=
  if 1024 < input.length then
    let cut := HashTree.leftLen input.length
    parentNode (flags ||| rootFlag)
      (HashTree.subtree (chunk flags) (parentNode flags) 0 (input.take cut))
      (HashTree.subtree (chunk flags) (parentNode flags) (cut / 1024) (input.drop cut))
  else chunkRest flags (chunkEnd ||| rootFlag) 0 chunkStart iv input

/-- The words as bytes. -/
def wordBytes (words : Vector UInt32 8) : List UInt8 :=
  words.toList.flatMap fun word => Net.toLeBytes 4 word.toNat

/-- The hash of a context from which a key is derived. -/
def hashContext (context : List UInt8) : List UInt8 := wordBytes (root deriveKeyContext context)

end Blake3


namespace Elise.Vless.ContextHash

open Net Blake3

/-! ### The code -/

def IV : Vector UInt32 8 :=
  #v[0x6A09E667, 0xBB67AE85, 0x3C6EF372, 0xA54FF53A, 0x510E527F, 0x9B05688C, 0x1F83D9AB, 0x5BE0CD19]

def MSG_PERMUTATION : Vector (Fin 16) 16 := #v[2, 6, 3, 10, 7, 0, 4, 13, 1, 11, 12, 5, 9, 14, 15, 8]

def CHUNK_START : UInt8 := (1 : UInt8) <<< 0
def CHUNK_END : UInt8 := (1 : UInt8) <<< 1
def PARENT : UInt8 := (1 : UInt8) <<< 2
def ROOT : UInt8 := (1 : UInt8) <<< 3
def DERIVE_KEY_CONTEXT : UInt8 := (1 : UInt8) <<< 5

def g (state : Vector UInt32 16) (a b c d : Fin 16) (mx my : UInt32) : Vector UInt32 16 :=
  let state := state.set a (state[a] + state[b] + mx)
  let state := state.set d (rotateRight (state[d] ^^^ state[a]) 16)
  let state := state.set c (state[c] + state[d])
  let state := state.set b (rotateRight (state[b] ^^^ state[c]) 12)
  let state := state.set a (state[a] + state[b] + my)
  let state := state.set d (rotateRight (state[d] ^^^ state[a]) 8)
  let state := state.set c (state[c] + state[d])
  state.set b (rotateRight (state[b] ^^^ state[c]) 7)

def round (state m : Vector UInt32 16) : Vector UInt32 16 :=
  let state := g state 0 4 8 12 m[0] m[1]
  let state := g state 1 5 9 13 m[2] m[3]
  let state := g state 2 6 10 14 m[4] m[5]
  let state := g state 3 7 11 15 m[6] m[7]
  let state := g state 0 5 10 15 m[8] m[9]
  let state := g state 1 6 11 12 m[10] m[11]
  let state := g state 2 7 8 13 m[12] m[13]
  g state 3 4 9 14 m[14] m[15]

/-- The words of a block; each chunk of four bytes is filled up with zeros. -/
def loadWords (block : List UInt8) : Vector UInt32 16 :=
  let chunks := Chunks.chunks 4 block
  Vector.ofFn fun i => match chunks[i.val]? with
    | some chunk => UInt32.ofNat (ofBeBytes (chunk ++ List.replicate (4 - chunk.length) 0).reverse)
    | none => 0

/-- The loop over the rounds, with the words for the next round. -/
def roundLoop : (count : Nat) → (state m : Vector UInt32 16) → Vector UInt32 16
  | 0, state, _ => state
  | count + 1, state, m => roundLoop count (round state m) (Vector.ofFn fun i => m[MSG_PERMUTATION[i]])

/-- One pass of the loop over the result. -/
def outStep (cv : Vector UInt32 8) (state : Vector UInt32 16) (i : Fin 8) : Vector UInt32 16 :=
  let state := state.set i (state[i] ^^^ state[i.val + 8])
  state.set (i.val + 8) (state[i.val + 8] ^^^ cv[i])

def compressBlock (cv : Vector UInt32 8) (block : List UInt8) (blockLen : UInt8) (counter : UInt64)
    (flags : UInt8) : Vector UInt32 16 :=
  let state := #v[cv[0], cv[1], cv[2], cv[3], cv[4], cv[5], cv[6], cv[7], IV[0], IV[1], IV[2], IV[3],
    counter.toUInt32, (counter >>> 32).toUInt32, blockLen.toUInt32, flags.toUInt32]
  let state := roundLoop 7 state (loadWords block)
  (List.finRange 8).foldl (outStep cv) state

/-- The first eight words. -/
def firstWords (out : Vector UInt32 16) : Vector UInt32 8 := Vector.ofFn fun i => out[i]

/-- The flags of a block. -/
def blockFlags (isRoot : Bool) (numBlocks i : Nat) : UInt8 :=
  let flags := DERIVE_KEY_CONTEXT
  let flags := if i = 0 then flags ||| CHUNK_START else flags
  if i = numBlocks - 1 then
    let flags := flags ||| CHUNK_END
    if isRoot then flags ||| ROOT else flags
  else flags

/-- One pass of the loop over the blocks. -/
def chunkStep (chunkBytes : List UInt8) (chunkCounter : UInt64) (isRoot : Bool) (numBlocks : Nat)
    (cv : Vector UInt32 8) (i : Nat) : Vector UInt32 8 :=
  let start := i * 64
  let stop := min (start + 64) chunkBytes.length
  let block := (chunkBytes.drop start).take (stop - start)
  firstWords (compressBlock cv block (UInt8.ofNat block.length) chunkCounter
    (blockFlags isRoot numBlocks i))

def hashContextChunk (chunkBytes : List UInt8) (chunkCounter : UInt64) (isRoot : Bool) : Vector UInt32 8 :=
  let totalLen := chunkBytes.length
  if totalLen = 0 then
    let rootFlag := if isRoot then ROOT else 0
    firstWords (compressBlock IV [] 0 chunkCounter
      (CHUNK_START ||| CHUNK_END ||| rootFlag ||| DERIVE_KEY_CONTEXT))
  else
    let numBlocks := (totalLen + 63) / 64
    (List.range numBlocks).foldl (chunkStep chunkBytes chunkCounter isRoot numBlocks) IV

/-- The words, each the least significant byte first. -/
def leBytes (words : Vector UInt32 8) : List UInt8 :=
  words.toList.flatMap fun word => toLeBytes 4 word.toNat

/-- One pass of the loop over the levels. -/
def nextLevel (chunkCvs : List (Vector UInt32 8)) : List (Vector UInt32 8) :=
  (Chunks.chunks 2 chunkCvs).map fun
    | [first, second] =>
        let parentBlock := leBytes first ++ leBytes second
        let rootFlag := if chunkCvs.length = 2 then ROOT else 0
        firstWords (compressBlock IV parentBlock 64 0 (PARENT ||| rootFlag ||| DERIVE_KEY_CONTEXT))
    | pair => pair.headD IV

theorem length_nextLevel (chunkCvs : List (Vector UInt32 8)) :
    (nextLevel chunkCvs).length = (chunkCvs.length + 1) / 2 := by
  have hbelow := Chunks.lt_length_chunks (n := 2) (by decide) chunkCvs ((chunkCvs.length + 1) / 2)
  have habove := Chunks.lt_length_chunks (n := 2) (by decide) chunkCvs ((chunkCvs.length + 1) / 2 - 1)
  rw [nextLevel, List.length_map]
  omega

/-- The loop over the levels. -/
def mergeLevels (chunkCvs : List (Vector UInt32 8)) : List (Vector UInt32 8) :=
  if 1 < chunkCvs.length then mergeLevels (nextLevel chunkCvs) else chunkCvs
termination_by chunkCvs.length
decreasing_by
  rw [length_nextLevel]
  omega

def hashDeriveKeyContextSafe (context : List UInt8) : List UInt8 :=
  if context.length ≤ 1024 then leBytes (hashContextChunk context 0 true)
  else
    let chunkCvs := (Chunks.chunks 1024 context).mapIdx fun counter chunkBytes =>
      hashContextChunk chunkBytes (UInt64.ofNat counter) false
    leBytes ((mergeLevels chunkCvs).headD IV)

/-! ### One block -/

/-- The state of 16 words, of a matrix. -/
def rows (v : Quads) : Vector UInt32 16 :=
  #v[v.first.a, v.second.a, v.third.a, v.fourth.a, v.first.b, v.second.b, v.third.b, v.fourth.b,
    v.first.c, v.second.c, v.third.c, v.fourth.c, v.first.d, v.second.d, v.third.d, v.fourth.d]

/-- A half of `g`. -/
def stir (state : Vector UInt32 16) (a b c d : Fin 16) (m r r' : UInt32) : Vector UInt32 16 :=
  let state := state.set a (state[a] + state[b] + m)
  let state := state.set d (rotateRight (state[d] ^^^ state[a]) r)
  let state := state.set c (state[c] + state[d])
  state.set b (rotateRight (state[b] ^^^ state[c]) r')

theorem g_eq_stir (state : Vector UInt32 16) (a b c d : Fin 16) (mx my : UInt32) :
    g state a b c d mx my = stir (stir state a b c d mx 16 12) a b c d my 8 7 := rfl

theorem stir_column (v : Quads) (m r r' : UInt32) :
    stir (rows v) 0 4 8 12 m r r' = rows { v with first := v.first.stir m r r' } ∧
      stir (rows v) 1 5 9 13 m r r' = rows { v with second := v.second.stir m r r' } ∧
      stir (rows v) 2 6 10 14 m r r' = rows { v with third := v.third.stir m r r' } ∧
      stir (rows v) 3 7 11 15 m r r' = rows { v with fourth := v.fourth.stir m r r' } :=
  ⟨rfl, rfl, rfl, rfl⟩

theorem stir_diagonal (v : Quads) (m r r' : UInt32) :
    stir (rows v.columns) 0 5 10 15 m r r' = rows (Quads.columns { v with first := v.first.stir m r r' }) ∧
      stir (rows v.columns) 1 6 11 12 m r r' =
        rows (Quads.columns { v with second := v.second.stir m r r' }) ∧
      stir (rows v.columns) 2 7 8 13 m r r' =
        rows (Quads.columns { v with third := v.third.stir m r r' }) ∧
      stir (rows v.columns) 3 4 9 14 m r r' =
        rows (Quads.columns { v with fourth := v.fourth.stir m r r' }) :=
  ⟨rfl, rfl, rfl, rfl⟩

/-- Four calls of `g` mix the columns. -/
theorem g_columns (v : Quads) (m : Vector UInt32 16) :
    g (g (g (g (rows v) 0 4 8 12 m[0] m[1]) 1 5 9 13 m[2] m[3]) 2 6 10 14 m[4] m[5]) 3 7 11 15 m[6] m[7] =
      rows ⟨v.first.mix m[0] m[1], v.second.mix m[2] m[3], v.third.mix m[4] m[5],
        v.fourth.mix m[6] m[7]⟩ := by
  rw [g_eq_stir (rows v), (stir_column _ _ _ _).1, (stir_column _ _ _ _).1, g_eq_stir (rows _),
    (stir_column _ _ _ _).2.1, (stir_column _ _ _ _).2.1, g_eq_stir (rows _),
    (stir_column _ _ _ _).2.2.1, (stir_column _ _ _ _).2.2.1, g_eq_stir,
    (stir_column _ _ _ _).2.2.2, (stir_column _ _ _ _).2.2.2]
  rfl

/-- And four calls mix the diagonals. -/
theorem g_diagonals (v : Quads) (m : Vector UInt32 16) :
    g (g (g (g (rows v.columns) 0 5 10 15 m[8] m[9]) 1 6 11 12 m[10] m[11]) 2 7 8 13 m[12] m[13])
        3 4 9 14 m[14] m[15] =
      rows (Quads.columns ⟨v.first.mix m[8] m[9], v.second.mix m[10] m[11], v.third.mix m[12] m[13],
        v.fourth.mix m[14] m[15]⟩) := by
  rw [g_eq_stir (rows v.columns), (stir_diagonal _ _ _ _).1, (stir_diagonal _ _ _ _).1,
    g_eq_stir (rows _), (stir_diagonal _ _ _ _).2.1, (stir_diagonal _ _ _ _).2.1, g_eq_stir (rows _),
    (stir_diagonal _ _ _ _).2.2.1, (stir_diagonal _ _ _ _).2.2.1, g_eq_stir,
    (stir_diagonal _ _ _ _).2.2.2, (stir_diagonal _ _ _ _).2.2.2]
  rfl

/-- One round. -/
theorem round_rows (v : Quads) (m : Vector UInt32 16) : round (rows v) m = rows (Blake3.round v m) := by
  rw [round, g_columns, ← Quads.columns_diagonals ⟨v.first.mix m[0] m[1], _, _, _⟩, g_diagonals]
  rfl

/-- All rounds. -/
theorem roundLoop_rows (count : Nat) (v : Quads) (m : Vector UInt32 16) :
    roundLoop (count + 1) (rows v) m = rows (rounds (count + 1) v m) := by
  induction count generalizing v m with
  | zero => exact round_rows v m
  | succ count ih =>
      have hm : (Vector.ofFn fun i => m[MSG_PERMUTATION[i]]) = permutation.map fun i => m[i] := by
        apply Vector.ext
        intro i hi
        rw [Vector.getElem_ofFn, Vector.getElem_map]
        rfl
      rw [roundLoop, round_rows, hm, ih]
      rfl

section Out

variable {cv : Vector UInt32 8} {state : Vector UInt32 16} {i j : Fin 8}

theorem outStep_self : (outStep cv state i)[i] = state[i] ^^^ state[i.val + 8] := by
  rw [outStep, Fin.getElem_fin, Vector.getElem_set_ne _ _ (by omega), Vector.getElem_set_self]

theorem outStep_of_ne (h : j ≠ i) :
    (outStep cv state i)[j] = state[j] ∧ (outStep cv state i)[j.val + 8] = state[j.val + 8] := by
  have hne : i.val ≠ j.val := fun he => h (Fin.ext he.symm)
  constructor
  · rw [outStep, Fin.getElem_fin, Vector.getElem_set_ne _ _ (by omega), Vector.getElem_set_ne _ _ hne]
    rfl
  · rw [outStep, Vector.getElem_set_ne _ _ (by omega), Vector.getElem_set_ne _ _ (by omega)]

/-- Each of the first words is changed once, while the other one is as it was. -/
theorem foldl_outStep {todo : List (Fin 8)} (hnodup : todo.Nodup) (hmem : j ∈ todo) :
    (todo.foldl (outStep cv) state)[j] = state[j] ^^^ state[j.val + 8] := by
  have hothers : ∀ (l : List (Fin 8)) (state : Vector UInt32 16), j ∉ l →
      (l.foldl (outStep cv) state)[j] = state[j] := by
    intro l
    induction l with
    | nil => exact fun _ _ => rfl
    | cons i l ih =>
        intro state hj
        rw [List.foldl_cons, ih _ fun h => hj (List.mem_cons_of_mem i h)]
        exact (outStep_of_ne (List.ne_of_not_mem_cons hj)).1
  induction todo generalizing state with
  | nil => cases hmem
  | cons i todo ih =>
      obtain ⟨hi, hrest⟩ := List.nodup_cons.mp hnodup
      rw [List.foldl_cons]
      rcases List.mem_cons.mp hmem with rfl | hj
      · rw [hothers _ _ hi, outStep_self]
      · have hne : j ≠ i := fun h => hi (h ▸ hj)
        rw [ih hrest hj, (outStep_of_ne hne).1, (outStep_of_ne hne).2]

end Out

/-- The bytes at a position, filled up with zeros. -/
theorem bytesAt_eq_append (bytes : List UInt8) (start len : Nat) : bytesAt bytes start len =
    (bytes.drop start).take len ++ List.replicate (len - ((bytes.drop start).take len).length) 0 := by
  apply List.ext_getElem
  · rw [length_bytesAt, List.length_append, List.length_replicate, List.length_take]
    omega
  · intro k hk _
    rw [length_bytesAt] at hk
    simp only [bytesAt, List.getElem_map, List.getElem_range, byteAt]
    by_cases hlt : k < ((bytes.drop start).take len).length
    · rw [List.getElem_append_left hlt, List.getElem_take, List.getElem_drop]
      rw [List.length_take, List.length_drop] at hlt
      exact List.getD_eq_getElem _ _ (by omega)
    · rw [List.getElem_append_right (by omega), List.getElem_replicate]
      rw [List.length_take, List.length_drop] at hlt
      exact List.getD_eq_default _ _ (by omega)

theorem loadWords_eq (block : List UInt8) : loadWords block = blockWords block := by
  apply Vector.ext
  intro i hi
  rw [loadWords, blockWords, Vector.getElem_ofFn, Vector.getElem_ofFn, u32LeAt, bytesAt_eq_append,
    Chunks.getElem?_chunks (by decide), Nat.mul_comm 4 i]
  by_cases hlt : i * 4 < block.length
  · rw [if_pos hlt]
  · rw [if_neg hlt, List.drop_of_length_le (by omega)]
    rfl

/-- **One block is compressed as specified.** -/
theorem firstWords_compressBlock (cv : Vector UInt32 8) (block : List UInt8) (blockLen : UInt8)
    (counter : UInt64) (flags : UInt8) : firstWords (compressBlock cv block blockLen counter flags) =
      compress cv (blockWords block) counter blockLen.toUInt32 flags.toUInt32 := by
  rw [compressBlock, loadWords_eq]
  generalize hv : (⟨⟨cv[0], cv[4], IV[0], counter.toUInt32⟩,
    ⟨cv[1], cv[5], IV[1], (counter >>> 32).toUInt32⟩, ⟨cv[2], cv[6], IV[2], blockLen.toUInt32⟩,
    ⟨cv[3], cv[7], IV[3], flags.toUInt32⟩⟩ : Quads) = v
  have hstate : #v[cv[0], cv[1], cv[2], cv[3], cv[4], cv[5], cv[6], cv[7], IV[0], IV[1], IV[2], IV[3],
      counter.toUInt32, (counter >>> 32).toUInt32, blockLen.toUInt32, flags.toUInt32] = rows v := by
    rw [← hv]
    rfl
  have hspec : compress cv (blockWords block) counter blockLen.toUInt32 flags.toUInt32 =
      Vector.ofFn fun i : Fin 8 =>
        (rows (rounds 7 v (blockWords block)))[i] ^^^ (rows (rounds 7 v (blockWords block)))[i.val + 8] := by
    rw [← hv]
    rfl
  rw [hspec, hstate, roundLoop_rows, firstWords]
  apply Vector.ext
  intro i hi
  rw [Vector.getElem_ofFn, Vector.getElem_ofFn]
  exact foldl_outStep (List.nodup_finRange 8) (List.mem_finRange ⟨i, hi⟩)

/-! ### One chunk -/

/-- The flags of the last block. -/
def lastFlags (isRoot : Bool) : UInt32 := if isRoot then chunkEnd ||| rootFlag else chunkEnd

theorem toUInt32_blockFlags (isRoot : Bool) (numBlocks i : Nat) :
    (blockFlags isRoot numBlocks i).toUInt32 = deriveKeyContext ||| (if i = 0 then chunkStart else 0) |||
      if i = numBlocks - 1 then lastFlags isRoot else 0 := by
  simp only [blockFlags, lastFlags]
  split_ifs <;> rfl

/-- One pass of the loop, at a block that is not the last one. -/
theorem chunkStep_of_lt {chunkBytes : List UInt8} {counter : UInt64} {isRoot : Bool} {numBlocks i : Nat}
    (cv : Vector UInt32 8) (hlt : i < numBlocks - 1) (hlen : i * 64 + 64 ≤ chunkBytes.length) :
    chunkStep chunkBytes counter isRoot numBlocks cv i =
      compress cv (blockWords ((chunkBytes.drop (i * 64)).take 64)) counter 64
        (deriveKeyContext ||| if i = 0 then chunkStart else 0) := by
  have hmin : min (i * 64 + 64) chunkBytes.length - i * 64 = 64 := by omega
  have hblock : ((chunkBytes.drop (i * 64)).take 64).length = 64 := by
    rw [List.length_take, List.length_drop]
    omega
  simp only [chunkStep, hmin, hblock]
  rw [firstWords_compressBlock, toUInt32_blockFlags, if_neg (Nat.ne_of_lt hlt), UInt32.or_zero]
  rfl

/-- One pass of the loop, at the last block. -/
theorem chunkStep_last {chunkBytes : List UInt8} {counter : UInt64} {isRoot : Bool} {numBlocks i : Nat}
    (cv : Vector UInt32 8) (hlast : i = numBlocks - 1) (hlen : chunkBytes.length ≤ i * 64 + 64) :
    chunkStep chunkBytes counter isRoot numBlocks cv i =
      compress cv (blockWords (chunkBytes.drop (i * 64))) counter
        (UInt32.ofNat (chunkBytes.drop (i * 64)).length)
        (deriveKeyContext ||| (if i = 0 then chunkStart else 0) ||| lastFlags isRoot) := by
  have hblock : (chunkBytes.drop (i * 64)).take (min (i * 64 + 64) chunkBytes.length - i * 64) =
      chunkBytes.drop (i * 64) := by
    apply List.take_of_length_le
    rw [List.length_drop]
    omega
  have hshort : (chunkBytes.drop (i * 64)).length ≤ 64 := by
    rw [List.length_drop]
    omega
  have hlen : (UInt8.ofNat (chunkBytes.drop (i * 64)).length).toUInt32 =
      UInt32.ofNat (chunkBytes.drop (i * 64)).length := by
    apply UInt32.toNat_inj.mp
    rw [UInt8.toNat_toUInt32, UInt8.toNat_ofNat', UInt32.toNat_ofNat']
    omega
  simp only [chunkStep, hblock]
  rw [firstWords_compressBlock, toUInt32_blockFlags, if_pos hlast, hlen]

/-- The loop over the blocks, from one of them on. -/
theorem foldl_chunkStep {chunkBytes : List UInt8} {counter : UInt64} {isRoot : Bool} (k : Nat) {i : Nat}
    (cv : Vector UInt32 8) (h : i + (k + 1) = (chunkBytes.length + 63) / 64) :
    (List.range' i (k + 1)).foldl
        (chunkStep chunkBytes counter isRoot ((chunkBytes.length + 63) / 64)) cv =
      chunkRest deriveKeyContext (lastFlags isRoot) counter (if i = 0 then chunkStart else 0) cv
        (chunkBytes.drop (i * 64)) := by
  induction k generalizing i cv with
  | zero =>
      have hshort : ¬ 64 < (chunkBytes.drop (i * 64)).length := by
        rw [List.length_drop]
        omega
      rw [List.range'_succ, List.foldl_cons, chunkStep_last cv (by omega) (by omega), chunkRest,
        dif_neg hshort]
      rfl
  | succ k ih =>
      have hlong : 64 < (chunkBytes.drop (i * 64)).length := by
        rw [List.length_drop]
        omega
      rw [List.range'_succ, List.foldl_cons, chunkStep_of_lt cv (by omega) (by omega), ih _ (by omega),
        chunkRest.eq_def _ _ _ _ _ (chunkBytes.drop (i * 64)), dif_pos hlong, List.drop_drop,
        if_neg (Nat.succ_ne_zero i), Nat.succ_mul]

/-- **A chunk is hashed as specified.** -/
theorem hashContextChunk_eq (chunkBytes : List UInt8) (counter : UInt64) (isRoot : Bool) :
    hashContextChunk chunkBytes counter isRoot =
      chunkRest deriveKeyContext (lastFlags isRoot) counter chunkStart iv chunkBytes := by
  rcases eq_or_ne chunkBytes [] with rfl | hne
  · have hflags : (CHUNK_START ||| CHUNK_END ||| (if isRoot then ROOT else 0) |||
        DERIVE_KEY_CONTEXT).toUInt32 = deriveKeyContext ||| chunkStart ||| lastFlags isRoot := by
      cases isRoot <;> decide
    rw [hashContextChunk, List.length_nil, if_pos rfl, firstWords_compressBlock, hflags, chunkRest,
      dif_neg (by decide)]
    rfl
  · have hpos := List.length_pos_iff.mpr hne
    obtain ⟨k, hk⟩ : ∃ k, (chunkBytes.length + 63) / 64 = k + 1 :=
      ⟨(chunkBytes.length + 63) / 64 - 1, by omega⟩
    have hloop := @foldl_chunkStep chunkBytes counter isRoot k 0 IV (by omega)
    rw [← hk, ← List.range_eq_range'] at hloop
    rw [hashContextChunk, if_neg (by omega)]
    exact hloop

/-! ### The tree -/

/-- The words are read back from their bytes. -/
theorem u32LeAt_flatMap {words : List UInt32} {i : Nat} (h : i < words.length) :
    u32LeAt (words.flatMap fun word => toLeBytes 4 word.toNat) (4 * i) = words[i] := by
  have hlen : ∀ l : List UInt32, (l.flatMap fun word => toLeBytes 4 word.toNat).length = 4 * l.length := by
    intro l
    induction l with
    | nil => rfl
    | cons word l ih =>
        rw [List.flatMap_cons, List.length_append, ih, length_toLeBytes, List.length_cons]
        omega
  have hsplit : words = words.take i ++ words[i] :: words.drop (i + 1) := by
    rw [List.getElem_cons_drop, List.take_append_drop]
  have hfield : bytesAt (words.flatMap fun word => toLeBytes 4 word.toNat) (4 * i) 4 =
      toLeBytes 4 words[i].toNat := by
    conv_lhs => rw [hsplit]
    rw [List.flatMap_append, List.flatMap_cons]
    apply bytesAt_append
    · rw [hlen, List.length_take, Nat.min_eq_left (Nat.le_of_lt h)]
    · exact length_toLeBytes 4 _
  rw [u32LeAt, hfield, toLeBytes, List.reverse_reverse, ofBeBytes_toBeBytes words[i].toNat_lt,
    UInt32.ofNat_toNat]

theorem blockWords_leBytes (first second : Vector UInt32 8) :
    blockWords (leBytes first ++ leBytes second) = first ++ second := by
  apply Vector.ext
  intro i hi
  rw [blockWords, Vector.getElem_ofFn, leBytes, leBytes, ← List.flatMap_append, ← Vector.toList_append,
    u32LeAt_flatMap (by rw [Vector.length_toList]; exact hi), Vector.getElem_toList]

/-- One pass of the loop over the levels. -/
theorem nextLevel_eq (chunkCvs : List (Vector UInt32 8)) : nextLevel chunkCvs =
    HashTree.pairUp (if chunkCvs.length = 2 then parentNode (deriveKeyContext ||| rootFlag)
      else parentNode deriveKeyContext) chunkCvs := by
  apply HashTree.map_chunks_two
  · intro first second
    have hflags : (PARENT ||| (if chunkCvs.length = 2 then ROOT else 0) ||| DERIVE_KEY_CONTEXT).toUInt32 =
        (if chunkCvs.length = 2 then deriveKeyContext ||| rootFlag else deriveKeyContext) ||| parent := by
      split <;> rfl
    show firstWords (compressBlock IV (leBytes first ++ leBytes second) 64 0 _) = _
    rw [firstWords_compressBlock, blockWords_leBytes, hflags]
    split <;> rfl
  · exact fun _ => rfl

/-- The loop over the levels merges the tree. -/
theorem mergeLevels_eq (chunkCvs : List (Vector UInt32 8)) : mergeLevels chunkCvs =
    HashTree.reduce (parentNode deriveKeyContext) (parentNode (deriveKeyContext ||| rootFlag)) chunkCvs := by
  induction hn : chunkCvs.length using Nat.strongRecOn generalizing chunkCvs with
  | ind n ih =>
      subst hn
      rw [mergeLevels, HashTree.reduce]
      split
      · rw [ih _ (by rw [length_nextLevel]; omega) _ rfl, nextLevel_eq]
      · rfl

/-- **The hash of a context is the one of the specification.** -/
theorem hashDeriveKeyContextSafe_eq (context : List UInt8) :
    hashDeriveKeyContextSafe context = hashContext context := by
  rw [hashDeriveKeyContextSafe, hashContext, root]
  split
  · rename_i hshort
    rw [if_neg (by omega), hashContextChunk_eq]
    rfl
  · rename_i hlong
    have hleaves : ((Chunks.chunks 1024 context).mapIdx fun counter chunkBytes =>
        hashContextChunk chunkBytes (UInt64.ofNat counter) false) =
        HashTree.leaves (chunk deriveKeyContext) 0 context := by
      rw [HashTree.leaves]
      congr 1
      funext counter chunkBytes
      rw [hashContextChunk_eq, Nat.zero_add]
      rfl
    have hroot := mergeLevels_eq (HashTree.leaves (chunk deriveKeyContext) 0 context)
    rw [HashTree.reduce_leaves (Nat.lt_of_not_le hlong), Nat.zero_add] at hroot
    rw [if_pos (Nat.lt_of_not_le hlong), hleaves]
    show leBytes ((mergeLevels (HashTree.leaves (chunk deriveKeyContext) 0 context)).headD IV) = _
    rw [hroot]
    rfl

-- `derive_key`, with the key of the context, where the flag 64 is for the key material
example : leBytes (firstWords (compressBlock
    (firstWords (loadWords (hashDeriveKeyContextSafe [0, 1, 2, 3, 4, 5, 6, 7, 8, 9, 10, 11, 12, 13, 14, 15])))
    [48, 49, 50, 51, 52, 53, 54, 55, 56, 57, 48, 49, 50, 51, 52, 53, 54, 55, 56, 57, 48, 49, 50, 51, 52, 53,
      54, 55, 56, 57, 48, 49] 32 0 (CHUNK_START ||| CHUNK_END ||| ROOT ||| 64))) =
    [0xcc, 0xbb, 0x6d, 0x58, 0x25, 0x1b, 0x5a, 0x08, 0xa4, 0x65, 0x9b, 0x56, 0xb6, 0xff, 0x30, 0xe7,
      0xa1, 0xe9, 0x33, 0xe7, 0x88, 0x4e, 0xd6, 0x8d, 0x23, 0x80, 0x5b, 0x0e, 0xce, 0xea, 0xb0, 0x87] := by
  decide +kernel

end Elise.Vless.ContextHash
