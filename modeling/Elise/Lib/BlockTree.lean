/-
Elise/Lib/BlockTree.lean

Binary trees of values over a list of blocks, as hash functions make them.

The left part has the largest power of two of the leaves that leaves something for the right
part (`leftCount`).  Merging the leaves level by level, where an odd one out goes up as it is,
makes the same tree (`tree_pairUp`, `reduce_eq`), and so does cutting the bytes (`subtree_eq`).
-/
import Elise.Lib.Wire

/-! ### Trees -/

namespace HashTree

variable {α : Type*} (node root : α → α → α)

/-- Of `n` leaves so many are on the left. -/
def leftCount (n : Nat) : Nat := 2 ^ (n - 1).log2

theorem leftCount_lt {n : Nat} (h : 2 ≤ n) : leftCount n < n := by
  have hle := Nat.log2_self_le (n := n - 1) (by omega)
  rw [leftCount]
  omega

theorem leftCount_pos (n : Nat) : 0 < leftCount n := Nat.two_pow_pos _

/-- It is the largest power of two below `n`. -/
theorem le_two_mul_leftCount (n : Nat) : n ≤ 2 * leftCount n := by
  have hlt := Nat.lt_log2_self (n := n - 1)
  rw [Nat.pow_succ] at hlt
  rw [leftCount]
  omega

/-- Of half as many leaves, half as many are on the left. -/
theorem leftCount_half {n : Nat} (h : 3 ≤ n) : leftCount n = 2 * leftCount ((n + 1) / 2) := by
  have hhalf : (n + 1) / 2 - 1 = (n - 1) / 2 := by omega
  have hlog : (n - 1).log2 = ((n - 1) / 2).log2 + 1 := by
    rw [Nat.log2_def, if_pos (by omega)]
  rw [leftCount, leftCount, hhalf, hlog, Nat.pow_succ, Nat.mul_comm]

/-- The value of a tree over some leaves; `d` if there is none. -/
def tree (d : α) (leaves : List α) : α :=
  match leaves with
  | [] => d
  | [a] => a
  | a :: b :: rest =>
      node (tree d ((a :: b :: rest).take (leftCount (rest.length + 2))))
        (tree d ((a :: b :: rest).drop (leftCount (rest.length + 2))))
termination_by leaves.length
decreasing_by
  · have hlt := leftCount_lt (Nat.le_add_left 2 rest.length)
    simp only [List.length_take, List.length_cons]
    omega
  · have hpos := leftCount_pos (rest.length + 2)
    simp only [List.length_drop, List.length_cons]
    omega

/-- One level: an odd one out goes up as it is. -/
def pairUp : List α → List α
  | a :: b :: rest => node a b :: pairUp rest
  | rest => rest

theorem length_pairUp (l : List α) : (pairUp node l).length = (l.length + 1) / 2 := by
  fun_induction pairUp node l with
  | case1 a b rest ih =>
      rw [List.length_cons, ih, List.length_cons, List.length_cons]
      omega
  | case2 rest hrest =>
      match rest, hrest with
      | [], _ => exact (by decide : 0 = (0 + 1) / 2)
      | [a], _ => exact (by decide : 1 = (1 + 1) / 2)
      | a :: b :: rest, hrest => exact absurd rfl (hrest a b rest)

/-- Level by level until one value is left; the last level makes the root. -/
def reduce (leaves : List α) : List α :=
  if 1 < leaves.length then reduce (pairUp (if leaves.length = 2 then root else node) leaves) else leaves
termination_by leaves.length
decreasing_by
  rw [length_pairUp]
  omega

variable {node root} {d : α} {l : List α}

theorem tree_of_two_le (h : 2 ≤ l.length) : tree node d l =
    node (tree node d (l.take (leftCount l.length))) (tree node d (l.drop (leftCount l.length))) := by
  match l, h with
  | a :: b :: rest, _ => rw [tree, List.length_cons, List.length_cons]

/-- The pairs may be cut off first. -/
theorem map_chunks_two {f : List α → α} (htwo : ∀ a b, f [a, b] = node a b) (hone : ∀ a, f [a] = a)
    (l : List α) : (Chunks.chunks 2 l).map f = pairUp node l := by
  fun_induction pairUp node l with
  | case1 a b rest ih =>
      rw [Chunks.chunks_of_ne_nil (by decide) (List.cons_ne_nil a _), List.map_cons, ← ih, ← htwo]
      rfl
  | case2 rest hrest =>
      match rest, hrest with
      | [], _ => rfl
      | [a], _ => exact congrArg (· :: []) (hone a)
      | a :: b :: rest, hrest => exact absurd rfl (hrest a b rest)

theorem pairUp_append {l : List α} {k : Nat} (h : l.length = 2 * k) (l' : List α) :
    pairUp node (l ++ l') = pairUp node l ++ pairUp node l' := by
  induction k generalizing l with
  | zero =>
      obtain rfl := List.length_eq_zero_iff.mp h
      rfl
  | succ k ih =>
      match l, h with
      | a :: b :: rest, h =>
          rw [List.length_cons, List.length_cons] at h
          rw [List.cons_append, List.cons_append, pairUp, pairUp, ih (by omega), List.cons_append]

/-- One level up, the left part is what comes of the left part. -/
theorem pairUp_split (h : 3 ≤ l.length) :
    (pairUp node l).take (leftCount (pairUp node l).length) = pairUp node (l.take (leftCount l.length)) ∧
      (pairUp node l).drop (leftCount (pairUp node l).length) =
        pairUp node (l.drop (leftCount l.length)) := by
  have hlt := leftCount_lt (n := l.length) (by omega)
  have hhalf := leftCount_half h
  have htake : (l.take (leftCount l.length)).length = 2 * leftCount ((l.length + 1) / 2) := by
    rw [List.length_take]
    omega
  have happend : pairUp node (l.take (leftCount l.length) ++ l.drop (leftCount l.length)) = _ :=
    pairUp_append htake (l.drop (leftCount l.length))
  rw [List.take_append_drop] at happend
  have hleft : (pairUp node (l.take (leftCount l.length))).length =
      leftCount (pairUp node l).length := by
    rw [length_pairUp, length_pairUp, htake]
    omega
  rw [← hleft, happend]
  exact ⟨List.take_left, List.drop_left⟩

/-- **Merging one level does not change the tree.** -/
theorem tree_pairUp (l : List α) : tree node d (pairUp node l) = tree node d l := by
  induction hn : l.length using Nat.strongRecOn generalizing l with
  | ind n ih =>
      subst hn
      match l with
      | [] => rfl
      | [a] => rfl
      | [a, b] =>
          rw [tree_of_two_le (l := [a, b]) (Nat.le_refl 2)]
          show tree node d [node a b] = node (tree node d [a]) (tree node d [b])
          rw [tree, tree, tree]
      | a :: b :: c :: rest =>
          generalize hl : a :: b :: c :: rest = l
          have hlen : 3 ≤ l.length := by
            rw [← hl]
            simp only [List.length_cons]
            omega
          rw [hl] at ih
          have hlt := leftCount_lt (n := l.length) (by omega)
          have hpos := leftCount_pos l.length
          obtain ⟨htake, hdrop⟩ := @pairUp_split α node l hlen
          rw [tree_of_two_le (l := pairUp node l) (by rw [length_pairUp]; omega), htake, hdrop,
            tree_of_two_le (l := l) (by omega), ih _ _ _ rfl, ih _ _ _ rfl]
          · rw [List.length_drop]
            omega
          · rw [List.length_take]
            omega

/-- **Merging all levels makes the tree**, with the root on its top. -/
theorem reduce_eq (h : 2 ≤ l.length) : reduce node root l =
    [root (tree node d (l.take (leftCount l.length))) (tree node d (l.drop (leftCount l.length)))] := by
  induction hn : l.length using Nat.strongRecOn generalizing l with
  | ind n ih =>
      subst hn
      rw [reduce, if_pos (by omega)]
      match l, h with
      | [a, b], _ =>
          have hpair : pairUp (if [a, b].length = 2 then root else node) [a, b] = [root a b] := by
            rw [List.length_cons, List.length_singleton, if_pos rfl, pairUp]
            rfl
          have hone : [root a b].length = 1 := rfl
          rw [hpair, reduce, hone, if_neg (Nat.lt_irrefl 1)]
          show [root a b] = [root (tree node d [a]) (tree node d [b])]
          rw [tree, tree]
      | a :: b :: c :: rest, _ =>
          generalize hl : a :: b :: c :: rest = l
          have hlen : 3 ≤ l.length := by
            rw [← hl]
            simp only [List.length_cons]
            omega
          rw [hl] at ih
          obtain ⟨htake, hdrop⟩ := @pairUp_split α node l hlen
          rw [if_neg (by omega), ih _ ?_ ?_ rfl, htake, hdrop, tree_pairUp, tree_pairUp]
          · rw [length_pairUp]
            omega
          · rw [length_pairUp]
            omega

/-! ### Trees over bytes -/

/-- Of so many bytes, so many are on the left: chunks of 1024, and their largest power of two
below the whole. -/
def leftLen (size : Nat) : Nat := 1024 * 2 ^ ((size - 1) / 1024).log2

theorem leftLen_lt {size : Nat} (h : 1024 < size) : leftLen size < size := by
  have hle := Nat.log2_self_le (n := (size - 1) / 1024) (by omega)
  rw [leftLen]
  omega

theorem le_two_mul_leftLen (size : Nat) : size ≤ 2 * leftLen size := by
  have hlt := Nat.lt_log2_self (n := (size - 1) / 1024)
  rw [Nat.pow_succ] at hlt
  rw [leftLen]
  omega

theorem leftLen_pos (size : Nat) : 0 < leftLen size := by
  have hpos := Nat.two_pow_pos ((size - 1) / 1024).log2
  rw [leftLen]
  omega

/-- The value of the tree over some bytes, of which the first chunk is the `counter`-th one. -/
def subtree (leaf : Nat → List UInt8 → α) (node : α → α → α) (counter : Nat) (input : List UInt8) :
    α :=
  if _h : 1024 < input.length then
    node (subtree leaf node counter (input.take (leftLen input.length)))
      (subtree leaf node (counter + leftLen input.length / 1024) (input.drop (leftLen input.length)))
  else leaf counter input
termination_by input.length
decreasing_by
  · have hlt := leftLen_lt _h
    rw [List.length_take]
    omega
  · have hpos := leftLen_pos input.length
    rw [List.length_drop]
    omega

/-- The values of the chunks. -/
def leaves (leaf : Nat → List UInt8 → α) (counter : Nat) (input : List UInt8) : List α :=
  (Chunks.chunks 1024 input).mapIdx fun i chunk => leaf (counter + i) chunk

open Chunks in
theorem chunks_append {β : Type*} {n k : Nat} (hn : 0 < n) {xs ys : List β} (h : xs.length = n * k) :
    chunks n (xs ++ ys) = chunks n xs ++ chunks n ys ∧ (chunks n xs).length = k := by
  induction k generalizing xs with
  | zero =>
      obtain rfl := List.length_eq_zero_iff.mp h
      exact ⟨rfl, rfl⟩
  | succ k ih =>
      rw [Nat.mul_succ] at h
      have hne : xs ≠ [] := List.ne_nil_of_length_pos (by omega)
      obtain ⟨happend, hlen⟩ := @ih (xs.drop n) (by rw [List.length_drop]; omega)
      rw [chunks_of_ne_nil hn hne, chunks_of_ne_nil hn (List.append_ne_nil_of_left_ne_nil hne ys),
        List.take_append_of_le_length (by omega), List.drop_append_of_le_length (by omega), happend,
        List.cons_append, List.length_cons, hlen]
      exact ⟨rfl, rfl⟩

/-- How many chunks there are. -/
theorem length_leaves {leaf : Nat → List UInt8 → α} {counter : Nat} {input : List UInt8}
    (hne : input ≠ []) : (leaves leaf counter input).length = (input.length - 1) / 1024 + 1 := by
  have hpos := List.length_pos_iff.mpr hne
  rw [leaves, List.length_mapIdx]
  have hbelow := Chunks.lt_length_chunks (n := 1024) (by decide) input ((input.length - 1) / 1024)
  have habove := Chunks.lt_length_chunks (n := 1024) (by decide) input ((input.length - 1) / 1024 + 1)
  omega

theorem leaves_split {leaf : Nat → List UInt8 → α} {counter : Nat} {input : List UInt8}
    (h : 1024 < input.length) :
    (leaves leaf counter input).take (leftCount (leaves leaf counter input).length) =
        leaves leaf counter (input.take (leftLen input.length)) ∧
      (leaves leaf counter input).drop (leftCount (leaves leaf counter input).length) =
        leaves leaf (counter + leftLen input.length / 1024) (input.drop (leftLen input.length)) := by
  have hlt := leftLen_lt h
  have hcount : leftCount (leaves leaf counter input).length = 2 ^ ((input.length - 1) / 1024).log2 := by
    rw [length_leaves (List.ne_nil_of_length_pos (by omega)), leftCount, Nat.add_sub_cancel]
  have htake : (input.take (leftLen input.length)).length =
      1024 * 2 ^ ((input.length - 1) / 1024).log2 := by
    rw [List.length_take, Nat.min_eq_left (Nat.le_of_lt hlt), leftLen]
  obtain ⟨happend, hlen⟩ :=
    @chunks_append UInt8 1024 _ (by decide) _ (input.drop (leftLen input.length)) htake
  rw [List.take_append_drop] at happend
  have hdiv : leftLen input.length / 1024 = 2 ^ ((input.length - 1) / 1024).log2 := by
    rw [leftLen, Nat.mul_div_cancel_left _ (by decide)]
  have hall : leaves leaf counter input = leaves leaf counter (input.take (leftLen input.length)) ++
      leaves leaf (counter + leftLen input.length / 1024) (input.drop (leftLen input.length)) := by
    rw [leaves, happend, List.mapIdx_append, hlen, hdiv]
    congr 2
    funext i chunk
    rw [Nat.add_assoc, Nat.add_comm i]
  have hfront : (leaves leaf counter (input.take (leftLen input.length))).length =
      leftCount (leaves leaf counter input).length := by
    rw [hcount, leaves, List.length_mapIdx, hlen]
  rw [← hfront, hall]
  exact ⟨List.take_left, List.drop_left⟩

/-- **Cutting the bytes makes the tree over the chunks.** -/
theorem subtree_eq {leaf : Nat → List UInt8 → α} {counter : Nat} {input : List UInt8}
    (hne : input ≠ []) : subtree leaf node counter input = tree node d (leaves leaf counter input) := by
  induction hn : input.length using Nat.strongRecOn generalizing input counter with
  | ind n ih =>
      subst hn
      rw [subtree]
      split
      · rename_i hlong
        have hlt := leftLen_lt hlong
        have hpos := leftLen_pos input.length
        have hlen := @length_leaves α leaf counter input hne
        obtain ⟨htake, hdrop⟩ := @leaves_split α leaf counter input hlong
        rw [tree_of_two_le (by omega), htake, hdrop, ih _ ?_ ?_ rfl, ih _ ?_ ?_ rfl]
        · rw [List.length_drop]
          omega
        · apply List.ne_nil_of_length_pos
          rw [List.length_drop]
          omega
        · rw [List.length_take]
          omega
        · apply List.ne_nil_of_length_pos
          rw [List.length_take]
          omega
      · rename_i hshort
        rw [leaves, Chunks.chunks_of_le (by decide) hne (Nat.le_of_not_lt hshort), List.mapIdx_singleton,
          tree, Nat.add_zero]

/-- **Merging the values of the chunks makes the tree over the bytes**, with the root on its
top. -/
theorem reduce_leaves {leaf : Nat → List UInt8 → α} {counter : Nat} {input : List UInt8}
    (h : 1024 < input.length) : reduce node root (leaves leaf counter input) =
      [root (subtree leaf node counter (input.take (leftLen input.length)))
        (subtree leaf node (counter + leftLen input.length / 1024) (input.drop (leftLen input.length)))] := by
  have hlt := leftLen_lt h
  have hpos := leftLen_pos input.length
  have hlen := @length_leaves α leaf counter input (List.ne_nil_of_length_pos (by omega))
  have hfront : input.take (leftLen input.length) ≠ [] := by
    apply List.ne_nil_of_length_pos
    rw [List.length_take]
    omega
  have hback : input.drop (leftLen input.length) ≠ [] := by
    apply List.ne_nil_of_length_pos
    rw [List.length_drop]
    omega
  obtain ⟨htake, hdrop⟩ := @leaves_split α leaf counter input h
  rw [@reduce_eq α node root (leaf counter input) _ (by omega), htake, hdrop, subtree_eq hfront,
    subtree_eq hback]

end HashTree
