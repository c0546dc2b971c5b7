import Mathlib.Data.List.Induction
import Mathlib.Algebra.Order.Ring.Nat
import Mathlib.Tactic.Common

/-!
# Collision-free hashing, hash chains and fixed-depth Merkle trees

Collision-freeness is stated on an explicit finite list of inputs, namely those
a run really hashed: a compressing hash has collisions somewhere, and no result
below depends on inputs that nobody hashed. A hash chain determines its links.
A fixed-depth tree is padded on the right by a zero leaf and folded level by
level; an accepted authentication path determines the leaf at its index,
whoever chose the siblings. Nothing in this module mentions a particular
program.
-/

namespace EthereumSettlement.HashCommitments

variable {α β δ : Type}

/-- No two listed inputs have the same digest. -/
def CollisionFree (hash : α → β) (inputs : List α) : Prop :=
  ∀ x ∈ inputs, ∀ y ∈ inputs, hash x = hash y → x = y

instance [DecidableEq α] [DecidableEq β] (hash : α → β) (inputs : List α) :
    Decidable (CollisionFree hash inputs) := by
  unfold CollisionFree
  infer_instance

/-- Fewer inputs have fewer collisions. -/
theorem CollisionFree.mono {hash : α → β} {inputs more : List α}
    (h : CollisionFree hash more) (hs : inputs ⊆ more) : CollisionFree hash inputs :=
  fun x hx y hy he => h x (hs hx) y (hs hy) he

/-- No two listed inputs have the same digest, and none has the digest that stands
for no input. -/
def CollisionFreeFrom (hash : α → β) (origin : β) (inputs : List α) : Prop :=
  CollisionFree hash inputs ∧ ∀ input ∈ inputs, hash input ≠ origin

instance [DecidableEq α] [DecidableEq β] (hash : α → β) (origin : β) (inputs : List α) :
    Decidable (CollisionFreeFrom hash origin inputs) :=
  inferInstanceAs (Decidable (_ ∧ _))

/-- Fewer inputs have fewer collisions and fewer preimages of the origin. -/
theorem CollisionFreeFrom.mono {hash : α → β} {origin : β} {inputs more : List α}
    (h : CollisionFreeFrom hash origin more) (hs : inputs ⊆ more) :
    CollisionFreeFrom hash origin inputs :=
  ⟨h.1.mono hs, fun input hinput => h.2 input (hs hinput)⟩

/-- The (state, link) pairs absorbed by a chain. -/
def chainPairs (absorb : α → β → α) : α → List β → List (α × β)
  | _, [] => []
  | state, link :: links => (state, link) :: chainPairs absorb (absorb state link) links

/-- A chain absorbs its last link into the state reached before it. -/
theorem chainPairs_concat (absorb : α → β → α) (state : α) (links : List β) (link : β) :
    chainPairs absorb state (links ++ [link]) =
      chainPairs absorb state links ++ [(links.foldl absorb state, link)] := by
  induction links generalizing state with
  | nil => rfl
  | cons first links ih => simp only [List.cons_append, chainPairs, ih, List.foldl_cons]

/-- Two equally long chains that meet have equal starts and equal links, unless
two absorbed pairs collide. -/
theorem chain_binding {absorb : α → β → α} {s t : α} {xs ys : List β}
    (hcf : CollisionFree (fun p : α × β => absorb p.1 p.2)
      (chainPairs absorb s xs ++ chainPairs absorb t ys))
    (hlen : xs.length = ys.length) (hmeet : xs.foldl absorb s = ys.foldl absorb t) :
    s = t ∧ xs = ys := by
  induction xs using List.reverseRecOn generalizing ys with
  | nil =>
    have hy : ys = [] := List.length_eq_zero_iff.mp hlen.symm
    subst hy
    exact ⟨hmeet, rfl⟩
  | append_singleton xs x ih =>
    cases ys using List.reverseRecOn with
    | nil => simp at hlen
    | append_singleton ys y =>
      rw [chainPairs_concat, chainPairs_concat] at hcf
      simp only [List.length_append, List.length_singleton, Nat.add_right_cancel_iff] at hlen
      simp only [List.foldl_append, List.foldl_cons, List.foldl_nil] at hmeet
      have hp := hcf (xs.foldl absorb s, x) (by simp) (ys.foldl absorb t, y) (by simp) hmeet
      rw [Prod.mk.injEq] at hp
      obtain ⟨hst, hlinks⟩ := ih (hcf.mono (by
        intro p hp
        simp only [List.mem_append] at hp ⊢
        tauto)) hlen hp.1
      exact ⟨hst, by rw [hlinks, hp.2]⟩

/-- Every link of a chain is absorbed into the state reached before it. -/
theorem mem_chainPairs (absorb : α → β → α) (state : α) (links : List β) (k : ℕ)
    (hk : k < links.length) :
    ((links.take k).foldl absorb state, links[k]) ∈ chainPairs absorb state links := by
  induction links generalizing state k with
  | nil => exact absurd hk (Nat.not_lt_zero k)
  | cons link links ih =>
    rw [chainPairs]
    cases k with
    | zero => exact List.mem_cons_self
    | succ k =>
      have hrest := ih (absorb state link) k (Nat.lt_of_succ_lt_succ hk)
      rw [List.take_succ_cons, List.foldl_cons, List.getElem_cons_succ]
      exact List.mem_cons_of_mem _ hrest

/-- The state of a chain after one more link. -/
theorem foldl_take_succ (absorb : α → β → α) (state : α) (links : List β) (k : ℕ)
    (hk : k < links.length) :
    (links.take (k + 1)).foldl absorb state =
      absorb ((links.take k).foldl absorb state) links[k] := by
  rw [List.take_add_one, List.getElem?_eq_getElem hk, List.foldl_append]
  rfl

/-- A chain never returns to a state, unless two absorbed pairs collide or one of
them hashes to the start. -/
theorem chain_states_ne {absorb : α → β → α} {state : α} {links : List β}
    (hcf : CollisionFreeFrom (fun p : α × β => absorb p.1 p.2) state (chainPairs absorb state links))
    {i j : ℕ} (hij : i < j) (hj : j ≤ links.length) :
    (links.take i).foldl absorb state ≠ (links.take j).foldl absorb state := by
  induction i generalizing j with
  | zero =>
    cases j with
    | zero => exact absurd hij (Nat.lt_irrefl 0)
    | succ j =>
      intro hmeet
      rw [foldl_take_succ absorb state links j hj] at hmeet
      exact hcf.2 _ (mem_chainPairs absorb state links j hj) hmeet.symm
  | succ i ih =>
    cases j with
    | zero => exact absurd hij (Nat.not_lt_zero _)
    | succ j =>
      intro hmeet
      have hi : i < links.length := by omega
      rw [foldl_take_succ absorb state links j hj, foldl_take_succ absorb state links i hi] at hmeet
      have hpair := hcf.1 _ (mem_chainPairs absorb state links i hi) _
        (mem_chainPairs absorb state links j hj) hmeet
      rw [Prod.mk.injEq] at hpair
      exact ih (j := j) (by omega) (by omega) hpair.1

/-- Root of the complete tree of the given depth over a leaf sequence. -/
def treeRoot (node : δ → δ → δ) : ℕ → (ℕ → δ) → δ
  | 0, leaf => leaf 0
  | depth + 1, leaf => treeRoot node depth fun i => node (leaf (2 * i)) (leaf (2 * i + 1))

/-- The (left, right) pairs above one index of a complete tree, leaf level first. -/
def treePairs (node : δ → δ → δ) : ℕ → (ℕ → δ) → ℕ → List (δ × δ)
  | 0, _, _ => []
  | depth + 1, leaf, i =>
    (leaf (2 * (i / 2)), leaf (2 * (i / 2) + 1)) ::
      treePairs node depth (fun j => node (leaf (2 * j)) (leaf (2 * j + 1))) (i / 2)

/-- One step of an authentication path, ordered by the parity of the index. -/
def pathPair (leaf : δ) (i : ℕ) (sibling : δ) : δ × δ :=
  if i % 2 = 0 then (leaf, sibling) else (sibling, leaf)

/-- Root recomputed from a leaf, its index and its siblings, leaf level first. -/
def pathRoot (node : δ → δ → δ) : δ → ℕ → List δ → δ
  | leaf, _, [] => leaf
  | leaf, i, sibling :: siblings =>
    pathRoot node (node (pathPair leaf i sibling).1 (pathPair leaf i sibling).2) (i / 2) siblings

/-- The pairs hashed while recomputing a root from an authentication path. -/
def pathPairs (node : δ → δ → δ) : δ → ℕ → List δ → List (δ × δ)
  | _, _, [] => []
  | leaf, i, sibling :: siblings =>
    pathPair leaf i sibling ::
      pathPairs node (node (pathPair leaf i sibling).1 (pathPair leaf i sibling).2) (i / 2) siblings

/-- The true siblings of one index of a complete tree, leaf level first. -/
def treeSiblings (node : δ → δ → δ) : ℕ → (ℕ → δ) → ℕ → List δ
  | 0, _, _ => []
  | depth + 1, leaf, i =>
    leaf (if i % 2 = 0 then i + 1 else i - 1) ::
      treeSiblings node depth (fun j => node (leaf (2 * j)) (leaf (2 * j + 1))) (i / 2)

/-- A path step that equals the tree's pair pins the leaf and the sibling. -/
theorem pathPair_eq {leaf : ℕ → δ} {x sibling : δ} {i : ℕ}
    (h : pathPair x i sibling = (leaf (2 * (i / 2)), leaf (2 * (i / 2) + 1))) :
    x = leaf i ∧ sibling = leaf (if i % 2 = 0 then i + 1 else i - 1) := by
  unfold pathPair at h
  split at h
  · rename_i hi
    rw [Prod.mk.injEq, show 2 * (i / 2) = i by omega] at h
    rw [if_pos hi]
    exact h
  · rename_i hi
    rw [Prod.mk.injEq, show 2 * (i / 2) = i - 1 by omega, show i - 1 + 1 = i by omega] at h
    rw [if_neg hi]
    exact ⟨h.2, h.1⟩

/-- The tree's own pair above an index is the path step of its leaf and sibling. -/
theorem pathPair_tree (leaf : ℕ → δ) (i : ℕ) :
    pathPair (leaf i) i (leaf (if i % 2 = 0 then i + 1 else i - 1)) =
      (leaf (2 * (i / 2)), leaf (2 * (i / 2) + 1)) := by
  unfold pathPair
  split
  · rename_i hi
    rw [show 2 * (i / 2) = i by omega]
  · rename_i hi
    rw [show 2 * (i / 2) = i - 1 by omega, show i - 1 + 1 = i by omega]

/-- An accepted path of the tree's depth carries the tree's own leaf and the
tree's own siblings, unless a pair on the path collides with a pair of the
tree above that index. -/
theorem path_binding {node : δ → δ → δ} {siblings : List δ} {leaf : ℕ → δ} {x : δ} {i : ℕ}
    (hcf : CollisionFree (fun p : δ × δ => node p.1 p.2)
      (pathPairs node x i siblings ++ treePairs node siblings.length leaf i))
    (hi : i < 2 ^ siblings.length)
    (hroot : pathRoot node x i siblings = treeRoot node siblings.length leaf) :
    x = leaf i ∧ siblings = treeSiblings node siblings.length leaf i := by
  induction siblings generalizing x leaf i with
  | nil =>
    have h0 : i = 0 := by simpa using hi
    subst h0
    exact ⟨hroot, rfl⟩
  | cons sibling siblings ih =>
    simp only [List.length_cons, pathPairs, treePairs, pathRoot, treeRoot] at hcf hroot hi ⊢
    have hstep := ih (hcf.mono (by
      intro p hp
      simp only [List.cons_append, List.mem_cons, List.mem_append] at hp ⊢
      tauto)) (by rw [pow_succ] at hi; omega) hroot
    have hpair := hcf (pathPair x i sibling) (by simp)
      (leaf (2 * (i / 2)), leaf (2 * (i / 2) + 1)) (by simp) hstep.1
    obtain ⟨hx, hs⟩ := pathPair_eq hpair
    refine ⟨hx, ?_⟩
    rw [treeSiblings, ← hs, ← hstep.2]

/-- Two accepted paths to one root at one index carry the same leaf, unless two
of their pairs collide. -/
theorem path_unique {node : δ → δ → δ} {xs ys : List δ} {x y : δ} {i : ℕ}
    (hcf : CollisionFree (fun p : δ × δ => node p.1 p.2)
      (pathPairs node x i xs ++ pathPairs node y i ys))
    (hlen : xs.length = ys.length) (hroot : pathRoot node x i xs = pathRoot node y i ys) :
    x = y := by
  induction xs generalizing ys x y i with
  | nil =>
    have hy : ys = [] := List.length_eq_zero_iff.mp hlen.symm
    subst hy
    exact hroot
  | cons sx xs ih =>
    cases ys with
    | nil => simp at hlen
    | cons sy ys =>
      simp only [List.length_cons, Nat.add_right_cancel_iff, pathPairs, pathRoot] at hcf hlen hroot
      have hnode := ih (hcf.mono (by
        intro p hp
        simp only [List.cons_append, List.mem_cons, List.mem_append] at hp ⊢
        tauto)) hlen hroot
      have hpair := hcf (pathPair x i sx) (by simp) (pathPair y i sy) (by simp) hnode
      unfold pathPair at hpair
      split at hpair <;> simp_all only [Prod.mk.injEq]

/-- The tree's own path recomputes the tree's root. -/
theorem pathRoot_treeSiblings (node : δ → δ → δ) (depth : ℕ) (leaf : ℕ → δ) (i : ℕ)
    (hi : i < 2 ^ depth) :
    pathRoot node (leaf i) i (treeSiblings node depth leaf i) = treeRoot node depth leaf := by
  induction depth generalizing leaf i with
  | zero =>
    have h0 : i = 0 := by simpa using hi
    subst h0
    rfl
  | succ depth ih =>
    rw [treeSiblings, pathRoot, treeRoot, pathPair_tree]
    exact ih (fun j => node (leaf (2 * j)) (leaf (2 * j + 1))) (i / 2)
      (by rw [pow_succ] at hi; omega)

/-- Root of the subtree of a depth over the leaves from a start on, each half on
its own side. -/
def subtreeRoot (node : δ → δ → δ) (leaf : ℕ → δ) : ℕ → ℕ → δ
  | 0, start => leaf start
  | depth + 1, start =>
    node (subtreeRoot node leaf depth start) (subtreeRoot node leaf depth (start + 2 ^ depth))

/-- The index of the other child of an index's parent. -/
def siblingIndex (i : ℕ) : ℕ := if i % 2 = 0 then i + 1 else i - 1

/-- A subtree over aligned leaves is a subtree of the level above them. -/
theorem subtreeRoot_level (node : δ → δ → δ) (leaf : ℕ → δ) (depth start : ℕ) :
    subtreeRoot node leaf (depth + 1) (2 * start) =
      subtreeRoot node (fun i => node (leaf (2 * i)) (leaf (2 * i + 1))) depth start := by
  induction depth generalizing start with
  | zero => rfl
  | succ depth ih =>
    have hhalf : 2 * start + 2 ^ (depth + 1) = 2 * (start + 2 ^ depth) := by
      rw [pow_succ]
      omega
    rw [subtreeRoot, ih, hhalf, ih]
    rfl

/-- Folding level by level gives the root of the full tree. -/
theorem treeRoot_eq_subtreeRoot (node : δ → δ → δ) (depth : ℕ) (leaf : ℕ → δ) :
    treeRoot node depth leaf = subtreeRoot node leaf depth 0 := by
  induction depth generalizing leaf with
  | zero => rfl
  | succ depth ih =>
    have hlevel := subtreeRoot_level node leaf depth 0
    rw [Nat.mul_zero] at hlevel
    rw [treeRoot, ih, hlevel]

/-- The sibling on each level is the root of the subtree beside the path. -/
theorem treeSiblings_eq_map (node : δ → δ → δ) (depth : ℕ) (leaf : ℕ → δ) (i : ℕ) :
    treeSiblings node depth leaf i = (List.range depth).map fun level =>
      subtreeRoot node leaf level (2 ^ level * siblingIndex (i / 2 ^ level)) := by
  induction depth generalizing leaf i with
  | zero => rfl
  | succ depth ih =>
    have hstep : ∀ level, subtreeRoot node leaf (level + 1)
        (2 ^ (level + 1) * siblingIndex (i / 2 ^ (level + 1))) =
        subtreeRoot node (fun j => node (leaf (2 * j)) (leaf (2 * j + 1))) level
          (2 ^ level * siblingIndex (i / 2 / 2 ^ level)) := by
      intro level
      rw [← subtreeRoot_level, pow_succ', Nat.div_div_eq_div_mul, Nat.mul_assoc]
    rw [treeSiblings, ih, List.range_succ_eq_map, List.map_cons, List.map_map]
    congr 1
    · simp [subtreeRoot, siblingIndex]
    · apply List.map_congr_left
      intro level _
      exact (hstep level).symm

/-- The leaf list continued by a padding leaf on the right. -/
def padded (zero : δ) (leaves : List δ) (i : ℕ) : δ := leaves.getD i zero

/-- One level of the sparse evaluation: adjacent nodes are hashed in pairs, and
a last single node is paired with the padding of its level. -/
def levelUp (node : δ → δ → δ) (zero : δ) : List δ → List δ
  | [] => []
  | [left] => [node left zero]
  | left :: right :: rest => node left right :: levelUp node zero rest

/-- The pairs hashed by one level of the sparse evaluation. -/
def levelPairs (zero : δ) : List δ → List (δ × δ)
  | [] => []
  | [left] => [(left, zero)]
  | left :: right :: rest => (left, right) :: levelPairs zero rest

/-- The nodes left after climbing the given number of levels; the padding of
each level is the node above two paddings. -/
def climb (node : δ → δ → δ) : ℕ → δ → List δ → List δ
  | 0, _, nodes => nodes
  | depth + 1, zero, nodes => climb node depth (node zero zero) (levelUp node zero nodes)

/-- All pairs hashed while climbing. -/
def climbPairs (node : δ → δ → δ) : ℕ → δ → List δ → List (δ × δ)
  | 0, _, _ => []
  | depth + 1, zero, nodes =>
    levelPairs zero nodes ++ climbPairs node depth (node zero zero) (levelUp node zero nodes)

/-- The padding of a level: the root of a tree of paddings. -/
def zeroHash (node : δ → δ → δ) (zero : δ) : ℕ → δ
  | 0 => zero
  | level + 1 => node (zeroHash node zero level) (zeroHash node zero level)

/-- The padding of a level, computed from the next level's padding. -/
theorem zeroHash_succ (node : δ → δ → δ) (zero : δ) (level : ℕ) :
    zeroHash node (node zero zero) level = zeroHash node zero (level + 1) := by
  induction level with
  | zero => rfl
  | succ level ih =>
    rw [zeroHash, ih]
    rfl

/-- A sparse level is the padded level above its nodes. -/
theorem padded_levelUp (node : δ → δ → δ) (zero : δ) (nodes : List δ) (i : ℕ) :
    padded (node zero zero) (levelUp node zero nodes) i =
      node (padded zero nodes (2 * i)) (padded zero nodes (2 * i + 1)) := by
  induction nodes using levelUp.induct generalizing i with
  | case1 => simp [levelUp, padded]
  | case2 left =>
    cases i with
    | zero => simp [levelUp, padded]
    | succ i => simp [levelUp, padded, Nat.mul_add]
  | case3 left right rest ih =>
    cases i with
    | zero => simp [levelUp, padded]
    | succ i =>
      have h := ih i
      simp only [padded, levelUp, List.getD_cons_succ, Nat.mul_add, Nat.mul_one] at h ⊢
      exact h

/-- A level has a node exactly when the level below it has one. -/
theorem levelUp_length (node : δ → δ → δ) (zero : δ) (nodes : List δ) :
    (levelUp node zero nodes).length = (nodes.length + 1) / 2 := by
  induction nodes using levelUp.induct with
  | case1 => simp [levelUp]
  | case2 left => simp [levelUp]
  | case3 left right rest ih => simp only [levelUp, List.length_cons, ih]; omega

/-- The sparse evaluation reaches the root of the padded complete tree. -/
theorem climb_root (node : δ → δ → δ) (depth : ℕ) (zero : δ) (nodes : List δ) :
    padded (zeroHash node zero depth) (climb node depth zero nodes) 0 =
      treeRoot node depth (padded zero nodes) := by
  induction depth generalizing zero nodes with
  | zero => rfl
  | succ depth ih =>
    rw [climb, treeRoot, ← zeroHash_succ, ih]
    congr 1
    funext i
    exact padded_levelUp node zero nodes i

/-- A nonempty leaf list of at most the tree's capacity climbs to one node. -/
theorem climb_length (node : δ → δ → δ) (depth : ℕ) (zero : δ) (nodes : List δ)
    (hpos : 0 < nodes.length) (hcap : nodes.length ≤ 2 ^ depth) :
    (climb node depth zero nodes).length = 1 := by
  induction depth generalizing zero nodes with
  | zero =>
    rw [pow_zero] at hcap
    rw [climb]
    omega
  | succ depth ih =>
    rw [climb]
    apply ih
    · rw [levelUp_length]
      omega
    · rw [levelUp_length]
      rw [pow_succ] at hcap
      omega

/-- The pair of the level below an index that has a node is hashed there. -/
theorem mem_levelPairs (zero : δ) (nodes : List δ) (i : ℕ) (hi : i < nodes.length) :
    (padded zero nodes (2 * (i / 2)), padded zero nodes (2 * (i / 2) + 1)) ∈
      levelPairs zero nodes := by
  induction nodes using levelPairs.induct generalizing i with
  | case1 => simp at hi
  | case2 left =>
    have h0 : i = 0 := by simpa using hi
    subst h0
    simp [levelPairs, padded]
  | case3 left right rest ih =>
    by_cases h2 : i < 2
    · have h0 : i / 2 = 0 := by omega
      rw [h0]
      simp [levelPairs, padded]
    · have hj := ih (i - 2) (by simp only [List.length_cons] at hi; omega)
      have hq : i / 2 = (i - 2) / 2 + 1 := by omega
      rw [hq]
      simp only [levelPairs, padded, Nat.mul_add, Nat.mul_one, List.getD_cons_succ,
        List.mem_cons] at hj ⊢
      exact Or.inr hj

/-- Every pair of the complete tree above a present leaf is hashed by the sparse
evaluation. -/
theorem treePairs_subset_climbPairs (node : δ → δ → δ) (depth : ℕ) (zero : δ) (nodes : List δ)
    (i : ℕ) (hi : i < nodes.length) :
    treePairs node depth (padded zero nodes) i ⊆ climbPairs node depth zero nodes := by
  induction depth generalizing zero nodes i with
  | zero => simp [treePairs]
  | succ depth ih =>
    rw [treePairs, climbPairs]
    intro p hp
    rcases List.mem_cons.mp hp with rfl | hp
    · exact List.mem_append_left _ (mem_levelPairs zero nodes i hi)
    · have hfun : (fun j => node (padded zero nodes (2 * j)) (padded zero nodes (2 * j + 1))) =
          padded (node zero zero) (levelUp node zero nodes) := by
        funext j
        exact (padded_levelUp node zero nodes j).symm
      rw [hfun] at hp
      exact List.mem_append_right _ (ih _ _ (i / 2) (by rw [levelUp_length]; omega) hp)

end EthereumSettlement.HashCommitments
