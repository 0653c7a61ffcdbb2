import Mathlib.Algebra.BigOperators.Group.List.Basic
import Mathlib.Algebra.Ring.Nat

namespace Sidecar.Traversal

variable {ν σ : Type} (children : ν → List ν)

/-- The loop of an iterative depth-first walk. The head of `stack` is the node popped
next; children are pushed in reverse so that the leftmost one is popped first. Nodes at
depth `limit` are visited but not expanded. -/
def walk (limit : Nat) (visit : ν → σ → σ) : Nat → List (ν × Nat) → σ → σ
  | 0, _, s => s
  | _ + 1, [], s => s
  | fuel + 1, (node, depth) :: stack, s =>
    let pushed := if limit ≤ depth then stack
      else (children node).reverse.foldl (fun st child => (child, depth + 1) :: st) stack
    walk limit visit fuel pushed (visit node s)

/-- The stack of the loop is empty after at most so many rounds. -/
def finishes (limit : Nat) : Nat → List (ν × Nat) → Bool
  | _, [] => true
  | 0, _ :: _ => false
  | fuel + 1, (node, depth) :: stack =>
    finishes limit fuel (if limit ≤ depth then stack
      else (children node).reverse.foldl (fun st child => (child, depth + 1) :: st) stack)

/-- The nodes down to a depth, parents before children, left to right. -/
def preorder : Nat → ν → List ν
  | 0, node => [node]
  | depth + 1, node => node :: (children node).flatMap (preorder depth)

/-- A descent from the root lists every node passed, both ends included. -/
inductive Descent : ν → List ν → ν → Prop
  | here (node : ν) : Descent node [node] node
  | down {node child target : ν} {chain : List ν} :
      child ∈ children node → Descent child chain target → Descent node (node :: chain) target

variable {children}

theorem Descent.target_mem {root target : ν} {chain : List ν}
    (h : Descent children root chain target) : target ∈ chain := by
  induction h with
  | here => exact List.mem_singleton_self _
  | down _ _ ih => exact List.mem_cons_of_mem _ ih

/-- The preorder holds exactly the nodes that a short enough descent ends in. -/
theorem mem_preorder (depth : Nat) (root target : ν) :
    target ∈ preorder children depth root ↔
      ∃ chain, Descent children root chain target ∧ chain.length ≤ depth + 1 := by
  induction depth generalizing root with
  | zero =>
    constructor
    · intro h
      obtain rfl := List.mem_singleton.mp h
      exact ⟨[target], .here target, by simp⟩
    · intro h
      obtain ⟨chain, hd, hlen⟩ := h
      cases hd with
      | here => exact List.mem_singleton_self _
      | down _ hd =>
        have hpos := List.length_pos_of_mem hd.target_mem
        simp only [List.length_cons] at hlen
        omega
  | succ depth ih =>
    rw [preorder, List.mem_cons, List.mem_flatMap]
    constructor
    · intro h
      rcases h with rfl | ⟨child, hc, ht⟩
      · exact ⟨[target], .here target, by simp⟩
      · obtain ⟨chain, hd, hlen⟩ := (ih child).mp ht
        exact ⟨root :: chain, .down hc hd, by simpa using hlen⟩
    · intro h
      obtain ⟨chain, hd, hlen⟩ := h
      cases hd with
      | here => exact Or.inl rfl
      | @down _ child _ chain hc hd =>
        exact Or.inr ⟨child, hc, (ih child).mpr ⟨chain, hd, by simpa using hlen⟩⟩

variable (children)

/-- The node at an address: the numbers of the children to descend to, one after another. -/
def nodeAt (node : ν) : List Nat → Option ν
  | [] => some node
  | i :: address => (children node)[i]?.bind (fun child => nodeAt child address)

/-- The addresses of the nodes down to a depth, parents before children, left to right. -/
def addresses : Nat → ν → List (List Nat)
  | 0, _ => [[]]
  | depth + 1, node =>
    [] :: (children node).zipIdx.flatMap (fun p => (addresses depth p.1).map (p.2 :: ·))

variable {children}

theorem nodeAt_child {node child : ν} {i : Nat} (h : (child, i) ∈ (children node).zipIdx)
    (address : List Nat) : nodeAt children node (i :: address) = nodeAt children child address := by
  rw [List.mk_mem_zipIdx_iff_getElem?] at h
  rw [nodeAt, h, Option.bind_some]

theorem mem_addresses (depth : Nat) (node : ν) (address : List Nat) :
    address ∈ addresses children depth node ↔
      address.length ≤ depth ∧ (nodeAt children node address).isSome = true := by
  induction depth generalizing node address with
  | zero =>
    cases address with
    | nil => simp [addresses, nodeAt]
    | cons i address => simp [addresses]
  | succ depth ih =>
    cases address with
    | nil => simp [addresses, nodeAt]
    | cons i address =>
      have hchild : i :: address ∈ addresses children (depth + 1) node ↔
          ∃ child, (child, i) ∈ (children node).zipIdx ∧
            address ∈ addresses children depth child := by
        simp [addresses, List.mem_flatMap]
      rw [hchild, List.length_cons, Nat.add_le_add_iff_right]
      constructor
      · rintro ⟨child, hc, ha⟩
        rw [nodeAt_child hc]
        exact (ih child address).mp ha
      · rintro ⟨hlen, hsome⟩
        cases hc : (children node)[i]? with
        | none => simp [nodeAt, hc] at hsome
        | some child =>
          have hmem : (child, i) ∈ (children node).zipIdx :=
            List.mk_mem_zipIdx_iff_getElem?.mpr hc
          rw [nodeAt_child hmem] at hsome
          exact ⟨child, hmem, (ih child address).mpr ⟨hlen, hsome⟩⟩

/-- Addresses come in lexicographic order, so a node comes before what is below it and before
what is to the right of it, and none comes twice. -/
theorem addresses_sorted (depth : Nat) (node : ν) :
    (addresses children depth node).Pairwise (· < ·) := by
  induction depth generalizing node with
  | zero => exact List.pairwise_singleton _ _
  | succ depth ih =>
    refine List.pairwise_cons.mpr ⟨?_, List.pairwise_flatMap.mpr ⟨?_, ?_⟩⟩
    · intro address h
      obtain ⟨p, -, hp⟩ := List.mem_flatMap.mp h
      obtain ⟨rest, -, rfl⟩ := List.mem_map.mp hp
      exact List.nil_lt_cons _ _
    · intro p hp
      refine List.pairwise_map.mpr ((ih p.1).imp ?_)
      intro a b hab
      exact List.cons_lt_cons_iff.mpr (Or.inr ⟨rfl, hab⟩)
    · have hidx : ((children node).zipIdx.map Prod.snd).Pairwise (· < ·) := by
        rw [List.zipIdx_map_snd]
        exact List.pairwise_lt_range'
      refine (List.pairwise_map.mp hidx).imp ?_
      intro p q hpq a ha b hb
      obtain ⟨a, -, rfl⟩ := List.mem_map.mp ha
      obtain ⟨b, -, rfl⟩ := List.mem_map.mp hb
      exact List.cons_lt_cons_iff.mpr (Or.inl hpq)

/-- The preorder is the nodes at the addresses. -/
theorem preorder_eq_addresses (depth : Nat) (node : ν) :
    preorder children depth node =
      (addresses children depth node).filterMap (nodeAt children node) := by
  induction depth generalizing node with
  | zero => rfl
  | succ depth ih =>
    have hbelow : ∀ p ∈ (children node).zipIdx,
        ((addresses children depth p.1).map (p.2 :: ·)).filterMap (nodeAt children node) =
          preorder children depth p.1 := by
      intro p hp
      rw [ih p.1, List.filterMap_map]
      refine List.filterMap_congr (fun address _ => ?_)
      exact nodeAt_child hp address
    have hroot : nodeAt children node [] = some node := rfl
    rw [preorder, addresses, List.filterMap_cons_some hroot, List.filterMap_flatMap]
    congr 1
    calc (children node).flatMap (preorder children depth)
        = ((children node).zipIdx.map Prod.fst).flatMap (preorder children depth) := by
          rw [List.zipIdx_map_fst]
      _ = (children node).zipIdx.flatMap (fun p => preorder children depth p.1) := by
          rw [List.flatMap_map]
      _ = _ := List.flatMap_congr (fun p hp => (hbelow p hp).symm)

private theorem foldl_push (depth : Nat) (nodes : List ν) (stack : List (ν × Nat)) :
    nodes.reverse.foldl (fun st child => (child, depth) :: st) stack =
      nodes.map (fun child => (child, depth)) ++ stack := by
  rw [List.foldl_reverse]
  induction nodes with
  | nil => rfl
  | cons node nodes ih => rw [List.foldr_cons, ih]; rfl

/-- What is on the stack when the children of a node are pushed. -/
private theorem sum_pushed (size : ν → Nat) (depth : Nat) (nodes : List ν)
    (stack : List (ν × Nat)) :
    ((nodes.map (fun child => (child, depth)) ++ stack).map (fun p => size p.1)).sum =
      (nodes.map size).sum + (stack.map (fun p => size p.1)).sum := by
  have hnodes : (nodes.map ((fun p : ν × Nat => size p.1) ∘ fun child => (child, depth))).sum =
      (nodes.map size).sum := rfl
  rw [List.map_append, List.sum_append, List.map_map, hnodes]

section Fuel

variable (size : ν → Nat) (hsize : ∀ node, ((children node).map size).sum < size node)

include hsize

/-- With fuel for every node on the stack the loop visits the preorders of the stack's
nodes, one after the other. -/
theorem walk_eq_foldl (limit : Nat) (visit : ν → σ → σ) (fuel : Nat) (stack : List (ν × Nat))
    (s : σ) (hfuel : (stack.map (fun p => size p.1)).sum ≤ fuel) :
    walk children limit visit fuel stack s =
      (stack.flatMap (fun p => preorder children (limit - p.2) p.1)).foldl
        (fun s node => visit node s) s := by
  induction fuel generalizing stack s with
  | zero =>
    cases stack with
    | nil => rfl
    | cons p stack =>
      have hp := hsize p.1
      simp only [List.map_cons, List.sum_cons] at hfuel
      omega
  | succ fuel ih =>
    cases stack with
    | nil => rfl
    | cons p stack =>
      obtain ⟨node, depth⟩ := p
      have hn := hsize node
      simp only [List.map_cons, List.sum_cons] at hfuel
      rw [walk, List.flatMap_cons, List.foldl_append]
      by_cases hd : limit ≤ depth
      · rw [if_pos hd, ih stack _ (by omega), Nat.sub_eq_zero_of_le hd]
        rfl
      · obtain ⟨d, hd'⟩ : ∃ d, limit - depth = d + 1 := ⟨limit - depth - 1, by omega⟩
        have hsub : limit - (depth + 1) = d := by omega
        have hpushed : (((children node).map (fun child => (child, depth + 1)) ++ stack).map
            (fun p => size p.1)).sum ≤ fuel := by
          rw [sum_pushed]
          omega
        rw [if_neg hd, foldl_push, ih _ _ hpushed, List.flatMap_append, List.foldl_append, hd',
          preorder, List.foldl_cons, List.flatMap_map]
        simp only [hsub]

/-- A walk from one node visits its preorder. -/
theorem walk_root (limit : Nat) (visit : ν → σ → σ) (root : ν) (s : σ) :
    walk children limit visit (size root) [(root, 0)] s =
      (preorder children limit root).foldl (fun s node => visit node s) s := by
  rw [walk_eq_foldl size hsize limit visit _ _ s (by simp)]
  simp

/-- The loop pops its last node before the fuel is used up. -/
theorem walk_finishes (limit fuel : Nat) (stack : List (ν × Nat))
    (hfuel : (stack.map (fun p => size p.1)).sum ≤ fuel) :
    finishes children limit fuel stack = true := by
  induction fuel generalizing stack with
  | zero =>
    cases stack with
    | nil => rfl
    | cons p stack =>
      have hp := hsize p.1
      simp only [List.map_cons, List.sum_cons] at hfuel
      omega
  | succ fuel ih =>
    cases stack with
    | nil => rfl
    | cons p stack =>
      obtain ⟨node, depth⟩ := p
      have hn := hsize node
      simp only [List.map_cons, List.sum_cons] at hfuel
      rw [finishes]
      split_ifs with hd
      · exact ih stack (by omega)
      · rw [foldl_push]
        apply ih
        rw [sum_pushed]
        omega

end Fuel

end Sidecar.Traversal
