import RegisterCalc.Tree.Basic
import Mathlib.Data.List.Basic
import Mathlib.Data.List.Pairwise

/-!
# Addresses of nodes

A node is found from the root by the numbers of the parts that lead to it (`Expr.at?`). The
addresses of a tree in the order in which a node stands before its parts, and those from left to
right, ascend as lists of numbers (`Expr.pairwise_addresses`), and they are the addresses of all
nodes (`Expr.mem_addresses_iff`).
-/

namespace RegisterCalc

/-- The way from the root to a node: which part to take at each step, counted from zero. -/
abbrev Address := List Nat

namespace Expr

/-- A property of all trees follows if each tree has it with its parts. -/
theorem children_induction {P : Expr → Prop} (node : ∀ t, (∀ u ∈ t.children, P u) → P t)
    (t : Expr) : P t := by
  induction t with
  | number | register => exact node _ (List.forall_mem_nil _)
  | unary op operand offset ih | call name operand offset ih | assign target operand offset ih =>
    exact node _ (List.forall_mem_singleton.2 ih)
  | binary op left right offset ihl ihr =>
    exact node _ (List.forall_mem_cons.2 ⟨ihl, List.forall_mem_singleton.2 ihr⟩)

/-- The part of a tree at an address, if there is one. -/
def at? : Expr → Address → Option Expr
  | t, [] => some t
  | t, i :: address => t.children[i]?.bind (·.at? address)

/-- The addresses of a tree, each before those below it, and those from left to right. -/
def addresses : Expr → List Address
  | number _ _ | register _ _ => [[]]
  | unary _ operand _ => [] :: operand.addresses.map (0 :: ·)
  | binary _ left right _ =>
    [] :: (left.addresses.map (0 :: ·) ++ right.addresses.map (1 :: ·))
  | call _ argument _ => [] :: argument.addresses.map (0 :: ·)
  | assign _ value _ => [] :: value.addresses.map (0 :: ·)

/-- The addresses of a tree are its own and those of its parts, part by part. -/
theorem addresses_eq (t : Expr) : t.addresses =
    [] :: t.children.zipIdx.flatMap fun part => part.1.addresses.map (part.2 :: ·) := by
  cases t <;> simp [addresses, children]

/-- What is at an address is found in two steps. -/
theorem at?_append (t : Expr) (a b : Address) : t.at? (a ++ b) = (t.at? a).bind (·.at? b) := by
  induction a generalizing t with
  | nil => rfl
  | cons i a ih =>
    rw [List.cons_append, at?, at?, Option.bind_assoc]
    exact Option.bind_congr fun u _ => ih u

/-- Each address of a tree leads to a node, and each address that does is among them. -/
theorem mem_addresses_iff {t : Expr} {address : Address} :
    address ∈ t.addresses ↔ (t.at? address).isSome := by
  induction t using children_induction generalizing address with
  | node t ih =>
    rw [addresses_eq, List.mem_cons, List.mem_flatMap]
    cases address with
    | nil => exact ⟨fun _ => rfl, fun _ => .inl rfl⟩
    | cons i address =>
      simp only [Prod.exists, List.mk_mem_zipIdx_iff_getElem?, List.mem_map, List.cons.injEq,
        reduceCtorEq, false_or, at?]
      constructor
      · rintro ⟨u, j, found, address', mem, rfl, rfl⟩
        rw [found]
        exact (ih u (List.mem_of_getElem? found)).1 mem
      · intro inside
        cases found : t.children[i]? with
        | none =>
          rw [found] at inside
          cases inside
        | some u =>
          rw [found] at inside
          exact ⟨u, i, found, address, (ih u (List.mem_of_getElem? found)).2 inside, rfl, rfl⟩

/-- The addresses of a tree ascend. -/
theorem pairwise_addresses (t : Expr) : t.addresses.Pairwise (· < ·) := by
  induction t using children_induction with
  | node t ih =>
    rw [addresses_eq, List.pairwise_cons, List.pairwise_flatMap]
    refine ⟨?_, ?_, ?_⟩
    · intro address mem
      obtain ⟨part, -, mem⟩ := List.mem_flatMap.1 mem
      obtain ⟨below, -, rfl⟩ := List.mem_map.1 mem
      exact List.nil_lt_cons _ _
    · rintro ⟨u, i⟩ mem
      refine List.pairwise_map.2 ((ih u (List.fst_mem_of_mem_zipIdx mem)).imp fun less => ?_)
      exact List.cons_lt_cons_iff.2 (.inr ⟨rfl, less⟩)
    · have places : t.children.zipIdx.Pairwise (·.2 < ·.2) := by
        rw [← List.pairwise_map (f := Prod.snd), List.zipIdx_map_snd]
        exact List.pairwise_lt_range' _
      refine places.imp fun less address mem address' mem' => ?_
      obtain ⟨below, -, rfl⟩ := List.mem_map.1 mem
      obtain ⟨below', -, rfl⟩ := List.mem_map.1 mem'
      exact List.cons_lt_cons_iff.2 (.inl less)

/-- Whether there is a node behind the one at an address among the parts of the same node. -/
def hasLaterSibling (t : Expr) (address : Address) : Bool :=
  match address.getLast? with
  | none => false
  | some i => (t.at? (address.dropLast ++ [i + 1])).isSome

/-- A part has a later sibling if it is not the last. -/
theorem hasLaterSibling_concat {t u : Expr} {address : Address} (found : t.at? address = some u)
    (i : Nat) : t.hasLaterSibling (address ++ [i]) = decide (i + 1 < u.children.length) := by
  simp only [hasLaterSibling, List.getLast?_concat, List.dropLast_concat, at?_append, found,
    Option.bind_some, at?]
  cases behind : u.children[i + 1]? with
  | none => simpa using behind
  | some v => simpa using (List.getElem?_eq_some_iff.1 behind).1

end Expr

end RegisterCalc
