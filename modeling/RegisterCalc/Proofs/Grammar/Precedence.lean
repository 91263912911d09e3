import RegisterCalc.Proofs.Grammar.Exactness

/-!
# How tightly operators bind

The ladder of the grammar said without it: a binary operator has a precedence
(`BinaryOp.precedence`), and the operators of a level are those of one precedence
(`BinaryOp.mem_get_levels_iff`).

Operands with operators between them are a chain. The root of its tree is, among its operators that
bind loosest, the last one (`Groups`). So the grammar has a derivation for every chain
(`Groups.exists_derivation`), and a chain is read as the tree that it is grouped as and as no other
(`Expr.ofTokens_chain`). Whatever the operands are, prefix operators, calls and brackets are inside
them, where the operators of the chain have no part.
-/

namespace RegisterCalc

/-! ## Levels -/

namespace BinaryOp

/-- How tightly a binary operator binds: the logical ones bind loosest, then the bitwise ones, the
comparisons, the shifts, and the operators of arithmetic. -/
def precedence : BinaryOp → Nat
  | or => 0
  | and => 1
  | bitOr => 2
  | bitXor => 3
  | bitAnd => 4
  | equal | notEqual => 5
  | less | lessEqual | greater | greaterEqual => 6
  | shiftLeft | shiftRight => 7
  | add | sub => 8
  | mul | div => 9

/-- The operators of a level are those of a precedence. -/
theorem mem_get_levels_iff (op : BinaryOp) :
    ∀ index : Fin levels.length, op ∈ levels.get index ↔ op.precedence = index := by
  cases op <;> decide

/-- There is a level for each precedence. -/
theorem precedence_lt (op : BinaryOp) : op.precedence < levels.length := by
  cases op <;> decide

end BinaryOp

/-- An expression of a level is one of each looser level. -/
theorem Derivation.exists_looser {index precedence : Nat} (looser : index ≤ precedence)
    (isLevel : precedence ≤ BinaryOp.levels.length)
    (d : Derivation (.ladder (BinaryOp.levels.drop precedence))) :
    ∃ d' : Derivation (.ladder (BinaryOp.levels.drop index)),
      d'.tokens = d.tokens ∧ d'.tree = d.tree ∧ d'.depth = d.depth := by
  induction looser using Nat.decreasingInduction with
  | self => exact ⟨d, rfl, rfl, rfl⟩
  | of_succ index inside ih =>
    obtain ⟨d', spelled, denoted, depth⟩ := ih
    rw [List.drop_eq_getElem_cons (inside.trans_le isLevel)]
    exact ⟨.tighter d', spelled, denoted, depth⟩

/-! ## Chains -/

/-- A binary operator and the operand behind it. -/
structure Link where
  op : BinaryOp
  offset : Offset
  operand : Derivation .unary

/-- The tokens of an operand and of the links behind it. -/
def chainTokens (first : Derivation .unary) (links : List Link) : List Token :=
  first.tokens ++
    links.flatMap fun link => ⟨.symbol link.op.symbol, link.offset⟩ :: link.operand.tokens

/-- A chain in two parts has the operator of a link between them. -/
theorem chainTokens_append_cons (first : Derivation .unary) (before after : List Link)
    (link : Link) : chainTokens first (before ++ link :: after) =
      chainTokens first before ++
        ⟨.symbol link.op.symbol, link.offset⟩ :: chainTokens link.operand after := by
  simp only [chainTokens, List.flatMap_append, List.flatMap_cons, List.append_assoc,
    List.cons_append]

/-- A chain is grouped as a tree: an operand alone is its own, and otherwise the root is the last of
the operators that bind loosest. -/
inductive Groups : Derivation .unary → List Link → Expr → Prop where
  | operand (first : Derivation .unary) : Groups first [] first.tree
  | operation {first : Derivation .unary} {before after : List Link} {link : Link}
      {left right : Expr} (ofLeft : Groups first before left)
      (ofRight : Groups link.operand after right)
      (loosest : ∀ other ∈ before, link.op.precedence ≤ other.op.precedence)
      (last : ∀ other ∈ after, link.op.precedence < other.op.precedence) :
      Groups first (before ++ link :: after) (.binary link.op left right link.offset)

/-- One of the links of a chain is the last of those that bind loosest. -/
theorem exists_last_loosest {links : List Link} (notEmpty : links ≠ []) :
    ∃ before link after, links = before ++ link :: after ∧
      (∀ other ∈ before, link.op.precedence ≤ other.op.precedence) ∧
      ∀ other ∈ after, link.op.precedence < other.op.precedence := by
  induction links with
  | nil => exact absurd rfl notEmpty
  | cons head links ih =>
    rcases eq_or_ne links [] with rfl | more
    · exact ⟨[], head, [], rfl, nofun, nofun⟩
    obtain ⟨before, link, after, rfl, loosest, last⟩ := ih more
    rcases Nat.lt_or_ge head.op.precedence link.op.precedence with looser | tighter
    · refine ⟨[], head, _, rfl, nofun, List.forall_mem_append.2 ⟨fun other mem => ?_, ?_⟩⟩
      · exact looser.trans_le (loosest other mem)
      · exact List.forall_mem_cons.2 ⟨looser, fun other mem => looser.trans (last other mem)⟩
    · exact ⟨head :: before, link, after, rfl, List.forall_mem_cons.2 ⟨tighter, loosest⟩, last⟩

/-- Every chain is grouped as a tree. -/
theorem exists_groups (first : Derivation .unary) (links : List Link) :
    ∃ tree, Groups first links tree := by
  -- The induction is on the number of links, since both parts of a chain have fewer.
  induction length : links.length using Nat.strongRecOn generalizing first links with
  | ind n fewer =>
    rcases eq_or_ne links [] with rfl | notEmpty
    · exact ⟨_, .operand first⟩
    obtain ⟨before, link, after, rfl, loosest, last⟩ := exists_last_loosest notEmpty
    rw [List.length_append, List.length_cons] at length
    obtain ⟨left, ofLeft⟩ := fewer before.length (by omega) first before rfl
    obtain ⟨right, ofRight⟩ := fewer after.length (by omega) link.operand after rfl
    exact ⟨_, .operation ofLeft ofRight loosest last⟩

/-- The grammar derives a chain at every level that no operator of the chain is looser than, and
what is derived is the tree that the chain is grouped as. -/
theorem Groups.exists_derivation {first : Derivation .unary} {links : List Link} {tree : Expr}
    (grouped : Groups first links tree) {index depth : Nat}
    (isLevel : index ≤ BinaryOp.levels.length)
    (tight : ∀ link ∈ links, index ≤ link.op.precedence) (shallow : first.depth ≤ depth)
    (shallowLinks : ∀ link ∈ links, link.operand.depth ≤ depth) :
    ∃ d : Derivation (.ladder (BinaryOp.levels.drop index)),
      d.tokens = chainTokens first links ∧ d.tree = tree ∧ d.depth ≤ depth := by
  induction grouped generalizing index with
  | operand first =>
    refine ⟨first.climb _, ?_, first.tree_climb _, ?_⟩
    · rw [first.tokens_climb, chainTokens, List.flatMap_nil, List.append_nil]
    · rwa [first.depth_climb]
  | @operation first before after link left right _ _ loosest last ihl ihr =>
    obtain ⟨shallowBefore, shallowLinks⟩ := List.forall_mem_append.1 shallowLinks
    obtain ⟨shallowLink, shallowAfter⟩ := List.forall_mem_cons.1 shallowLinks
    have ofLink := link.op.precedence_lt
    have atLevel : ∃ d : Derivation (.ladder (BinaryOp.levels.drop link.op.precedence)),
        d.tokens = chainTokens first (before ++ link :: after) ∧
        d.tree = .binary link.op left right link.offset ∧ d.depth ≤ depth := by
      have ofLevel : link.op ∈ BinaryOp.levels[link.op.precedence] :=
        (link.op.mem_get_levels_iff ⟨_, ofLink⟩).2 rfl
      obtain ⟨dr, spelledRight, rfl, depthRight⟩ := ihr ofLink last shallowLink shallowAfter
      have ofLeft := ihl ofLink.le loosest shallow shallowBefore
      rw [List.drop_eq_getElem_cons ofLink] at ofLeft ⊢
      obtain ⟨dl, spelledLeft, rfl, depthLeft⟩ := ofLeft
      refine ⟨.operation dl link.op ofLevel link.offset dr, ?_, rfl, max_le depthLeft depthRight⟩
      rw [Derivation.tokens, spelledLeft, spelledRight, chainTokens_append_cons]
    obtain ⟨d, spelled, denoted, depthOf⟩ := atLevel
    have looser := tight link (List.mem_append_right _ List.mem_cons_self)
    obtain ⟨d', spelled', denoted', depth'⟩ := d.exists_looser looser ofLink.le
    exact ⟨d', spelled'.trans spelled, denoted'.trans denoted, depth'.trans_le depthOf⟩

/-- A chain of operands, none of them nested too deep, is read as the tree that it is grouped as,
and as nothing else. -/
theorem Expr.ofTokens_chain {first : Derivation .unary} {links : List Link}
    (shallow : first.depth ≤ maxNesting)
    (shallowLinks : ∀ link ∈ links, link.operand.depth ≤ maxNesting) (stop : Offset) (tree : Expr) :
    Expr.ofTokens (chainTokens first links ++ [⟨.endOfInput, stop⟩]) = .ok tree ↔
      Groups first links tree := by
  have read {tree : Expr} (grouped : Groups first links tree) :
      Expr.ofTokens (chainTokens first links ++ [⟨.endOfInput, stop⟩]) = .ok tree := by
    obtain ⟨d, spelled, rfl, depth⟩ :=
      grouped.exists_derivation (Nat.zero_le _) (fun _ _ => Nat.zero_le _) shallow shallowLinks
    rw [← spelled]
    exact (Derivation.loosest d).ofTokensWithin_covered depth stop
  refine ⟨fun made => ?_, read⟩
  obtain ⟨tree', grouped⟩ := exists_groups first links
  obtain rfl := Except.ok.inj ((read grouped).symm.trans made)
  exact grouped

end RegisterCalc
