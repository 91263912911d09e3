import RegisterCalc.Proofs.Token.Scanning
import RegisterCalc.Proofs.Tree.RoundTrip

/-!
# Nodes and their anchors

Every node of the tree of a statement is reported at the token that it was read from, its *anchor*.
From left to right, with an operator between its operands and every other node before its part, the
nodes of the tree are what the tokens of the statement are read as, in their order
(`Expr.nodes_of_ofText`). Brackets, the end of the input and a register before an assignment sign
are no anchors (`Token.isAnchor`); every other token is one, of a single node that has its content
(`Token.node?`).

A minus sign is an operator of either kind, so what a token is read as depends on the token before
it: an operator between operands stands behind the last token of an operand, a prefix operator does
not (`Token.endsOperand`). The induction over a derivation carries this along: no derivation starts
behind the end of an operand, and each ends with one.
-/

namespace RegisterCalc

/-! ## The nodes of a tree -/

/-- What a node of a tree is, apart from its parts. -/
inductive NodeKind where
  | number (value : Float)
  | register (id : RegisterId)
  | unary (op : PrefixOp)
  | binary (op : BinaryOp)
  | call (name : String)
  | assign (target : RegisterId)
  deriving DecidableEq, Repr

/-- A node of a tree without its parts, and where it is reported. -/
structure Node where
  kind : NodeKind
  offset : Offset
  deriving DecidableEq, Repr

/-- The nodes of a tree from left to right: an operator between operands stands between their nodes,
and every other node before those of its part. -/
def Expr.nodes : Expr → List Node
  | number value offset => [⟨.number value, offset⟩]
  | register id offset => [⟨.register id, offset⟩]
  | unary op operand offset => ⟨.unary op, offset⟩ :: operand.nodes
  | binary op left right offset => left.nodes ++ ⟨.binary op, offset⟩ :: right.nodes
  | call name argument offset => ⟨.call name, offset⟩ :: argument.nodes
  | assign target value offset => ⟨.assign target, offset⟩ :: value.nodes

/-! ## Anchors -/

namespace Token

/-- Whether a token is the anchor of a node, where the given one follows: all are but brackets, the
end of the input and a register before an assignment sign. -/
def isAnchor (token : Token) (next : Option Token) : Bool :=
  match token.lexeme with
  | .symbol .leftParen | .symbol .rightParen | .endOfInput => false
  | .register _ => next.bind symbol? ≠ some .assign
  | _ => true

/-- Whether a token can be the last one of an operand. -/
def endsOperand (token : Token) : Bool :=
  match token.lexeme with
  | .number _ _ | .register _ | .symbol .rightParen => true
  | _ => false

/-- What a token behind the given one is read as. An assignment sign is read as an assignment to the
register before it, and an operator as one between operands if an operand ends before it. -/
def kind? (previous : Option Token) (token : Token) : Option NodeKind :=
  match token.lexeme with
  | .number _ value => value.map .number
  | .register _ => token.lexeme.registerId?.map .register
  | .name letters => letters.map .call
  | .symbol .assign => (previous.bind (·.lexeme.registerId?)).map .assign
  | .symbol symbol =>
    if previous.any endsOperand then (token.operator? BinaryOp.levels.flatten).map .binary
    else (PrefixOp.ofSymbol? symbol).map .unary
  | .endOfInput => none

/-- The node that a token behind the given one is read as, where it stands. -/
def node? (previous : Option Token) (token : Token) : Option Node :=
  (token.kind? previous).map (⟨·, token.offset⟩)

/-- An operator between operands ends no operand and is an anchor. -/
theorem isAnchor_binary (op : BinaryOp) (offset : Offset) (next : Option Token) :
    endsOperand ⟨.symbol op.symbol, offset⟩ = false ∧
      isAnchor ⟨.symbol op.symbol, offset⟩ next := by
  cases op <;> exact ⟨rfl, rfl⟩

/-- A prefix operator ends no operand and is an anchor. -/
theorem isAnchor_prefix (op : PrefixOp) (offset : Offset) (next : Option Token) :
    endsOperand ⟨.symbol op.symbol, offset⟩ = false ∧
      isAnchor ⟨.symbol op.symbol, offset⟩ next := by
  cases op <;> exact ⟨rfl, rfl⟩

end Token

/-- A token, behind the one before it, is the anchor of a node. -/
def IsAnchorOf (anchor : Option Token × Token) (node : Node) : Prop :=
  anchor.2.node? anchor.1 = some node

namespace IsAnchorOf

/-- A node is reported where its anchor stands. -/
theorem offset_eq {anchor : Option Token × Token} {node : Node} (h : IsAnchorOf anchor node) :
    anchor.2.offset = node.offset := by
  obtain ⟨kind, -, rfl⟩ := Option.map_eq_some_iff.1 h
  rfl

/-- The end of the input is no anchor. -/
theorem isEnd_eq_false {anchor : Option Token × Token} {node : Node} (h : IsAnchorOf anchor node) :
    anchor.2.isEnd = false := by
  obtain ⟨previous, lexeme, offset⟩ := anchor
  cases lexeme with
  | endOfInput => cases h
  | _ => rfl

/-- The anchor of an operator between operands is its symbol. -/
theorem eq_of_binary {anchor : Option Token × Token} {op : BinaryOp} {offset : Offset}
    (h : IsAnchorOf anchor ⟨.binary op, offset⟩) : anchor.2 = ⟨.symbol op.symbol, offset⟩ := by
  obtain ⟨kind, read, same⟩ := Option.map_eq_some_iff.1 h
  obtain ⟨rfl, rfl⟩ := Node.mk.inj same
  obtain ⟨previous, token⟩ := anchor
  have operator : token.operator? BinaryOp.levels.flatten = some op := by
    unfold Token.kind? at read
    repeat' split at read
    case h_5.isTrue =>
      obtain ⟨op', found, same⟩ := Option.map_eq_some_iff.1 read
      rwa [NodeKind.binary.inj same] at found
    case h_6 => cases read
    all_goals
      obtain ⟨_, -, other⟩ := Option.map_eq_some_iff.1 read
      cases other
  exact (Token.eq_of_operator? operator).2

/-- Where an operand ends, an operator between operands is the anchor of one. -/
theorem binary {previous : Token} (ends : previous.endsOperand) (op : BinaryOp) (offset : Offset) :
    IsAnchorOf (some previous, ⟨.symbol op.symbol, offset⟩) ⟨.binary op, offset⟩ := by
  have kind : Token.kind? (some previous) ⟨.symbol op.symbol, offset⟩ =
      (Token.operator? ⟨.symbol op.symbol, offset⟩ BinaryOp.levels.flatten).map .binary := by
    cases op <;> exact if_pos ends
  rw [IsAnchorOf, Token.node?, kind, Token.operator?_of_mem op.mem_levels]
  rfl

/-- Where no operand ends, a prefix operator is the anchor of one. -/
theorem unary {previous : Option Token} (starts : previous.any Token.endsOperand = false)
    (op : PrefixOp) (offset : Offset) :
    IsAnchorOf (previous, ⟨.symbol op.symbol, offset⟩) ⟨.unary op, offset⟩ := by
  have kind : Token.kind? previous ⟨.symbol op.symbol, offset⟩ =
      (PrefixOp.ofSymbol? op.symbol).map .unary := by
    cases op <;> exact if_neg (Bool.eq_false_iff.1 starts)
  rw [IsAnchorOf, Token.node?, kind, PrefixOp.ofSymbol?_symbol]
  rfl

/-- A name is the anchor of a call. -/
theorem call (previous : Option Token) (name : String) (offset : Offset) :
    IsAnchorOf (previous, ⟨.name (some name), offset⟩) ⟨.call name, offset⟩ := rfl

/-- A number is the anchor of one. -/
theorem number (previous : Option Token) (text : Option String) (value : Float) (offset : Offset) :
    IsAnchorOf (previous, ⟨.number text (some value), offset⟩) ⟨.number value, offset⟩ := rfl

/-- A register is the anchor of the one that it names. -/
theorem register (previous : Option Token) {digits : String} {id : RegisterId}
    (named : RegisterId.ofText? digits = some id) (offset : Offset) :
    IsAnchorOf (previous, ⟨.register (some digits), offset⟩) ⟨.register id, offset⟩ := by
  rw [IsAnchorOf, Token.node?, Token.kind?, Lexeme.registerId?, named]
  rfl

/-- An assignment sign is the anchor of an assignment to the register before it. -/
theorem assign {digits : String} {target : RegisterId}
    (named : RegisterId.ofText? digits = some target) (targetOffset signOffset : Offset) :
    IsAnchorOf (some ⟨.register (some digits), targetOffset⟩, ⟨.symbol .assign, signOffset⟩)
      ⟨.assign target, signOffset⟩ := by
  rw [IsAnchorOf, Token.node?, Token.kind?, Option.bind_some, Lexeme.registerId?, named]
  rfl

end IsAnchorOf

/-- The anchors among tokens, each with the token before it. -/
def anchors (previous : Option Token) : List Token → List (Option Token × Token)
  | [] => []
  | token :: rest =>
    if token.isAnchor rest.head? then (previous, token) :: anchors (some token) rest
    else anchors (some token) rest

section
variable {previous : Option Token} {token : Token} {rest : List Token}

/-- An anchor comes first among those of the tokens that it starts. -/
theorem anchors_cons_of_isAnchor (h : token.isAnchor rest.head?) :
    anchors previous (token :: rest) = (previous, token) :: anchors (some token) rest :=
  if_pos h

/-- A token that is no anchor is not among those of the tokens that it starts. -/
theorem anchors_cons_of_not_isAnchor (h : token.isAnchor rest.head? = false) :
    anchors previous (token :: rest) = anchors (some token) rest :=
  if_neg (Bool.eq_false_iff.1 h)

/-- The anchors among tokens are some of them, in their order. -/
theorem anchors_sublist (previous : Option Token) (tokens : List Token) :
    List.Sublist ((anchors previous tokens).map (·.2)) tokens := by
  induction tokens generalizing previous with
  | nil => exact .slnil
  | cons token rest ih =>
    rw [anchors]
    split
    · exact (ih _).cons_cons token
    · exact (ih _).cons token

end

/-! ## The anchors of a derivation -/

/-- Behind a token that ends no operand, and before tokens that do not start with an assignment
sign, the anchors among the tokens of a derivation are those of the nodes of its tree, and its last
token ends an operand. -/
theorem Derivation.anchors_tokens {c : Category} (d : Derivation c) {previous : Option Token}
    {rest : List Token} (starts : previous.any Token.endsOperand = false)
    (stops : Stops [] rest) : ∃ own last,
      anchors previous (d.tokens ++ rest) = own ++ anchors (some last) rest ∧
        List.Forall₂ IsAnchorOf own d.tree.nodes ∧ last.endsOperand := by
  induction d generalizing previous rest with
  | assign digits target named targetOffset signOffset value ih =>
    obtain ⟨own, last, split, anchored, ends⟩ :=
      @ih (some ⟨.symbol .assign, signOffset⟩) _ rfl stops
    refine ⟨_ :: own, last, ?_, .cons (.assign named targetOffset signOffset) anchored, ends⟩
    simp only [tokens, List.cons_append]
    rw [anchors_cons_of_not_isAnchor (by rfl), anchors_cons_of_isAnchor (by rfl), split]
  | operation left op ofLevel offset right ihl ihr =>
    obtain ⟨noOperand, isAnchor⟩ := Token.isAnchor_binary op offset (right.tokens ++ rest).head?
    obtain ⟨ownLeft, middle, splitLeft, anchoredLeft, endsLeft⟩ :=
      ihl starts (.operator List.not_mem_nil offset)
    obtain ⟨ownRight, last, splitRight, anchoredRight, ends⟩ :=
      @ihr (some ⟨.symbol op.symbol, offset⟩) _ noOperand stops
    refine ⟨ownLeft ++ _ :: ownRight, last, ?_, List.rel_append anchoredLeft
      (.cons (.binary endsLeft op offset) anchoredRight), ends⟩
    rw [tokens, List.append_assoc, List.cons_append, splitLeft, anchors_cons_of_isAnchor isAnchor,
      splitRight, List.append_assoc, List.cons_append]
  | prefixed op offset inner ih =>
    obtain ⟨noOperand, isAnchor⟩ := Token.isAnchor_prefix op offset (inner.tokens ++ rest).head?
    obtain ⟨own, last, split, anchored, ends⟩ :=
      @ih (some ⟨.symbol op.symbol, offset⟩) _ noOperand stops
    refine ⟨_ :: own, last, ?_, .cons (.unary starts op offset) anchored, ends⟩
    rw [tokens, List.cons_append, anchors_cons_of_isAnchor isAnchor, split, List.cons_append]
  | call function nameOffset openOffset argument closeOffset ih =>
    obtain ⟨own, last, split, anchored, -⟩ :=
      @ih (some ⟨.symbol .leftParen, openOffset⟩) _ rfl (.rightParen closeOffset)
    refine ⟨_ :: own, ⟨.symbol .rightParen, closeOffset⟩, ?_,
      .cons (.call previous function.name nameOffset) anchored, rfl⟩
    simp only [tokens, List.cons_append, List.append_assoc, List.nil_append]
    rw [anchors_cons_of_isAnchor (by rfl), anchors_cons_of_not_isAnchor (by rfl), split,
      anchors_cons_of_not_isAnchor (by rfl)]
  | number text value offset =>
    exact ⟨[(previous, _)], _, anchors_cons_of_isAnchor (by rfl),
      .cons (.number previous text value offset) .nil, rfl⟩
  | register digits id named offset =>
    have isAnchor : Token.isAnchor ⟨.register (some digits), offset⟩ rest.head? := by
      refine decide_eq_true fun assigned => ?_
      obtain ⟨token, first, sign⟩ := Option.bind_eq_some_iff.1 assigned
      exact (stops token first).1 sign
    exact ⟨[(previous, _)], _, anchors_cons_of_isAnchor isAnchor,
      .cons (.register previous named offset) .nil, rfl⟩
  | group openOffset inner closeOffset ih =>
    obtain ⟨own, last, split, anchored, -⟩ :=
      @ih (some ⟨.symbol .leftParen, openOffset⟩) _ rfl (.rightParen closeOffset)
    refine ⟨own, ⟨.symbol .rightParen, closeOffset⟩, ?_, anchored, rfl⟩
    simp only [tokens, List.cons_append, List.append_assoc, List.nil_append]
    rw [anchors_cons_of_not_isAnchor (by rfl), split, anchors_cons_of_not_isAnchor (by rfl)]
  | loosest inner ih | tighter inner ih | operand inner ih | unprefixed inner ih
  | uncalled inner ih => exact ih starts stops

/-! ## The anchors of a statement -/

namespace Expr

variable {s : String} {t : Expr}

/-- The anchors among the tokens of a statement are those of the nodes of its tree. -/
theorem anchored_of_ofText (h : ofText s = .ok t) : ∃ tokens, tokenize s = .ok tokens ∧
    List.Forall₂ IsAnchorOf (anchors none tokens) t.nodes := by
  obtain ⟨d, last, cut, rfl, -⟩ := derived_of_ofText h
  have stops : Stops [] [(⟨.endOfInput, last⟩ : Token)] := by
    rintro _ ⟨⟩
    exact ⟨nofun, nofun⟩
  obtain ⟨own, ending, split, anchored, -⟩ := @Derivation.anchors_tokens _ d none _ rfl stops
  rw [anchors_cons_of_not_isAnchor (by rfl), anchors, List.append_nil] at split
  exact ⟨_, cut, split ▸ anchored⟩

/-- Each node of the tree of a statement has an anchor among the tokens. -/
theorem exists_anchor_of_ofText (h : ofText s = .ok t) {node : Node} (mem : node ∈ t.nodes) :
    ∃ tokens anchor, tokenize s = .ok tokens ∧ anchor.2 ∈ tokens ∧ IsAnchorOf anchor node := by
  obtain ⟨tokens, cut, anchored⟩ := anchored_of_ofText h
  obtain ⟨anchor, mem', isAnchor⟩ := exists_of_forall₂ anchored.flip mem
  exact ⟨tokens, anchor, cut, (anchors_sublist none tokens).subset (List.mem_map_of_mem mem'),
    isAnchor⟩

/-- The nodes of the tree of a statement stand one behind the other. They are what the anchors among
its tokens are read as, in their order, each where its anchor stands. -/
theorem nodes_of_ofText (h : ofText s = .ok t) : ∃ tokens, tokenize s = .ok tokens ∧
    t.nodes.Pairwise (·.offset < ·.offset) ∧
    t.nodes.map (·.offset) = (anchors none tokens).map (·.2.offset) ∧
    List.Forall₂ IsAnchorOf (anchors none tokens) t.nodes := by
  obtain ⟨tokens, cut, anchored⟩ := anchored_of_ofText h
  have offsets : (anchors none tokens).map (·.2.offset) = t.nodes.map (·.offset) := by
    rw [← List.forall₂_eq_eq_eq, List.forall₂_map_left_iff, List.forall₂_map_right_iff]
    exact anchored.imp fun anchor node => IsAnchorOf.offset_eq
  have ordered := List.pairwise_map.1
    ((pairwise_offset_tokenizeFrom cut).2.sublist (anchors_sublist none tokens))
  refine ⟨tokens, cut, (List.pairwise_map (R := (· < ·))).1 ?_, offsets.symm, anchored⟩
  rw [← offsets]
  exact List.pairwise_map.2 ordered

/-- The nodes of the tree of `#1=-sin(2)-3`: an assignment, a negation, a call, a number, a
difference and a number. -/
theorem nodes_of_ofText_difference : ∃ t, ofText "#1=-sin(2)-3" = .ok t ∧
    t.nodes = [⟨.assign 1, 2⟩, ⟨.unary .negate, 3⟩, ⟨.call "sin", 4⟩, ⟨.number 2, 8⟩,
      ⟨.binary .sub, 10⟩, ⟨.number 3, 11⟩] ∧
    ∃ tokens, tokenize "#1=-sin(2)-3" = .ok tokens ∧
      t.nodes.Pairwise (·.offset < ·.offset) ∧
      t.nodes.map (·.offset) = (anchors none tokens).map (·.2.offset) ∧
      List.Forall₂ IsAnchorOf (anchors none tokens) t.nodes := by
  have read : ofText "#1=-sin(2)-3" = .ok (assign 1 (binary .sub (unary .negate
      (call "sin" (number 2 8) 4) 3) (number 3 11) 10) 2) := eq_ok_of_toOption (by decide +kernel)
  exact ⟨_, read, rfl, nodes_of_ofText read⟩

end Expr

end RegisterCalc
