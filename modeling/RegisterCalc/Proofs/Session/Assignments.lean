import RegisterCalc.Proofs.Session.Transcript
import RegisterCalc.Proofs.Tree.RoundTrip

/-!
# What is reported as assigned is stored

A statement is reported as an assignment to a register if and only if that is what it is, apart from
brackets around it, and then every register of the chain of assignments it begins with reads the
reported value afterwards, however the value was had (`Session.get_of_assignsInTurn`).

What is reported is read off the tree of the statement, while the tree that is evaluated may be
another, with its constants folded. The two come to the same (`Session.entry_execute`), so the tree
of the statement is enough: the registers of a chain are written from the last to the first, all
with one value and after everything that the value needs (`Expr.get_evaluate_of_mem_chain`).
-/

namespace RegisterCalc

/-! ## Chains of assignments -/

namespace Expr

/-- The registers that the root assigns, then its value if that is an assignment, and so on. -/
def chain : Expr → List RegisterId
  | assign target value _ => target :: value.chain
  | _ => []

/-- The first register of a chain is the one that the root assigns. -/
theorem head?_chain (t : Expr) : t.chain.head? = t.target? := by
  cases t <;> rfl

/-- Every register of a chain reads the value of the tree once it is evaluated. -/
theorem get_evaluate_of_mem_chain {t : Expr} {registers : Registers} {x : Float}
    (ok : (t.evaluate registers).outcome = .ok x) {id : RegisterId} (mem : id ∈ t.chain) :
    (t.evaluate registers).registers.get id = x := by
  induction t with
  | number | register | unary | binary | call => cases mem
  | assign target value offset ih =>
    rw [evaluate] at ok ⊢
    cases inner : (value.evaluate registers).outcome with
    | error fault =>
      rw [Evaluation.andThen_of_error inner, inner] at ok
      cases ok
    | ok y =>
      rw [Evaluation.andThen_of_ok inner] at ok ⊢
      obtain rfl : y = x := Except.ok.inj ok
      show ((value.evaluate registers).registers.set target y).get id = y
      by_cases last : id = target
      · rw [last, Registers.get_set_self]
      · have further : id ∈ value.chain := (List.mem_cons.1 mem).resolve_left last
        rw [Registers.get_set_of_ne _ _ last, ih inner further]

end Expr

/-! ## Chains of assignments in tokens -/

/-- Tokens begin with assignments to the given registers, each of which is the value of the one
before, and go on with a statement. Brackets may enclose what they make at every place. -/
inductive AssignsInTurn : List RegisterId → List Token → Prop where
  | statement (d : Derivation .assignment) : AssignsInTurn [] d.tokens
  | assign {digits : String} {target : RegisterId} (named : RegisterId.ofText? digits = some target)
      (targetOffset signOffset : Offset) {ids : List RegisterId} {tokens : List Token}
      (value : AssignsInTurn ids tokens) :
      AssignsInTurn (target :: ids)
        (⟨.register (some digits), targetOffset⟩ :: ⟨.symbol .assign, signOffset⟩ :: tokens)
  | brackets (openOffset closeOffset : Offset) {ids : List RegisterId} {tokens : List Token}
      (inner : AssignsInTurn ids tokens) :
      AssignsInTurn ids (⟨.symbol .leftParen, openOffset⟩ ::
        (tokens ++ [⟨.symbol .rightParen, closeOffset⟩]))

/-- Tokens that begin with assignments in turn are a statement, and its chain begins with the
registers. -/
theorem AssignsInTurn.derived {ids : List RegisterId} {tokens : List Token}
    (h : AssignsInTurn ids tokens) :
    ∃ d : Derivation .assignment, d.tokens = tokens ∧ ids <+: d.tree.chain := by
  induction h with
  | statement d => exact ⟨d, rfl, List.nil_prefix⟩
  | assign named targetOffset signOffset value ih =>
    obtain ⟨d, rfl, chain⟩ := ih
    exact ⟨.assign _ _ named targetOffset signOffset d, rfl, List.cons_prefix_cons.2 ⟨rfl, chain⟩⟩
  | brackets openOffset closeOffset inner ih =>
    obtain ⟨d, rfl, chain⟩ := ih
    refine ⟨(Derivation.uncalled (.group openOffset d closeOffset)).asAssignment, ?_, ?_⟩
    · rw [Derivation.tokens_asAssignment]
      rfl
    · rw [Derivation.tree_asAssignment]
      exact chain

namespace Derivation

/-- What denotes an assignment is one, apart from brackets around it. -/
theorem assignsInTurn_of_target? {c : Category} (d : Derivation c) {id : RegisterId}
    (assigns : d.tree.target? = some id) : AssignsInTurn [id] d.tokens := by
  induction d with
  | assign digits target named targetOffset signOffset value =>
    obtain rfl := Option.some.inj assigns
    exact .assign named targetOffset signOffset (.statement value)
  | group openOffset inner closeOffset ih => exact .brackets openOffset closeOffset (ih assigns)
  | loosest inner ih | tighter inner ih | operand inner ih | unprefixed inner ih
  | uncalled inner ih => exact ih assigns
  | operation | prefixed | call | number | register => cases assigns

end Derivation

/-- The tree of a statement assigns a register if and only if the statement does, apart from
brackets around it. -/
theorem Derivation.target?_eq_some_iff (d : Derivation .assignment) (id : RegisterId) :
    d.tree.target? = some id ↔ ∃ ids, AssignsInTurn (id :: ids) d.tokens := by
  refine ⟨fun assigns => ⟨[], d.assignsInTurn_of_target? assigns⟩, ?_⟩
  rintro ⟨ids, chain⟩
  obtain ⟨d', tokens, rest, whole⟩ := chain.derived
  obtain rfl := eq_of_tokens tokens
  rw [← Expr.head?_chain, ← whole]
  rfl

/-! ## Statements -/

namespace Session

/-- A register alone is a statement that reports what the register reads. -/
theorem execute_register (session : Session) (id : RegisterId) :
    ∃ reading, (session.execute id.text).outcome = .ok reading ∧
      reading.value = session.registers.get id ∧ reading.assigned = none := by
  obtain ⟨u, read, same⟩ := Expr.ofText_text_covered (t := .register id 0) rfl (Nat.zero_le _)
  cases u with
  | register id' offset =>
    obtain rfl : id' = id := (Expr.register.inj same).1
    obtain ⟨reading, outcome, tree, value⟩ := session.execute_of_evaluated read rfl
    exact ⟨reading, outcome, value, congrArg Expr.target? tree⟩
  | number | unary | binary | call | assign => cases same

/-- A statement that is accepted is reported as an assignment to a register if and only if it is an
assignment to that register, apart from brackets around it. Every register of the chain of
assignments that it begins with then reads the reported value, in whatever way the value assigns or
reads registers itself, and the next statement finds it there. -/
theorem get_of_assignsInTurn (session : Session) (statement : String) (accepted : Accepted)
    (ok : (session.execute statement).outcome = .ok accepted) :
    ∃ (body : List Token) (last : Offset),
      tokenize statement = .ok (body ++ [⟨.endOfInput, last⟩]) ∧
      (∀ id, accepted.assigned = some id ↔ ∃ ids, AssignsInTurn (id :: ids) body) ∧
      ∀ ids, AssignsInTurn ids body → ∀ id ∈ ids,
        (session.execute statement).session.registers.get id = accepted.value ∧
        ∃ reading, ((session.execute statement).session.execute id.text).outcome = .ok reading ∧
          reading.value = accepted.value ∧ reading.assigned = none := by
  obtain ⟨read, value, after⟩ := evaluated_of_execute ok
  obtain ⟨d, last, cut, denoted, -⟩ := Expr.derived_of_ofText read
  refine ⟨d.tokens, last, cut, fun id => ?_, fun ids chain id mem => ?_⟩
  · rw [Accepted.assigned, ← denoted]
    exact d.target?_eq_some_iff id
  · obtain ⟨d', tokens, whole⟩ := chain.derived
    obtain rfl := Derivation.eq_of_tokens tokens
    have mem : id ∈ accepted.tree.chain := denoted ▸ whole.subset mem
    have stored : (session.execute statement).session.registers.get id = accepted.value := by
      rw [after]
      exact Expr.get_evaluate_of_mem_chain value mem
    obtain ⟨reading, outcome, found, reports⟩ :=
      (session.execute statement).session.execute_register id
    exact ⟨stored, reading, outcome, found.trans stored, reports⟩

/-- The statement `(#1 = #2 = (#1 = 5))` in a session that folds constants: both registers of the
chain read 5, though the value of the chain assigns `#1` as well. -/
theorem get_of_assignsInTurn_twice : ∃ (session : Session) (accepted : Accepted),
    session.config.showFolded ∧
    (session.execute "(#1 = #2 = (#1 = 5))").outcome = .ok accepted ∧
    accepted.assigned = some 1 ∧ accepted.value = 5 ∧
    ∀ id ∈ [1, 2],
      (session.execute "(#1 = #2 = (#1 = 5))").session.registers.get id = accepted.value := by
  have cut : tokenize "(#1 = #2 = (#1 = 5))" = .ok ([⟨.symbol .leftParen, 0⟩,
      ⟨.register (some "1"), 1⟩, ⟨.symbol .assign, 4⟩, ⟨.register (some "2"), 6⟩,
      ⟨.symbol .assign, 9⟩, ⟨.symbol .leftParen, 11⟩, ⟨.register (some "1"), 12⟩,
      ⟨.symbol .assign, 15⟩, ⟨.number (some "5") (some 5), 17⟩, ⟨.symbol .rightParen, 18⟩,
      ⟨.symbol .rightParen, 19⟩] ++ [⟨.endOfInput, 20⟩]) := eq_ok_of_toOption (by decide +kernel)
  have read : Expr.ofText "(#1 = #2 = (#1 = 5))" =
      .ok (.assign 1 (.assign 2 (.assign 1 (.number 5 17) 15) 9) 4) :=
    eq_ok_of_toOption (by decide +kernel)
  have named : RegisterId.ofText? "1" = some 1 := by decide +kernel
  have named' : RegisterId.ofText? "2" = some 2 := by decide +kernel
  let session : Session := .new ⟨true, true, false, "expr> "⟩
  obtain ⟨accepted, ok, tree, value⟩ := session.execute_of_evaluated read (x := 5) rfl
  obtain ⟨body, last, cut', reported, chained⟩ := session.get_of_assignsInTurn _ accepted ok
  obtain ⟨rfl, -⟩ := List.append_inj' (Except.ok.inj (cut'.symm.trans cut)) rfl
  have chain : AssignsInTurn [1, 2] _ :=
    .brackets 0 19 (.assign named 1 4 (.assign named' 6 9
      (.brackets 11 18 (.statement (.assign "1" 1 named 12 15
        (Derivation.uncalled (.number (some "5") 5 17)).asAssignment)))))
  exact ⟨session, accepted, rfl, ok, (reported 1).2 ⟨[2], chain⟩, value,
    fun id mem => (chained [1, 2] chain id mem).1⟩

end Session

end RegisterCalc
