import RegisterCalc.Proofs.Grammar.Course
import RegisterCalc.Proofs.Grammar.EarliestFault

/-!
# The limit on nesting

The limit refuses the first place of a course that is too deep and changes nothing else
(`Expr.ofTokens_nesting`). It does so at the token behind the one that opens this place, and the
tokens up to there decide it: whatever stands behind them, they are refused for the same
(`Opening.Refused`).

The first part is read off the course, which is the run without a limit
(`Expr.ofTokensWithin_eq_limited`). For the second the course is gone through once more. A step
before the place that is too deep has read a tree, and one token of lookahead is all it took
(`Reader.Settles`), so it reads the same tree where other tokens stand behind the opening one.
-/

namespace RegisterCalc

open Reader

/-- The tokens that open nested places: prefix operators, opening brackets and assignment signs. -/
inductive Token.Opens : Token → Prop
  | prefixed (op : PrefixOp) (offset : Offset) : Opens ⟨.symbol op.symbol, offset⟩
  | bracket (offset : Offset) : Opens ⟨.symbol .leftParen, offset⟩
  | sign (offset : Offset) : Opens ⟨.symbol .assign, offset⟩

/-- No register opens a nested place. -/
theorem Token.Opens.isRegister_eq {token : Token} (h : token.Opens) : token.isRegister = false := by
  cases h <;> rfl

/-- Which token stands behind the one that opens a place has no part in whether an assignment
starts. -/
theorem startsAssignment_append_opener (front : List Token) {opener : Token} (opens : opener.Opens)
    (inside inside' : List Token) : startsAssignment (front ++ opener :: inside') =
      startsAssignment (front ++ opener :: inside) := by
  match front with
  | [] =>
    exact (startsAssignment_of_not_register opens.isRegister_eq _).trans
      (startsAssignment_of_not_register opens.isRegister_eq _).symm
  | [_] | _ :: _ :: _ => rfl

/-! ## Places that are refused -/

/-- A place in some tokens is the first one beyond the limit and is refused: `elsewhere` refuses
all tokens that are the same up to what opens the place, at the token behind that. -/
structure Opening.Refused (stop' : Offset) (limit : Nat) (elsewhere : List Token → Outcome)
    (tokens : List Token) (place : Opening) : Prop where
  depth_eq : place.depth = limit + 1
  opens : place.opener.Opens
  refused : ∃ front, front ++ place.opener :: place.inside = tokens ∧
    ∀ inside', elsewhere (front ++ place.opener :: inside') =
      .error (.nestingTooDeep limit (current stop' inside').offset)

namespace Opening.Refused

variable {stop' : Offset} {limit : Nat} {elsewhere elsewhere' : List Token → Outcome}
  {tokens : List Token} {place : Opening}

/-- A place that is refused behind some tokens is refused in them and what stands behind. -/
theorem after (before : List Token) (h : Refused stop' limit elsewhere tokens place)
    (step : ∀ first more, tokens = first :: more → ∀ more',
      elsewhere' (before ++ first :: more') = elsewhere (first :: more')) :
    Refused stop' limit elsewhere' (before ++ tokens) place where
  depth_eq := h.depth_eq
  opens := h.opens
  refused := by
    obtain ⟨front, cut, same⟩ := h.refused
    refine ⟨before ++ front, by rw [List.append_assoc, cut], fun inside' => ?_⟩
    rw [List.append_assoc, ← same]
    cases front with
    | nil => exact step _ _ cut.symm _
    | cons first front => exact step _ _ cut.symm _

/-- A place that is refused in the first of two steps is refused in both. -/
theorem bind (h : Refused stop' limit elsewhere tokens place)
    (next : Expr × List Token → Outcome) :
    Refused stop' limit (fun tokens => (elsewhere tokens).bind next) tokens place where
  depth_eq := h.depth_eq
  opens := h.opens
  refused := by
    obtain ⟨front, cut, same⟩ := h.refused
    refine ⟨front, cut, fun inside' => ?_⟩
    rw [same]
    rfl

/-- A node over a tree leaves a place refused. -/
theorem under (h : Refused stop' limit elsewhere tokens place) (node : Expr → Expr) :
    Refused stop' limit (fun tokens => Reader.under node (elsewhere tokens)) tokens place :=
  h.bind _

end Opening.Refused

/-! ## The first place beyond the limit -/

namespace Course

variable {α β : Type} {limit : Nat}

/-- A step that opens no place leaves the first one beyond the limit as it is. -/
theorem deeper?_bind_direct (course : Course α) (next : α → Except SyntaxFault β) :
    (course.bind fun made => direct (next made)).deeper? limit = course.deeper? limit := by
  cases h : course.outcome with
  | error fault => exact deeper?_bind_of_error h _
  | ok made =>
    rw [deeper?_bind_of_ok h]
    exact Option.or_none

/-- The first place beyond the limit is one of the first step or one of the second, and then the
first step has made something without reaching the limit. -/
theorem deeper?_bind_eq_some {course : Course α} {next : α → Course β} {place : Opening}
    (h : (course.bind next).deeper? limit = some place) (stop : Offset) :
    course.deeper? limit = some place ∨
      ∃ made, course.limited stop limit = .ok made ∧ (next made).deeper? limit = some place := by
  cases outcome : course.outcome with
  | error fault =>
    rw [deeper?_bind_of_error outcome] at h
    exact .inl h
  | ok made =>
    rw [deeper?_bind_of_ok outcome] at h
    cases first : course.deeper? limit with
    | some place' =>
      rw [first] at h
      exact .inl h
    | none =>
      rw [first] at h
      refine .inr ⟨made, ?_, h⟩
      rw [limited, first]
      exact outcome

end Course

/-- The first place beyond the limit that a recorder comes to is refused by a reader. -/
def Recorder.Locates (stop' : Offset) (limit : Nat) {size : Nat} (recorder : Recorder size)
    (reader' : Reader) : Prop :=
  ∀ tokens fits place, (recorder tokens fits).deeper? limit = some place →
    place.Refused stop' limit reader'.run tokens

/-- The first place beyond the limit in a nested place, or this itself, is refused. -/
structure InnerRecorders.Locate (stop' : Offset) (limit : Nat) {size : Nat}
    (inner : InnerRecorders size) (nested' : Scope) : Prop where
  expression : ∀ {opener inside fewer place}, opener.Opens →
    (inner.expression opener inside fewer).deeper? limit = some place →
    place.Refused stop' limit (fun tokens => nested'.expression.run tokens.tail)
      (opener :: inside)
  operand : ∀ {opener inside fewer place}, opener.Opens →
    (inner.operand opener inside fewer).deeper? limit = some place →
    place.Refused stop' limit (fun tokens => nested'.operand.run tokens.tail) (opener :: inside)

namespace Recorder

open Course

variable {stop stop' : Offset} {limit size bound : Nat}

/-! ### Operands -/

section
variable {inner : InnerRecorders size} {nested' : Scope}

/-- Places inside brackets are refused there. -/
theorem refused_enclosed (ih : inner.Locate stop' limit nested') {opener : Token}
    {inside : List Token} {fewer : inside.length < size} {place : Opening} (opens : opener.Opens)
    (h : (enclosed stop inner.expression opener inside fewer).deeper? limit = some place) :
    place.Refused stop' limit
      (fun tokens => (Reader.enclosed stop' opener.offset nested'.expression).run tokens.tail)
      (opener :: inside) := by
  rw [enclosed, deeper?_bind_direct] at h
  simp only [run_enclosed]
  exact (ih.expression opens h).bind _

/-- Primary expressions open places behind brackets only. -/
theorem locates_primary (ih : inner.Locate stop' limit nested') :
    (primary stop inner).Locates stop' limit (Reader.primary stop' nested') := by
  intro tokens fits place h
  match tokens with
  | ⟨.symbol symbol, offset⟩ :: rest =>
    by_cases paren : symbol = .leftParen
    · subst paren
      have atBracket : (enclosed stop inner.expression _ rest fits).deeper? limit = some place := h
      refine (refused_enclosed ih (.bracket offset) atBracket).after [] ?_
      rintro _ _ ⟨⟩ more'
      exact run_primary_group offset
    · cases symbol <;> first | exact absurd rfl paren | cases h
  | ⟨.register written, offset⟩ :: rest =>
    simp only [primary] at h
    cases named : Lexeme.registerId? (.register written) <;> rw [named] at h <;> cases h
  | [] | ⟨.number _ none, _⟩ :: _ | ⟨.number _ (some _), _⟩ :: _ | ⟨.name _, _⟩ :: _
  | ⟨.endOfInput, _⟩ :: _ => cases h

/-- Calls open places behind the bracket of their argument. -/
theorem locates_call (ih : inner.Locate stop' limit nested') :
    (call stop inner).Locates stop' limit (Reader.call stop' nested') := by
  intro tokens fits place h
  match tokens with
  | ⟨.name letters, offset⟩ :: rest =>
    cases isFunction : Function.ofName? (letters.getD "") with
    | none =>
      simp only [call, Function.isCallable_eq, isFunction] at h
      cases h
    | some function =>
      obtain rfl := Function.eq_name_of_ofName? isFunction
      simp only [call, Function.isCallable_eq, isFunction] at h
      cases rest with
      | nil => cases h
      | cons opening inside =>
        by_cases paren : opening.symbol? = some .leftParen
        · simp only [if_pos paren] at h
          have atBracket : (enclosed stop inner.expression opening inside
            (Nat.le_of_succ_le fits)).deeper? limit = some place := h
          rw [Token.eq_of_symbol? paren] at atBracket ⊢
          refine ((refused_enclosed ih (.bracket _) atBracket).under
            (.call function.name · offset)).after [_] ?_
          rintro _ _ ⟨⟩ more'
          exact run_call_name function offset _
        · simp only [if_neg paren] at h
          cases h
  | [] | ⟨.number _ _, _⟩ :: _ | ⟨.register _, _⟩ :: _ | ⟨.symbol _, _⟩ :: _
  | ⟨.endOfInput, _⟩ :: _ =>
    have atPrimary : (primary stop inner _ fits).deeper? limit = some place := h
    refine (locates_primary ih _ fits place atPrimary).after [] ?_
    rintro _ _ ⟨⟩ more' <;> exact run_call_of_not_name (by rintro _ ⟨⟩)

/-- Operands open a place behind a prefix operator. -/
theorem locates_unary (ih : inner.Locate stop' limit nested') :
    (unary stop inner).Locates stop' limit (Reader.unary stop' nested') := by
  intro tokens fits place h
  cases tokens with
  | nil => exact (locates_call ih [] fits place h).after [] (by rintro _ _ ⟨⟩)
  | cons token rest =>
    simp only [unary] at h
    cases isPrefix : token.symbol?.bind PrefixOp.ofSymbol? with
    | none =>
      rw [isPrefix] at h
      refine (locates_call ih _ fits place h).after [] ?_
      rintro _ _ ⟨⟩ more'
      exact run_unary_of_unprefixed isPrefix
    | some op =>
      rw [isPrefix] at h
      have behind : (inner.operand token rest fits).deeper? limit = some place := h
      rw [eq_of_prefixOp isPrefix] at behind ⊢
      refine ((ih.operand (.prefixed op _) behind).under (.unary op · token.offset)).after [] ?_
      rintro _ _ ⟨⟩ more'
      exact run_unary_prefixed op _

end

/-! ### Levels of binary operators -/

section
variable {level : List BinaryOp} {c : Category} {operand : Recorder size} {reader reader' : Reader}

/-- The first place beyond the limit is refused in the first of two steps or in the second, which
comes to the same where the first one reads the same. -/
theorem refused_bind (records : operand.Records stop limit reader)
    (settles : Settles stop stop' c reader reader') (ih : operand.Locates stop' limit reader')
    {α : Type} {tokens : List Token} {fits : tokens.length ≤ size} {place : Opening}
    {next : Reading tokens → Course α} {next' : Expr × List Token → Outcome}
    (h : ((operand tokens fits).bind next).deeper? limit = some place)
    (further : ∀ reading, (next reading).deeper? limit = some place →
      place.Refused stop' limit (fun rest => next' (reading.tree, rest)) reading.rest) :
    place.Refused stop' limit (fun tokens => (reader'.run tokens).bind next') tokens := by
  rcases deeper?_bind_eq_some h stop with first | ⟨reading, read, second⟩
  · exact (ih _ _ _ first).bind next'
  · rw [records] at read
    have readPlain : reader.run tokens = .ok (reading.tree, reading.rest) := by
      rw [run, read]
      rfl
    obtain ⟨before, cut, same⟩ := settles.reads readPlain
    rw [← cut]
    refine (further reading second).after before fun first more behind more' => ?_
    have ahead : current stop' (first :: more') = current stop reading.rest := by
      rw [behind]
      rfl
    rw [same _ ahead]
    rfl

/-- A chain opens the places that its operands open, one after the other. -/
theorem refused_goOn (records : operand.Records stop limit reader)
    (settles : Settles stop stop' c reader reader') (ih : operand.Locates stop' limit reader')
    {tokens : List Token} (fits : tokens.length ≤ size) (left : Reading tokens) {place : Opening}
    (h : (chain level operand fits left).deeper? limit = some place) :
    place.Refused stop' limit (goOn level reader' left.tree) left.rest := by
  -- The induction is on the tokens that are left, which each operand makes fewer.
  induction length : left.rest.length using Nat.strongRecOn generalizing left with
  | ind n further =>
    rw [chain] at h
    obtain ⟨tree, rest, shorter⟩ := left
    dsimp only at h ⊢
    cases rest with
    | nil => cases h
    | cons token after =>
      dsimp only at h
      cases isOp : token.operator? level with
      | none =>
        simp only [isOp] at h
        cases h
      | some op =>
        simp only [isOp] at h
        refine (refused_bind records settles ih h fun right second => ?_).after [token]
          fun _ _ _ _ => goOn_of_some isOp tree
        have fewer : right.rest.length < n := by
          have := right.shorter
          rw [List.length_cons] at length
          omega
        exact further _ fewer _ second rfl

/-- A level opens the places that its operands open. -/
theorem locates_leftAssociative (records : operand.Records stop limit reader)
    (settles : Settles stop stop' c reader reader') (ih : operand.Locates stop' limit reader') :
    (leftAssociative level operand).Locates stop' limit
      (Reader.leftAssociative level reader') := by
  intro tokens fits place h
  rw [funext run_leftAssociative]
  exact refused_bind records settles ih h fun left second =>
    refused_goOn records settles ih fits left second

/-- A ladder opens the places that its operands open. -/
theorem locates_ladder (records : operand.Records stop limit reader)
    (sound : ReadsOnly .unary bound reader) (settles : Settles stop stop' .unary reader reader')
    (ih : operand.Locates stop' limit reader') (levels : List (List BinaryOp)) :
    (ladder levels operand).Locates stop' limit (Reader.ladder levels reader') := by
  induction levels with
  | nil => exact ih
  | cons level levels ihLevels =>
    exact locates_leftAssociative (records_ladder records levels)
      (settles_ladder sound settles levels) ihLevels

end

/-! ### Assignments -/

section
variable {inner : InnerRecorders size} {nested nested' : Scope}

/-- Assignments open the place of their value. -/
theorem locates_assignment (records : inner.Record stop limit nested)
    (sound : ReadsOnly .assignment bound nested.expression)
    (soundOperand : ReadsOnly .unary bound nested.operand)
    (settles : Settles stop stop' .assignment nested.expression nested'.expression)
    (settlesOperand : Settles stop stop' .unary nested.operand nested'.operand)
    (ih : inner.Locate stop' limit nested') :
    (assignment stop inner).Locates stop' limit (Reader.assignment stop' nested') := by
  intro tokens fits place h
  have expression (noAssignment : startsAssignment tokens = false)
      (h : (ladder BinaryOp.levels (unary stop inner) tokens fits).deeper? limit = some place) :
      place.Refused stop' limit (Reader.assignment stop' nested').run tokens := by
    obtain ⟨depth_eq, opens, front, rfl, same⟩ := locates_ladder (records_unary records)
      (readsOnly_unary sound soundOperand) (settles_unary sound settles settlesOperand)
      (locates_unary ih) BinaryOp.levels _ _ _ h
    refine ⟨depth_eq, opens, front, rfl, fun inside' => ?_⟩
    rw [run_assignment_of_not, same]
    rw [startsAssignment_append_opener front opens place.inside, noAssignment]
  match tokens with
  | [] | [_] => exact expression rfl h
  | target :: sign :: rest =>
    unfold assignment at h
    dsimp only at h
    split at h
    case isFalse none =>
      refine expression (Bool.eq_false_iff.2 fun starts => none ?_) h
      simpa [startsAssignment] using starts
    case isTrue assigned =>
      obtain ⟨-, isSign⟩ := assigned
      cases readable : target.lexeme.registerId? with
      | none =>
        rw [readable] at h
        cases h
      | some id =>
        rw [readable] at h
        have behind : (inner.expression sign rest (Nat.le_of_succ_le fits)).deeper? limit =
          some place := h
        obtain ⟨digits, named, is⟩ := Token.eq_of_registerId? readable
        rw [Token.eq_of_symbol? isSign] at behind ⊢
        rw [is]
        refine ((ih.expression (.sign _) behind).under (.assign id · sign.offset)).after [_] ?_
        rintro _ _ ⟨⟩ more'
        exact run_assignment_assign named target.offset sign.offset

end

end Recorder

/-! ## Nested places -/

namespace Place

variable {stop : Offset} {limit depth budget : Nat}

/-- Where a place is read as the places that are nested in it, the first place beyond the limit is
refused. -/
theorem refused_course_of_inner (stop' : Offset) (spent : depth + budget = limit)
    {tokens : List Token} {first : Opening}
    (ih : (inner stop depth tokens.length).Locate stop' limit (.nested stop' limit budget))
    (place : Place) (h : (place.course stop depth tokens).deeper? limit = some first) :
    first.Refused stop' limit (place.reader (.within stop' limit budget)).run tokens := by
  have records : (inner stop depth tokens.length).Record stop limit (.nested stop limit budget) :=
    record_inner spent _
  obtain ⟨sound, soundOperand⟩ := readsOnly_nested stop limit budget
  obtain ⟨settles, settlesOperand⟩ := settles_nested stop stop' limit limit (le_refl budget)
  rw [course_eq] at h
  rw [Scope.within_eq_around]
  cases place with
  | expression =>
    exact Recorder.locates_assignment records sound soundOperand settles settlesOperand ih _ _ _ h
  | operand => exact Recorder.locates_unary ih _ _ _ h

/-- The first place beyond the limit is refused in the places that are nested in another, and it may
be one of them itself. -/
theorem locate_inner (stop' : Offset) (spent : depth + budget = limit) (size : Nat) :
    (inner stop depth size).Locate stop' limit (.nested stop' limit budget) := by
  induction budget generalizing depth size with
  | zero =>
    have itself {opener : Token} {inside : List Token} {place : Opening} (opens : opener.Opens)
        {α : Type} {course : Course α}
        (h : (Course.opening ⟨depth + 1, opener, inside⟩ course).deeper? limit = some place) :
        place.Refused stop' limit (fun tokens => (tooDeep stop' limit).run tokens.tail)
          (opener :: inside) := by
      rw [Course.deeper?_opening_of_lt (Nat.lt_succ_of_le (Nat.le_of_eq spent.symm))] at h
      cases h
      exact ⟨congrArg (· + 1) spent, opens, [], rfl, fun inside' => rfl⟩
    exact ⟨fun opens h => itself opens h, fun opens h => itself opens h⟩
  | succ budget ih =>
    have further : depth + 1 + budget = limit := by omega
    have inside (place : Place) {opener : Token} {inside : List Token} {first : Opening}
        (h : (Course.opening ⟨depth + 1, opener, inside⟩
          (place.course stop (depth + 1) inside)).deeper? limit = some first) :
        first.Refused stop' limit
          (fun tokens => (place.reader (.within stop' limit budget)).run tokens.tail)
          (opener :: inside) := by
      rw [Course.deeper?_opening_of_le (further ▸ Nat.le_add_right _ _)] at h
      exact (refused_course_of_inner stop' further (ih further _) place h).after [opener]
        fun _ _ _ _ => rfl
    exact ⟨fun _ => inside .expression, fun _ => inside .operand⟩

/-- The first place beyond the limit in the course of a place is refused. -/
theorem refused_course (stop' : Offset) (place : Place) {tokens : List Token} {first : Opening}
    (h : (place.course stop 0 tokens).deeper? limit = some first) :
    first.Refused stop' limit (place.reader (.within stop' limit limit)).run tokens :=
  refused_course_of_inner stop' (Nat.zero_add limit) (locate_inner stop' (Nat.zero_add limit) _)
    place h

end Place

/-! ## Statements -/

/-- Behind tokens that do not end the input stands the next one, or the end of the input directly
after the last of them. -/
theorem exists_current_append {before : List Token} {token : Token}
    (noEnd : ∀ other ∈ before ++ [token], other.isEnd = false) (rest : List Token) :
    ∃ inside, (before ++ token :: rest).takeWhile (!·.isEnd) = before ++ token :: inside ∧
      current (endOffset (before ++ token :: rest)) inside = current (token.offset + 1) rest := by
  rw [List.append_cons]
  cases rest with
  | nil =>
    refine ⟨[], ?_, ?_⟩
    · rw [takeWhile_append_of_noEnd noEnd, List.append_assoc]
      rfl
    · rw [List.append_nil, endOffset_append_singleton noEnd]
  | cons next more =>
    obtain ⟨inside, cut, same⟩ := exists_current_eq noEnd next more
    exact ⟨inside, by rw [cut, List.append_assoc]; rfl, same⟩

namespace Expr

variable {limit : Nat} {tokens : List Token}

/-- Tokens whose course opens no place beyond a limit are read as without it. -/
theorem ofTokensWithin_of_forall_le
    (covered : ∀ place ∈ (Course.ofTokens tokens).openings, place.depth ≤ limit) :
    ofTokensWithin limit tokens = (Course.ofTokens tokens).outcome := by
  have none : (Course.ofTokens tokens).deeper? limit = none :=
    List.find?_eq_none.2 fun place mem => by simpa using covered place mem
  rw [ofTokensWithin_eq_limited, Course.limited, none]

/-- The first place beyond the limit in the course of some tokens stands among them, and all tokens
that are the same up to what opens it are refused at the token behind that. -/
theorem refused_of_deeper? {place : Opening}
    (h : (Course.ofTokens tokens).deeper? limit = some place) :
    place.depth = limit + 1 ∧ place.opener.Opens ∧
      ∃ front rest, tokens = front ++ place.opener :: rest ∧
        rest.takeWhile (!·.isEnd) = place.inside ∧
        ∀ rest', ofTokensWithin limit (front ++ place.opener :: rest') =
          .error (.nestingTooDeep limit (current (place.opener.offset + 1) rest').offset) := by
  rw [Course.ofTokens, Course.deeper?_bind_direct] at h
  obtain ⟨depth_eq, opens, front, cut, -⟩ := Place.refused_course 0 .expression h
  have noEnd : ∀ token ∈ front ++ [place.opener], token.isEnd = false := by
    intro token mem
    have before : token ∈ tokens.takeWhile (!·.isEnd) := by
      rw [← cut, List.append_cons]
      exact List.mem_append_left _ mem
    simpa using List.mem_takeWhile_imp before
  obtain ⟨rest, all⟩ : ∃ rest, tokens = front ++ place.opener :: rest := by
    refine ⟨place.inside ++ tokens.dropWhile (!·.isEnd), ?_⟩
    rw [← List.cons_append, ← List.append_assoc, cut, List.takeWhile_append_dropWhile]
  refine ⟨depth_eq, opens, front, rest, all, ?_, fun rest' => ?_⟩
  · rw [all, List.append_cons front _ rest, takeWhile_append_of_noEnd noEnd,
      List.append_cons front] at cut
    exact (List.append_cancel_left cut).symm
  · obtain ⟨inside', before, behind⟩ := exists_current_append noEnd rest'
    obtain ⟨-, -, front', cut', same⟩ :=
      Place.refused_course (endOffset (front ++ place.opener :: rest')) .expression h
    obtain rfl : front' = front := List.append_cancel_right (cut'.trans cut.symm)
    rw [Scope.within_eq_around] at same
    rw [ofTokensWithin_eq, before, ← behind]
    exact congrArg (Except.bind · complete) (same inside')

/-- The limit on nesting makes no difference to tokens in whose course no place is deeper: they are
read, or refused, as with every limit that is high enough. Else they are refused for their nesting
at the token behind the prefix operator, the opening bracket or the assignment sign that opens a
place one level deeper for the first time, and so are all tokens that are the same up to there. -/
theorem ofTokens_nesting (tokens : List Token) :
    (∃ bound, ∀ limit, bound ≤ limit →
      ofTokensWithin limit tokens = (Course.ofTokens tokens).outcome) ∧
    (((∀ place ∈ (Course.ofTokens tokens).openings, place.depth ≤ maxNesting) ∧
        ofTokens tokens = (Course.ofTokens tokens).outcome) ∨
      ∃ (before : List Opening) (place : Opening) (after : List Opening),
        (Course.ofTokens tokens).openings = before ++ place :: after ∧
        (∀ earlier ∈ before, earlier.depth ≤ maxNesting) ∧ place.depth = maxNesting + 1 ∧
        place.opener.Opens ∧
        ∃ front rest : List Token, tokens = front ++ place.opener :: rest ∧
          rest.takeWhile (!·.isEnd) = place.inside ∧
          ∀ rest', ofTokens (front ++ place.opener :: rest') =
            .error (.nestingTooDeep maxNesting
              (current (place.opener.offset + 1) rest').offset)) := by
  constructor
  · refine ⟨((Course.ofTokens tokens).openings.map Opening.depth).sum, fun limit enough => ?_⟩
    refine ofTokensWithin_of_forall_le fun place mem => le_trans ?_ enough
    exact List.le_sum_of_mem (List.mem_map_of_mem mem)
  · cases h : (Course.ofTokens tokens).deeper? maxNesting with
    | none =>
      have covered : ∀ place ∈ (Course.ofTokens tokens).openings, place.depth ≤ maxNesting :=
        fun place mem => by simpa using List.find?_eq_none.1 h place mem
      exact .inl ⟨covered, ofTokensWithin_of_forall_le covered⟩
    | some place =>
      obtain ⟨-, before, after, split, earlier⟩ := List.find?_eq_some_iff_append.1 h
      refine .inr ⟨before, place, after, split, ?_, refused_of_deeper? h⟩
      exact fun other mem => by simpa using earlier other mem

example : (Course.ofTokens [⟨.symbol .minus, 0⟩, ⟨.symbol .leftParen, 1⟩,
    ⟨.number none (some 1), 2⟩, ⟨.symbol .rightParen, 3⟩]).openings.map (·.depth) = [1, 2] := by
  decide +kernel

end Expr

end RegisterCalc
