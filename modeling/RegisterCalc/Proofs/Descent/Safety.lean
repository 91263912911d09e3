import RegisterCalc.Proofs.Descent.Scans

/-!
# The descent is safe

Whatever the tokens are, no machine that is reached from the start crashes or passes the first end
of the input (`Machine.sound_of_reaches`). Two invariants carry this. The place of a machine is not
behind the end of the input, so there is a token to look at and one to step over (scans keep to this
by `Meets`). Its calls are `Stacked`: each waits for a tighter rule or has opened a nested place, so
the levels of nesting are counted right and bound the number of calls (`Stacked.length_le`).
-/

namespace RegisterCalc.Descent

/-! ## Scans -/

section
variable {α β : Type} {body : List Token}

/-- How a scan leaves the levels of nesting: as they are. -/
def Keeps (depth : Nat) (_ : α) (depth' : Nat) : Prop := depth' = depth

/-- From a place that is not behind the body a scan makes something, steps back nowhere, ends at a
place that is not behind the body, and does to the levels of nesting what it is said to do. -/
def Meets (body : List Token) (scan : Scan α) (does : Nat → α → Nat → Prop) : Prop :=
  ∀ cursor : Cursor, cursor.position ≤ body.length → ∃ made cursor',
    scan cursor = some (made, cursor') ∧ cursor.position ≤ cursor'.position ∧
      cursor'.position ≤ body.length ∧ does cursor.depth made cursor'.depth

namespace Meets

variable {does : Nat → β → Nat → Prop}

/-- What is made at once leaves the cursor where it is. -/
theorem pure {made : β} (h : ∀ depth, does depth made depth) : Meets body (pure made) does :=
  fun cursor within => ⟨made, cursor, rfl, le_rfl, within, h cursor.depth⟩

/-- A scan goes on from what one made that keeps the levels of nesting. -/
theorem bind {first : Scan α} {next : α → Scan β} (h : Meets body first Keeps)
    (further : ∀ made, Meets body (next made) does) : Meets body (first >>= next) does := by
  intro cursor within
  obtain ⟨made, ⟨position, depth⟩, scanned, ahead, within', rfl⟩ := h cursor within
  obtain ⟨last, cursor', scanned', ahead', within'', done⟩ := further made _ within'
  exact ⟨last, cursor', (Scan.bind_eq scanned).trans scanned', ahead.trans ahead', within'', done⟩

end Meets

variable {input : List Token} {stop : Offset} (h : EndsAfter input body stop)
include h

/-- Looking at the current token leaves everything as it is. -/
theorem meets_peek : Meets body (peek input) Keeps := fun cursor within =>
  ⟨_, cursor, peek_eq h within, le_rfl, within, rfl⟩

omit h in
/-- Looking one token ahead leaves everything as it is. -/
theorem meets_peekAhead : Meets body (peekAhead input) Keeps := fun cursor within =>
  ⟨_, cursor, rfl, le_rfl, within, rfl⟩

/-- Looking one token back leaves everything as it is. -/
theorem meets_previous : Meets body (previous input) Keeps := fun cursor within =>
  ⟨_, cursor, by rw [previous, h.getElem?_eq ((Nat.sub_le _ _).trans within)]; rfl, le_rfl, within,
    rfl⟩

/-- A step is over a token of the body, or none. -/
theorem meets_advance : Meets body (advance input) Keeps := by
  intro cursor within
  cases front : body.drop cursor.position with
  | nil =>
    rw [advance_of_end h within front]
    exact meets_previous h cursor within
  | cons token rest =>
    have inside := lt_of_drop_eq_cons front
    exact ⟨_, _, advance_eq h front, Nat.le_succ _, inside, rfl⟩

/-- A token that is wanted is stepped over as any is. -/
theorem meets_accept (wanted : Token → Option α) : Meets body (accept input wanted) Keeps := by
  refine (meets_peek h).bind fun token => ?_
  cases wanted token with
  | none => exact .pure fun _ => rfl
  | some what => exact (meets_advance h).bind fun taken => .pure fun _ => rfl

/-- A symbol is stepped over as any token is. -/
theorem meets_acceptSymbol (symbol : Symbol) : Meets body (acceptSymbol input symbol) Keeps :=
  (meets_accept h _).bind fun _ => .pure fun _ => rfl

end

/-! ## Calls -/

/-- What a call of a rule does next, with the levels of nesting before and after. -/
inductive Goes (rule : Rule) (depth : Nat) : Next → Nat → Prop where
  | returns (result : Result) : Goes rule depth (.returns result) depth
  | calls (frame : Frame) (own : frame.rule = rule) (direct : frame.isNested = false) :
      Goes rule depth (.waits frame) depth
  | nests (frame : Frame) (own : frame.rule = rule) (opens : frame.isNested)
      (allowed : depth < maxNesting) : Goes rule depth (.waits frame) (depth + 1)

section
variable {input body : List Token} {stop : Offset} (h : EndsAfter input body stop)
include h

/-- One level of nesting is opened if it is allowed, and none otherwise. -/
theorem meets_nested (frame : Frame) (opens : frame.isNested) :
    Meets body (nested input frame) (Goes frame.rule) := by
  intro cursor within
  rcases Nat.lt_or_ge cursor.depth maxNesting with allowed | spent
  · exact ⟨_, _, nested_of_lt input frame cursor allowed, le_rfl, within,
      .nests frame rfl opens allowed⟩
  · exact ⟨_, _, nested_of_le h frame cursor spent within, le_rfl, within, .returns _⟩

/-- An assignment opens a nested place for its value, or is one of the loosest level. -/
theorem meets_assignment : Meets body (assignment input) (Goes .assignment) := by
  refine (meets_peek h).bind fun token => meets_peekAhead.bind fun following => ?_
  split
  · refine (meets_advance h).bind fun target => ?_
    cases target.lexeme.registerId? with
    | none => exact .pure fun _ => .returns _
    | some id =>
      refine (meets_peek h).bind fun sign => (meets_advance h).bind fun _ => ?_
      exact meets_nested h (.assigned id sign.offset) rfl
  · exact .pure fun _ => .calls .loosest rfl rfl

/-- A chain ends, or goes on in the same level of nesting. -/
theorem meets_chain (index : Fin BinaryOp.levels.length) (left : Expr) :
    Meets body (chain input index left) (Goes (.level index)) := by
  refine (meets_accept h _).bind fun accepted => ?_
  cases accepted with
  | none => exact .pure fun _ => .returns _
  | some taken => exact .pure fun _ => .calls (.right index _ left _) rfl rfl

/-- A prefix operator opens a nested place for its operand. -/
theorem meets_unary : Meets body (unary input) (Goes .unary) := by
  refine (meets_accept h _).bind fun accepted => ?_
  cases accepted with
  | none => exact .pure fun _ => .calls .unprefixed rfl rfl
  | some taken => exact meets_nested h (.prefixed _ _) rfl

/-- A call opens a nested place for its argument. -/
theorem meets_call : Meets body (call input) (Goes .call) := by
  refine (meets_peek h).bind fun token => ?_
  split
  · refine (meets_advance h).bind fun _ => ?_
    dsimp only
    split
    · exact .pure fun _ => .returns _
    · refine (meets_acceptSymbol h _).bind fun accepted => ?_
      cases accepted with
      | none => exact (meets_peek h).bind fun _ => .pure fun _ => .returns _
      | some opened => exact meets_nested h (.argument _ _ opened) rfl
  · exact .pure fun _ => .calls .uncalled rfl rfl

/-- A bracket opens a nested place. -/
theorem meets_primary : Meets body (primary input) (Goes .primary) := by
  refine (meets_peek h).bind fun token => ?_
  split
  · refine (meets_advance h).bind fun _ => ?_
    split <;> exact .pure fun _ => .returns _
  · refine (meets_advance h).bind fun _ => ?_
    split <;> exact .pure fun _ => .returns _
  · exact (meets_advance h).bind fun _ => meets_nested h (.group token.offset) rfl
  · exact .pure fun _ => .returns _

/-- A bracket that is closed, or is not, opens nothing. -/
theorem meets_closing (opened : Offset) (node : Expr) (rule : Rule) :
    Meets body (closing input opened node) (Goes rule) := by
  refine (meets_acceptSymbol h _).bind fun accepted => ?_
  cases accepted with
  | none => exact (meets_peek h).bind fun _ => .pure fun _ => .returns _
  | some _ => exact .pure fun _ => .returns _

/-- Each rule begins with what a call of it may do. -/
theorem meets_begin (rule : Rule) : Meets body (begin input rule) (Goes rule) := by
  cases rule with
  | expression => exact .pure fun _ => .calls .expression rfl rfl
  | assignment => exact meets_assignment h
  | level index => exact .pure fun _ => .calls (.left index) rfl rfl
  | unary => exact meets_unary h
  | call => exact meets_call h
  | primary => exact meets_primary h

/-- Each call that waits goes on with what a call of its rule may do. -/
theorem meets_proceed (frame : Frame) (result : Result) :
    Meets body (proceed input frame result) (Goes frame.rule) := by
  cases result with
  | error fault => cases frame <;> exact .pure fun _ => .returns _
  | ok tree =>
    cases frame with
    | left index => exact meets_chain h index tree
    | right index op left offset => exact meets_chain h index _
    | argument name offset opened => exact meets_closing h opened _ _
    | group opened => exact meets_closing h opened tree _
    | expression | loosest | unprefixed | uncalled | assigned _ _ | prefixed _ _ =>
      exact .pure fun _ => .returns _

/-- The end of a statement is looked at. -/
theorem meets_conclude (result : Result) : Meets body (conclude input result) Keeps := by
  cases result with
  | error fault => exact .pure fun _ => rfl
  | ok tree =>
    refine (meets_peek h).bind fun token => ?_
    split <;> exact .pure fun _ => rfl

end

/-! ## Stacks of calls -/

/-- A rule is called above calls that wait, in so many levels of nesting: each of them waits for
what is called above it, and those that wait for a nested place are in one level less. The call at
the bottom may be of any rule and in any level that is allowed. -/
inductive Stacked : List Frame → Nat → Rule → Prop where
  | bottom {depth : Nat} {rule : Rule} (allowed : depth ≤ maxNesting) : Stacked [] depth rule
  | calls {frames : List Frame} {depth : Nat} {frame : Frame}
      (below : Stacked frames depth frame.rule) (direct : frame.isNested = false) :
      Stacked (frame :: frames) depth frame.callee
  | nests {frames : List Frame} {depth : Nat} {frame : Frame}
      (below : Stacked frames depth frame.rule) (opens : frame.isNested)
      (allowed : depth < maxNesting) : Stacked (frame :: frames) (depth + 1) frame.callee

/-- There are fifteen rules, so fewer than fifteen are looser than one of them. -/
theorem Rule.rank_lt (rule : Rule) : rule.rank < 15 := by
  cases rule with
  | level index =>
    have : (index : Nat) < 10 := index.isLt
    simp only [rank]
    omega
  | expression | assignment | unary | call | primary => decide

/-- The rules for binary operators are as loose as their level says. -/
theorem Rule.rank_fromLevel {index : Nat} (h : index ≤ BinaryOp.levels.length) :
    (fromLevel index).rank = index + 2 := by
  rw [fromLevel]
  split
  case isTrue => rfl
  case isFalse last =>
    obtain rfl : index = BinaryOp.levels.length := by omega
    rfl

/-- Who waits for a place that is not nested waits for a tighter rule. -/
theorem Frame.rank_rule_lt {frame : Frame} (direct : frame.isNested = false) :
    frame.rule.rank < frame.callee.rank := by
  cases frame with
  | left index | right index _ _ _ =>
    rw [callee, Rule.rank_fromLevel index.isLt]
    exact Nat.lt_succ_self _
  | expression | loosest | unprefixed | uncalled => decide
  | assigned _ _ | prefixed _ _ | argument _ _ _ | group _ => cases direct

namespace Stacked

variable {frames : List Frame} {depth : Nat} {rule : Rule}

/-- Calls are in no more levels of nesting than are allowed. -/
theorem depth_le (h : Stacked frames depth rule) : depth ≤ maxNesting := by
  induction h with
  | bottom allowed => exact allowed
  | calls below direct ih => exact ih
  | nests below opens allowed ih => exact allowed

/-- In each level of nesting no more calls wait than there are rules. -/
theorem length_le (h : Stacked frames depth rule) : frames.length ≤ 15 * depth + rule.rank := by
  induction h with
  | bottom allowed => exact Nat.zero_le _
  | @calls frames depth frame below direct ih =>
    have tighter := Frame.rank_rule_lt direct
    rw [List.length_cons]
    omega
  | @nests frames depth frame below opens allowed ih =>
    have fewer := frame.rule.rank_lt
    rw [List.length_cons]
    omega

end Stacked

/-! ## Machines -/

/-- A machine has not passed the first end of the input, and its calls are stacked. -/
structure Machine.Sound (body : List Token) (machine : Machine) : Prop where
  within : machine.cursor.position ≤ body.length
  stacked : Stacked machine.frames machine.cursor.depth machine.control.rule

namespace Machine

variable {input body : List Token} {stop : Offset}

/-- A machine is sound where a rule is called that no other call waits for. -/
theorem sound_entering {cursor : Cursor} (within : cursor.position ≤ body.length)
    (allowed : cursor.depth ≤ maxNesting) (rule : Rule) :
    Sound body ⟨cursor, .entering rule, []⟩ :=
  ⟨within, .bottom allowed⟩

/-! ### Steps -/

/-- Whose turn it is: that of a call of a rule above others, in a level of nesting. It begins, or
goes on with what the call above it returns; if that stood in a nested place it is left. -/
inductive Turn : Machine → Rule → List Frame → Nat → Prop where
  | begins {position depth : Nat} {rule : Rule} {frames : List Frame} :
      Turn ⟨⟨position, depth⟩, .entering rule, frames⟩ rule frames depth
  | resumes {position depth : Nat} {callee : Rule} {result : Result} {frame : Frame}
      {frames : List Frame} (direct : frame.isNested = false) :
      Turn ⟨⟨position, depth⟩, .returning callee result, frame :: frames⟩ frame.rule frames depth
  | leaves {position depth : Nat} {callee : Rule} {result : Result} {frame : Frame}
      {frames : List Frame} (opens : frame.isNested) :
      Turn ⟨⟨position, depth + 1⟩, .returning callee result, frame :: frames⟩ frame.rule frames
        depth

/-- Whose turn it is does what its rule does. -/
theorem Turn.step_eq (h : EndsAfter input body stop) {machine : Machine} {rule : Rule}
    {frames : List Frame} {depth : Nat} (turn : Turn machine rule frames depth)
    (within : machine.cursor.position ≤ body.length) : ∃ next cursor,
      machine.step input = after rule frames (some (next, cursor)) ∧
        machine.cursor.position ≤ cursor.position ∧ cursor.position ≤ body.length ∧
        Goes rule depth next cursor.depth := by
  cases turn with
  | begins =>
    obtain ⟨next, cursor, scanned, done⟩ := meets_begin h rule ⟨_, depth⟩ within
    exact ⟨next, cursor, by rw [step, scanned], done⟩
  | @resumes position _ _ result frame _ direct =>
    obtain ⟨next, cursor, scanned, done⟩ := meets_proceed h frame result ⟨position, depth⟩ within
    exact ⟨next, cursor, by rw [step, resume, direct, ← scanned]; rfl, done⟩
  | @leaves position _ _ result frame _ opens =>
    obtain ⟨next, cursor, scanned, done⟩ := meets_proceed h frame result ⟨position, depth⟩ within
    exact ⟨next, cursor, by rw [step, resume, opens, ← scanned]; rfl, done⟩

/-- Where a machine takes a step it is some call's turn. -/
theorem exists_turn_of_steps {machine machine' : Machine} (stepped : Steps input machine machine') :
    ∃ rule frames depth, Turn machine rule frames depth := by
  obtain ⟨⟨position, depth⟩, control, frames⟩ := machine
  cases control with
  | entering rule => exact ⟨_, _, _, .begins⟩
  | returning rule result =>
    cases frames with
    | nil =>
      simp only [Steps, step] at stepped
      split at stepped <;> cases stepped
    | cons frame frames =>
      cases opens : frame.isNested with
      | false => exact ⟨_, _, _, .resumes opens⟩
      | true =>
        cases depth with
        | succ depth => exact ⟨_, _, _, .leaves opens⟩
        | zero =>
          rw [Steps, step, resume, opens] at stepped
          cases stepped

/-- After what a call does next the cursor is where that left it. -/
theorem cursor_of_after {rule : Rule} {frames : List Frame} {next : Next} {cursor : Cursor}
    {machine : Machine} (h : after rule frames (some (next, cursor)) = .running machine) :
    machine.cursor = cursor := by
  cases next <;> cases h <;> rfl

/-- A run does not go back, and not behind the end of the input. -/
theorem position_le_of_reaches (h : EndsAfter input body stop) {machine machine' : Machine}
    (within : machine.cursor.position ≤ body.length) (reached : Reaches input machine machine') :
    machine.cursor.position ≤ machine'.cursor.position ∧
      machine'.cursor.position ≤ body.length := by
  induction reached with
  | refl => exact ⟨le_rfl, within⟩
  | tail _ stepped ih =>
    obtain ⟨ahead, within'⟩ := ih
    obtain ⟨rule, frames, depth, turn⟩ := exists_turn_of_steps stepped
    obtain ⟨next, cursor, same, ahead', within'', -⟩ := turn.step_eq h within'
    rw [cursor_of_after (same.symm.trans stepped)]
    exact ⟨ahead.trans ahead', within''⟩

/-! ### Soundness -/

/-- In a sound machine it is the turn of a stacked call, or all calls have returned. -/
theorem Sound.exists_turn {machine : Machine} (sound : machine.Sound body) :
    (∃ rule result, machine.control = .returning rule result ∧ machine.frames = []) ∨
      ∃ rule frames depth, Turn machine rule frames depth ∧ Stacked frames depth rule := by
  obtain ⟨⟨position, depth⟩, control, frames⟩ := machine
  obtain ⟨within, stacked⟩ := sound
  cases control with
  | entering rule => exact .inr ⟨_, _, _, .begins, stacked⟩
  | returning rule result =>
    cases stacked with
    | bottom allowed => exact .inl ⟨rule, result, rfl, rfl⟩
    | calls below direct => exact .inr ⟨_, _, _, .resumes direct, below⟩
    | nests below opens allowed => exact .inr ⟨_, _, _, .leaves opens, below⟩

/-- Whatever a call does next, the calls stay stacked: as that call, or with what it waits for. -/
theorem exists_after_eq {frames : List Frame} {depth : Nat} {rule : Rule} {next : Next}
    {cursor : Cursor} (stacked : Stacked frames depth rule)
    (does : Goes rule depth next cursor.depth) (within : cursor.position ≤ body.length) :
    ∃ machine, after rule frames (some (next, cursor)) = .running machine ∧
      machine.Sound body := by
  obtain ⟨position, depth'⟩ := cursor
  cases does with
  | returns result => exact ⟨_, rfl, within, stacked⟩
  | calls frame own direct =>
    subst own
    exact ⟨_, rfl, within, .calls stacked direct⟩
  | nests frame own opens allowed =>
    subst own
    exact ⟨_, rfl, within, .nests stacked opens allowed⟩

/-- A sound machine ends, or takes a step that leaves it sound. -/
theorem Sound.step (h : EndsAfter input body stop) {machine : Machine}
    (sound : machine.Sound body) :
    (∃ result, machine.step input = .finished result) ∨
      ∃ machine', Steps input machine machine' ∧ machine'.Sound body := by
  rcases sound.exists_turn with ⟨rule, result, returns, last⟩ | ⟨rule, frames, depth, turn, stacked⟩
  · obtain ⟨cursor, control, frames⟩ := machine
    obtain rfl : control = .returning rule result := returns
    obtain rfl : frames = [] := last
    obtain ⟨made, cursor', scanned, -⟩ := meets_conclude h result cursor sound.within
    exact .inl ⟨made, by simp only [Machine.step, scanned]⟩
  · obtain ⟨next, cursor, same, -, within, does⟩ := turn.step_eq h sound.within
    obtain ⟨machine', stepped, sound'⟩ := exists_after_eq stacked does within
    exact .inr ⟨machine', same.trans stepped, sound'⟩

/-- A sound machine does not crash. -/
theorem Sound.step_ne_crashed (h : EndsAfter input body stop) {machine : Machine}
    (sound : machine.Sound body) : machine.step input ≠ .crashed := by
  rcases sound.step h with ⟨result, finished⟩ | ⟨machine', stepped, -⟩
  · rw [finished]
    nofun
  · rw [stepped]
    nofun

/-- A run leaves a sound machine sound. -/
theorem Sound.of_reaches (h : EndsAfter input body stop) {machine machine' : Machine}
    (sound : machine.Sound body) (reached : Reaches input machine machine') :
    machine'.Sound body := by
  induction reached with
  | refl => exact sound
  | tail _ stepped ih =>
    rcases ih.step h with ⟨result, finished⟩ | ⟨machine'', stepped', sound'⟩
    · rw [Steps, finished] at stepped
      cases stepped
    · rw [Steps, stepped'] at stepped
      cases stepped
      exact sound'

/-- Every machine that is reached from the start is sound. -/
theorem sound_of_reaches (h : EndsAfter input body stop) {machine : Machine}
    (reached : Reaches input start machine) : machine.Sound body :=
  (sound_entering (Nat.zero_le _) (Nat.zero_le _) .expression).of_reaches h reached

/-- No more calls are active than fifteen in each level of nesting, the outermost included. -/
theorem Sound.active_le {machine : Machine} (sound : machine.Sound body) :
    machine.active ≤ 15 * (maxNesting + 1) := by
  have depth := sound.stacked.depth_le
  have waiting := sound.stacked.length_le
  have rank := machine.control.rule.rank_lt
  rw [active]
  omega

end Machine

end RegisterCalc.Descent
