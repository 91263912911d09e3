import RegisterCalc.Proofs.Descent.Simulation

/-!
# Calls return

A rule that is called in a machine that was reached, above whatever calls, returns
(`Machine.calls_return`): with the cursor in the level of nesting where it was called, not before
the place where it was called, and behind it if there is a tree. All the while no more calls are
active than fifteen in each level of nesting, so that their number is bounded whatever the number of
tokens.

That it returns, and with what, is what the rule performs; how far it gets is read off what the
reader of its category takes.
-/

namespace RegisterCalc.Descent.Machine

variable {input body : List Token} {stop : Offset}

/-- A rule that is called before the end of the input returns what the reader of its category makes
of the tokens that are left, behind where it was called if that is a tree. -/
theorem exists_carries (h : EndsAfter input body stop) (rule : Rule) (frames : List Frame)
    {cursor : Cursor} (within : cursor.position ≤ body.length)
    (allowed : cursor.depth ≤ maxNesting) : ∃ result position,
      Carries input frames ⟨cursor, .entering rule, frames⟩
        ⟨⟨position, cursor.depth⟩, .returning rule result, frames⟩ ∧
      cursor.position ≤ position ∧ (∀ tree, result = .ok tree → cursor.position < position) ∧
      result = ((rule.category.reader stop
        (.nested stop maxNesting (maxNesting - cursor.depth))).run
          (body.drop cursor.position)).map Prod.fst := by
  obtain ⟨start, depth⟩ := cursor
  obtain ⟨position, within', carried, left⟩ := performs h rule allowed start frames within
  refine ⟨_, position, carried, (position_le_of_reaches h within carried.reaches).1, ?_, rfl⟩
  intro tree made
  cases outcome : (rule.category.reader stop (.nested stop maxNesting (maxNesting - depth))).run
      (body.drop start) with
  | error fault =>
    rw [outcome] at made
    cases made
  | ok reading =>
    obtain ⟨tree', rest⟩ := reading
    have fewer := Reader.length_lt_of_run outcome
    rw [← left tree' rest outcome, List.length_drop, List.length_drop] at fewer
    show start < position
    omega

/-- In every machine that is reached no more than fifteen calls are active in each level of nesting,
and the levels are no more than are allowed. From there each of the fifteen rules can be called
above any calls, and it returns: in the same level of nesting and not before the place where it was
called, behind it if there is a tree; and what it returns is what the reader of its category makes
of the tokens that are left. Until it returns nothing crashes or steps back, and levels and calls
keep to the same bounds. -/
theorem calls_return (tokens : List Token) {machine : Machine}
    (reached : Reaches (withEnd tokens) start machine) :
    machine.cursor.depth ≤ maxNesting ∧ machine.active ≤ 15 * (maxNesting + 1) ∧
    ∀ rule : Rule,
      (∀ frames, ∃ result position,
        Carries (withEnd tokens) frames ⟨machine.cursor, .entering rule, frames⟩
          ⟨⟨position, machine.cursor.depth⟩, .returning rule result, frames⟩ ∧
        machine.cursor.position ≤ position ∧
        (∀ tree, result = .ok tree → machine.cursor.position < position) ∧
        result = ((rule.category.reader (endOffset tokens)
          (.nested (endOffset tokens) maxNesting (maxNesting - machine.cursor.depth))).run
            ((tokens.takeWhile (!·.isEnd)).drop machine.cursor.position)).map Prod.fst) ∧
      ∀ machine', Reaches (withEnd tokens) ⟨machine.cursor, .entering rule, []⟩ machine' →
        machine'.step (withEnd tokens) ≠ .crashed ∧ machine'.cursor.depth ≤ maxNesting ∧
        machine'.active ≤ 15 * (maxNesting + 1) ∧
        ∀ machine'', Steps (withEnd tokens) machine' machine'' →
          machine'.cursor.position ≤ machine''.cursor.position := by
  have h := endsAfter_withEnd tokens
  have sound := sound_of_reaches h reached
  have allowed := sound.stacked.depth_le
  refine ⟨allowed, sound.active_le, fun rule => ⟨fun frames => ?_, fun machine' reached' => ?_⟩⟩
  · exact exists_carries h rule frames sound.within allowed
  · have sound' := (sound_entering sound.within allowed rule).of_reaches h reached'
    refine ⟨sound'.step_ne_crashed h, sound'.stacked.depth_le, sound'.active_le,
      fun machine'' stepped => ?_⟩
    exact (position_le_of_reaches h sound'.within (.single stepped)).1

/-- The operand of a minus sign, which is called below thirteen calls in the first level of nesting,
returns its number from behind it. -/
theorem calls_return_operand : ∃ (tokens : List Token) (frames : List Frame),
    tokens = [⟨.symbol .minus, 0⟩, ⟨.number none (some 1), 1⟩] ∧
    frames = [.prefixed .negate 0, .left (9 : Fin 10), .left (8 : Fin 10), .left (7 : Fin 10),
      .left (6 : Fin 10), .left (5 : Fin 10), .left (4 : Fin 10), .left (3 : Fin 10),
      .left (2 : Fin 10), .left (1 : Fin 10), .left (0 : Fin 10), .loosest, .expression] ∧
    Reaches (withEnd tokens) start ⟨⟨1, 1⟩, .entering .unary, frames⟩ ∧
    active ⟨⟨1, 1⟩, .entering .unary, frames⟩ ≤ 15 * (maxNesting + 1) ∧
    ∃ position, 1 < position ∧
      Carries (withEnd tokens) frames ⟨⟨1, 1⟩, .entering .unary, frames⟩
        ⟨⟨position, 1⟩, .returning .unary (.ok (.number 1 1)), frames⟩ := by
  have reached : Reaches (withEnd [⟨.symbol .minus, 0⟩, ⟨.number none (some 1), 1⟩]) start
      ⟨⟨1, 1⟩, .entering .unary, [.prefixed .negate 0, .left (9 : Fin 10), .left (8 : Fin 10),
        .left (7 : Fin 10), .left (6 : Fin 10), .left (5 : Fin 10), .left (4 : Fin 10),
        .left (3 : Fin 10), .left (2 : Fin 10), .left (1 : Fin 10), .left (0 : Fin 10), .loosest,
        .expression]⟩ :=
    -- Thirteen calls wait, each of which took one step.
    .head rfl <| .head rfl <| .head rfl <| .head rfl <| .head rfl <| .head rfl <| .head rfl <|
      .head rfl <| .head rfl <| .head rfl <| .head rfl <| .head rfl <| .head rfl .refl
  obtain ⟨-, active, returns⟩ := calls_return _ reached
  obtain ⟨result, position, carried, -, ahead, made⟩ := (returns .unary).1 _
  obtain rfl : result = .ok (.number 1 1) := made
  exact ⟨_, _, rfl, rfl, reached, active, position, ahead _ rfl, carried⟩

end RegisterCalc.Descent.Machine
