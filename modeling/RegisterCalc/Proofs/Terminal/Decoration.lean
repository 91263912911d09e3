import RegisterCalc.Proofs.Terminal.Outlines

/-!
# Colours are decoration

A text with colours is a plain text in which runs of characters are each enclosed by the control
sequence of a colour and the one that ends it (`Decorates`). Where the plain text has no escape
characters of its own, the control sequences can be found again: without them the plain text is
left, and they alternate (`Decorates.withoutMarks_eq`).

A text that is made with or without colours is decorated (`Decorated`) if the pieces it is made of
are, so this is proved along the functions that make it, here for outlines.
-/

namespace RegisterCalc

/-! ## Control sequences of a text -/

/-- A control sequence for the colour of the text behind it. -/
inductive Mark where
  | start (colour : Colour)
  | reset
  deriving DecidableEq, Repr

/-- A part of a colour from its digits: a number below 256. -/
def Colour.part? (digits : List Char) : Option Nat :=
  let value := Nat.ofDigitChars 10 digits 0
  if digits ≠ [] ∧ digits.all Char.isDigit ∧ value < 256 then some value else none

namespace Mark

/-- The control sequence with the given characters between the escape character and the `m`. -/
def ofBody? (body : List Char) : Option Mark :=
  match body.splitOn ';' with
  | [['[', '3', '9']] => some reset
  | [['[', '3', '8'], ['2'], red, green, blue] =>
    match Colour.part? red, Colour.part? green, Colour.part? blue with
    | some red, some green, some blue => some (start ⟨red, green, blue⟩)
    | _, _, _ => none
  | _ => none

/-- The control sequence whose escape character is followed by a text, if there is one, and what
stands behind it. -/
def behindEscape? (text : List Char) : Option (Mark × List Char) :=
  match text.dropWhile (· ≠ 'm') with
  | [] => none
  | _ :: behind => (ofBody? (text.takeWhile (· ≠ 'm'))).map (·, behind)

/-- There is less behind a control sequence than behind its escape character. -/
theorem length_behindEscape? {text behind : List Char} {mark : Mark}
    (h : behindEscape? text = some (mark, behind)) : behind.length < text.length := by
  have shorter := (List.dropWhile_sublist (p := fun c => decide (c ≠ 'm')) (l := text)).length_le
  unfold behindEscape? at h
  split at h
  · cases h
  · rename_i last behind' rest
    obtain ⟨_, -, same⟩ := Option.map_eq_some_iff.1 h
    obtain rfl := (Prod.mk.inj same).2
    rw [rest] at shorter
    exact shorter

/-- What is behind the escape character of a control sequence. -/
theorem behindEscape?_append {body : List Char} (noEnd : 'm' ∉ body) {mark : Mark}
    (read : ofBody? body = some mark) (rest : List Char) :
    behindEscape? (body ++ 'm' :: rest) = some (mark, rest) := by
  have inside : ∀ c ∈ body, decide (c ≠ 'm') = true := fun c mem =>
    decide_eq_true fun isEnd => noEnd (isEnd ▸ mem)
  have skipped : (body ++ 'm' :: rest).dropWhile (· ≠ 'm') = 'm' :: rest := by
    rw [List.dropWhile_append_of_pos inside]
    exact List.dropWhile_cons_of_neg (by decide)
  have kept : (body ++ 'm' :: rest).takeWhile (· ≠ 'm') = body := by
    rw [List.takeWhile_append_of_pos inside, List.takeWhile_cons_of_neg (by decide),
      List.append_nil]
  simp only [behindEscape?, skipped, kept, read, Option.map_some]

end Mark

/-- A text cut into its control sequences and its other characters. -/
def cutMarks (text : List Char) : List (Mark ⊕ Char) :=
  match text with
  | [] => []
  | c :: rest =>
    match _ : if c = '\x1b' then Mark.behindEscape? rest else none with
    | some (mark, behind) => .inl mark :: cutMarks behind
    | none => .inr c :: cutMarks rest
termination_by text.length
decreasing_by
  · rename_i found
    have shorter : behind.length < rest.length := by
      split at found
      · exact Mark.length_behindEscape? found
      · cases found
    exact Nat.lt_succ_of_lt shorter
  · exact Nat.lt_succ_self _

/-- A text after all its control sequences are deleted. -/
def withoutMarks (text : List Char) : List Char := (cutMarks text).filterMap Sum.getRight?

/-- The control sequences of a text. -/
def marks (text : List Char) : List Mark := (cutMarks text).filterMap Sum.getLeft?

/-- Control sequences alternate: each that starts a colour is followed by one that ends it, and
nothing else is there. -/
def Alternate : List Mark → Prop
  | [] => True
  | .start _ :: .reset :: others => Alternate others
  | _ => False

section
variable {rest : List Char}

/-- A character other than the escape character is left as it is. -/
theorem cutMarks_cons {c : Char} (notEscape : c ≠ '\x1b') (rest : List Char) :
    cutMarks (c :: rest) = .inr c :: cutMarks rest := by
  rw [cutMarks]
  split
  · rename_i found
    rw [if_neg notEscape] at found
    cases found
  · rfl

/-- Characters other than the escape character are left as they are. -/
theorem cutMarks_append {text : List Char} (noEscape : '\x1b' ∉ text) (rest : List Char) :
    cutMarks (text ++ rest) = text.map .inr ++ cutMarks rest := by
  induction text with
  | nil => rfl
  | cons c text ih =>
    rw [List.mem_cons, not_or] at noEscape
    rw [List.cons_append, cutMarks_cons (Ne.symm noEscape.1), ih noEscape.2]
    rfl

/-- A control sequence is cut off. -/
theorem cutMarks_mark {body : List Char} (noEnd : 'm' ∉ body) {mark : Mark}
    (read : Mark.ofBody? body = some mark) (rest : List Char) :
    cutMarks ('\x1b' :: (body ++ 'm' :: rest)) = .inl mark :: cutMarks rest := by
  have behind := Mark.behindEscape?_append noEnd read rest
  rw [cutMarks]
  split
  · rename_i found
    rw [if_pos rfl, behind] at found
    cases found
    rfl
  · rename_i found
    rw [if_pos rfl, behind] at found
    cases found

end

/-! ## Decorated texts -/

/-- A text without escape characters. -/
abbrev Text.EscapeFree (text : String) : Prop := '\x1b' ∉ text.toList

namespace Text.EscapeFree

/-- Two texts make one without escape characters if and only if neither has one. -/
theorem append_iff {s t : String} :
    EscapeFree (s ++ t) ↔ EscapeFree s ∧ EscapeFree t := by
  rw [EscapeFree, String.toList_append, List.mem_append, not_or]

/-- A text without control characters has no escape characters. -/
theorem of_isClean {text : String} (clean : isClean text) : EscapeFree text := fun mem =>
  absurd (isClean_iff.1 clean _ mem) (by decide)

end Text.EscapeFree

/-- The first text is the second with colours: it has the same characters, none of which is an
escape character, and some runs of them are enclosed by control sequences. -/
inductive Decorates : List Char → List Char → Prop where
  | nil : Decorates [] []
  | char {c : Char} (notEscape : c ≠ '\x1b') {shown plain : List Char}
      (others : Decorates shown plain) : Decorates (c :: shown) (c :: plain)
  | painted (role : Role) {text : String} (free : Text.EscapeFree text) {shown plain : List Char}
      (others : Decorates shown plain) :
      Decorates ((paint true role text).toList ++ shown) (text.toList ++ plain)

/-- The control sequence that starts the colour of a role. -/
theorem Role.start_eq (role : Role) : ∃ body, role.colour.start.toList = '\x1b' :: (body ++ ['m']) ∧
    'm' ∉ body ∧ Mark.ofBody? body = some (.start role.colour) := by
  refine ⟨role.colour.start.toList.tail.dropLast, ?_⟩
  cases role <;> decide +kernel

/-- The control sequences of a painted text are cut off in front of it and behind. -/
theorem cutMarks_painted (role : Role) {text : String} (free : Text.EscapeFree text)
    (rest : List Char) : cutMarks ((paint true role text).toList ++ rest) =
      .inl (.start role.colour) :: (text.toList.map .inr ++ .inl .reset :: cutMarks rest) := by
  obtain ⟨body, start, noEnd, read⟩ := role.start_eq
  have ended (rest : List Char) : cutMarks (colourEnd.toList ++ rest) =
      .inl .reset :: cutMarks rest :=
    have noEnd : 'm' ∉ ['[', '3', '9'] := by decide
    cutMarks_mark noEnd (by decide +kernel) rest
  have painted : (paint true role text).toList ++ rest =
      '\x1b' :: (body ++ 'm' :: (text.toList ++ (colourEnd.toList ++ rest))) := by
    simp [paint, start]
  rw [painted, cutMarks_mark noEnd read, cutMarks_append free, ended]

/-- Without the control sequences a decorated text is the plain text, and they alternate. -/
theorem Decorates.withoutMarks_eq {shown plain : List Char} (h : Decorates shown plain) :
    withoutMarks shown = plain ∧ Alternate (marks shown) := by
  have keepRight (text : List Char) :
      (text.map (Sum.inr (α := Mark))).filterMap Sum.getRight? = text := by
    rw [List.filterMap_map]
    exact List.filterMap_some
  have dropLeft (text : List Char) :
      (text.map (Sum.inr (α := Mark))).filterMap Sum.getLeft? = [] := by
    rw [List.filterMap_map]
    exact List.filterMap_eq_nil_iff.2 fun _ _ => rfl
  induction h with
  | nil =>
    rw [withoutMarks, marks, cutMarks]
    exact ⟨rfl, trivial⟩
  | @char c notEscape shown plain others ih =>
    rw [withoutMarks, marks, cutMarks_cons notEscape]
    exact ⟨congrArg (c :: ·) ih.1, ih.2⟩
  | @painted role text free shown plain others ih =>
    rw [withoutMarks, marks, cutMarks_painted role free]
    simp only [List.filterMap_cons, List.filterMap_append, Sum.getRight?_inl, Sum.getLeft?_inl,
      keepRight, dropLeft, List.nil_append]
    exact ⟨congrArg (text.toList ++ ·) ih.1, ih.2⟩

/-- Decorated texts one behind the other are decorated. -/
theorem Decorates.append {shown plain shown' plain' : List Char} (first : Decorates shown plain)
    (second : Decorates shown' plain') : Decorates (shown ++ shown') (plain ++ plain') := by
  induction first with
  | nil => exact second
  | char notEscape others ih => exact .char notEscape ih
  | painted role free others ih =>
    rw [List.append_assoc, List.append_assoc]
    exact .painted role free ih

/-- Decorated texts one behind the other, however many, are decorated. -/
theorem Decorates.flatMap {α : Type} {parts : List α} {shown plain : α → List Char}
    (each : ∀ part ∈ parts, Decorates (shown part) (plain part)) :
    Decorates (parts.flatMap shown) (parts.flatMap plain) := by
  induction parts with
  | nil => exact .nil
  | cons part parts ih =>
    obtain ⟨first, others⟩ := List.forall_mem_cons.1 each
    exact first.append (ih others)

/-- A text that is made with or without colours has the same characters with colours, none of which
is an escape character. -/
def Decorated (text : Bool → String) : Prop := Decorates (text true).toList (text false).toList

namespace Decorated

/-- A text without escape characters that has no colours is decorated. -/
theorem plain {text : String} (free : Text.EscapeFree text) : Decorated fun _ => text := by
  have each : ∀ {cs : List Char}, '\x1b' ∉ cs → Decorates cs cs := fun {cs} noEscape => by
    induction cs with
    | nil => exact .nil
    | cons c cs ih =>
      rw [List.mem_cons, not_or] at noEscape
      exact .char (Ne.symm noEscape.1) (ih noEscape.2)
  exact each free

/-- A painted text is decorated. -/
theorem paint (role : Role) {text : String} (free : Text.EscapeFree text) :
    Decorated fun coloured => paint coloured role text := by
  have h := Decorates.painted role free .nil
  rwa [List.append_nil, List.append_nil] at h

/-- Decorated texts one behind the other are decorated. -/
theorem append {s t : Bool → String} (first : Decorated s) (second : Decorated t) :
    Decorated fun coloured => s coloured ++ t coloured := by
  have h := Decorates.append first second
  rwa [← String.toList_append, ← String.toList_append] at h

end Decorated

/-! ## Outlines -/

/-- A label is decorated if calls have names of letters. -/
theorem Expr.decorated_label {t : Expr} (named : t.hasLetterNames) :
    Decorated fun coloured => t.label coloured := by
  have free := Text.EscapeFree.of_isClean (isClean_label named)
  cases t <;> exact .paint _ free

/-- The outline of a tree is decorated if calls have names of letters. -/
theorem Expr.decorated_outlineBelow {t : Expr} (named : t.hasLetterNames) {guides : String}
    (free : Text.EscapeFree guides) (last : Bool) :
    Decorated fun coloured => t.outlineBelow coloured guides last := by
  induction t using children_induction generalizing guides last with
  | node t ih =>
    have branch : Text.EscapeFree (guides ++ Outline.branch last) :=
      Text.EscapeFree.append_iff.2 ⟨free, by cases last <;> decide⟩
    have below : Text.EscapeFree (guides ++ Outline.indent last) :=
      Text.EscapeFree.append_iff.2 ⟨free, by cases last <;> decide⟩
    have line := (Decorated.paint .guide branch).append (decorated_label named)
    rw [Decorated, toList_outlineBelow, toList_outlineBelow]
    refine Decorates.append line (.char (by decide) (.flatMap fun part mem => ?_))
    have inside := List.fst_mem_of_mem_zipIdx mem
    exact ih part.1 inside (hasLetterNames_of_mem_children named inside) below _

/-- The whole outline of a tree is decorated if calls have names of letters. -/
theorem Expr.decorated_outline {t : Expr} (named : t.hasLetterNames) :
    Decorated fun coloured => t.outline coloured :=
  decorated_outlineBelow named (by decide : Text.EscapeFree "") true

end RegisterCalc
