import RegisterCalc.Proofs.Terminal.Labels
import RegisterCalc.Proofs.Tree.Addresses

/-!
# Outlines show their trees

The outline of a tree has a line for each node, in the order of their addresses. The guides of a
line say where the node stands, a bar below each ancestor that has a later sibling
(`Expr.toList_outlineBelow_at`), and the label says what it is. The tree can be read off, up to
positions (`Expr.outline_eq_iff`): a line ends where its label does, the label tells how many parts
there are, and the outlines of the parts follow one after another, none of them the beginning of
another (`Expr.isToldByOutline`).
-/

namespace RegisterCalc

namespace Expr

/-- An outline is the line of the root and then the outlines of its parts, the last of which is
shown as the last. -/
theorem toList_outlineBelow (coloured : Bool) (guides : String) (last : Bool) (t : Expr) :
    (t.outlineBelow coloured guides last).toList =
      (paint coloured .guide (guides ++ Outline.branch last) ++ t.label coloured).toList ++
        '\n' :: t.children.zipIdx.flatMap fun part =>
          (part.1.outlineBelow coloured (guides ++ Outline.indent last)
            (decide (part.2 + 1 = t.children.length))).toList := by
  cases t <;> simp [outlineBelow, children]

/-! ## Lines -/

/-- The guides below the ancestors of a node, from the root on. -/
def indents (t : Expr) (address : Address) : List String :=
  (List.range address.length).map fun j =>
    if t.hasLaterSibling (address.take j) then "│  " else "   "

/-- The guides of a node: for each ancestor a bar if the ancestor has a later sibling, and then a
branch, or a corner if the node itself has none. -/
def guides (t : Expr) (address : Address) : List String :=
  t.indents address ++ [if t.hasLaterSibling address then "├─ " else "└─ "]

/-- A line shows the node at an address: its guides and then what it is. -/
def IsLineOf (t : Expr) (address : Address) (line : String) : Prop :=
  ∃ node, t.at? address = some node ∧
    line = String.join (t.guides address) ++ node.label false

/-- The guides of a node are three characters for it and for each of its ancestors. -/
theorem length_guides (t : Expr) (address : Address) :
    (String.join (t.guides address)).length = 3 * (address.length + 1) := by
  have three {groups : List String} (each : ∀ group ∈ groups, group.length = 3) :
      (String.join groups).length = 3 * groups.length := by
    induction groups with
    | nil => rfl
    | cons group groups ih =>
      obtain ⟨first, others⟩ := List.forall_mem_cons.1 each
      rw [String.join_cons, String.length_append, first, ih others, List.length_cons]
      omega
  have groups : (t.guides address).length = address.length + 1 := by
    simp [guides, indents]
  rw [← groups]
  refine three fun group mem => ?_
  rcases List.mem_append.1 mem with indent | branch
  · obtain ⟨j, -, rfl⟩ := List.mem_map.1 indent
    split <;> rfl
  · rw [List.mem_singleton.1 branch]
    split <;> rfl

/-- Below a node the guides are those above it and its own. -/
theorem indents_concat (t : Expr) (address : Address) (i : Nat) :
    t.indents (address ++ [i]) =
      t.indents address ++ [if t.hasLaterSibling address then "│  " else "   "] := by
  rw [indents, List.length_append, List.length_singleton, List.range_succ, List.map_append]
  congr 1
  · refine List.map_congr_left fun j within => ?_
    rw [List.take_append_of_le_length (List.mem_range.1 within).le]
  · simp

/-- The line of the node at an address. -/
def lineAt (t : Expr) (address : Address) : String :=
  String.join (t.guides address) ++ ((t.at? address).map (label false)).getD ""

/-- In a tree in which calls have names of letters so do the calls in every part. -/
theorem hasLetterNames_of_at? {t u : Expr} (named : t.hasLetterNames) {address : Address}
    (found : t.at? address = some u) : u.hasLetterNames := by
  induction address generalizing t with
  | nil =>
    obtain rfl := Option.some.inj found
    exact named
  | cons i address ih =>
    obtain ⟨part, place, found⟩ := Option.bind_eq_some_iff.1 found
    exact ih (hasLetterNames_of_mem_children named (List.mem_of_getElem? place)) found

/-- Every address of a tree has a line. -/
theorem isLineOf_lineAt {t : Expr} {address : Address} (mem : address ∈ t.addresses) :
    t.IsLineOf address (t.lineAt address) := by
  obtain ⟨node, found⟩ := Option.isSome_iff_exists.1 (mem_addresses_iff.1 mem)
  exact ⟨node, found, by rw [lineAt, found]; rfl⟩

/-- The label of a node has no line feed if calls have names of letters. -/
theorem lineFeed_not_mem_label {t : Expr} (named : t.hasLetterNames) :
    '\n' ∉ (t.label false).toList := fun mem =>
  absurd (Text.isClean_iff.1 (isClean_label named) _ mem) (by decide)

/-- The line of a node has no line feed in it. -/
theorem IsLineOf.lineFeed_not_mem {t : Expr} (named : t.hasLetterNames) {address : Address}
    {line : String} (h : t.IsLineOf address line) : '\n' ∉ line.toList := by
  obtain ⟨node, found, rfl⟩ := h
  intro mem
  rw [String.toList_append, String.toList_join] at mem
  rcases List.mem_append.1 mem with guide | label
  · obtain ⟨group, mem, feed⟩ := List.mem_flatMap.1 guide
    rcases List.mem_append.1 mem with indent | branch
    · obtain ⟨j, -, rfl⟩ := List.mem_map.1 indent
      split at feed <;> exact absurd feed (by decide)
    · rw [List.mem_singleton.1 branch] at feed
      split at feed <;> exact absurd feed (by decide)
  · exact lineFeed_not_mem_label (hasLetterNames_of_at? named found) label

/-- The outline of a part of a tree consists of the lines of the nodes in it. -/
theorem toList_outlineBelow_at (root : Expr) {t : Expr} {address : Address}
    (found : root.at? address = some t) :
    (t.outlineBelow false (String.join (root.indents address))
      (!root.hasLaterSibling address)).toList =
        t.addresses.flatMap fun below => (root.lineAt (address ++ below)).toList ++ ['\n'] := by
  induction t using children_induction generalizing address with
  | node t ih =>
    have line : root.lineAt address = String.join (root.indents address) ++
        Outline.branch (!root.hasLaterSibling address) ++ t.label false := by
      rw [lineAt, found, guides, String.join_append]
      cases root.hasLaterSibling address <;> rfl
    have parts : ∀ part ∈ t.children.zipIdx,
        (part.1.outlineBelow false (String.join (root.indents address) ++
            Outline.indent (!root.hasLaterSibling address))
          (decide (part.2 + 1 = t.children.length))).toList =
        (part.1.addresses.map (part.2 :: ·)).flatMap fun below =>
          (root.lineAt (address ++ below)).toList ++ ['\n'] := by
      rintro ⟨u, i⟩ mem
      have place : t.children[i]? = some u := List.mk_mem_zipIdx_iff_getElem?.1 mem
      have inside := (List.getElem?_eq_some_iff.1 place).1
      have found' : root.at? (address ++ [i]) = some u := by
        rw [at?_append, found, Option.bind_some, at?, place]
        rfl
      have below := ih u (List.mem_of_getElem? place) found'
      have guides' : String.join (root.indents (address ++ [i])) =
          String.join (root.indents address) ++
            Outline.indent (!root.hasLaterSibling address) := by
        rw [indents_concat, String.join_append]
        cases root.hasLaterSibling address <;> rfl
      have last : (!root.hasLaterSibling (address ++ [i])) =
          decide (i + 1 = t.children.length) := by
        rw [hasLaterSibling_concat found, ← decide_not, decide_eq_decide]
        omega
      rw [guides', last] at below
      rw [below, List.flatMap_map]
      simp only [List.append_assoc, List.singleton_append]
    rw [toList_outlineBelow, addresses_eq, List.flatMap_cons, List.append_nil, List.flatMap_assoc,
      List.flatMap_congr parts, line]
    simp only [paint_false, List.append_assoc, List.singleton_append]

/-! ## Trees from their outlines -/

/-- A line is told from what follows by the line feed. -/
theorem append_lineFeed_inj {line line' rest rest' : List Char} (clean : '\n' ∉ line)
    (clean' : '\n' ∉ line') (same : line ++ '\n' :: rest = line' ++ '\n' :: rest') :
    line = line' ∧ rest = rest' := by
  have cut {line rest : List Char} (clean : '\n' ∉ line) :
      (line ++ '\n' :: rest).takeWhile (· ≠ '\n') = line := by
    have kept : ∀ c ∈ line, decide (c ≠ '\n') = true := fun c mem =>
      decide_eq_true fun feed => clean (feed ▸ mem)
    rw [List.takeWhile_append_of_pos kept, List.takeWhile_cons_of_neg (by decide), List.append_nil]
  have first : line = line' := by rw [← cut clean, same, cut clean']
  subst first
  exact ⟨rfl, (List.cons.inj (List.append_cancel_left same)).2⟩

/-- Nodes of one kind have equally many parts. -/
theorem SameNode.length_children {t u : Expr} (same : SameNode t u) :
    t.children.length = u.children.length := by
  cases same <;> rfl

/-- Trees are the same up to positions if their roots are and their parts are. -/
theorem SameNode.bare_eq {t u : Expr} (same : SameNode t u)
    (parts : t.children.map bare = u.children.map bare) : t.bare = u.bare := by
  cases same with
  | number | register => rfl
  | unary op operand operand' => exact congrArg (Expr.unary op · 0) (List.cons.inj parts).1
  | binary op left left' right right' =>
    obtain ⟨lefts, rights⟩ := List.cons.inj parts
    exact congrArg₂ (Expr.binary op · · 0) lefts (List.cons.inj rights).1
  | call name argument argument' => exact congrArg (Expr.call name · 0) (List.cons.inj parts).1
  | assign target value value' => exact congrArg (Expr.assign target · 0) (List.cons.inj parts).1

/-- The outline of a tree, in every place and before everything that may follow, is the beginning of
the outline of no other tree in that place. -/
def IsToldByOutline (t : Expr) : Prop :=
  ∀ (u : Expr) (guides : String) (last : Bool) (rest rest' : List Char), u.hasLetterNames →
    (t.outlineBelow false guides last).toList ++ rest =
      (u.outlineBelow false guides last).toList ++ rest' → t.bare = u.bare ∧ rest = rest'

/-- Equally many trees are told by their outlines one after another if each is by its own. -/
theorem map_bare_eq_of_outlines {ts us : List Expr} (told : ∀ t ∈ ts, t.IsToldByOutline)
    (named : ∀ u ∈ us, u.hasLetterNames) (length : ts.length = us.length) (guides : String)
    (last : Nat → Bool) (i : Nat) {rest rest' : List Char}
    (same : ((ts.zipIdx i).flatMap fun part =>
        (part.1.outlineBelow false guides (last part.2)).toList) ++ rest =
      ((us.zipIdx i).flatMap fun part =>
        (part.1.outlineBelow false guides (last part.2)).toList) ++ rest') :
    ts.map bare = us.map bare ∧ rest = rest' := by
  induction ts generalizing us i with
  | nil =>
    obtain rfl := List.length_eq_zero_iff.1 length.symm
    exact ⟨rfl, same⟩
  | cons t ts ih =>
    obtain ⟨u, us, rfl⟩ := List.exists_cons_of_length_eq_add_one length.symm
    obtain ⟨told, toldOthers⟩ := List.forall_mem_cons.1 told
    obtain ⟨named, namedOthers⟩ := List.forall_mem_cons.1 named
    simp only [List.zipIdx_cons, List.flatMap_cons, List.append_assoc] at same
    obtain ⟨first, others⟩ := told u guides (last i) _ _ named same
    obtain ⟨others, rests⟩ := ih toldOthers namedOthers (Nat.succ.inj length) (i + 1) others
    exact ⟨by rw [List.map_cons, List.map_cons, first, others], rests⟩

/-- A tree in which calls have names of letters is told by its outline. -/
theorem isToldByOutline (t : Expr) (named : t.hasLetterNames) : t.IsToldByOutline := by
  induction t using children_induction with
  | node t ih =>
    intro u guides last rest rest' named' same
    rw [toList_outlineBelow, toList_outlineBelow (t := u)] at same
    simp only [paint_false, String.toList_append, List.append_assoc, List.cons_append,
      List.append_cancel_left_eq] at same
    obtain ⟨labels, below⟩ := append_lineFeed_inj (lineFeed_not_mem_label named)
      (lineFeed_not_mem_label named') same
    have root := sameNode_of_label (String.toList_inj.1 labels)
    rw [← root.length_children] at below
    obtain ⟨parts, rests⟩ := map_bare_eq_of_outlines
      (fun v mem => ih v mem (hasLetterNames_of_mem_children named mem))
      (fun v mem => hasLetterNames_of_mem_children named' mem) root.length_children _
      (fun i => decide (i + 1 = t.children.length)) 0 below
    exact ⟨root.bare_eq parts, rests⟩

/-- The outline of a tree does not show positions. -/
theorem outlineBelow_relocate (f : Offset → Offset) (coloured : Bool) (guides : String)
    (last : Bool) (t : Expr) :
    (t.relocate f).outlineBelow coloured guides last = t.outlineBelow coloured guides last := by
  induction t generalizing guides last with
  | number | register => rfl
  | unary op operand offset ih | call name operand offset ih | assign target operand offset ih =>
    simp only [relocate, outlineBelow, ih, label]
  | binary op left right offset ihl ihr => simp only [relocate, outlineBelow, ihl, ihr, label]

/-- Trees in which calls have names of letters have the same outline if and only if they are the
same up to positions. -/
theorem outline_eq_iff {t u : Expr} (named : t.hasLetterNames) (named' : u.hasLetterNames) :
    t.outline false = u.outline false ↔ t.bare = u.bare := by
  constructor
  · intro same
    have same : (t.outlineBelow false "" true).toList ++ [] =
        (u.outlineBelow false "" true).toList ++ [] := congrArg (·.toList ++ []) same
    exact (isToldByOutline t named u "" true [] [] named' same).1
  · intro same
    calc t.outline false
      _ = t.bare.outline false := (t.outlineBelow_relocate _ false "" true).symm
      _ = u.bare.outline false := by rw [same]
      _ = u.outline false := u.outlineBelow_relocate _ false "" true

/-- The outline of a tree in which calls have names of letters has one line for each node, in the
order of their addresses, each of which stands before those below it and on its right. A line begins
with three characters of guides for each ancestor and for the node, which show the later siblings of
each. Trees have the same outline if and only if they are the same up to positions, where numbers
are as good as their texts: zero is not negative zero, and all that is not a number is the same. -/
theorem outline_shows (t : Expr) (named : t.hasLetterNames) :
    ∃ lines : List String,
      t.outline false = String.join (lines.map (· ++ "\n")) ∧
      (∀ line ∈ lines, '\n' ∉ line.toList) ∧
      List.Forall₂ t.IsLineOf t.addresses lines ∧
      t.addresses.Pairwise (· < ·) ∧ (∀ address, address ∈ t.addresses ↔ (t.at? address).isSome) ∧
      (∀ address, (String.join (t.guides address)).length = 3 * (address.length + 1)) ∧
      (∀ u : Expr, u.hasLetterNames → (t.outline false = u.outline false ↔ t.bare = u.bare)) ∧
      (∀ x y : Float, numberText x = numberText y ↔ x = y ∨ x.isNaN ∧ y.isNaN) ∧
      numberText 0 ≠ numberText (-0) := by
  have whole := toList_outlineBelow_at t (rfl : t.at? [] = some t)
  refine ⟨t.addresses.map t.lineAt, String.toList_inj.1 (whole.trans ?_), ?_, ?_,
    t.pairwise_addresses, fun _ => mem_addresses_iff, t.length_guides,
    fun u named' => outline_eq_iff named named', fun x y => ⟨fun same => .inl (numberText_inj same),
      ?_⟩, fun same => absurd (numberText_inj same) (by decide +kernel)⟩
  · simp [List.flatMap_map]
  · intro line mem
    obtain ⟨address, inside, rfl⟩ := List.mem_map.1 mem
    exact (isLineOf_lineAt inside).lineFeed_not_mem named
  · exact List.forall₂_map_right_iff.2 (List.forall₂_same.2 fun address => isLineOf_lineAt)
  · rintro (rfl | ⟨notANumber, notANumber'⟩)
    · rfl
    · rw [Binary64.eq_of_infinity_lt ((Binary64.isNaN_iff x).1 notANumber)
        ((Binary64.isNaN_iff y).1 notANumber')]

/-- The tree of `~#1 - exp(0)`, whose first part has a later sibling. -/
theorem outline_shows_difference : ∃ (t : Expr) (lines : List String),
    t = binary .sub (unary .complement (register 1 1) 0) (call "exp" (number 0 10) 8) 4 ∧
    t.hasLetterNames ∧ t.outline false = String.join (lines.map (· ++ "\n")) ∧
    List.Forall₂ t.IsLineOf [[], [0], [0, 0], [1], [1, 0]] lines ∧
    t.guides [0, 0] = ["   ", "│  ", "└─ "] := by
  have named : (binary .sub (unary .complement (register 1 1) 0)
      (call "exp" (number 0 10) 8) 4).hasLetterNames := by decide +kernel
  obtain ⟨lines, whole, -, each, -⟩ := outline_shows _ named
  exact ⟨_, lines, rfl, named, whole, each, by decide +kernel⟩

end Expr

end RegisterCalc
