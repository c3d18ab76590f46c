import Mathlib.Tactic.Lemma
import Sentential.Proofs.Symbolic.Grammar
import Sentential.Proofs.Symbolic.Step

/-!
# Where reading leaves the cursor

A cursor stands at a position of a list of tokens, with a number of groups and negations open
(`cursorAt`). However a reading step ends, it leaves the cursor at a position of the same list, with
as many of them open as before, and an error names no token behind the list (`KeepsCursor`). A
successful step has passed a token and tells the depth of what it has read, which is within the
limit, and behind a formula no connective of its rank comes next (`reading_keeps_cursor`).
-/

namespace Sentential.Symbolic

/-- The cursor at a position of a list of tokens. -/
def cursorAt (ts : List Token) (position nesting : Nat) : Cursor :=
  ⟨ts.drop position, position, nesting⟩

/-- The index of the token that an error names. -/
def ReadError.index? : ReadError → Option Nat
  | .unclosedParen index => some index
  | .unexpectedToken _ index => some index
  | .trailingTokens index => some index
  | .tooDeep index => some index
  | .unexpectedEnd => none
  | .invalidSymbol _ _ => none

/-- Whether an outcome leaves the cursor in a list of tokens, with as many groups and negations open
as given. If something has been read, the cursor has come to the given start, and the depth is told;
an error names no token behind the list. -/
def KeepsCursor (limit : Nat) (ts : List Token) (start nesting : Nat) :
    Except (ReadError × Cursor) ((Formula × Nat) × Cursor) → Prop
  | .ok ((f, depth), next) =>
    start ≤ next.index ∧ next.index ≤ ts.length ∧ next = cursorAt ts next.index nesting ∧
      depth = f.depth ∧ depth ≤ limit
  | .error (cause, stop) =>
    stop.index ≤ ts.length ∧ stop = cursorAt ts stop.index nesting ∧
      ∀ index ∈ cause.index?, index ≤ ts.length

section
variable {limit start rank position nesting depth : Nat} {ts rest : List Token} {t : Token}
  {f : Formula} {c next stop : Cursor} {cause : ReadError}

/-- At a token a cursor stands in front of one position more. -/
lemma cursorAt_of_drop (cut : ts.drop position = t :: rest) :
    position < ts.length ∧
      (∀ nesting, cursorAt ts position nesting = ⟨t :: rest, position, nesting⟩) ∧
      ∀ nesting, ⟨rest, position + 1, nesting⟩ = cursorAt ts (position + 1) nesting := by
  have long : (ts.drop position).length = (t :: rest).length := congrArg List.length cut
  rw [List.length_drop, List.length_cons] at long
  refine ⟨by omega, fun nesting => by rw [cursorAt, cut], fun nesting => ?_⟩
  have behind : ts.drop (position + 1) = rest := by
    rw [← List.drop_drop, cut, List.drop_one, List.tail_cons]
  rw [cursorAt, behind]

/-- A group or negation that is left is no longer counted. -/
lemma leave_cursorAt (e : c = cursorAt ts c.index (nesting + 1)) :
    c.leave = cursorAt ts c.leave.index nesting := by
  rw [e]
  rfl

/-! ## Reading steps -/

/-- An error behind an opened group or negation. -/
lemma KeepsCursor.leave_error {start' : Nat}
    (keeps : KeepsCursor limit ts start (nesting + 1) (.error (cause, stop))) :
    KeepsCursor limit ts start' nesting (.error (cause, stop.leave)) := by
  obtain ⟨inside, e, near⟩ := keeps
  exact ⟨inside, leave_cursorAt e, near⟩

/-- An error about what has been read behind an opened group or negation. -/
lemma KeepsCursor.leave_refused {start' : Nat}
    (keeps : KeepsCursor limit ts start (nesting + 1) (.ok ((f, depth), next)))
    (near : ∀ index ∈ cause.index?, index ≤ ts.length) :
    KeepsCursor limit ts start' nesting (.error (cause, next.leave)) := by
  obtain ⟨-, inside, e, -⟩ := keeps
  exact ⟨inside, leave_cursorAt e, near⟩

/-- A negation in front of an operand. -/
lemma KeepsCursor.not
    (keeps : KeepsCursor limit ts (start + 1) (nesting + 1) (.ok ((f, depth), next)))
    (low : depth + 1 ≤ limit) :
    KeepsCursor limit ts start nesting (.ok ((.not f, depth + 1), next.leave)) := by
  obtain ⟨far, inside, e, rfl, -⟩ := keeps
  refine ⟨Nat.le_of_succ_le far, inside, leave_cursorAt e, ?_, low⟩
  rw [Formula.depth, Nat.add_comm]

/-- A formula in a group that is closed. -/
lemma KeepsCursor.group {after : List Token}
    (keeps : KeepsCursor limit ts (start + 1) (nesting + 1) (.ok ((f, depth), next)))
    (closing : next.rest = .rightParen :: after) :
    KeepsCursor limit ts start nesting (.ok ((f, depth), (next.pass after).leave)) := by
  obtain ⟨far, -, e, same, low⟩ := keeps
  have cut : ts.drop next.index = .rightParen :: after := by
    rw [← closing]
    exact (congrArg Cursor.rest e).symm
  have opened : next.nesting = nesting + 1 := congrArg Cursor.nesting e
  obtain ⟨more, -, behind⟩ := cursorAt_of_drop cut
  have place : (next.pass after).leave = ⟨after, next.index + 1, nesting⟩ := by
    rw [Cursor.leave, Cursor.pass, opened, Nat.add_sub_cancel]
  rw [place]
  refine ⟨?_, more, behind nesting, same, low⟩
  simp only
  omega

/-- What has been read from further on has been read from here. -/
lemma KeepsCursor.mono {start' : Nat} (le : start' ≤ start)
    {outcome : Except (ReadError × Cursor) ((Formula × Nat) × Cursor)}
    (keeps : KeepsCursor limit ts start nesting outcome) :
    KeepsCursor limit ts start' nesting outcome := by
  rcases outcome with _ | ⟨⟨f, depth⟩, next⟩
  · exact keeps
  · exact ⟨Nat.le_trans le keeps.1, keeps.2⟩

/-! ## Reading -/

/-- Whether reading an operand keeps the cursor where fewer tokens are left than given. -/
def OperandsKeep (limit : Nat) (ts : List Token) (room : Nat) : Prop :=
  ∀ position nesting, position ≤ ts.length → ts.length - position < room →
    KeepsCursor limit ts (position + 1) nesting
      (readOperand limit (cursorAt ts position nesting)).outcome

/-- Whether reading a formula does. -/
def FormulasKeep (limit : Nat) (ts : List Token) (room : Nat) : Prop :=
  ∀ rank position nesting, position ≤ ts.length → ts.length - position < room →
    KeepsCursor limit ts (position + 1) nesting
      (readFormula limit rank (cursorAt ts position nesting)).outcome

/-- Whether reading on behind a formula that is within the limit does. -/
def ChainsKeep (limit : Nat) (ts : List Token) (room : Nat) : Prop :=
  ∀ rank left position nesting, position ≤ ts.length → ts.length - position < room →
    left.depth ≤ limit →
    KeepsCursor limit ts position nesting
      (readChain limit rank left left.depth (cursorAt ts position nesting)).outcome

variable {room : Nat}

/-- Operands keep the cursor if shorter operands and formulas do. -/
lemma operandsKeep_succ (pos : 0 < limit) (operands : OperandsKeep limit ts room)
    (formulas : FormulasKeep limit ts room) : OperandsKeep limit ts (room + 1) := by
  intro position nesting inside short
  rcases cut : ts.drop position with _ | ⟨t, rest⟩
  · rw [cursorAt, cut, readOperand_nil]
    exact ⟨inside, by rw [cursorAt, cut], nofun⟩
  · obtain ⟨more, here, behind⟩ := cursorAt_of_drop cut
    have fewer : ts.length - (position + 1) < room := by omega
    have named : ∀ index ∈ some position, index ≤ ts.length := by
      intro index mem
      cases mem
      exact inside
    -- where no operand begins or too much is open, the cursor has passed the token
    have refused : ∀ cause, cause.index? = some position →
        KeepsCursor limit ts (position + 1) nesting
          (.error (cause, ⟨rest, position + 1, nesting⟩)) :=
      fun cause e => ⟨more, behind nesting, e ▸ named⟩
    rw [here]
    cases t with
    | identifier name =>
      rw [readOperand_identifier]
      exact ⟨Nat.le_refl _, more, behind nesting, rfl, pos⟩
    | not =>
      rw [readOperand_not, behind]
      have keeps := operands (position + 1) (nesting + 1) more fewer
      split
      · split
        · rename_i g inner mid e
          rw [e] at keeps
          split
          · rename_i low
            exact keeps.not low
          · exact keeps.leave_refused named
        · rename_i cause stop e
          rw [e] at keeps
          exact keeps.leave_error
      · exact refused _ rfl
    | connective op =>
      rw [readOperand_connective]
      exact refused _ rfl
    | leftParen =>
      rw [readOperand_leftParen, behind]
      have keeps := formulas 0 (position + 1) (nesting + 1) more fewer
      split
      · split
        · rename_i inner mid e
          obtain ⟨f, depth⟩ := inner
          rw [e] at keeps
          split
          · rename_i after closing
            exact keeps.group closing
          · refine keeps.leave_refused fun index mem => ?_
            cases mem
            exact keeps.2.1
        · rename_i cause stop e
          rw [e] at keeps
          exact keeps.leave_error
      · exact refused _ rfl
    | rightParen =>
      rw [readOperand_rightParen]
      exact refused _ rfl

/-- Formulas keep the cursor if their first operands and the chains behind do. -/
lemma formulasKeep_succ (operands : OperandsKeep limit ts (room + 1))
    (chains : ChainsKeep limit ts room) : FormulasKeep limit ts (room + 1) := by
  intro rank position nesting inside short
  have keeps := operands position nesting inside short
  rw [readFormula_outcome]
  split
  · rename_i left depth next e
    rw [e] at keeps
    obtain ⟨far, inside', place, rfl, low⟩ := keeps
    rw [place]
    exact (chains rank left next.index nesting inside' (by omega) low).mono far
  · rename_i failure e
    rw [e] at keeps
    exact keeps

/-- Chains keep the cursor if the formulas in them and shorter chains do. -/
lemma chainsKeep_succ (formulas : FormulasKeep limit ts room)
    (chains : ChainsKeep limit ts room) : ChainsKeep limit ts (room + 1) := by
  intro rank left position nesting inside short low
  have ends : KeepsCursor limit ts position nesting
      (.ok ((left, left.depth), cursorAt ts position nesting)) :=
    ⟨Nat.le_refl _, inside, rfl, rfl, low⟩
  by_cases other : ∀ op more, ts.drop position ≠ .connective op :: more
  · rw [cursorAt, readChain_of_ne other]
    exact ends
  · push Not at other
    obtain ⟨op, rest, cut⟩ := other
    obtain ⟨more, here, behind⟩ := cursorAt_of_drop cut
    have fewer : ts.length - (position + 1) < room := by omega
    have keeps := formulas (op.precedence + 1) (position + 1) nesting more fewer
    rw [here] at ends ⊢
    rw [readChain_connective, behind]
    split
    · split
      · rename_i right rightDepth next e
        rw [e] at keeps
        obtain ⟨far, inside', place, rfl, -⟩ := keeps
        split
        · rename_i low'
          rw [place]
          exact (chains rank (.binary op left right) next.index nesting inside' (by omega)
            low').mono (by omega)
        · refine ⟨inside', place, fun index mem => ?_⟩
          cases mem
          exact inside
      · rename_i failure e
        rw [e] at keeps
        exact keeps
    · exact ends

/-- Reading keeps the cursor, by induction on the number of the tokens that are left. -/
lemma reading_keeps (pos : 0 < limit) (ts : List Token) (room : Nat) :
    OperandsKeep limit ts room ∧ FormulasKeep limit ts room ∧ ChainsKeep limit ts room := by
  induction room with
  | zero =>
    refine ⟨?_, ?_, ?_⟩
    · exact fun _ _ _ short => absurd short (Nat.not_lt_zero _)
    · exact fun _ _ _ _ short => absurd short (Nat.not_lt_zero _)
    · exact fun _ _ _ _ _ short => absurd short (Nat.not_lt_zero _)
  | succ room ih =>
    obtain ⟨operands, formulas, chains⟩ := ih
    have operands' := operandsKeep_succ pos operands formulas
    exact ⟨operands', formulasKeep_succ operands' chains, chainsKeep_succ formulas chains⟩

/-! ## Where a formula ends -/

/-- A chain goes on for as long as connectives of its rank follow. -/
lemma stopsBelow_of_readChain {left : Formula} {leftDepth : Nat}
    (out : (readChain limit rank left leftDepth c).outcome = .ok ((f, depth), next)) :
    StopsBelow rank next.rest := by
  generalize long : c.rest.length = n
  induction n using Nat.strongRecOn generalizing c left leftDepth with
  | ind n ih =>
    obtain ⟨tokens, index, nesting⟩ := c
    rcases readChain_ok out with
      ⟨ends, -, -, rfl⟩ | ⟨op, rest, right, rightDepth, mid, rfl, -, e, -, onward⟩
    · exact ends
    · have fewer : mid.rest.length < rest.length := Step.outcome_fits e
      rw [List.length_cons] at long
      exact ih mid.rest.length (by omega) onward rfl

/-- Behind a formula of a rank no connective of the rank comes next. -/
lemma stopsBelow_of_readFormula
    (out : (readFormula limit rank c).outcome = .ok ((f, depth), next)) :
    StopsBelow rank next.rest := by
  obtain ⟨left, leftDepth, mid, -, chain⟩ := readFormula_ok out
  exact stopsBelow_of_readChain chain

/-- From every position of a list of tokens, reading an operand or a formula ends at a position of
the same list with as many groups and negations open, and an error names a token of the list or its
end. What has been read is told with its depth, which is within the limit, and at least one token
has been passed; behind a formula no connective of its rank comes next. -/
theorem reading_keeps_cursor (rank nesting : Nat) (inside : position ≤ ts.length) :
    KeepsCursor maxDepth ts (position + 1) nesting
      (readOperand maxDepth (cursorAt ts position nesting)).outcome ∧
    KeepsCursor maxDepth ts (position + 1) nesting
      (readFormula maxDepth rank (cursorAt ts position nesting)).outcome ∧
    ∀ f depth next,
      (readFormula maxDepth rank (cursorAt ts position nesting)).outcome = .ok ((f, depth), next) →
        StopsBelow rank next.rest := by
  have pos : 0 < maxDepth := by decide
  obtain ⟨operands, formulas, -⟩ := reading_keeps pos ts (ts.length - position + 1)
  refine ⟨?_, ?_, fun f depth next out => stopsBelow_of_readFormula out⟩
  · exact operands position nesting inside (Nat.lt_succ_self _)
  · exact formulas rank position nesting inside (Nat.lt_succ_self _)

/-- In the middle of a list, with most groups open: a formula ends at a connective that binds
looser, and another one fails within a group that it has opened itself. -/
theorem reading_keeps_cursor_in_group :
    let ts : List Token :=
      [.identifier "A".toList, .connective .and, .not, .identifier "B".toList, .connective .iff,
        .leftParen, .leftParen, .identifier "C".toList]
    let f : Formula := .binary .and (.atom "A".toList) (.not (.atom "B".toList))
    0 ≤ ts.length ∧ 5 ≤ ts.length ∧
    (readFormula maxDepth 2 (cursorAt ts 0 255)).outcome = .ok ((f, 3), cursorAt ts 4 255) ∧
    (readOperand maxDepth (cursorAt ts 5 254)).outcome
      = .error (.unclosedParen 8, cursorAt ts 8 254) ∧
    KeepsCursor maxDepth ts 1 255 (.ok ((f, 3), cursorAt ts 4 255)) ∧
    KeepsCursor maxDepth ts 6 254 (.error (.unclosedParen 8, cursorAt ts 8 254)) ∧
    StopsBelow 2 (cursorAt ts 4 255).rest := by
  intro ts f
  have start : 0 ≤ ts.length := by decide
  have middle : 5 ≤ ts.length := by decide
  have read : (readFormula maxDepth 2 (cursorAt ts 0 255)).outcome
      = .ok ((f, 3), cursorAt ts 4 255) := by cbv
  have refused : (readOperand maxDepth (cursorAt ts 5 254)).outcome
      = .error (.unclosedParen 8, cursorAt ts 8 254) := by cbv
  obtain ⟨-, formula, stops⟩ := reading_keeps_cursor 2 255 start
  obtain ⟨operand, -, -⟩ := reading_keeps_cursor 0 254 middle
  rw [read] at formula
  rw [refused] at operand
  exact ⟨start, middle, read, refused, formula, operand, stops f 3 _ read⟩

end

end Sentential.Symbolic
