import Mathlib.Tactic.Lemma
import Mathlib.Tactic.Push
import Sentential.Symbolic.Parser

/-!
# What a reading step does

A step hands out a proof that it has passed a token, which only its termination needs. Its outcome
(`Step.outcome`) leaves the proof out, and each reading step gets one equation for each token that
it can meet. What a successful step has read and where it has led is told by one lemma a step
(`readOperand_ok`, `readFormula_ok`, `readChain_ok`).
-/

namespace Sentential.Symbolic

/-- What a step has read and the cursor behind it, or its error and the cursor where it stopped. -/
def Step.outcome {α : Type} {room : Nat} : Step α room → Except (ReadError × Cursor) (α × Cursor)
  | .done value next _ => .ok (value, next)
  | .fail cause stop => .error (cause, stop)

variable {limit rank index nesting depth : Nat} {rest : List Token} {left : Formula}

/-- At the end no operand can be read. -/
lemma readOperand_nil :
    (readOperand limit ⟨[], index, nesting⟩).outcome
      = .error (.unexpectedEnd, ⟨[], index, nesting⟩) := by
  rw [readOperand]
  rfl

/-- An identifier is read as its atom. -/
lemma readOperand_identifier (name : Text) :
    (readOperand limit ⟨.identifier name :: rest, index, nesting⟩).outcome
      = .ok ((.atom name, 1), ⟨rest, index + 1, nesting⟩) := by
  rw [readOperand]
  rfl

/-- A negation is read with its operand, unless a limit is exceeded. -/
lemma readOperand_not :
    (readOperand limit ⟨.not :: rest, index, nesting⟩).outcome
      = if nesting < limit then
          match (readOperand limit ⟨rest, index + 1, nesting + 1⟩).outcome with
          | .ok ((operand, depth), next) =>
            if depth + 1 ≤ limit then .ok ((.not operand, depth + 1), next.leave)
            else .error (.tooDeep index, next.leave)
          | .error (cause, stop) => .error (cause, stop.leave)
        else .error (.tooDeep index, ⟨rest, index + 1, nesting⟩) := by
  rw [readOperand]
  simp only [Cursor.pass, Cursor.enter]
  split
  · rcases readOperand limit ⟨rest, index + 1, nesting + 1⟩ with ⟨⟨operand, depth⟩, next, fits⟩ | _
    · by_cases low : depth + 1 ≤ limit
      · simp only [Step.outcome, if_pos low]
      · simp only [Step.outcome, if_neg low]
    · rfl
  · rfl

/-- A group is read up to its parenthesis, unless a limit is exceeded. -/
lemma readOperand_leftParen :
    (readOperand limit ⟨.leftParen :: rest, index, nesting⟩).outcome
      = if nesting < limit then
          match (readFormula limit 0 ⟨rest, index + 1, nesting + 1⟩).outcome with
          | .ok (inner, next) =>
            match next.rest with
            | .rightParen :: after => .ok (inner, (next.pass after).leave)
            | _ => .error (.unclosedParen next.index, next.leave)
          | .error (cause, stop) => .error (cause, stop.leave)
        else .error (.tooDeep index, ⟨rest, index + 1, nesting⟩) := by
  rw [readOperand]
  simp only [Cursor.pass, Cursor.enter]
  split
  · rcases readFormula limit 0 ⟨rest, index + 1, nesting + 1⟩ with ⟨inner, next, fits⟩ | _
    · rcases next with ⟨_ | ⟨_ | _ | _ | _ | _, _⟩, _, _⟩ <;> rfl
    · rfl
  · rfl

/-- A connective begins no operand. -/
lemma readOperand_connective (op : Connective) :
    (readOperand limit ⟨.connective op :: rest, index, nesting⟩).outcome
      = .error (.unexpectedToken (.connective op) index, ⟨rest, index + 1, nesting⟩) := by
  rw [readOperand]
  rfl

/-- A parenthesis that closes begins no operand. -/
lemma readOperand_rightParen :
    (readOperand limit ⟨.rightParen :: rest, index, nesting⟩).outcome
      = .error (.unexpectedToken .rightParen index, ⟨rest, index + 1, nesting⟩) := by
  rw [readOperand]
  rfl

/-- A formula is read as its first operand and the chain behind it. -/
lemma readFormula_outcome (c : Cursor) :
    (readFormula limit rank c).outcome
      = match (readOperand limit c).outcome with
        | .ok ((left, depth), next) => (readChain limit rank left depth next).outcome
        | .error failure => .error failure := by
  rw [readFormula]
  rcases readOperand limit c with ⟨⟨left, depth⟩, next, fits⟩ | _
  · simp only [Step.outcome]
    rcases readChain limit rank left depth next with _ | _ <;> rfl
  · rfl

/-- A connective of the rank or above goes on with its right operand. -/
lemma readChain_connective (op : Connective) :
    (readChain limit rank left depth ⟨.connective op :: rest, index, nesting⟩).outcome
      = if rank ≤ op.precedence then
          match (readFormula limit (op.precedence + 1) ⟨rest, index + 1, nesting⟩).outcome with
          | .ok ((right, rightDepth), next) =>
            if 1 + max depth rightDepth ≤ limit then
              (readChain limit rank (.binary op left right) (1 + max depth rightDepth)
                next).outcome
            else .error (.tooDeep index, next)
          | .error failure => .error failure
        else .ok ((left, depth), ⟨.connective op :: rest, index, nesting⟩) := by
  rw [readChain]
  simp only [Cursor.pass]
  split
  · rcases readFormula limit (op.precedence + 1) ⟨rest, index + 1, nesting⟩
      with ⟨⟨right, rightDepth⟩, next, fits⟩ | _
    · by_cases low : 1 + max depth rightDepth ≤ limit
      · simp only [Step.outcome, if_pos low]
        rcases readChain limit rank (.binary op left right) (1 + max depth rightDepth) next
          with _ | _ <;> rfl
      · simp only [Step.outcome, if_neg low]
    · rfl
  · rfl

/-- A chain ends where no connective comes next. -/
lemma readChain_of_ne (other : ∀ op more, rest ≠ .connective op :: more) :
    (readChain limit rank left depth ⟨rest, index, nesting⟩).outcome
      = .ok ((left, depth), ⟨rest, index, nesting⟩) := by
  rw [readChain]
  rcases rest with _ | ⟨_ | _ | op | _ | _, more⟩
  case cons.connective => exact absurd rfl (other op more)
  all_goals rfl

/-! ## Successful steps -/

/-- A successful step has passed a token. -/
lemma Step.outcome_fits {α : Type} {room : Nat} {step : Step α room} {value : α} {next : Cursor}
    (out : step.outcome = .ok (value, next)) : next.rest.length < room := by
  cases step with
  | done value' next' fits =>
    cases out
    exact fits
  | fail => cases out

/-- How an operand is read with success. -/
lemma readOperand_ok {tokens : List Token} {f : Formula} {next : Cursor}
    (out : (readOperand limit ⟨tokens, index, nesting⟩).outcome = .ok ((f, depth), next)) :
    (∃ name rest, tokens = .identifier name :: rest ∧ f = .atom name ∧ depth = 1 ∧
      next = ⟨rest, index + 1, nesting⟩) ∨
    (∃ rest g inner mid, tokens = .not :: rest ∧ nesting < limit ∧
      (readOperand limit ⟨rest, index + 1, nesting + 1⟩).outcome = .ok ((g, inner), mid) ∧
      inner + 1 ≤ limit ∧ f = .not g ∧ depth = inner + 1 ∧ next = mid.leave) ∨
    (∃ rest mid after, tokens = .leftParen :: rest ∧ nesting < limit ∧
      (readFormula limit 0 ⟨rest, index + 1, nesting + 1⟩).outcome = .ok ((f, depth), mid) ∧
      mid.rest = .rightParen :: after ∧ next = (mid.pass after).leave) := by
  rcases tokens with _ | ⟨name | _ | op | _ | _, rest⟩
  case nil =>
    rw [readOperand_nil] at out
    cases out
  case cons.identifier =>
    rw [readOperand_identifier] at out
    cases out
    exact .inl ⟨name, rest, rfl, rfl, rfl, rfl⟩
  case cons.not =>
    rw [readOperand_not] at out
    split at out
    · rename_i room
      split at out
      · rename_i g inner mid e
        split at out
        · rename_i low
          cases out
          exact .inr (.inl ⟨rest, g, inner, mid, rfl, room, e, low, rfl, rfl, rfl⟩)
        · cases out
      · cases out
    · cases out
  case cons.connective =>
    rw [readOperand_connective] at out
    cases out
  case cons.leftParen =>
    rw [readOperand_leftParen] at out
    split at out
    · rename_i room
      split at out
      · rename_i inner mid e
        split at out
        · rename_i after closing
          cases out
          exact .inr (.inr ⟨rest, mid, after, rfl, room, e, closing, rfl⟩)
        · cases out
      · cases out
    · cases out
  case cons.rightParen =>
    rw [readOperand_rightParen] at out
    cases out

/-- How a formula is read with success. -/
lemma readFormula_ok {c next : Cursor} {f : Formula}
    (out : (readFormula limit rank c).outcome = .ok ((f, depth), next)) :
    ∃ left leftDepth mid, (readOperand limit c).outcome = .ok ((left, leftDepth), mid) ∧
      (readChain limit rank left leftDepth mid).outcome = .ok ((f, depth), next) := by
  rw [readFormula_outcome] at out
  split at out
  · rename_i left leftDepth mid e
    exact ⟨left, leftDepth, mid, e, out⟩
  · cases out

/-- How a chain is read with success: it ends, or goes on behind one connective. -/
lemma readChain_ok {tokens : List Token} {f : Formula} {leftDepth : Nat} {next : Cursor}
    (out : (readChain limit rank left leftDepth ⟨tokens, index, nesting⟩).outcome
      = .ok ((f, depth), next)) :
    ((∀ op more, tokens = .connective op :: more → op.precedence < rank) ∧ f = left ∧
      depth = leftDepth ∧ next = ⟨tokens, index, nesting⟩) ∨
    (∃ op rest right rightDepth mid, tokens = .connective op :: rest ∧ rank ≤ op.precedence ∧
      (readFormula limit (op.precedence + 1) ⟨rest, index + 1, nesting⟩).outcome
        = .ok ((right, rightDepth), mid) ∧
      1 + max leftDepth rightDepth ≤ limit ∧
      (readChain limit rank (.binary op left right) (1 + max leftDepth rightDepth) mid).outcome
        = .ok ((f, depth), next)) := by
  by_cases other : ∀ op more, tokens ≠ .connective op :: more
  · rw [readChain_of_ne other] at out
    cases out
    exact .inl ⟨fun op more e => absurd e (other op more), rfl, rfl, rfl⟩
  · push Not at other
    obtain ⟨op, rest, rfl⟩ := other
    rw [readChain_connective] at out
    split at out
    · rename_i high
      split at out
      · rename_i right rightDepth mid e
        split at out
        · rename_i low
          exact .inr ⟨op, rest, right, rightDepth, mid, rfl, high, e, low, out⟩
        · cases out
      · cases out
    · rename_i low
      cases out
      refine .inl ⟨fun op' more e => ?_, rfl, rfl, rfl⟩
      cases e
      omega

end Sentential.Symbolic
