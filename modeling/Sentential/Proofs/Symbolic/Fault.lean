import Mathlib.Tactic.Lemma
import Sentential.Proofs.Symbolic.Precedence

/-!
# The first token at fault

Whether tokens can still become a formula depends on little: whether an operand has to follow or one
has ended, and how many groups are open (`Stage`). A token that cannot stand at its stage ends every
hope (`viable_iff`), and a formula is what ends an operand outside of all groups (`derivable_iff`).
Reading fails at such a token or at the end of the tokens (`reading_faults`), so the place that an
error names is that of the first token with which no formula begins any more
(`parse_error_locates`).
-/

namespace Sentential.Symbolic

/-- Where the tokens of a formula have come to: an operand has to follow, or one has ended, with so
many groups open. -/
inductive Stage where
  | before (groups : Nat)
  | behind (groups : Nat)
deriving DecidableEq, Repr

namespace Stage

/-- The stage behind a token, if the token can stand there. -/
def pass : Stage → Token → Option Stage
  | .before n, .identifier _ => some (.behind n)
  | .before n, .not => some (.before n)
  | .before n, .leftParen => some (.before (n + 1))
  | .behind n, .connective _ => some (.before n)
  | .behind (n + 1), .rightParen => some (.behind n)
  | _, _ => none

/-- The stage behind some tokens, if they can stand there. -/
def run (stage : Stage) (ts : List Token) : Option Stage :=
  ts.foldlM Stage.pass stage

variable {stage next : Stage} {ts us : List Token}

/-- No tokens lead to the stage where they start. -/
@[simp] lemma run_nil : stage.run [] = some stage := rfl

/-- The first token is passed before the others. -/
lemma run_cons (t : Token) : stage.run (t :: ts) = (stage.pass t).bind fun next => next.run ts :=
  List.foldlM_cons

/-- The stage behind some tokens is the one from which the next ones start. -/
lemma run_append : stage.run (ts ++ us) = (stage.run ts).bind fun next => next.run us :=
  List.foldlM_append

/-- If the stage behind some tokens is known, the next ones start from it. -/
lemma run_append_of_eq (h : stage.run ts = some next) : stage.run (ts ++ us) = next.run us := by
  rw [run_append, h, Option.bind_some]

/-- The open groups can be closed behind an operand. -/
lemma run_close (n : Nat) : (behind n).run (List.replicate n .rightParen) = some (.behind 0) := by
  induction n with
  | zero => rfl
  | succ n ih => exact ih

end Stage

open Stage

/-! ## Formulas and their beginnings -/

/-- Whether some tokens are those of a formula, however deep. -/
def Derivable (ts : List Token) : Prop :=
  ∃ n f, Derives .equivalence n ts f

/-- Whether some tokens begin those of a formula, however deep. -/
def Viable (ts : List Token) : Prop :=
  ∃ more, Derivable (ts ++ more)

/-- A derivation leads from before an operand to behind it. -/
lemma Derives.run {level : Level} {n : Nat} {ts : List Token} {f : Formula}
    (d : Derives level n ts f) (groups : Nat) : (before groups).run ts = some (.behind groups) := by
  induction d generalizing groups with
  | identifier name => rfl
  | not _ ih => exact ih groups
  | group _ ih =>
    rw [List.cons_append, run_cons]
    exact run_append_of_eq (ih (groups + 1))
  | single _ ih => exact ih groups
  | chain _ _ _ ihl ihr =>
    rw [run_append_of_eq (ihl groups), run_cons]
    exact ihr groups

/-- No formula is deeper than it has tokens. -/
lemma Derives.depth_le {level : Level} {n : Nat} {ts : List Token} {f : Formula}
    (d : Derives level n ts f) : f.depth ≤ ts.length := by
  induction d with
  | identifier name => exact Nat.le_refl 1
  | not _ ih =>
    rw [Formula.depth, List.length_cons]
    omega
  | group _ ih =>
    rw [List.length_append, List.length_cons]
    omega
  | single _ ih => exact ih
  | chain _ _ _ ihl ihr =>
    rw [Formula.depth, List.length_append, List.length_cons]
    omega

/-! ## Steps that fail -/

section
variable {limit rank index nesting depth : Nat} {tokens : List Token} {left : Formula}
  {cause : ReadError} {stop : Cursor}

/-- How an operand is not read. -/
lemma readOperand_error
    (out : (readOperand limit ⟨tokens, index, nesting⟩).outcome = .error (cause, stop)) :
    (tokens = [] ∧ cause = .unexpectedEnd) ∨
    (∃ token rest, tokens = token :: rest ∧ (∀ n, (before n).pass token = none) ∧
      cause = .unexpectedToken token index) ∨
    (tokens ≠ [] ∧ limit ≤ nesting ∧ cause = .tooDeep index) ∨
    (∃ rest, tokens = .not :: rest ∧ nesting < limit ∧
      ((∃ g inner mid, (readOperand limit ⟨rest, index + 1, nesting + 1⟩).outcome
          = .ok ((g, inner), mid) ∧ limit < inner + 1 ∧ cause = .tooDeep index) ∨
        ∃ stop', (readOperand limit ⟨rest, index + 1, nesting + 1⟩).outcome
          = .error (cause, stop'))) ∨
    (∃ rest, tokens = .leftParen :: rest ∧ nesting < limit ∧
      ((∃ g inner mid, (readFormula limit 0 ⟨rest, index + 1, nesting + 1⟩).outcome
          = .ok ((g, inner), mid) ∧ (∀ after, mid.rest ≠ .rightParen :: after) ∧
          cause = .unclosedParen mid.index) ∨
        ∃ stop', (readFormula limit 0 ⟨rest, index + 1, nesting + 1⟩).outcome
          = .error (cause, stop'))) := by
  rcases tokens with _ | ⟨name | _ | op | _ | _, rest⟩
  case nil =>
    rw [readOperand_nil] at out
    cases out
    exact .inl ⟨rfl, rfl⟩
  case cons.identifier =>
    rw [readOperand_identifier] at out
    cases out
  case cons.not =>
    rw [readOperand_not] at out
    split at out
    · rename_i room
      refine .inr (.inr (.inr (.inl ⟨rest, rfl, room, ?_⟩)))
      split at out
      · rename_i g inner mid e
        split at out
        · cases out
        · rename_i high
          cases out
          exact .inl ⟨g, inner, mid, e, Nat.lt_of_not_le high, rfl⟩
      · rename_i stop' e
        cases out
        exact .inr ⟨stop', e⟩
    · rename_i full
      cases out
      exact .inr (.inr (.inl ⟨List.cons_ne_nil _ _, Nat.le_of_not_lt full, rfl⟩))
  case cons.connective =>
    rw [readOperand_connective] at out
    cases out
    exact .inr (.inl ⟨_, rest, rfl, fun _ => rfl, rfl⟩)
  case cons.leftParen =>
    rw [readOperand_leftParen] at out
    split at out
    · rename_i room
      refine .inr (.inr (.inr (.inr ⟨rest, rfl, room, ?_⟩)))
      split at out
      · rename_i inner mid e
        split at out
        · cases out
        · rename_i other
          cases out
          exact .inl ⟨inner.1, inner.2, mid, e, other, rfl⟩
      · rename_i stop' e
        cases out
        exact .inr ⟨stop', e⟩
    · rename_i full
      cases out
      exact .inr (.inr (.inl ⟨List.cons_ne_nil _ _, Nat.le_of_not_lt full, rfl⟩))
  case cons.rightParen =>
    rw [readOperand_rightParen] at out
    cases out
    exact .inr (.inl ⟨_, rest, rfl, fun _ => rfl, rfl⟩)

/-- How a formula is not read. -/
lemma readFormula_error {c : Cursor}
    (out : (readFormula limit rank c).outcome = .error (cause, stop)) :
    (∃ stop', (readOperand limit c).outcome = .error (cause, stop')) ∨
    ∃ g inner mid, (readOperand limit c).outcome = .ok ((g, inner), mid) ∧
      (readChain limit rank g inner mid).outcome = .error (cause, stop) := by
  rw [readFormula_outcome] at out
  split at out
  · rename_i g inner mid e
    exact .inr ⟨g, inner, mid, e, out⟩
  · rename_i failure e
    cases out
    exact .inl ⟨stop, e⟩

/-- How a chain is not read. -/
lemma readChain_error
    (out : (readChain limit rank left depth ⟨tokens, index, nesting⟩).outcome
      = .error (cause, stop)) :
    ∃ op rest, tokens = .connective op :: rest ∧ rank ≤ op.precedence ∧
      ((∃ stop', (readFormula limit (op.precedence + 1) ⟨rest, index + 1, nesting⟩).outcome
          = .error (cause, stop')) ∨
        ∃ right rightDepth mid,
          (readFormula limit (op.precedence + 1) ⟨rest, index + 1, nesting⟩).outcome
            = .ok ((right, rightDepth), mid) ∧
          ((limit < 1 + max depth rightDepth ∧ cause = .tooDeep index) ∨
            1 + max depth rightDepth ≤ limit ∧
              (readChain limit rank (.binary op left right) (1 + max depth rightDepth) mid).outcome
                = .error (cause, stop))) := by
  by_cases other : ∀ op more, tokens ≠ .connective op :: more
  · rw [readChain_of_ne other] at out
    cases out
  · push Not at other
    obtain ⟨op, rest, rfl⟩ := other
    rw [readChain_connective] at out
    split at out
    · rename_i high
      refine ⟨op, rest, rfl, high, ?_⟩
      split at out
      · rename_i right rightDepth mid e
        refine .inr ⟨right, rightDepth, mid, e, ?_⟩
        split at out
        · rename_i low
          exact .inr ⟨low, out⟩
        · rename_i deep
          cases out
          exact .inl ⟨Nat.lt_of_not_le deep, rfl⟩
      · rename_i failure e
        cases out
        exact .inl ⟨stop, e⟩
    · cases out

end

/-! ## What steps have read -/

section
variable {limit rank index nesting depth : Nat} {tokens : List Token} {f : Formula} {next : Cursor}

/-- A successful step stands as many tokens on as it has read for an operand. -/
lemma readOperand_span (pos : 0 < limit) (le : nesting ≤ limit)
    (out : (readOperand limit ⟨tokens, index, nesting⟩).outcome = .ok ((f, depth), next)) :
    ∃ n ts, tokens = ts ++ next.rest ∧ Derives .operand n ts f ∧ depth = f.depth ∧
      next = ⟨next.rest, index + ts.length, nesting⟩ := by
  obtain ⟨n, ts, rfl, d, fits, rfl, -⟩ :=
    (reading_sound pos (tokens.length + 1)).1 _ _ _ _ _ _ (Nat.lt_succ_self _) le out
  have again := (((d.reads pos).1 rfl) next.rest index nesting le).1 fits
  rw [again] at out
  exact ⟨n, ts, rfl, d, rfl, (Prod.mk.inj (Except.ok.inj out)).2.symm⟩

/-- So does one for a formula, behind which no connective of its rank comes next. -/
lemma readFormula_span (pos : 0 < limit) (high : rank ≤ 5) (le : nesting ≤ limit)
    (out : (readFormula limit rank ⟨tokens, index, nesting⟩).outcome = .ok ((f, depth), next)) :
    ∃ level n ts, tokens = ts ++ next.rest ∧ Derives level n ts f ∧ depth = f.depth ∧
      next = ⟨next.rest, index + ts.length, nesting⟩ ∧ StopsBelow rank next.rest := by
  obtain ⟨level, n, ts, rfl, d, low, fits, rfl, -, stops⟩ :=
    (reading_sound pos (tokens.length + 1)).2.1 _ _ _ _ _ _ _ high (Nat.lt_succ_self _) le out
  have again := ((d.reads pos).2 rank next.rest index nesting low
    (stops.mono (Nat.le_succ_of_le low)) le).1 fits
  rw [List.nil_append, readChain_stops stops] at again
  rw [again] at out
  exact ⟨level, n, ts, rfl, d, rfl, (Prod.mk.inj (Except.ok.inj out)).2.symm, stops⟩

end

/-! ## Faults -/

/-- What an error tells of the tokens that are read from a stage and an index on. The size is how
deep a formula could nest here if every token counted. -/
inductive Faults (limit : Nat) : Nat → Stage → List Token → Nat → ReadError → Prop where
  | unexpectedEnd {size stage n ts index} :
    stage.run ts = some (.before n) →
    Faults limit size stage ts index .unexpectedEnd
  | unexpectedToken {size stage n ts t rest index} :
    stage.run ts = some (.before n) →
    (before n).pass t = none →
    Faults limit size stage (ts ++ t :: rest) index (.unexpectedToken t (index + ts.length))
  | unclosedParen {size stage n ts rest index} :
    stage.run ts = some (.behind (n + 1)) →
    (∀ t more, rest = t :: more → (behind (n + 1)).pass t = none) →
    Faults limit size stage (ts ++ rest) index (.unclosedParen (index + ts.length))
  | tooDeep {size stage ts index place} :
    limit < size →
    Faults limit size stage ts index (.tooDeep place)

/-- An error behind tokens that can stand is one of them all. -/
lemma Faults.prepend {limit size size' index : Nat} {stage next : Stage} {ts us : List Token}
    {cause : ReadError} (faults : Faults limit size next us (index + ts.length) cause)
    (run : stage.run ts = some next) (le : size ≤ size') :
    Faults limit size' stage (ts ++ us) index cause := by
  cases faults with
  | unexpectedEnd h => exact .unexpectedEnd (by rw [run_append_of_eq run, h])
  | unexpectedToken h stuck =>
    rw [← List.append_assoc, Nat.add_assoc, ← List.length_append]
    exact .unexpectedToken (by rw [run_append_of_eq run, h]) stuck
  | unclosedParen h stuck =>
    rw [← List.append_assoc, Nat.add_assoc, ← List.length_append]
    exact .unclosedParen (by rw [run_append_of_eq run, h]) stuck
  | tooDeep crowded => exact .tooDeep (Nat.lt_of_lt_of_le crowded le)

/-- Behind a formula in a group nothing can stand but a connective or the end of the group. -/
lemma pass_behind_eq_none {n : Nat} {rest : List Token} (stops : StopsBelow 0 rest)
    (inside : ∀ after, n = 0 ∨ rest ≠ .rightParen :: after) {t : Token} {more : List Token}
    (e : rest = t :: more) : (behind n).pass t = none := by
  subst e
  cases t with
  | connective op => exact absurd (stops op more rfl) (Nat.not_lt_zero _)
  | rightParen =>
    rcases inside more with rfl | other
    · rfl
    · exact absurd rfl other
  | _ => rfl

/-- Whether operands that are not read where fewer tokens are left than given have their faults. -/
def OperandsFault (limit room : Nat) : Prop :=
  ∀ tokens index nesting n cause stop, tokens.length < room → nesting ≤ limit →
    (readOperand limit ⟨tokens, index, nesting⟩).outcome = .error (cause, stop) →
      Faults limit (nesting + tokens.length) (.before n) tokens index cause

/-- Whether formulas do. -/
def FormulasFault (limit room : Nat) : Prop :=
  ∀ rank tokens index nesting n cause stop, tokens.length < room → nesting ≤ limit →
    (readFormula limit rank ⟨tokens, index, nesting⟩).outcome = .error (cause, stop) →
      Faults limit (nesting + tokens.length) (.before n) tokens index cause

/-- Whether chains do, behind what has been read to some depth. -/
def ChainsFault (limit room : Nat) : Prop :=
  ∀ rank tokens index nesting left depth n cause stop, tokens.length < room → nesting ≤ limit →
    (readChain limit rank left depth ⟨tokens, index, nesting⟩).outcome = .error (cause, stop) →
      Faults limit (nesting + depth + tokens.length) (.behind n) tokens index cause

section
variable {limit room : Nat}

/-- Operands have their faults if shorter operands and formulas have. -/
lemma operandsFault_succ (pos : 0 < limit) (operands : OperandsFault limit room)
    (formulas : FormulasFault limit room) : OperandsFault limit (room + 1) := by
  intro tokens index nesting n cause stop short le out
  rcases readOperand_error out with
    ⟨rfl, rfl⟩ | ⟨token, rest, rfl, stuck, rfl⟩ | ⟨ne, full, rfl⟩
    | ⟨rest, rfl, more, deep⟩ | ⟨rest, rfl, more, open'⟩
  · exact .unexpectedEnd rfl
  · have none : (before n).run [] = some (.before n) := rfl
    exact .unexpectedToken none (stuck n)
  · have some := List.length_pos_iff.2 ne
    exact .tooDeep (by omega)
  · have same : (before n).run [.not] = some (.before n) := rfl
    rcases deep with ⟨g, inner, mid, e, high, rfl⟩ | ⟨stop', e⟩
    · obtain ⟨k, ts, rfl, d, rfl, -⟩ := readOperand_span pos more e
      have flat := d.depth_le
      rw [List.length_cons, List.length_append]
      exact .tooDeep (by omega)
    · have faults := operands _ _ _ n _ _ (Nat.lt_of_succ_lt_succ short) more e
      exact faults.prepend same (by rw [List.length_cons]; omega)
  · have same : (before n).run [.leftParen] = some (.before (n + 1)) := rfl
    rcases open' with ⟨g, inner, mid, e, other, rfl⟩ | ⟨stop', e⟩
    · obtain ⟨level, k, ts, rfl, d, -, place, stops⟩ :=
        readFormula_span pos (Nat.zero_le _) more e
      have index' : mid.index = index + 1 + ts.length := by rw [place]
      have faults : Faults limit 0 (before (n + 1)) (ts ++ mid.rest) (index + 1) _ :=
        .unclosedParen (d.run (n + 1)) fun t more e =>
          pass_behind_eq_none stops (fun after => .inr (other after)) e
      rw [index']
      exact faults.prepend same (Nat.zero_le _)
    · have faults := formulas _ _ _ _ (n + 1) _ _ (Nat.lt_of_succ_lt_succ short) more e
      exact faults.prepend same (by rw [List.length_cons]; omega)

/-- Formulas have their faults if their first operands and the chains behind have. -/
lemma formulasFault_succ (pos : 0 < limit) (operands : OperandsFault limit (room + 1))
    (chains : ChainsFault limit room) : FormulasFault limit (room + 1) := by
  intro rank tokens index nesting n cause stop short le out
  rcases readFormula_error out with ⟨stop', e⟩ | ⟨left, depth, mid, e, chain⟩
  · exact operands _ _ _ n _ _ short le e
  · have fewer := Step.outcome_fits e
    obtain ⟨k, ts, rfl, d, rfl, place⟩ := readOperand_span pos le e
    rw [place] at chain
    have flat := d.depth_le
    have faults := chains _ _ _ _ _ _ n _ _ (by simp only at fewer; omega) le chain
    exact faults.prepend (d.run n) (by rw [List.length_append]; omega)

/-- Chains have their faults if the formulas in them and shorter chains have. -/
lemma chainsFault_succ (pos : 0 < limit) (formulas : FormulasFault limit room)
    (chains : ChainsFault limit room) : ChainsFault limit (room + 1) := by
  intro rank tokens index nesting left depth n cause stop short le out
  obtain ⟨op, rest, rfl, -, fails⟩ := readChain_error out
  have same : (behind n).run [.connective op] = some (.before n) := rfl
  have less := Nat.lt_of_succ_lt_succ short
  rcases fails with ⟨stop', e⟩ | ⟨right, rightDepth, mid, e, onward⟩
  · have faults := formulas _ _ _ _ n _ _ less le e
    exact faults.prepend same (by rw [List.length_cons]; omega)
  · have top : op.precedence + 1 ≤ 5 := by cases op <;> decide
    have fewer := Step.outcome_fits e
    obtain ⟨level, k, ts, rfl, d, rfl, place, -⟩ := readFormula_span pos top le e
    have flat := d.depth_le
    rcases onward with ⟨high, rfl⟩ | ⟨-, chain⟩
    · rw [List.length_cons, List.length_append]
      exact .tooDeep (by omega)
    · -- the chain goes on behind the new formula, which is no deeper than it has tokens
      rw [place] at chain
      have faults := chains _ _ _ _ _ _ n _ _ (by simp only at fewer; omega) le chain
      have behindRight := faults.prepend (d.run n) (Nat.le_refl _)
      refine behindRight.prepend same ?_
      rw [List.length_cons, List.length_append]
      omega

/-- What is not read has a fault, by induction on the number of the tokens that are left. -/
lemma reading_faults (pos : 0 < limit) (room : Nat) :
    OperandsFault limit room ∧ FormulasFault limit room ∧ ChainsFault limit room := by
  induction room with
  | zero =>
    refine ⟨?_, ?_, ?_⟩
    · exact fun _ _ _ _ _ _ short => absurd short (Nat.not_lt_zero _)
    · exact fun _ _ _ _ _ _ _ short => absurd short (Nat.not_lt_zero _)
    · exact fun _ _ _ _ _ _ _ _ _ short => absurd short (Nat.not_lt_zero _)
  | succ room ih =>
    obtain ⟨operands, formulas, chains⟩ := ih
    have operands' := operandsFault_succ pos operands formulas
    exact ⟨operands', formulasFault_succ pos operands' chains, chainsFault_succ pos formulas chains⟩

end

/-! ## All tokens -/

section
variable {limit : Nat} {ts : List Token} {cause : ReadError}

/-- What is refused has a fault, or tokens are left behind a formula. -/
lemma parseWithin_error (pos : 0 < limit) (refused : parseWithin limit ts = .error cause) :
    Faults limit ts.length (.before 0) ts 0 cause ∨
    ∃ us t rest, ts = us ++ t :: rest ∧ cause = .trailingTokens us.length ∧
      (before 0).run us = some (.behind 0) ∧ (behind 0).pass t = none := by
  rw [parseWithin_eq] at refused
  split at refused
  · rename_i f depth next out
    obtain ⟨level, n, us, cut, d, -, place, stops⟩ :=
      readFormula_span pos (Nat.zero_le _) (Nat.zero_le _) out
    have index : next.index = us.length := by
      rw [place]
      exact Nat.zero_add _
    split at refused
    · cases refused
    · rename_i t rest more
      cases refused
      refine .inr ⟨us, t, rest, by rw [cut, more], by rw [index], d.run 0, ?_⟩
      exact pass_behind_eq_none stops (fun _ => .inl rfl) more
  · rename_i cause' stop out
    cases refused
    have faults := (reading_faults pos (ts.length + 1)).2.1 0 ts 0 0 0 cause stop
      (Nat.lt_succ_self _) (Nat.zero_le _) out
    rw [Nat.zero_add] at faults
    exact .inl faults

/-- Tokens are those of a formula iff they lead behind an operand with no group open. -/
lemma derivable_iff : Derivable ts ↔ (before 0).run ts = some (.behind 0) := by
  constructor
  · rintro ⟨n, f, d⟩
    exact d.run 0
  · intro run
    -- a limit that these tokens cannot reach
    have pos : 0 < ts.length + 1 := Nat.succ_pos _
    cases e : parseWithin (ts.length + 1) ts with
    | ok f =>
      obtain ⟨n, d, -⟩ := derives_of_parseWithin pos e
      exact ⟨n, f, d⟩
    | error cause =>
      rcases parseWithin_error pos e with faults | ⟨us, t, rest, rfl, -, before, stuck⟩
      · cases faults with
        | unexpectedEnd h =>
          rw [h] at run
          cases run
        | unexpectedToken h stuck =>
          rw [run_append_of_eq h, run_cons, stuck] at run
          cases run
        | unclosedParen h stuck =>
          rename_i n us rest
          rw [run_append_of_eq h] at run
          cases rest with
          | nil => cases run
          | cons t more =>
            rw [run_cons, stuck t more rfl] at run
            cases run
        | tooDeep crowded => exact absurd crowded (by omega)
      · rw [run_append_of_eq before, run_cons, stuck] at run
        cases run

/-- Tokens begin those of a formula iff each can stand where it stands. -/
lemma viable_iff : Viable ts ↔ ((before 0).run ts).isSome := by
  constructor
  · rintro ⟨more, derivable⟩
    have run := derivable_iff.1 derivable
    rw [run_append] at run
    obtain ⟨stage, e, -⟩ := Option.bind_eq_some_iff.1 run
    rw [e]
    rfl
  · intro run
    obtain ⟨stage, e⟩ := Option.isSome_iff_exists.1 run
    cases stage with
    | before n =>
      refine ⟨.identifier [] :: List.replicate n .rightParen, derivable_iff.2 ?_⟩
      rw [run_append_of_eq e]
      exact run_close n
    | behind n =>
      refine ⟨List.replicate n .rightParen, derivable_iff.2 ?_⟩
      rw [run_append_of_eq e, run_close n]

/-- A token that cannot stand where it stands ends what has begun a formula. -/
lemma viable_take {us : List Token} {t : Token} {stage : Stage} (rest : List Token)
    (run : (before 0).run us = some stage) (stuck : stage.pass t = none) :
    let ts := us ++ t :: rest
    ts[us.length]? = some t ∧ Viable (ts.take us.length) ∧ ¬ Viable (ts.take (us.length + 1)) := by
  intro ts
  have short : ts.take us.length = us := List.take_left
  have long : ts.take (us.length + 1) = us ++ [t] := by
    rw [List.take_length_add_append, List.take_succ_cons, List.take_zero]
  refine ⟨by simp [ts], ?_, ?_⟩
  · rw [short, viable_iff, run]
    rfl
  · rw [long, viable_iff, run_append_of_eq run, run_cons, stuck]
    decide

/-- What an error tells of the tokens: they begin a formula up to the place that it names and not
with the token there, or they end too early. -/
def ReadError.Locates (ts : List Token) : ReadError → Prop
  | .unexpectedToken token index =>
    ts[index]? = some token ∧ Viable (ts.take index) ∧ ¬ Viable (ts.take (index + 1))
  | .trailingTokens index =>
    index < ts.length ∧ Viable (ts.take index) ∧ ¬ Viable (ts.take (index + 1))
  | .unclosedParen index =>
    index ≤ ts.length ∧ Viable (ts.take index) ∧
      (index < ts.length → ¬ Viable (ts.take (index + 1))) ∧ (index = ts.length → ¬ Derivable ts)
  | .unexpectedEnd => Viable ts ∧ ¬ Derivable ts
  | .tooDeep _ => True
  | .invalidSymbol _ _ => False

/-- The place that an error names is that of the first token with which no formula begins any more,
unless the error tells of a limit. -/
theorem parse_error_locates (refused : parse ts = .error cause) : cause.Locates ts := by
  have pos : 0 < maxDepth := by decide
  rcases parseWithin_error pos refused with faults | ⟨us, t, rest, rfl, rfl, run, stuck⟩
  · cases faults with
    | unexpectedEnd run =>
      refine ⟨viable_iff.2 (by rw [run]; rfl), fun derivable => ?_⟩
      rw [derivable_iff.1 derivable] at run
      cases run
    | unexpectedToken run stuck =>
      rw [Nat.zero_add]
      exact viable_take _ run stuck
    | unclosedParen run stuck =>
      rename_i n us rest
      rw [Nat.zero_add]
      cases rest with
      | nil =>
        rw [List.append_nil]
        refine ⟨Nat.le_refl _, ?_, fun lt => absurd lt (Nat.lt_irrefl _), fun _ derivable => ?_⟩
        · rw [List.take_length, viable_iff, run]
          rfl
        · rw [derivable_iff.1 derivable] at run
          cases run
      | cons t rest =>
        have long : us.length < (us ++ t :: rest).length := by simp
        obtain ⟨-, short, stuck'⟩ := viable_take rest run (stuck t rest rfl)
        exact ⟨Nat.le_of_lt long, short, fun _ => stuck', fun e => absurd e (Nat.ne_of_lt long)⟩
    | tooDeep => exact trivial
  · obtain ⟨-, short, stuck'⟩ := viable_take rest run stuck
    exact ⟨by simp, short, stuck'⟩

end

/-- A name behind a whole operand is at fault, though the group around it is open. -/
theorem parse_error_locates_of_missing_connective :
    let ts : List Token := [.leftParen, .identifier "A".toList, .connective .and, .leftParen, .not,
      .identifier "B".toList, .rightParen, .identifier "C".toList, .rightParen]
    parse ts = .error (.unclosedParen 7) ∧ (ReadError.unclosedParen 7).Locates ts := by
  intro ts
  have refused : parse ts = .error (.unclosedParen 7) := by cbv
  exact ⟨refused, parse_error_locates refused⟩

end Sentential.Symbolic
