import Mathlib.Tactic.Lemma
import Mathlib.Tactic.Push
import Sentential.Proofs.Symbolic.Grammar
import Sentential.Proofs.Symbolic.Step

/-!
# Reading by precedence is the grammar

Reading climbs the ranks of the connectives with one loop, where the grammar has a level for each
rank. The two agree: a list of tokens reads as a formula iff the grammar derives the formula from
it, with no more groups and negations open at once than the limit allows and a tree that is no
deeper (`parse_eq_ok_iff`).

Completeness follows a derivation: what reads a chain goes on behind it as if the chain had been
the first operand (`ReadsFormula`), and where a limit is exceeded the error says so. Soundness
follows the reading steps (`SoundChain`): what has been read so far is a chain of some level, and
no connective that binds tighter comes next. Since every limit is covered, the grammar is
unambiguous (`Derives.unique`).
-/

namespace Sentential.Symbolic

/-- Whether a formula whose derivation nests `n` deep stays within a limit where some groups and
negations are open already. -/
def Fits (limit nesting n : Nat) (f : Formula) : Prop :=
  nesting + n ≤ limit ∧ f.depth ≤ limit

section
variable {limit nesting m n : Nat} {op : Connective} {f g : Formula}

/-- Where something more can be opened, the limit is not reached. -/
lemma Fits.lt (fits : Fits limit (nesting + 1) n f) : nesting < limit := by
  have near := fits.1
  omega

/-- A group counts as one more that is open. -/
lemma fits_group : Fits limit nesting (n + 1) f ↔ Fits limit (nesting + 1) n f := by
  rw [Fits, Fits, Nat.add_right_comm, Nat.add_assoc nesting n 1]

/-- A negation counts as one more that is open, and as one level of the formula. -/
lemma fits_not :
    Fits limit nesting (n + 1) (.not f)
      ↔ Fits limit (nesting + 1) n f ∧ f.depth + 1 ≤ limit := by
  simp only [Fits, Formula.depth]
  omega

/-- Two operands count one by one, and as one level of the formula. -/
lemma fits_binary :
    Fits limit nesting (max m n) (.binary op f g)
      ↔ Fits limit nesting m f ∧ Fits limit nesting n g ∧ 1 + max f.depth g.depth ≤ limit := by
  simp only [Fits, Formula.depth]
  omega

end

/-- Whether an outcome is the error that tells of a limit. -/
def TooDeep {α : Type} (outcome : Except (ReadError × Cursor) α) : Prop :=
  ∃ index stop, outcome = .error (.tooDeep index, stop)

/-! ## Completeness -/

/-- Reading an operand hands it out, unless a limit is exceeded. -/
def ReadsOperand (limit n : Nat) (ts : List Token) (f : Formula) : Prop :=
  ∀ rest index nesting, nesting ≤ limit →
    (Fits limit nesting n f →
      (readOperand limit ⟨ts ++ rest, index, nesting⟩).outcome
        = .ok ((f, f.depth), ⟨rest, index + ts.length, nesting⟩)) ∧
    (¬ Fits limit nesting n f →
      TooDeep (readOperand limit ⟨ts ++ rest, index, nesting⟩).outcome)

/-- Reading a formula of a level goes on behind it as a chain that begins with it, unless a limit is
exceeded. -/
def ReadsFormula (limit : Nat) (level : Level) (n : Nat) (ts : List Token) (f : Formula) : Prop :=
  ∀ rank rest index nesting,
    rank ≤ level.rank → StopsBelow (level.rank + 1) rest → nesting ≤ limit →
    (Fits limit nesting n f →
      (readFormula limit rank ⟨ts ++ rest, index, nesting⟩).outcome
        = (readChain limit rank f f.depth ⟨rest, index + ts.length, nesting⟩).outcome) ∧
    (¬ Fits limit nesting n f →
      TooDeep (readFormula limit rank ⟨ts ++ rest, index, nesting⟩).outcome)

/-- A chain ends where no connective of its rank comes next. -/
lemma readChain_stops {limit rank depth index nesting : Nat} {left : Formula} {rest : List Token}
    (stops : StopsBelow rank rest) :
    (readChain limit rank left depth ⟨rest, index, nesting⟩).outcome
      = .ok ((left, depth), ⟨rest, index, nesting⟩) := by
  by_cases other : ∀ op more, rest ≠ .connective op :: more
  · exact readChain_of_ne other
  · push Not at other
    obtain ⟨op, more, e⟩ := other
    have lt := stops op more e
    rw [e, readChain_connective, if_neg (by omega)]

/-- Reading an identifier hands out its atom. -/
lemma readsOperand_identifier {limit : Nat} (pos : 0 < limit) (name : Text) :
    ReadsOperand limit 0 [.identifier name] (.atom name) := by
  intro rest index nesting le
  refine ⟨fun _ => readOperand_identifier name, fun exceeds => absurd ⟨le, pos⟩ exceeds⟩

/-- Reading a negation hands it out if its operand is handed out. -/
lemma readsOperand_not {limit n : Nat} {ts : List Token} {f : Formula}
    (reads : ReadsOperand limit n ts f) : ReadsOperand limit (n + 1) (.not :: ts) (.not f) := by
  intro rest index nesting le
  rw [List.cons_append, readOperand_not, fits_not]
  by_cases room : nesting < limit
  · obtain ⟨inside, outside⟩ := reads rest (index + 1) (nesting + 1) room
    rw [if_pos room]
    by_cases fits : Fits limit (nesting + 1) n f
    · rw [inside fits]
      by_cases low : f.depth + 1 ≤ limit
      · simp only [if_pos low]
        refine ⟨fun _ => ?_, fun exceeds => absurd ⟨fits, low⟩ exceeds⟩
        simp [Cursor.leave, Formula.depth, Nat.add_comm, Nat.add_left_comm]
      · simp only [if_neg low]
        exact ⟨fun whole => absurd whole.2 low, fun _ => ⟨_, _, rfl⟩⟩
    · obtain ⟨place, stop, e⟩ := outside fits
      rw [e]
      exact ⟨fun whole => absurd whole.1 fits, fun _ => ⟨_, _, rfl⟩⟩
  · rw [if_neg room]
    exact ⟨fun whole => absurd whole.1.lt room, fun _ => ⟨_, _, rfl⟩⟩

/-- Reading a group hands out the formula in it. -/
lemma readsOperand_group {limit n : Nat} {ts : List Token} {f : Formula}
    (reads : ReadsFormula limit .equivalence n ts f) :
    ReadsOperand limit (n + 1) (.leftParen :: ts ++ [.rightParen]) f := by
  intro rest index nesting le
  have e : .leftParen :: ts ++ [.rightParen] ++ rest
      = Token.leftParen :: (ts ++ .rightParen :: rest) := by simp
  rw [e, readOperand_leftParen, fits_group]
  by_cases room : nesting < limit
  · obtain ⟨inside, outside⟩ :=
      reads 0 (.rightParen :: rest) (index + 1) (nesting + 1) (Nat.zero_le _)
        (stopsBelow_rightParen _ _) room
    rw [if_pos room]
    by_cases fits : Fits limit (nesting + 1) n f
    · rw [inside fits, readChain_stops (stopsBelow_rightParen _ _)]
      refine ⟨fun _ => ?_, fun exceeds => absurd fits exceeds⟩
      simp [Cursor.leave, Cursor.pass, Nat.add_comm, Nat.add_left_comm]
    · obtain ⟨place, stop, e⟩ := outside fits
      rw [e]
      exact ⟨fun whole => absurd whole fits, fun _ => ⟨_, _, rfl⟩⟩
  · rw [if_neg room]
    exact ⟨fun whole => absurd whole.lt room, fun _ => ⟨_, _, rfl⟩⟩

/-- An operand that is handed out goes on as a chain. -/
lemma ReadsOperand.readsFormula {limit n : Nat} {ts : List Token} {f : Formula}
    (reads : ReadsOperand limit n ts f) : ReadsFormula limit .operand n ts f := by
  intro rank rest index nesting _ _ le
  obtain ⟨inside, outside⟩ := reads rest index nesting le
  rw [readFormula_outcome]
  refine ⟨fun fits => ?_, fun exceeds => ?_⟩
  · rw [inside fits]
  · obtain ⟨place, stop, e⟩ := outside exceeds
    rw [e]
    exact ⟨_, _, rfl⟩

/-- A formula of the tighter level is the first of a chain. -/
lemma readsFormula_single {limit n : Nat} {level : Level} {ts : List Token} {f : Formula}
    (reads : ReadsFormula limit level.tighter n ts f) : ReadsFormula limit level n ts f := by
  intro rank rest index nesting low stops le
  have up := level.rank_le_tighter
  exact reads rank rest index nesting (by omega) (stops.mono (by omega)) le

/-- A chain goes on with its next operand if the connective is of the level. -/
lemma readsFormula_chain {limit m n : Nat} {level : Level} {op : Connective}
    {ts us : List Token} {f g : Formula} (own : op ∈ level.connectives)
    (readsLeft : ReadsFormula limit level m ts f)
    (readsRight : ReadsFormula limit level.tighter n us g) :
    ReadsFormula limit level (max m n) (ts ++ .connective op :: us) (.binary op f g) := by
  intro rank rest index nesting low stops le
  have same := Level.precedence_eq_rank own
  have up := Level.rank_tighter own
  have behind : StopsBelow (level.rank + 1) (.connective op :: (us ++ rest)) :=
    stopsBelow_connective.2 (by omega)
  obtain ⟨leftIn, leftOut⟩ :=
    readsLeft rank (.connective op :: (us ++ rest)) index nesting low behind le
  obtain ⟨rightIn, rightOut⟩ :=
    readsRight (op.precedence + 1) rest (index + ts.length + 1) nesting (by omega)
      (stops.mono (by omega)) le
  have e : ts ++ .connective op :: us ++ rest = ts ++ .connective op :: (us ++ rest) := by simp
  rw [e, fits_binary]
  -- the left operand, the right one and the new node are held against the limits in this order
  by_cases fitsLeft : Fits limit nesting m f
  · rw [leftIn fitsLeft, readChain_connective, if_pos (by omega)]
    by_cases fitsRight : Fits limit nesting n g
    · rw [rightIn fitsRight, readChain_stops (stops.mono (by omega))]
      by_cases flat : 1 + max f.depth g.depth ≤ limit
      · have place : index + ts.length + 1 + us.length
            = index + (ts ++ .connective op :: us).length := by
          simp only [List.length_append, List.length_cons]
          omega
        simp only [if_pos flat]
        refine ⟨fun _ => ?_, fun exceeds => absurd ⟨fitsLeft, fitsRight, flat⟩ exceeds⟩
        rw [place]
        rfl
      · simp only [if_neg flat]
        exact ⟨fun whole => absurd whole.2.2 flat, fun _ => ⟨_, _, rfl⟩⟩
    · obtain ⟨place, stop, e⟩ := rightOut fitsRight
      rw [e]
      exact ⟨fun whole => absurd whole.2.1 fitsRight, fun _ => ⟨_, _, rfl⟩⟩
  · obtain ⟨place, stop, e⟩ := leftOut fitsLeft
    rw [e]
    exact ⟨fun whole => absurd whole.1 fitsLeft, fun _ => ⟨_, _, rfl⟩⟩

/-- Whatever the grammar derives is read, unless a limit is exceeded. -/
lemma Derives.reads {limit n : Nat} {level : Level} {ts : List Token} {f : Formula}
    (pos : 0 < limit) (d : Derives level n ts f) :
    (level = .operand → ReadsOperand limit n ts f) ∧ ReadsFormula limit level n ts f := by
  induction d with
  | identifier name =>
    have reads := readsOperand_identifier pos name
    exact ⟨fun _ => reads, reads.readsFormula⟩
  | not d ih =>
    have reads := readsOperand_not (ih.1 rfl)
    exact ⟨fun _ => reads, reads.readsFormula⟩
  | group d ih =>
    have reads := readsOperand_group ih.2
    exact ⟨fun _ => reads, reads.readsFormula⟩
  | @single level n ts f d ih =>
    refine ⟨fun e => ?_, readsFormula_single ih.2⟩
    subst e
    exact ih.1 rfl
  | @chain level op m n ts us f g own dl dr ihl ihr =>
    refine ⟨fun e => ?_, readsFormula_chain own ihl.2 ihr.2⟩
    subst e
    cases own

/-! ## Soundness -/

/-- What has been done when the tokens up to the next cursor have been read behind others: all of
them together are a formula of a level at or above a rank that stays within the limit, and no
connective of the rank comes next. -/
def SoundChain (limit rank : Nat) (before : List Token) (c : Cursor) (f : Formula) (depth : Nat)
    (next : Cursor) : Prop :=
  ∃ level n ts, c.rest = ts ++ next.rest ∧ Derives level n (before ++ ts) f ∧ rank ≤ level.rank ∧
    Fits limit c.nesting n f ∧ depth = f.depth ∧ next.nesting = c.nesting ∧
    StopsBelow rank next.rest

/-- What has been done when an operand has been read. -/
def SoundOperand (limit : Nat) (c : Cursor) (f : Formula) (depth : Nat) (next : Cursor) : Prop :=
  ∃ n ts, c.rest = ts ++ next.rest ∧ Derives .operand n ts f ∧ Fits limit c.nesting n f ∧
    depth = f.depth ∧ next.nesting = c.nesting

section
variable {limit rank depth index nesting : Nat} {f g left right : Formula} {rest : List Token}
  {mid next : Cursor}

/-- A negation of a sound operand is sound. -/
lemma SoundOperand.not
    (sound : SoundOperand limit ⟨rest, index + 1, nesting + 1⟩ g depth mid)
    (low : depth + 1 ≤ limit) :
    SoundOperand limit ⟨.not :: rest, index, nesting⟩ (.not g) (depth + 1) mid.leave := by
  obtain ⟨n, ts, rfl, d, fits, rfl, same⟩ := sound
  refine ⟨n + 1, .not :: ts, rfl, .not d, fits_not.2 ⟨fits, low⟩, ?_, ?_⟩
  · rw [Formula.depth, Nat.add_comm]
  · rw [Cursor.leave, same, Nat.add_sub_cancel]

/-- A sound formula that is closed is a sound operand. -/
lemma SoundChain.group {after : List Token}
    (sound : SoundChain limit 0 [] ⟨rest, index + 1, nesting + 1⟩ f depth mid)
    (closing : mid.rest = .rightParen :: after) :
    SoundOperand limit ⟨.leftParen :: rest, index, nesting⟩ f depth (mid.pass after).leave := by
  obtain ⟨level, n, ts, rfl, d, _, fits, rfl, same, _⟩ := sound
  have whole : Derives .equivalence n ts f := d.loosen level.rank_pos
  refine ⟨n + 1, .leftParen :: ts ++ [.rightParen], ?_, .group whole, fits_group.2 fits, rfl, ?_⟩
  · simp [Cursor.leave, Cursor.pass, closing]
  · simp [Cursor.leave, Cursor.pass, same]

/-- The operand on the right of a connective makes a longer chain with what stands on its left. -/
lemma SoundChain.operands {op : Connective} {level : Level} {m : Nat} {us : List Token}
    (d : Derives level m us left) (fits : Fits limit nesting m left)
    (tight : op.precedence ≤ level.rank)
    (sound : SoundChain limit (op.precedence + 1) [] ⟨rest, index + 1, nesting⟩ right depth mid)
    (low : 1 + max left.depth depth ≤ limit) :
    ∃ n ts, rest = ts ++ mid.rest ∧
      Derives (.ofConnective op) n (us ++ .connective op :: ts) (.binary op left right) ∧
      Fits limit nesting n (.binary op left right) ∧ depth = right.depth ∧
      mid.nesting = nesting ∧ StopsBelow ((Level.ofConnective op).rank + 1) mid.rest := by
  obtain ⟨levelRight, n, ts, rfl, dr, high, fitsRight, rfl, same, stops⟩ := sound
  have own := Level.mem_connectives_ofConnective op
  have rankOp := Level.rank_ofConnective op
  have up := Level.rank_tighter own
  have chain := Derives.chain own (d.loosen (by omega)) (dr.loosen (by omega))
  exact ⟨_, ts, rfl, chain, fits_binary.2 ⟨fits, fitsRight, low⟩, rfl, same,
    stops.mono (by omega)⟩

end

/-- Whether reading operands is sound where fewer tokens are left than given. -/
def OperandsSound (limit room : Nat) : Prop :=
  ∀ tokens index nesting f depth next, tokens.length < room → nesting ≤ limit →
    (readOperand limit ⟨tokens, index, nesting⟩).outcome = .ok ((f, depth), next) →
      SoundOperand limit ⟨tokens, index, nesting⟩ f depth next

/-- Whether reading formulas is sound where fewer tokens are left than given. -/
def FormulasSound (limit room : Nat) : Prop :=
  ∀ rank tokens index nesting f depth next, rank ≤ 5 → tokens.length < room → nesting ≤ limit →
    (readFormula limit rank ⟨tokens, index, nesting⟩).outcome = .ok ((f, depth), next) →
      SoundChain limit rank [] ⟨tokens, index, nesting⟩ f depth next

/-- Whether reading on behind a formula is sound where fewer tokens are left than given and none of
them binds tighter than the formula. -/
def ChainsSound (limit room : Nat) : Prop :=
  ∀ rank tokens index nesting left f depth next level m us, tokens.length < room →
    Derives level m us left → Fits limit nesting m left → rank ≤ level.rank →
    StopsBelow (level.rank + 1) tokens →
    (readChain limit rank left left.depth ⟨tokens, index, nesting⟩).outcome
      = .ok ((f, depth), next) →
      SoundChain limit rank us ⟨tokens, index, nesting⟩ f depth next

/-- Operands are sound if shorter operands and formulas are. -/
lemma operandsSound_succ {limit room : Nat} (pos : 0 < limit) (operands : OperandsSound limit room)
    (formulas : FormulasSound limit room) : OperandsSound limit (room + 1) := by
  intro tokens index nesting f depth next short le out
  rcases readOperand_ok out with
    ⟨name, rest, rfl, rfl, rfl, rfl⟩
    | ⟨rest, g, inner, mid, rfl, more, e, low, rfl, rfl, rfl⟩
    | ⟨rest, mid, after, rfl, more, e, closing, rfl⟩
  · exact ⟨0, [.identifier name], rfl, .identifier name, ⟨le, pos⟩, rfl, rfl⟩
  · exact (operands _ _ _ _ _ _ (Nat.lt_of_succ_lt_succ short) more e).not low
  · exact (formulas _ _ _ _ _ _ _ (Nat.zero_le _) (Nat.lt_of_succ_lt_succ short) more e).group
      closing

/-- Formulas are sound if their first operands and the chains behind are. -/
lemma formulasSound_succ {limit room : Nat} (operands : OperandsSound limit (room + 1))
    (chains : ChainsSound limit room) : FormulasSound limit (room + 1) := by
  intro rank tokens index nesting f depth next high short le out
  obtain ⟨left, leftDepth, ⟨rest, index', nesting'⟩, e, chain⟩ := readFormula_ok out
  have fewer : rest.length < tokens.length := Step.outcome_fits e
  obtain ⟨n, ts, cut, d, fits, rfl, same⟩ := operands _ _ _ _ _ _ short le e
  simp only at cut same
  subst cut same
  -- behind an operand every connective stops a chain of operands
  have stops : StopsBelow (Level.rank .operand + 1) rest := fun op _ _ => by
    cases op <;> decide
  obtain ⟨level, k, us, cut, sound⟩ :=
    chains rank rest index' nesting' left f depth next .operand n ts (by omega) d fits high
      stops chain
  simp only at cut
  exact ⟨level, k, ts ++ us, by simp [cut], sound⟩

/-- Chains are sound if the formulas in them and shorter chains are. -/
lemma chainsSound_succ {limit room : Nat} (formulas : FormulasSound limit room)
    (chains : ChainsSound limit room) : ChainsSound limit (room + 1) := by
  intro rank tokens index nesting left f depth next level m us short d fits high stops out
  rcases readChain_ok out with
    ⟨ends, rfl, rfl, rfl⟩
    | ⟨op, rest, right, rightDepth, ⟨more, index', nesting'⟩, rfl, above, e, low, onward⟩
  · exact ⟨level, m, [], rfl, by simpa using d, high, fits, rfl, rfl, ends⟩
  · have near := fits.1
    have tight : op.precedence ≤ level.rank := Nat.le_of_lt_succ (stops op rest rfl)
    have top : op.precedence + 1 ≤ 5 := by cases op <;> decide
    have fewer : more.length < rest.length := Step.outcome_fits e
    have sound := formulas _ _ _ _ _ _ _ top (Nat.lt_of_succ_lt_succ short) (by omega) e
    obtain ⟨n, ts, cut, whole, fitsBoth, rfl, same, behind⟩ := sound.operands d fits tight low
    simp only at cut same behind
    subst cut same
    have rankOp := Level.rank_ofConnective op
    -- the chain goes on with the new formula on its left and fewer tokens
    simp only [List.length_cons, List.length_append] at short
    obtain ⟨level', k, vs, cut, sound'⟩ :=
      chains rank more index' nesting' _ f depth next _ n _ (by omega) whole fitsBoth (by omega)
        behind onward
    refine ⟨level', k, .connective op :: ts ++ vs, ?_, ?_⟩
    · simp only at cut
      simp [cut]
    · simpa using sound'

/-- Reading is sound, by induction on the number of the tokens that are left. -/
lemma reading_sound {limit : Nat} (pos : 0 < limit) (room : Nat) :
    OperandsSound limit room ∧ FormulasSound limit room ∧ ChainsSound limit room := by
  -- an operand may be a group, so the three are proved together; what they call has less room
  induction room with
  | zero =>
    refine ⟨?_, ?_, ?_⟩
    · exact fun _ _ _ _ _ _ short => absurd short (Nat.not_lt_zero _)
    · exact fun _ _ _ _ _ _ _ _ short => absurd short (Nat.not_lt_zero _)
    · exact fun _ _ _ _ _ _ _ _ _ _ _ short => absurd short (Nat.not_lt_zero _)
  | succ room ih =>
    obtain ⟨operands, formulas, chains⟩ := ih
    have operands' := operandsSound_succ pos operands formulas
    exact ⟨operands', formulasSound_succ operands' chains, chainsSound_succ formulas chains⟩

/-! ## Reading all tokens -/

/-- Tokens are read as a formula that reaches to their end. -/
lemma parseWithin_eq (limit : Nat) (tokens : List Token) :
    parseWithin limit tokens
      = match (readFormula limit 0 ⟨tokens, 0, 0⟩).outcome with
        | .ok ((f, _), next) =>
          match next.rest with
          | [] => .ok f
          | _ :: _ => .error (.trailingTokens next.index)
        | .error (cause, _) => .error cause := by
  rw [parseWithin]
  rcases readFormula limit 0 ⟨tokens, 0, 0⟩ with ⟨⟨f, depth⟩, ⟨_ | _, _, _⟩, fits⟩ | _ <;> rfl

/-- What the grammar derives within a limit is read. -/
lemma Derives.parseWithin_eq_ok {limit n : Nat} {ts : List Token} {f : Formula} (pos : 0 < limit)
    (d : Derives .equivalence n ts f) (fits : Fits limit 0 n f) : parseWithin limit ts = .ok f := by
  obtain ⟨inside, _⟩ := (d.reads pos).2 0 [] 0 0 (Nat.zero_le _) (stopsBelow_nil _) (Nat.zero_le _)
  have e := inside fits
  rw [List.append_nil, readChain_stops (stopsBelow_nil _)] at e
  rw [parseWithin_eq, e]

/-- What the grammar derives beyond a limit is refused because of the limit. -/
lemma Derives.parseWithin_eq_tooDeep {limit n : Nat} {ts : List Token} {f : Formula}
    (pos : 0 < limit) (d : Derives .equivalence n ts f) (exceeds : ¬ Fits limit 0 n f) :
    ∃ index, parseWithin limit ts = .error (.tooDeep index) := by
  obtain ⟨_, outside⟩ := (d.reads pos).2 0 [] 0 0 (Nat.zero_le _) (stopsBelow_nil _) (Nat.zero_le _)
  obtain ⟨index, stop, e⟩ := outside exceeds
  rw [List.append_nil] at e
  exact ⟨index, by rw [parseWithin_eq, e]⟩

/-- What is read is derived by the grammar within the limit. -/
lemma derives_of_parseWithin {limit : Nat} {ts : List Token} {f : Formula} (pos : 0 < limit)
    (e : parseWithin limit ts = .ok f) :
    ∃ n, Derives .equivalence n ts f ∧ Fits limit 0 n f := by
  rw [parseWithin_eq] at e
  split at e
  · rename_i g depth next out
    split at e
    · rename_i ends
      cases e
      obtain ⟨level, n, us, cut, d, _, fits, _⟩ :=
        (reading_sound pos (ts.length + 1)).2.1 0 ts 0 0 f depth next (Nat.zero_le _)
          (Nat.lt_succ_self _) (Nat.zero_le _) out
      simp only [ends, List.append_nil] at cut
      subst cut
      exact ⟨n, d.loosen level.rank_pos, fits⟩
    · cases e
  · cases e

/-- No list of tokens derives two formulas. -/
lemma Derives.unique {m n : Nat} {ts : List Token} {f g : Formula}
    (df : Derives .equivalence m ts f) (dg : Derives .equivalence n ts g) : f = g := by
  -- a limit that neither formula exceeds
  have pos : 0 < 1 + m + n + f.depth + g.depth := by omega
  have ef := df.parseWithin_eq_ok pos ⟨by omega, by omega⟩
  have eg := dg.parseWithin_eq_ok pos ⟨by omega, by omega⟩
  rw [ef] at eg
  exact Except.ok.inj eg

/-- Reading succeeds with a formula iff the grammar derives it from the tokens with no more than
`maxDepth` groups and negations open at once, and its tree is no deeper. -/
theorem parse_eq_ok_iff (ts : List Token) (f : Formula) :
    parse ts = .ok f
      ↔ ∃ n, Derives .equivalence n ts f ∧ n ≤ maxDepth ∧ f.depth ≤ maxDepth := by
  have pos : 0 < maxDepth := by decide
  constructor
  · intro e
    obtain ⟨n, d, near, flat⟩ := derives_of_parseWithin pos e
    exact ⟨n, d, by omega, flat⟩
  · rintro ⟨n, d, near, flat⟩
    exact d.parseWithin_eq_ok pos ⟨by omega, flat⟩

end Sentential.Symbolic
