import Mathlib.Tactic.Lemma
import Sentential.Proofs.Symbolic.Fault
import Sentential.Proofs.Symbolic.Rendering

/-!
# The operands of a connective

The outermost connective of a formula is found among its tokens by counting: as many connectives
stand in front of it as the left operand has. So every derivation of the formula splits there,
behind the parentheses around the whole, and what stands on either side derives the operands
(`Derives.operands`). Without parentheses around the whole the connective binds as tight as the
level asks.

Hence tokens that have the connectives and leaves of a formula, but do not derive it, do not derive
anything around it either (`Misses`). Such tokens are left where an operand that binds too loosely
loses its parentheses (`misses_left`, `misses_right`).
-/

namespace Sentential

/-- How many connectives a formula has. -/
def Formula.connectives : Formula → Nat
  | .atom _ => 0
  | .not operand => operand.connectives
  | .binary _ left right => left.connectives + right.connectives + 1

namespace Symbolic

open Stage

/-- Whether a token is a connective. -/
def Token.isConnective : Token → Bool
  | .connective _ => true
  | _ => false

/-- A connective belongs to one level. -/
lemma Level.eq_ofConnective {level : Level} {op : Connective} (own : op ∈ level.connectives) :
    level = .ofConnective op := by
  cases level <;> cases op <;> first | rfl | exact absurd own (by decide)

/-! ## Counting connectives -/

section
variable {op op' : Connective} {ts ts' us us' : List Token}

/-- A connective between tokens is one more. -/
lemma countP_append_connective :
    (ts ++ .connective op :: us).countP Token.isConnective
      = ts.countP Token.isConnective + us.countP Token.isConnective + 1 := by
  rw [List.countP_append, List.countP_cons_of_pos rfl]
  exact (Nat.add_assoc _ _ _).symm

/-- Another token is no connective more. -/
lemma countP_cons_other {t : Token} (other : t.isConnective = false) :
    (t :: ts).countP Token.isConnective = ts.countP Token.isConnective :=
  List.countP_cons_of_neg (Bool.eq_false_iff.1 other)

/-- Parentheses are no connectives. -/
lemma countP_parens :
    (Token.leftParen :: ts ++ [Token.rightParen]).countP Token.isConnective
      = ts.countP Token.isConnective := by
  rw [List.cons_append, countP_cons_other rfl, List.countP_append, countP_cons_other rfl]
  rfl

/-- Connectives with equally many others in front of them stand in the same place. -/
lemma append_connective_inj
    (e : ts ++ .connective op :: us = ts' ++ .connective op' :: us')
    (same : ts.countP Token.isConnective = ts'.countP Token.isConnective) :
    ts = ts' ∧ op = op' ∧ us = us' := by
  induction ts generalizing ts' with
  | nil =>
    cases ts' with
    | nil =>
      cases e
      exact ⟨rfl, rfl, rfl⟩
    | cons t ts' =>
      cases e
      rw [List.countP_cons_of_pos rfl] at same
      cases same
  | cons t ts ih =>
    cases ts' with
    | nil =>
      cases e
      rw [List.countP_cons_of_pos rfl] at same
      cases same
    | cons t' ts' =>
      rw [List.cons_append, List.cons_append, List.cons.injEq] at e
      obtain ⟨rfl, e⟩ := e
      rw [List.countP_cons, List.countP_cons, Nat.add_right_cancel_iff] at same
      obtain ⟨rfl, rfl, rfl⟩ := ih e same
      exact ⟨rfl, rfl, rfl⟩

end

/-! ## The shape of a formula -/

/-- Tokens that have the connectives and leaves of a formula and lead from before an operand to
behind it. -/
structure Shapes (ts : List Token) (f : Formula) : Prop where
  run : ∀ groups, (before groups).run ts = some (.behind groups)
  countP_eq : ts.countP Token.isConnective = f.connectives
  leaves_eq : ts.filterMap Token.name? = f.leaves

section
variable {op : Connective} {ts us : List Token} {f g : Formula}

/-- A negation has the shape of its operand behind its sign. -/
lemma Shapes.not (shapes : Shapes ts f) : Shapes (.not :: ts) (.not f) :=
  ⟨shapes.run, shapes.countP_eq, shapes.leaves_eq⟩

/-- Tokens keep their shape in parentheses. -/
lemma Shapes.wrap (shapes : Shapes ts f) : Shapes (.leftParen :: ts ++ [.rightParen]) f where
  run groups := by
    rw [List.cons_append, run_cons]
    exact run_append_of_eq (shapes.run (groups + 1))
  countP_eq := by rw [countP_parens, shapes.countP_eq]
  leaves_eq := by
    rw [List.filterMap_append, List.filterMap_cons_none rfl, shapes.leaves_eq]
    exact List.append_nil _

/-- A formula has the shapes of its operands with the connective between them. -/
lemma Shapes.binary (left : Shapes ts f) (right : Shapes us g) :
    Shapes (ts ++ .connective op :: us) (.binary op f g) where
  run groups := by
    rw [run_append_of_eq (left.run groups), run_cons]
    exact right.run groups
  countP_eq := by
    rw [countP_append_connective, left.countP_eq, right.countP_eq, Formula.connectives]
  leaves_eq := by
    rw [List.filterMap_append, List.filterMap_cons_none rfl, left.leaves_eq, right.leaves_eq]
    rfl

/-- Tokens from which a formula is derived have its shape. -/
lemma Derives.shapes {level : Level} {n : Nat} (d : Derives level n ts f) : Shapes ts f := by
  induction d with
  | identifier name => exact ⟨fun _ => rfl, rfl, rfl⟩
  | not _ ih => exact ih.not
  | group _ ih => exact ih.wrap
  | single _ ih => exact ih
  | chain _ _ _ ihl ihr => exact ihl.binary ihr

end

/-! ## Splitting a derivation -/

/-- Tokens in so many pairs of parentheses. -/
def grouped (k : Nat) (ts : List Token) : List Token :=
  List.replicate k .leftParen ++ ts ++ List.replicate k .rightParen

section
variable {level : Level} {k m n : Nat} {op : Connective} {ts us : List Token} {f g : Formula}

/-- No pairs of parentheses are none. -/
lemma grouped_zero (ts : List Token) : grouped 0 ts = ts :=
  List.append_nil ts

/-- The innermost pair of parentheses is put first. -/
lemma grouped_succ (k : Nat) (ts : List Token) :
    grouped (k + 1) ts = grouped k (.leftParen :: ts ++ [.rightParen]) := by
  rw [grouped, grouped, List.replicate_succ', List.replicate_succ]
  simp only [List.append_assoc, List.cons_append, List.nil_append]

/-- The outermost parentheses of a group are those around the others. -/
lemma grouped_inj {inner : List Token}
    (e : grouped (k + 1) ts = .leftParen :: inner ++ [.rightParen]) : grouped k ts = inner := by
  rw [grouped, List.replicate_succ, List.replicate_succ', ← List.append_assoc] at e
  exact (List.cons.inj (List.append_inj' e rfl).1).2

/-- As many groups are open behind the tokens on the left as are opened around the whole. -/
lemma Shapes.run_behind (shapes : Shapes ts f) (k : Nat) :
    (before 0).run (List.replicate k .leftParen ++ ts) = some (.behind k) := by
  have opens : ∀ j, (before j).run (List.replicate k .leftParen) = some (.before (j + k)) := by
    induction k with
    | zero => exact fun j => rfl
    | succ k ih =>
      intro j
      rw [List.replicate_succ, run_cons, ← Nat.add_assoc, Nat.add_right_comm]
      exact ih (j + 1)
  rw [run_append_of_eq (opens 0), Nat.zero_add]
  exact shapes.run k

/-- The last parenthesis of a group stands behind all that is no parenthesis. -/
lemma append_cons_eq_concat {t : Token} {inner : List Token} (other : t ≠ .rightParen)
    (e : ts ++ t :: us = inner ++ [.rightParen]) :
    ∃ us', us = us' ++ [.rightParen] ∧ inner = ts ++ t :: us' := by
  rcases us.eq_nil_or_concat' with rfl | ⟨us', last, rfl⟩
  · obtain ⟨-, e⟩ := List.append_inj' e rfl
    exact absurd (List.head_eq_of_cons_eq e) other
  · rw [← List.cons_append, ← List.append_assoc] at e
    obtain ⟨e, e'⟩ := List.append_inj' e rfl
    exact ⟨us', congrArg (us' ++ ·) e', e.symm⟩

/-- A derivation of a formula splits at its outermost connective, behind the parentheses around the
whole. Without any the connective binds as tight as the level asks. -/
lemma Derives.around (d : Derives level n (ts ++ .connective op :: us) (.binary op f g))
    (count : ts.countP Token.isConnective = f.connectives) :
    ∃ k ts' us', ts = List.replicate k .leftParen ++ ts' ∧
      us = us' ++ List.replicate k .rightParen ∧
      (∃ m, Derives (.ofConnective op) m ts' f) ∧
      (∃ m, Derives (Level.ofConnective op).tighter m us' g) ∧
      (k = 0 → level.rank ≤ op.precedence) := by
  generalize e : ts ++ .connective op :: us = all at d
  generalize e' : Formula.binary op f g = whole at d
  induction d generalizing ts us with
  | identifier name => cases e'
  | not d ih => cases e'
  | @group n inner whole d ih =>
    rcases ts with _ | ⟨t, ts⟩
    · cases e
    rw [List.cons_append, List.cons_append, List.cons.injEq] at e
    obtain ⟨rfl, e⟩ := e
    obtain ⟨us, rfl, rfl⟩ := append_cons_eq_concat Token.noConfusion e
    rw [countP_cons_other rfl] at count
    obtain ⟨k, ts', us', rfl, rfl, left, right, -⟩ := ih count rfl e'
    refine ⟨k + 1, ts', us', rfl, ?_, left, right, fun zero => by cases zero⟩
    rw [List.append_assoc, ← List.replicate_succ']
  | @single level n all whole d ih =>
    obtain ⟨k, ts', us', hts, hus, left, right, tight⟩ := ih count e e'
    refine ⟨k, ts', us', hts, hus, left, right, fun zero => ?_⟩
    exact Nat.le_trans level.rank_le_tighter (tight zero)
  | @chain level op' m n ts' us' f' g' own dl dr =>
    cases e'
    obtain ⟨rfl, -, rfl⟩ := append_connective_inj e (count.trans dl.shapes.countP_eq.symm)
    have rank := Level.precedence_eq_rank own
    obtain rfl := Level.eq_ofConnective own
    exact ⟨0, ts, us, rfl, (List.append_nil us).symm, ⟨m, dl⟩, ⟨n, dr⟩, fun _ => rank.ge⟩

/-- Where the tokens on the left have the shape of the left operand, those on either side derive the
operands, whatever parentheses are around the whole. -/
lemma Derives.operands (left : Shapes ts f)
    (d : Derives level n (grouped k (ts ++ .connective op :: us)) (.binary op f g)) :
    (∃ m, Derives (.ofConnective op) m ts f) ∧
      (∃ m, Derives (Level.ofConnective op).tighter m us g) ∧
      (k = 0 → level.rank ≤ op.precedence) := by
  have e : grouped k (ts ++ .connective op :: us) = (List.replicate k .leftParen ++ ts)
      ++ Token.connective op :: (us ++ List.replicate k .rightParen) := by
    simp only [grouped, List.append_assoc, List.cons_append]
  have count :
      (List.replicate k Token.leftParen ++ ts).countP Token.isConnective = f.connectives := by
    rw [List.countP_append, List.countP_replicate, left.countP_eq]
    exact Nat.zero_add _
  rw [e] at d
  obtain ⟨j, ts', us', front, back, ⟨m, dl⟩, dr, tight⟩ := d.around count
  -- the groups around the whole are those that are open behind the left operand
  have same : some (Stage.behind k) = some (.behind j) := by
    rw [← left.run_behind k, front, dl.shapes.run_behind j]
  cases same
  obtain rfl := List.append_cancel_left front
  obtain rfl := List.append_cancel_right back
  exact ⟨⟨m, dl⟩, dr, tight⟩

/-- A derivation of a negation derives the operand behind the sign. -/
lemma Derives.operand (d : Derives level n (grouped k (.not :: ts)) (.not f)) :
    ∃ m, Derives .operand m ts f := by
  generalize e : grouped k (.not :: ts) = all at d
  generalize e' : Formula.not f = whole at d
  induction d generalizing k ts with
  | identifier name => cases e'
  | @not n us f' d ih =>
    cases e'
    cases k with
    | zero =>
      rw [grouped_zero] at e
      cases e
      exact ⟨n, d⟩
    | succ k => cases e
  | @group n inner whole d ih =>
    cases k with
    | zero => cases e
    | succ k => exact ih (grouped_inj e) e'
  | single d ih => exact ih e e'
  | chain own dl dr => cases e'

end

/-! ## Tokens that are not derived -/

/-- Tokens of the shape of a formula from which it is not derived, whatever parentheses are put
around them. -/
structure Misses (ts : List Token) (f : Formula) : Prop extends Shapes ts f where
  missed : ∀ k level n, ¬ Derives level n (grouped k ts) f

section
variable {op op' : Connective} {ts us ws : List Token} {f g h : Formula}

/-- A negation is missed if its operand is. -/
lemma Misses.not (misses : Misses ts f) : Misses (.not :: ts) (.not f) where
  toShapes := misses.toShapes.not
  missed k level n d := by
    obtain ⟨m, d⟩ := d.operand
    rw [← grouped_zero ts] at d
    exact misses.missed 0 _ m d

/-- A formula that is missed is missed in parentheses. -/
lemma Misses.wrap (misses : Misses ts f) : Misses (.leftParen :: ts ++ [.rightParen]) f where
  toShapes := misses.toShapes.wrap
  missed k level n d := by
    rw [← grouped_succ] at d
    exact misses.missed (k + 1) level n d

/-- A formula is missed if its left operand is. -/
lemma Misses.left (misses : Misses ts f) (right : Shapes us g) :
    Misses (ts ++ .connective op :: us) (.binary op f g) where
  toShapes := misses.toShapes.binary right
  missed k level n d := by
    obtain ⟨⟨m, dl⟩, -, -⟩ := d.operands misses.toShapes
    rw [← grouped_zero ts] at dl
    exact misses.missed 0 _ m dl

/-- A formula is missed if its right operand is. -/
lemma Misses.right (left : Shapes ts f) (misses : Misses us g) :
    Misses (ts ++ .connective op :: us) (.binary op f g) where
  toShapes := left.binary misses.toShapes
  missed k level n d := by
    obtain ⟨-, ⟨m, dr⟩, -⟩ := d.operands left
    rw [← grouped_zero us] at dr
    exact misses.missed 0 _ m dr

/-- A connective without parentheses around it binds at least as tight as the level asks. -/
lemma Derives.rank_le {level : Level} {n : Nat} (left : Shapes ts f)
    (d : Derives level n (ts ++ .connective op :: us) (.binary op f g)) :
    level.rank ≤ op.precedence := by
  rw [← grouped_zero (ts ++ .connective op :: us)] at d
  obtain ⟨-, -, tight⟩ := d.operands left
  exact tight rfl

/-- A left operand that binds looser than its connective is not derived without parentheses. -/
lemma misses_left (loose : op'.precedence < op.precedence) (left : Shapes ts f)
    (mid : Shapes us g) (right : Shapes ws h) :
    Misses ((ts ++ .connective op' :: us) ++ .connective op :: ws)
      (.binary op (.binary op' f g) h) where
  toShapes := (left.binary mid).binary right
  missed k level n d := by
    obtain ⟨⟨m, dl⟩, -, -⟩ := d.operands (left.binary mid)
    have tight := dl.rank_le left
    rw [Level.rank_ofConnective] at tight
    exact absurd loose (Nat.not_lt_of_le tight)

/-- Neither is a right operand that binds as tight as its connective or looser. -/
lemma misses_right (loose : op'.precedence ≤ op.precedence) (left : Shapes ts f)
    (mid : Shapes us g) (right : Shapes ws h) :
    Misses (ts ++ .connective op :: (us ++ .connective op' :: ws))
      (.binary op f (.binary op' g h)) where
  toShapes := left.binary (mid.binary right)
  missed k level n d := by
    obtain ⟨-, ⟨m, dr⟩, -⟩ := d.operands left
    have tight := dr.rank_le mid
    rw [Level.rank_tighter (Level.mem_connectives_ofConnective op),
      Level.rank_ofConnective] at tight
    exact absurd loose (Nat.not_le_of_lt tight)

end

end Symbolic

end Sentential
