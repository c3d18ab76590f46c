import Mathlib.Tactic.Lemma
import Sentential.Proofs.Sentence.Items

/-!
# Groups for a conditional

The rule for conditionals puts groups for the two words of a conditional, and the group of the
conclusion takes in everything up to the end. `groupedItems` says which items a formula has then,
for formulas that are simple but for one conditional somewhere (`OneConditional`): parentheses that
closed what stands around the conditional now close at the end. These items can stand as an operand,
have signs, and no atom stands between two links.
-/

namespace Sentential

namespace Formula

/-- Whether there is a conditional in a formula. -/
def hasConditional : Formula → Bool
  | .atom _ => false
  | .not operand => operand.hasConditional
  | .binary op left right => op == .imp || left.hasConditional || right.hasConditional

/-- Formulas that are simple but for one conditional of simple formulas, which is not negated. -/
inductive OneConditional : Formula → Prop where
  | here {left right} :
    left.isSimple = true →
    right.isSimple = true →
    OneConditional (.binary .imp left right)
  | left {op left right} :
    [Connective.and, .or, .iff].contains op = true →
    OneConditional left →
    right.isSimple = true →
    OneConditional (.binary op left right)
  | right {op left right} :
    [Connective.and, .or, .iff].contains op = true →
    left.isSimple = true →
    OneConditional right →
    OneConditional (.binary op left right)

/-- Formulas with one conditional at most, and simple besides. -/
def IsGroupable (f : Formula) : Prop :=
  f.isSimple = true ∨ OneConditional f

/-- The connectives of simple formulas are not the conditional. -/
lemma ne_imp_of_contains {op : Connective}
    (simple : [Connective.and, .or, .iff].contains op = true) : op ≠ .imp := by
  rintro rfl
  cases simple

section
variable {f left right : Formula} {op : Connective}

/-- A translatable formula has one conditional at most. -/
lemma isGroupable_of_isTranslatable (translatable : f.isTranslatable = true) : f.IsGroupable := by
  rcases Sentence.isTranslatable_cases translatable with simple | ⟨left, right, rfl, hl, hr⟩
  · exact .inl simple
  · exact .inr (.here hl hr)

/-- A simple formula has no conditional. -/
lemma hasConditional_of_isSimple (simple : f.isSimple = true) : f.hasConditional = false := by
  induction f with
  | atom label => rfl
  | not operand _ =>
    obtain ⟨label, rfl⟩ := Sentence.isSimple_not simple
    rfl
  | binary op left right ihl ihr =>
    obtain ⟨kind, hl, hr⟩ := Sentence.isSimple_binary simple
    rw [hasConditional, ihl hl, ihr hr, beq_eq_false_iff_ne.2 (ne_imp_of_contains kind)]
    rfl

/-- A formula with one conditional has one. -/
lemma OneConditional.hasConditional (one : OneConditional f) : f.hasConditional = true := by
  induction one with
  | here => rfl
  | left _ _ _ ih => rw [Formula.hasConditional, ih, Bool.or_true, Bool.true_or]
  | right _ _ _ ih => rw [Formula.hasConditional, ih, Bool.or_true]

/-- Only atoms are negated in a simple formula. -/
lemma negatesAtoms_of_isSimple (simple : f.isSimple = true) : f.negatesAtoms = true := by
  induction f with
  | atom label => rfl
  | not operand _ => exact simple
  | binary op left right ihl ihr =>
    obtain ⟨-, hl, hr⟩ := Sentence.isSimple_binary simple
    rw [negatesAtoms, ihl hl, ihr hr]
    rfl

/-- Only atoms are negated in a formula with one conditional at most. -/
lemma IsGroupable.negatesAtoms (groupable : f.IsGroupable) : f.negatesAtoms = true := by
  rcases groupable with simple | one
  · exact negatesAtoms_of_isSimple simple
  · induction one with
    | here hl hr =>
      rw [Formula.negatesAtoms, negatesAtoms_of_isSimple hl, negatesAtoms_of_isSimple hr]
      rfl
    | left _ _ hr ih =>
      rw [Formula.negatesAtoms, ih, negatesAtoms_of_isSimple hr]
      rfl
    | right _ hl _ ih =>
      rw [Formula.negatesAtoms, negatesAtoms_of_isSimple hl, ih]
      rfl

end

end Formula

namespace Sentence

open Formula (OneConditional hasConditional IsGroupable)

/-- The items of a formula where a conditional has groups instead of its two words. -/
def groupedItems : Formula → List Item
  | .binary op left right =>
    if op = .imp then
      (.leftParen :: operandItems left ++ [.rightParen])
        ++ .link .imp :: (.leftParen :: operandItems right ++ [.rightParen])
    else if left.hasConditional then
      .leftParen :: (groupedItems left ++ .link op :: operandItems right) ++ [.rightParen]
    else if right.hasConditional then
      operandItems left ++ .link op :: (.leftParen :: groupedItems right ++ [.rightParen])
    else items (.binary op left right)
  | f => items f

section
variable {f left right : Formula} {op : Connective}

/-- A simple formula has no groups for a conditional. -/
lemma groupedItems_of_isSimple (simple : f.isSimple = true) : groupedItems f = items f := by
  cases f with
  | binary op left right =>
    obtain ⟨kind, hl, hr⟩ := isSimple_binary simple
    rw [groupedItems, if_neg (Formula.ne_imp_of_contains kind),
      Formula.hasConditional_of_isSimple hl, Formula.hasConditional_of_isSimple hr]
    rfl
  | _ => rfl

/-- A conditional on the left has a group around both operands. -/
lemma groupedItems_left (kind : [Connective.and, .or, .iff].contains op = true)
    (one : OneConditional left) :
    groupedItems (.binary op left right)
      = .leftParen :: (groupedItems left ++ .link op :: operandItems right) ++ [.rightParen] := by
  rw [groupedItems, if_neg (Formula.ne_imp_of_contains kind), if_pos one.hasConditional]

/-- A conditional on the right has a group around the right operand. -/
lemma groupedItems_right (kind : [Connective.and, .or, .iff].contains op = true)
    (simple : left.isSimple = true) (one : OneConditional right) :
    groupedItems (.binary op left right)
      = operandItems left ++ .link op :: (.leftParen :: groupedItems right ++ [.rightParen]) := by
  rw [groupedItems, if_neg (Formula.ne_imp_of_contains kind),
    Formula.hasConditional_of_isSimple simple, if_neg Bool.false_ne_true,
    if_pos one.hasConditional]

/-- An operand with a conditional in it is in parentheses. -/
lemma operandItems_of_one (one : OneConditional f) :
    operandItems f = .leftParen :: items f ++ [.rightParen] := by
  cases one <;> rfl

/-- The items of a formula with one conditional are the same before its words and in its operands
when they are grouped, and what followed is in the second group. -/
lemma items_cut (one : OneConditional f) :
    ∃ front left right back, left.isSimple = true ∧ right.isSimple = true ∧
      items f = front ++ .condition :: (operandItems left
        ++ .conclusion :: (operandItems right ++ back)) ∧
      groupedItems f = front ++ ((.leftParen :: operandItems left ++ [.rightParen])
        ++ .link .imp :: (.leftParen :: (operandItems right ++ back) ++ [.rightParen])) := by
  induction one with
  | @here left right hl hr =>
    refine ⟨[], left, right, [], hl, hr, ?_, ?_⟩
    · simp [items_imp]
    · simp [groupedItems]
  | @left op l r kind one hr ih =>
    obtain ⟨front, left, right, back, simpleL, simpleR, e, e'⟩ := ih
    refine ⟨.leftParen :: front, left, right, back ++ .rightParen :: .link op :: operandItems r,
      simpleL, simpleR, ?_, ?_⟩
    · simp [items_binary kind, operandItems_of_one one, e]
    · simp [groupedItems_left kind one, e']
  | @right op l r kind hl one ih =>
    obtain ⟨front, left, right, back, simpleL, simpleR, e, e'⟩ := ih
    refine ⟨operandItems l ++ .link op :: .leftParen :: front, left, right, back ++ [.rightParen],
      simpleL, simpleR, ?_, ?_⟩
    · simp [items_binary kind, operandItems_of_one one, e]
    · simp [groupedItems_right kind hl one, e']

/-! ## What the grouped items are -/

/-- Grouped items can stand as an operand. -/
lemma formed_groupedItems (groupable : f.IsGroupable) : Formed (groupedItems f) := by
  rcases groupable with simple | one
  · rw [groupedItems_of_isSimple simple]
    exact formed_items simple
  · induction one with
    | here hl hr =>
      have front := formed_operandItems (formed_items hl)
      exact front.wrap.link .imp (formed_operandItems (formed_items hr)).wrap
    | left kind one hr ih =>
      rw [groupedItems_left kind one]
      exact (ih.link _ (formed_operandItems (formed_items hr))).wrap
    | right kind hl one ih =>
      rw [groupedItems_right kind hl one]
      exact (formed_operandItems (formed_items hl)).link _ ih.wrap

/-- The grouped items of a formula are its atoms and items with signs. -/
lemma mem_groupedItems (groupable : f.IsGroupable) {i : Item} (mem : i ∈ groupedItems f) :
    (∃ label ∈ f.leaves, i = .atom label) ∨ i ∈ signItems := by
  have parens : ∀ i ∈ [Item.leftParen, .rightParen], i ∈ signItems := by decide
  have links : ∀ op ∈ [Connective.and, .or, .iff], .link op ∈ signItems := by decide
  have ofSimple : ∀ {g : Formula}, g.isSimple = true → i ∈ operandItems g →
      (∃ label ∈ g.leaves, i = .atom label) ∨ i ∈ signItems :=
    fun simple mem => (mem_operandItems_simple simple mem).imp_right (List.mem_cons_of_mem _)
  rcases groupable with simple | one
  · rw [groupedItems_of_isSimple simple] at mem
    exact (mem_items_of_isSimple simple mem).imp_right (List.mem_cons_of_mem _)
  induction one with
  | here hl hr =>
    simp only [groupedItems, if_pos, List.mem_append, List.mem_cons, List.not_mem_nil,
      or_false] at mem
    rcases mem with ((rfl | mem) | rfl) | rfl | (rfl | mem) | rfl
    · exact .inr (by decide)
    · exact atom_or_left (ofSimple hl mem)
    · exact .inr (by decide)
    · exact .inr (by decide)
    · exact .inr (by decide)
    · exact atom_or_right (ofSimple hr mem)
    · exact .inr (by decide)
  | left kind one hr ih =>
    simp only [groupedItems_left kind one, List.mem_append, List.mem_cons, List.not_mem_nil,
      or_false] at mem
    rcases mem with (rfl | mem | rfl | mem) | rfl
    · exact .inr (by decide)
    · exact atom_or_left (ih mem)
    · exact .inr (links _ (List.contains_iff_mem.1 kind))
    · exact atom_or_right (ofSimple hr mem)
    · exact .inr (by decide)
  | right kind hl one ih =>
    simp only [groupedItems_right kind hl one, List.mem_append, List.mem_cons, List.not_mem_nil,
      or_false] at mem
    rcases mem with mem | rfl | (rfl | mem) | rfl
    · exact atom_or_left (ofSimple hl mem)
    · exact .inr (links _ (List.contains_iff_mem.1 kind))
    · exact .inr (by decide)
    · exact atom_or_right (ih mem)
    · exact .inr (by decide)

/-- Behind a link a parenthesis is no atom. -/
lemma loose_link_leftParen (op : Connective) {rest : List Item}
    (loose : Loose (.leftParen :: rest)) : Loose (.link op :: .leftParen :: rest) :=
  ⟨fun _ _ _ _ _ e => absurd (List.cons.inj e).1 (by simp), loose⟩

/-- The items of a formula with groups for its conditional end with a parenthesis, so they put no
atom between two links, whatever follows. -/
lemma loose_append_of_one (one : OneConditional f) {rest : List Item} (loose : Loose rest) :
    Loose (groupedItems f ++ rest) := by
  have operand : ∀ {g : Formula}, g.isSimple = true → ∀ {rest}, Loose rest →
      Loose (operandItems g ++ rest) :=
    fun simple _ => loose_operandItems simple fun _ => loose_items simple
  have open' : ∀ {rest}, Loose rest → Loose (.leftParen :: rest) := loose_cons (by simp)
  have close : ∀ {rest}, Loose rest → Loose (.rightParen :: rest) := loose_cons (by simp)
  induction one generalizing rest with
  | @here left right hl hr =>
    have back : Loose (.leftParen :: (operandItems right ++ .rightParen :: rest)) :=
      open' (operand hr (close loose))
    have front := open' (operand hl (close (loose_link_leftParen .imp back)))
    simpa [groupedItems] using front
  | @left op l r kind one hr ih =>
    have back : Loose (.link op :: (operandItems r ++ .rightParen :: rest)) :=
      loose_link hr (by simp) (operand hr (close loose))
    have group := open' (ih back)
    simpa [groupedItems_left kind one] using group
  | @right op l r kind hl one ih =>
    have back : Loose (.leftParen :: (groupedItems r ++ .rightParen :: rest)) :=
      open' (ih (close loose))
    have front := operand hl (loose_link_leftParen op back)
    simpa [groupedItems_right kind hl one] using front

/-- No atom among grouped items stands between two links. -/
lemma loose_groupedItems (groupable : f.IsGroupable) : Loose (groupedItems f) := by
  rcases groupable with simple | one
  · have loose : Loose (items f ++ []) := loose_items simple trivial (by simp)
    rwa [List.append_nil, ← groupedItems_of_isSimple simple] at loose
  · have loose : Loose (groupedItems f ++ []) := loose_append_of_one one trivial
    rwa [List.append_nil] at loose

end

end Sentence

end Sentential
