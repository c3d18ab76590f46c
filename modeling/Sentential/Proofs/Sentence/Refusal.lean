import Mathlib.Tactic.Lemma
import Sentential.Proofs.Sentence.Found
import Sentential.Proofs.Symbolic.Naming
import Sentential.Proofs.Text.Count

/-!
# Readings that are refused

The words of a negation and of a conditional, and the last words of an exclusive disjunction, have
accented letters, and no formula is read where there is one (`not_mem_of_read`). Most rules write
such letters as often as they take them, the rule for negations leaves one unless an atom follows
(`chain_of_rewriteFrom`), and the rule for conditionals acts once at most (`count_conditional`). So
where no accented letter is left, the formula negates only atoms, has no exclusive disjunction and
one conditional at most (`isGroupable_of_applyRules`).
-/

namespace Sentential.Sentence

open Text Pattern Symbolic
open Formula (OneConditional IsGroupable)

/-! ## Rules that spare accented letters -/

/-- What has been taken is what is not left. -/
lemma count_taken {s t : Text} {d : Char} (stretches : List Text) (suffix : t <:+ s)
    (shorter : t.length < s.length) :
    (s.take ((foundUpTo s t stretches).more + 1)).count d + t.count d = s.count d := by
  obtain ⟨x, rfl⟩ := suffix
  rw [List.length_append] at shorter
  have taken : (foundUpTo (x ++ t) t stretches).more + 1 = x.length := by
    simp only [foundUpTo, List.length_append]
    omega
  rw [taken, List.take_left, List.count_append]

/-- A rule spares a character that it writes as often as it takes it. -/
lemma Rule.spares {rule : Rule} {d : Char}
    (same : ∀ before s found, rule.find before s = some found →
      (fill rule.template found.stretches).count d = (s.take (found.more + 1)).count d) :
    rule.pattern.Spares d := by
  intro before s hit h
  obtain ⟨found, looks, rfl⟩ := Option.map_eq_some_iff.1 h
  exact same before s found looks

section
variable {d : Char} (accent : d ∈ accents)
include accent

/-- The rule for equivalences spares accented letters. -/
lemma biconditionalRule_spares : biconditionalRule.pattern.Spares d := by
  have other : ∀ d ∈ accents, d ∉ linkWord .iff ∧ d ∉ " ↔ ".toList := by decide
  rw [biconditionalRule_pattern]
  exact spares_whole (by decide) (other d accent).1 (other d accent).2

/-- The rule for disjunctions spares accented letters. -/
lemma disjunctionRule_spares : disjunctionRule.pattern.Spares d := by
  have other : ∀ d ∈ accents, d ∉ orWord ∧ d ∉ " ∨ ".toList := by decide
  rw [disjunctionRule_pattern]
  exact spares_whole (by decide) (other d accent).1 (other d accent).2

/-- The rule for conjunctions spares accented letters. -/
lemma conjunctionRule_spares : conjunctionRule.pattern.Spares d := by
  have other : ∀ d ∈ accents, d ≠ 'e' ∧ d ∉ " ∧ ".toList := by decide
  obtain ⟨letter, template⟩ := other d accent
  refine Rule.spares fun before s found h => ?_
  have written : (fill conjunctionRule.template found.stretches).count d = 0 :=
    List.count_eq_zero.2 template
  replace h : findConjunction before s = some found := h
  obtain ⟨c, v, rfl, rfl, blank, -⟩ := findConjunction_inv h
  have ne : d ≠ c := by
    rintro rfl
    rw [not_isBlank_of_accent d accent] at blank
    cases blank
  rw [written]
  exact (List.count_eq_zero.2 (by simp [ne, letter])).symm

/-- What is found of an exclusive disjunction has its words and two stretches. -/
lemma findExclusiveOr_found {before : Option Char} {s : Text} {found : Found}
    (h : findExclusiveOr before s = some found) :
    ∃ left right t, found = foundUpTo s t [left, right] ∧ t <:+ s ∧ t.length < s.length ∧
      s.count d = left.count d + right.count d + t.count d := by
  have other : ∀ d ∈ accents, orWord.count d = 0 := by decide
  have word := other d accent
  have none : ∀ b, IsBlanks b → b.count d = 0 :=
    fun b blanks => count_eq_zero_of_blank (not_isBlank_of_accent d accent) blanks.2
  obtain ⟨-, b₁, l, b₂, b₃, r, t, rfl, rfl, blanks₁, blanks₂, blanks₃, -, -, -⟩ :=
    findExclusiveOr_inv h
  refine ⟨l, r, t, rfl, List.suffix_append _ t, ?_, ?_⟩
  · have two : orWord.length = 2 := rfl
    simp only [List.length_append]
    omega
  · simp only [List.count_append, word, none _ blanks₁, none _ blanks₂, none _ blanks₃]
    omega

/-- The rule for exclusive disjunctions spares accented letters. -/
lemma exclusiveOrRule_spares : exclusiveOrRule.pattern.Spares d := by
  have other : ∀ d ∈ accents, " (".toList.count d = 0 ∧ ") ⊕ (".toList.count d = 0 ∧
      ") ".toList.count d = 0 := by
    decide
  obtain ⟨start, middle, stop⟩ := other d accent
  refine Rule.spares fun before s found h => ?_
  obtain ⟨left, right, t, rfl, suffix, shorter, e⟩ := findExclusiveOr_found accent h
  have taken := count_taken (d := d) [left, right] suffix shorter
  have written : (fill exclusiveOrRule.template (foundUpTo s t [left, right]).stretches).count d
      = left.count d + right.count d := by
    show (" (".toList ++ (left ++ (") ⊕ (".toList ++ (right ++ (") ".toList ++ []))))).count d = _
    simp only [List.count_append, List.count_nil, start, middle, stop]
    omega
  omega

end

/-! ## Conditionals -/

/-- What is found of a conditional has its two words and the two stretches, and it is all the text
that is left. -/
lemma findConditional_found {d : Char} (solid : isBlank d = false) (other : d ∉ ifWord)
    {before : Option Char} {s : Text} {found : Found} (h : findConditional before s = some found) :
    ∃ a y, found = foundUpTo s [] [a, y] ∧
      s.count d = a.count d + thenWord.count d + y.count d := by
  obtain ⟨-, b₁, a, b, b', y, rfl, rfl, blanks₁, blank, blanks⟩ := findConditional_inv h
  refine ⟨a, y, rfl, ?_⟩
  simp only [List.count_append, List.count_eq_zero.2 other, count_eq_zero_of_blank solid blanks₁.2,
    count_eq_zero_of_blank solid blank, count_eq_zero_of_blank solid blanks.2]
  omega

/-- The rule for conditionals takes away the word of one conclusion at most. -/
lemma count_conditional (before : Option Char) (s : Text) :
    ∃ k ≤ 1, ∀ d, isBlank d = false → d ∉ ifWord → d ∉ "() →".toList →
      s.count d
        = (rewriteFrom conditionalRule.pattern 0 before s).count d + k * thenWord.count d := by
  induction s generalizing before with
  | nil =>
    refine ⟨0, Nat.zero_le 1, fun d _ _ _ => ?_⟩
    rw [rewriteFrom_nil, Nat.zero_mul, Nat.add_zero]
  | cons c s ih =>
    cases h : findConditional before (c :: s) with
    | none =>
      have miss : conditionalRule.pattern before (c :: s) = none := congrArg (Option.map _) h
      obtain ⟨k, le, same⟩ := ih (some c)
      refine ⟨k, le, fun d solid other template => ?_⟩
      rw [rewriteFrom_miss miss, List.count_cons, List.count_cons, same d solid other template]
      omega
    | some found =>
      refine ⟨1, Nat.le_refl 1, fun d solid other template => ?_⟩
      obtain ⟨a, y, rfl, e⟩ := findConditional_found solid other h
      have out : rewriteFrom conditionalRule.pattern 0 before (c :: s)
          = fill conditionalRule.template [a, y] := Rule.rewriteFrom_all (List.cons_ne_nil c s) h
      have pieces : ∀ p ∈ [" ( ".toList, " ) → ( ".toList, " ) ".toList], p.count d = 0 := by
        have letters : ∀ p ∈ [" ( ".toList, " ) → ( ".toList, " ) ".toList],
            ∀ c ∈ p, c ∈ "() →".toList := by
          decide
        exact fun p mem => List.count_eq_zero.2 fun memD => template (letters p mem d memD)
      have written : (fill conditionalRule.template [a, y]).count d = a.count d + y.count d := by
        show (" ( ".toList ++ (a ++ (" ) → ( ".toList ++ (y ++ (" ) ".toList ++ []))))).count d = _
        simp only [List.count_append, List.count_nil, pieces _ List.mem_cons_self,
          pieces " ) → ( ".toList (by decide), pieces " ) ".toList (by decide)]
        omega
      rw [out, written, e]
      omega

/-! ## Negations -/

section
variable {is : List Item} {before : Option Char} {s t : Text}

/-- A negation in front of anything but an atom keeps an accented letter. -/
lemma accent_of_negation {i : Item} (begins : i.begins = true) (ne : ∀ label, i ≠ .atom label)
    (opens : Opens before (negationWords ++ t)) (joint : Joint negationWords t)
    (tells : Tells ((i :: is).map (spoken id).text) t) :
    'é' ∈ rewriteFrom negationRule.pattern 0 before (negationWords ++ t) := by
  have ends : Ends t := joint.ends (by decide) (by decide)
  have start := opens.start negationWords_phrase
  cases i with
  | atom label => exact absurd rfl (ne label)
  | negation =>
    -- the first word of the second negation is taken for an operand, and the others stay
    have cut : negationWords = "não".toList ++ " é verdade que".toList := by decide
    obtain ⟨k, u, rfl, joint', -⟩ : ∃ k u, t = List.replicate (k + 1) ' ' ++ (negationWords ++ u) ∧
        Joint negationWords u ∧ Tells (is.map (spoken id).text) u :=
      tells.firm_inv negationWords_phrase.firm ends
    have parted : Parted isWordChar " é verdade que".toList u :=
      .inr (joint'.ends (by decide) (by decide)).head
    have first : (" é verdade que".toList ++ u).head?.any isWordChar = false := by
      rw [List.head?_append_of_ne_nil _ (by decide)]
      decide
    have out := rewriteFrom_negation_word k start (by decide : IsWord "não".toList) first
    rw [negationRule_atWord.rewriteFrom_append parted (by decide), ← List.append_assoc "não".toList,
      ← cut] at out
    rw [out]
    have mem : 'é' ∈ " é verdade que".toList := by decide
    simp only [List.mem_cons, List.mem_append, mem, true_or, or_true]
  | leftParen =>
    have firm : Firm ['('] := ⟨'(', [], rfl, by decide, by decide⟩
    obtain ⟨k, u, rfl, -, -⟩ : ∃ k u, t = List.replicate (k + 1) ' ' ++ (['('] ++ u) ∧
        Joint ['('] u ∧ Tells (is.map (spoken id).text) u := tells.firm_inv firm ends
    have none : word? (['('] ++ u) = none := word?_eq_none (isWordChar_ends '(' (by decide))
    have other : findNegation before
        (negationWords ++ (List.replicate (k + 1) ' ' ++ (['('] ++ u))) = Option.none := by
      rw [findNegation_eq, behind?_eq_some.2 rfl, Option.bind_some,
        behindBlanks?_spaces k (firm.append u).solid, Option.bind_some, none, Option.bind_none,
        ite_self]
    have mem : 'é' ∈ negationWords := by decide
    rw [negationRule_atWord.rewriteFrom_front (by decide) (by decide)
      (congrArg (Option.map _) other)]
    exact List.mem_append_left _ mem
  | _ => cases begins

/-- If the first rule leaves no accented letter of a negation, an atom follows every negation. -/
lemma chain_of_rewriteFrom (chain : is.IsChain Adjoins) (labelled : Labelled fixedItems is)
    (opens : Opens before s) (tells : Tells (is.map (spoken id).text) s)
    (clean : 'é' ∉ rewriteFrom negationRule.pattern 0 before s) : is.IsChain Negates := by
  -- a negation takes the atom behind it along, so two items can be dealt with at once
  induction is using List.twoStepInduction generalizing before s with
  | nil => exact .nil
  | singleton i => exact .singleton i
  | cons_cons i j is ih ih' =>
    obtain ⟨adjoins, rest⟩ := List.isChain_cons_cons.1 chain
    obtain ⟨k, t, rfl, joint, tellsT⟩ := tells.cons_inv
    obtain ⟨before', from', e⟩ :=
      negationRule_atWord.rewriteFrom_spaces before k ((spoken id).text i ++ t)
    have opens' := opens.of_spaces from'
    have clean' : 'é' ∉ rewriteFrom negationRule.pattern 0 before' ((spoken id).text i ++ t) :=
      fun mem => clean (e ▸ List.mem_append_right _ mem)
    by_cases negation : i = .negation
    · subst negation
      by_cases atom : ∃ label, j = .atom label
      · obtain ⟨label, rfl⟩ := atom
        have isLabel := labelled.isLabel atom_not_mem_fixedItems (l := label) (by simp)
        obtain ⟨u, joint', tellsU, out⟩ := rewriteFrom_negation isLabel opens' joint tellsT
        have clean'' : 'é' ∉ rewriteFrom negationRule.pattern 0 (behind none label) u := by
          intro mem
          apply clean'
          show 'é' ∈ rewriteFrom negationRule.pattern 0 before' (negationWords ++ t)
          rw [out]
          simp [mem]
        have behindAtom := ih rest.tail labelled.tail.tail joint'.opens tellsU clean''
        refine List.isChain_cons_cons.2 ⟨fun _ => ⟨label, rfl⟩, ?_⟩
        exact (chain_negates_cons (by simp)).2 behindAtom
      · have other : ∀ label, j ≠ .atom label := fun label e => atom ⟨label, e⟩
        exact absurd (accent_of_negation adjoins other opens' joint tellsT) clean'
    · rw [rewriteFrom_negation_keep negation (labelled i List.mem_cons_self) joint] at clean'
      have opens'' : Opens (behind before' ((spoken id).text i)) t := joint.opens
      refine (chain_negates_cons negation).2 (ih' j rest labelled.tail opens'' tellsT ?_)
      exact fun mem => clean' (List.mem_append_right _ mem)

end

/-! ## Counting items -/

section
variable {is : List Item} {f : Formula}

/-- How often two letters stand in the text of an item. -/
lemma Known.counts {i : Item} (known : Known fixedItems i) :
    ((signed [.iff, .imp]).text i).count 'ã' = [i].count .conclusion + [i].count .denial ∧
      ((signed [.iff, .imp]).text i).count 't' = [i].count .conclusion := by
  have table : ∀ i ∈ fixedItems,
      ((signed [.iff, .imp]).text i).count 'ã' = [i].count .conclusion + [i].count .denial ∧
        ((signed [.iff, .imp]).text i).count 't' = [i].count .conclusion := by
    decide
  rcases known with ⟨l, rfl, label⟩ | fixed
  · have other : 'ã' ∉ labelChars ∧ 't' ∉ labelChars := by decide
    have absent : ∀ c ∉ labelChars, l.count c = 0 :=
      fun c other => List.count_eq_zero.2 fun mem => other (label.mem mem)
    exact ⟨absent 'ã' other.1, absent 't' other.2⟩
  · exact table i fixed

/-- How often two letters stand in a text tells how many items have them. -/
lemma Labelled.counts (labelled : Labelled fixedItems is) {s : Text}
    (tells : Tells (is.map (signed [.iff, .imp]).text) s) :
    s.count 'ã' = is.count .conclusion + is.count .denial ∧ s.count 't' = is.count .conclusion := by
  rw [tells.count (by decide), tells.count (by decide)]
  clear tells
  induction is with
  | nil => exact ⟨rfl, rfl⟩
  | cons i is ih =>
    obtain ⟨more, more'⟩ := ih labelled.tail
    obtain ⟨first, first'⟩ := (labelled i List.mem_cons_self).counts
    have cut : ∀ j : Item, (i :: is).count j = [i].count j + is.count j := by
      intro j
      rw [← List.count_append]
      rfl
    rw [List.map_cons, List.flatten_cons, List.count_append, List.count_append, first, first', more,
      more', cut, cut]
    exact ⟨by omega, rfl⟩

/-- Parentheses around an operand change the number of no other item. -/
lemma count_operandItems {i : Item} (other : i ∉ [Item.leftParen, .rightParen]) :
    (operandItems f).count i = (items f).count i := by
  simp only [List.mem_cons, List.not_mem_nil, or_false, not_or] at other
  rw [operandItems, wrapItems]
  split
  · rw [List.count_append, List.count_cons_of_ne (Ne.symm other.1),
      List.count_cons_of_ne (Ne.symm other.2), List.count_nil, Nat.add_zero]
  · rfl

/-- A formula that negates only atoms is simple but for its exclusive disjunctions and its
conditionals. -/
lemma isGroupable_of_counts (negates : f.negatesAtoms = true)
    (denials : (items f).count .denial = 0) (conclusions : (items f).count .conclusion ≤ 1) :
    (f.isSimple = true ∧ (items f).count .conclusion = 0) ∨
      (OneConditional f ∧ (items f).count .conclusion = 1) := by
  induction f with
  | atom label => exact .inl ⟨rfl, rfl⟩
  | not operand _ =>
    left
    cases operand with
    | atom label => exact ⟨rfl, rfl⟩
    | _ => cases negates
  | binary op left right ihl ihr =>
    rw [Formula.negatesAtoms, Bool.and_eq_true] at negates
    have denial : ∀ g, (operandItems g).count .denial = (items g).count .denial :=
      fun _ => count_operandItems (by decide)
    have conclusion : ∀ g, (operandItems g).count .conclusion = (items g).count .conclusion :=
      fun _ => count_operandItems (by decide)
    cases op with
    | imp =>
      rw [items_imp, List.count_append, List.count_cons_of_ne (by decide),
        List.count_cons_of_ne (by decide), denial, denial] at denials
      rw [items_imp, List.count_append, List.count_cons_of_ne (by decide), List.count_cons_self,
        conclusion, conclusion] at conclusions ⊢
      rcases ihl negates.1 (by omega) (by omega) with ⟨hl, none⟩ | ⟨-, some⟩
      · rcases ihr negates.2 (by omega) (by omega) with ⟨hr, none'⟩ | ⟨-, some⟩
        · exact .inr ⟨.here hl hr, by omega⟩
        · omega
      · omega
    | xor =>
      rw [items_xor, List.count_append, List.count_cons_of_ne (by decide), List.count_append,
        denial, denial] at denials
      have aside : asideItems.count .denial = 1 := rfl
      omega
    | _ =>
      rw [items_binary rfl, List.count_append, List.count_cons_of_ne (by decide), denial,
        denial] at denials
      rw [items_binary rfl, List.count_append, List.count_cons_of_ne (by decide), conclusion,
        conclusion] at conclusions ⊢
      rcases ihl negates.1 (by omega) (by omega) with ⟨hl, none⟩ | ⟨hl, some⟩
      · rcases ihr negates.2 (by omega) (by omega) with ⟨hr, none'⟩ | ⟨hr, some⟩
        · refine .inl ⟨?_, by omega⟩
          rw [Formula.isSimple, hl, hr]
          rfl
        · exact .inr ⟨.right rfl hl hr, by omega⟩
      · rcases ihr negates.2 (by omega) (by omega) with ⟨hr, none⟩ | ⟨-, some'⟩
        · exact .inr ⟨.left rfl hl hr, by omega⟩
        · omega

/-! ## What is read -/

/-- If no accented letter is left by the rules, a formula has one conditional at most and is simple
besides. -/
lemma isGroupable_of_applyRules (labels : ∀ l ∈ f.leaves, IsLabel l) {s : Text}
    (tells : Tells ((items f).map (spoken id).text) s)
    (clean : ∀ d ∈ accents, d ∉ applyRules s) : f.IsGroupable := by
  have placed := placed_items f
  have labelled := labelled_items labels
  let u := biconditionalRule.apply (negationRule.apply s)
  -- behind the third rule no accented letter is written or taken any more
  have third : ∀ d ∈ accents, (conditionalRule.apply u).count d = 0 := by
    intro d accent
    have none := List.count_eq_zero.2 (clean d accent)
    simp only [applyRules, rules, List.foldl_cons, List.foldl_nil, Rule.apply] at none
    rwa [(disjunctionRule_spares accent).count_rewrite,
      (conjunctionRule_spares accent).count_rewrite,
      (exclusiveOrRule_spares accent).count_rewrite] at none
  obtain ⟨k, le, same⟩ := count_conditional none u
  have negated : 'é' ∉ negationRule.apply s := by
    have e : u.count 'é' = (conditionalRule.apply u).count 'é' + k * 0 :=
      same 'é' (by decide) (by decide) (by decide)
    rw [third 'é' (by decide), Nat.mul_zero, Nat.add_zero] at e
    rwa [← List.count_eq_zero, ← (biconditionalRule_spares (by decide)).count_rewrite]
  have negates := chain_of_rewriteFrom placed.chain labelled (.inl rfl) tells negated
  have tellsU := tells_biconditional placed.chain labelled
    (tells_negation negates labelled placed.last tells)
  -- one of the letters is in the denials too, and none of them is taken away
  obtain ⟨some, conclusions⟩ := labelled.counts tellsU
  have e : u.count 'ã' = (conditionalRule.apply u).count 'ã' + k * 1 :=
    same 'ã' (by decide) (by decide) (by decide)
  have e' : u.count 't' = (conditionalRule.apply u).count 't' + k * 1 :=
    same 't' (by decide) (by decide) (by decide)
  rw [third 'ã' (by decide), some] at e
  rw [conclusions] at e'
  exact (isGroupable_of_counts (chain_negates_items.1 negates) (by omega) (by omega)).imp
    And.left And.left

end

end Sentential.Sentence
