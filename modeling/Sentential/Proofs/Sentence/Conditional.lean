import Mathlib.Tactic.Lemma
import Sentential.Proofs.Sentence.Groups
import Sentential.Proofs.Sentence.Rule

/-!
# The rule for conditionals

The condition that the rule finds is the shortest stretch in front of a conclusion. No conclusion
begins inside a simple formula in signs, for no item of it has an `n` (`condition?_append`). So the
rule finds the first operand of a conditional and makes groups of it and of all that follows its
second word (`tells_conditional`).
-/

namespace Sentential.Sentence

open Text Pattern Symbolic

/-- The words of a conditional. -/
def ifWord : Text := "se".toList

def thenWord : Text := "então".toList

section
variable {a b c s t y : Text} {k m : Nat}

/-- A conclusion is found where its word stands behind spaces. -/
lemma conclusion?_spaces (firm : Firm y) :
    conclusion? (List.replicate k ' ' ++ (thenWord ++ (List.replicate (m + 1) ' ' ++ y)))
      = some y := by
  have front : (thenWord ++ (List.replicate (m + 1) ' ' ++ y)).head?.any isBlank = false := by
    rw [List.head?_append_of_ne_nil _ (by decide)]
    decide
  obtain ⟨d, y, rfl⟩ := List.exists_cons_of_ne_nil firm.ne_nil
  rw [conclusion?, dropWhile_spaces k front, ← thenWord, behind?_eq_some.2 rfl]
  simp only [Option.bind_eq_bind, Option.bind_some, behindBlanks?_spaces m firm.solid]

/-- No conclusion is found in a stretch that does not end with a blank and has no `n`. -/
lemma conclusion?_append (ne : a ≠ []) (last : isBlank (a.getLast ne) = false) (inside : 'n' ∉ a)
    (next : b.head? ≠ some 'n') : conclusion? (a ++ b) = none := by
  have solid : a.dropWhile isBlank ≠ [] := by
    intro e
    have blank := List.dropWhile_eq_nil_iff.1 e _ (List.getLast_mem ne)
    rw [last] at blank
    cases blank
  have rest : (a ++ b).dropWhile isBlank = a.dropWhile isBlank ++ b := by
    rw [List.dropWhile_append, if_neg (by simpa using solid)]
  have inside' : 'n' ∉ a.dropWhile isBlank :=
    fun mem => inside ((List.dropWhile_sublist isBlank).subset mem)
  have none : behind? thenWord (a.dropWhile isBlank ++ b) = none := by
    rw [Option.eq_none_iff_forall_ne_some]
    intro t found
    have e : a.dropWhile isBlank ++ b = 'e' :: 'n' :: ("tão".toList ++ t) := behind?_eq_some.1 found
    rcases h : a.dropWhile isBlank with _ | ⟨d, r⟩
    · exact solid h
    -- the second character of the word is an `n`, which is neither in the stretch nor behind it
    · rw [h] at e inside'
      have e' : r ++ b = 'n' :: ("tão".toList ++ t) := (List.cons.inj e).2
      cases r with
      | nil => exact next (congrArg List.head? e')
      | cons d' r =>
        rw [(List.cons.inj e').1] at inside'
        simp at inside'
  rw [conclusion?, rest, ← thenWord, none]
  rfl

/-- The condition goes as far as no conclusion is found. -/
lemma conditionFrom_append {passed : Text}
    (none : ∀ u c v, a = u ++ c :: v → conclusion? (c :: (v ++ b)) = none)
    (found : conclusion? b = some y) :
    conditionFrom passed (a ++ b) = some (passed.reverse ++ a, y) := by
  induction a generalizing passed with
  | nil =>
    rw [List.nil_append, List.append_nil]
    unfold conditionFrom
    rw [found]
  | cons c a ih =>
    rw [List.cons_append]
    unfold conditionFrom
    rw [none [] c a rfl]
    simp only
    rw [ih fun u d v e => none (c :: u) d v (by rw [e]; rfl), List.reverse_cons, List.append_assoc]
    rfl

/-- A condition goes up to the word for its conclusion, without the blanks before it. -/
lemma condition?_append (ne : a ≠ []) (last : isBlank (a.getLast ne) = false) (inside : 'n' ∉ a)
    (next : b.head? ≠ some 'n') (found : conclusion? b = some y) :
    condition? (a ++ b) = some (a, y) := by
  cases a with
  | nil => exact absurd rfl ne
  | cons c a =>
    rw [List.cons_append, condition?]
    refine conditionFrom_append (fun u d v e => ?_) found
    subst e
    have ne' : d :: v ≠ [] := List.cons_ne_nil d v
    rw [← List.cons_append]
    refine conclusion?_append ne' ?_ (fun mem => inside ?_) next
    · rwa [List.getLast_cons (by simp), List.getLast_append_of_ne_nil _ ne'] at last
    · exact List.mem_cons_of_mem c (List.mem_append_right u mem)

/-- A conditional is found step by step: its first word, blanks, and its two stretches. -/
lemma findConditional_eq (before : Option Char) (s : Text) :
    findConditional before s = if !boundary before s.head? then none else
      (behind? ifWord s).bind fun rest => (behindBlanks? rest).bind fun start =>
        ((condition? start).or <| if rest.length - start.length ≥ 2 then
          condition? (rest.drop (rest.length - start.length - 1)) else none).bind fun found =>
            some (foundUpTo s [] [found.1, found.2]) := by
  rfl

/-- A conditional is found in its words. -/
lemma findConditional_words {before : Option Char} (start : before.any isWordChar = false)
    (firm : Firm c) (found : condition? c = some (a, y)) :
    findConditional before (ifWord ++ (List.replicate (k + 1) ' ' ++ c))
      = some (foundUpTo (ifWord ++ (List.replicate (k + 1) ' ' ++ c)) [] [a, y]) := by
  have first : boundary before (ifWord ++ (List.replicate (k + 1) ' ' ++ c)).head? = true := by
    have phrase : IsPhrase ifWord := by decide
    rw [List.head?_append_of_ne_nil _ phrase.ne_nil, boundary, start, phrase.1]
    rfl
  rw [findConditional_eq, first, behind?_eq_some.2 rfl, Option.bind_some,
    behindBlanks?_spaces k firm.solid, Option.bind_some, found, Option.some_or, Option.bind_some]
  rfl

/-- What the rule for conditionals makes of a conditional. -/
lemma rewriteFrom_conditional {before : Option Char} (firm : Firm c)
    (opens : Opens before (List.replicate k ' ' ++ (ifWord ++ (List.replicate (m + 1) ' ' ++ c))))
    (found : condition? c = some (a, y)) :
    ∃ n, rewriteFrom conditionalRule.pattern 0 before
        (List.replicate k ' ' ++ (ifWord ++ (List.replicate (m + 1) ' ' ++ c)))
      = List.replicate n ' ' ++ ('(' :: (' ' :: (a ++ [' '])) ++ [')']
          ++ ' ' :: (['→'] ++ ' ' :: ('(' :: (' ' :: (y ++ [' '])) ++ [')'])) ++ [' ']) := by
  obtain ⟨before', from', e⟩ := conditionalRule_atWord.rewriteFrom_spaces before k
    (ifWord ++ (List.replicate (m + 1) ' ' ++ c))
  have start : before'.any isWordChar = false := (opens.of_spaces from').start (by decide)
  have words := findConditional_words (k := m) start firm found
  have ne : ifWord ++ (List.replicate (m + 1) ' ' ++ c) ≠ [] := by simp [firm.ne_nil]
  have out : rewriteFrom conditionalRule.pattern 0 before'
      (ifWord ++ (List.replicate (m + 1) ' ' ++ c)) = fill conditionalRule.template [a, y] :=
    Rule.rewriteFrom_all ne words
  refine ⟨k + 1, ?_⟩
  rw [e, out]
  show _ ++ (" ( ".toList ++ (a ++ (" ) → ( ".toList ++ (y ++ (" ) ".toList ++ []))))) = _
  simp [List.replicate_succ']

/-- A group tells its parts between parentheses. -/
lemma tells_group {cs : List Text} (tells : Tells cs s) :
    Tells (['('] :: cs ++ [[')']]) ('(' :: (' ' :: (s ++ [' '])) ++ [')']) :=
  Tells.wrap (.space tells.space_behind)

/-- The words of a conditional become groups, and the second one has all that follows. -/
lemma tells_groups {as bs : List Text} (neA : as ≠ []) (firmA : Firm (as.head neA))
    (inside : ∀ c ∈ as, c ≠ [] ∧ ∀ d ∈ c, isBlank d = false ∧ d ≠ 'n')
    (neB : bs ≠ []) (firmB : Firm (bs.head neB)) {before : Option Char} (opens : Opens before s)
    (tells : Tells (ifWord :: (as ++ thenWord :: bs)) s) :
    Tells ((['('] :: as ++ [[')']]) ++ ['→'] :: (['('] :: bs ++ [[')']]))
      (rewriteFrom conditionalRule.pattern 0 before s) := by
  obtain ⟨k, t, rfl, joint, rest⟩ := tells.cons_inv
  -- the condition begins behind the first word
  obtain ⟨c, cs, rfl⟩ := List.exists_cons_of_ne_nil neA
  obtain ⟨m, x, rfl, firm, tellsX⟩ := rest.firm_behind firmA (joint.ends (by decide) (by decide))
  obtain ⟨u, v, rfl, tellsA, tellsV⟩ := tellsX.split neA
  -- the conclusion begins behind the second word
  obtain ⟨j, w, rfl, joint', restB⟩ := tellsV.cons_inv
  obtain ⟨d, ds, rfl⟩ := List.exists_cons_of_ne_nil neB
  obtain ⟨n, y, rfl, firmY, tellsB⟩ := restB.firm_behind firmB (joint'.ends (by decide) (by decide))
  obtain ⟨neLast, letters⟩ := inside _ (List.getLast_mem neA)
  have found : condition? (u ++ (c :: cs).getLast neA
      ++ (List.replicate j ' ' ++ (thenWord ++ (List.replicate (n + 1) ' ' ++ y))))
        = some (u ++ (c :: cs).getLast neA, y) := by
    apply condition?_append (by simp [neLast])
    · rw [List.getLast_append_of_ne_nil _ neLast]
      exact (letters _ (List.getLast_mem neLast)).1
    · intro mem
      rcases tellsA.mem mem with e | ⟨c', memC, mem⟩
      · cases e
      · exact ((inside c' memC).2 _ mem).2 rfl
    · cases j with
      | zero => exact fun e => absurd (Option.some.inj e) (by decide)
      | succ j => exact fun e => absurd (Option.some.inj e) (by decide)
    · exact conclusion?_spaces firmY
  obtain ⟨i, e⟩ := rewriteFrom_conditional (m := m) firm opens found
  rw [e]
  exact ((Tells.between ['→'] (tells_group tellsA) (tells_group tellsB)).space_behind).spaces i

end

set_option maxRecDepth 4000 in
/-- The texts of simple items are not empty, and have no blank and no `n`. -/
lemma simple_texts : ∀ i ∈ simpleItems, (signed [.iff, .imp]).text i ≠ [] ∧
    ∀ d ∈ (signed [.iff, .imp]).text i, isBlank d = false ∧ d ≠ 'n' := by
  decide

set_option maxRecDepth 4000 in
/-- The texts of items with signs do not have the word of a condition. -/
lemma no_if_word : ∀ i ∈ signItems, ifWord ∉ wordRuns ((signed [.iff, .imp]).text i) := by
  decide

/-- No character of labels is an `n`. -/
lemma no_label_char : ∀ c ∈ labelChars, c ≠ 'n' := by
  decide

section
variable {f : Formula} {is : List Item} {s : Text}

/-- The first item of what begins like an operand has a firm text. -/
lemma firm_head (first : is.head?.any Item.begins = true) (labelled : Labelled signItems is)
    {ops : List Connective} (ne : is.map (signed ops).text ≠ []) :
    Firm ((is.map (signed ops).text).head ne) := by
  cases is with
  | nil => exact absurd rfl ne
  | cons i is =>
    have begins : i.begins = true := first
    cases i with
    | atom l =>
      exact firm_label (labelled.isLabel atom_not_mem_signItems List.mem_cons_self)
    | negation => exact ⟨'¬', [], rfl, by decide, by decide⟩
    | leftParen => exact ⟨'(', [], rfl, by decide, by decide⟩
    | _ => cases begins

/-- The texts of the items of a simple formula have no blanks and no `n`. -/
lemma Labelled.solid (labelled : Labelled simpleItems is) {c : Text}
    (memC : c ∈ is.map (signed [.iff, .imp]).text) :
    c ≠ [] ∧ ∀ d ∈ c, isBlank d = false ∧ d ≠ 'n' := by
  obtain ⟨i, mem, rfl⟩ := List.mem_map.1 memC
  rcases labelled i mem with ⟨l, rfl, label⟩ | fixed
  · exact ⟨label.ne_nil, fun d mem => ⟨label.isBlank d mem, no_label_char d (label.mem mem)⟩⟩
  · exact simple_texts i fixed

/-- The items of a simple operand are simple ones. -/
lemma Labelled.simple (simple : f.isSimple = true)
    (labelled : Labelled signItems (operandItems f)) : Labelled simpleItems (operandItems f) := by
  intro i mem
  rcases mem_operandItems_simple simple mem with ⟨l, leaf, rfl⟩ | fixed
  · exact .inl ⟨l, rfl, labelled.isLabel atom_not_mem_signItems mem⟩
  · exact .inr fixed

/-- Items with signs do not have the first word of a conditional. -/
lemma Labelled.no_if_word (labelled : Labelled signItems is) {c : Text}
    (memC : c ∈ is.map (signed [.iff, .imp]).text) : ifWord ∉ wordRuns c := by
  obtain ⟨i, mem, rfl⟩ := List.mem_map.1 memC
  exact labelled.absent rfl mem ⟨'s', by decide⟩ (Sentence.no_if_word i)

/-- The third rule finds nothing among items with signs. -/
lemma Labelled.conditional_eq_self (labelled : Labelled signItems is)
    (tells : Tells (is.map (signed [.iff, .imp]).text) s) : conditionalRule.apply s = s := by
  refine conditionalRule_atWord.rewrite_eq_self fun mem => ?_
  rw [tells.wordRuns, List.mem_flatMap] at mem
  obtain ⟨c, memC, mem⟩ := mem
  exact labelled.no_if_word memC mem

/-- Grouped items have signs if the leaves are labels. -/
lemma labelled_grouped (groupable : f.IsGroupable) (labels : ∀ l ∈ f.leaves, IsLabel l) :
    Labelled signItems (groupedItems f) :=
  fun _ mem => (mem_groupedItems groupable mem).imp_left
    fun ⟨l, leaf, e⟩ => ⟨l, e, labels l leaf⟩

/-- The third rule makes groups of the operands of a conditional. -/
lemma tells_conditional (groupable : f.IsGroupable) (labels : ∀ l ∈ f.leaves, IsLabel l)
    (tells : Tells ((items f).map (signed [.iff, .imp]).text) s) :
    Tells ((groupedItems f).map (signed [.iff, .imp]).text) (conditionalRule.apply s) := by
  have labelled := labelled_grouped groupable labels
  rcases groupable with simple | one
  · rw [groupedItems_of_isSimple simple] at labelled ⊢
    rw [labelled.conditional_eq_self tells]
    exact tells
  · obtain ⟨front, left, right, back, hl, hr, cut, cut'⟩ := items_cut one
    rw [cut'] at labelled ⊢
    rw [cut] at tells
    have labelledF : Labelled signItems front := fun i mem => labelled i (by simp [mem])
    have labelledL : Labelled signItems (operandItems left) :=
      fun i mem => labelled i (by simp [mem])
    have labelledR : Labelled signItems (operandItems right ++ back) :=
      fun i mem => labelled i (by simp only [List.mem_append, List.mem_cons] at mem ⊢; tauto)
    have formedL := formed_operandItems (formed_items hl)
    have formedR := formed_operandItems (formed_items hr)
    have firstR : (operandItems right ++ back).head?.any Item.begins = true := by
      rw [List.head?_append_of_ne_nil _ formedR.ne_nil]
      exact formedR.first
    have neL : (operandItems left).map (signed [.iff, .imp]).text ≠ [] := by simp [formedL.ne_nil]
    have neR : (operandItems right ++ back).map (signed [.iff, .imp]).text ≠ [] := by
      simp [formedR.ne_nil]
    have solid : ∀ c ∈ (operandItems left).map (signed [.iff, .imp]).text,
        c ≠ [] ∧ ∀ d ∈ c, isBlank d = false ∧ d ≠ 'n' :=
      fun _ mem => (Labelled.simple hl labelledL).solid mem
    rw [List.map_append, List.map_cons, List.map_append, List.map_cons] at tells
    have opens : Opens none s := .inl rfl
    have groups := conditionalRule_atWord.tells_behind (fun _ mem => labelledF.no_if_word mem)
      (tells_groups neL (firm_head formedL.first labelledL neL) solid neR
        (firm_head firstR labelledR neR)) opens tells
    simp only [List.map_append, List.map_cons, List.map_nil] at groups ⊢
    exact groups

end

end Sentential.Sentence
