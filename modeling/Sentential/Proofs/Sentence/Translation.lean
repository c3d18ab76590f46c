import Mathlib.Tactic.Lemma
import Sentential.Proofs.Formula.RoundTrip
import Sentential.Proofs.Sentence.Links
import Sentential.Proofs.Sentence.Substitution
import Sentential.Sentence.Translation

/-!
# Readings translate back

The text that the rules leave spells one token for each item (`spells_of_tells`), and from these
tokens the grammar derives the formula, with no more groups and negations open at once than the
formula is deep (`derives_groupedItems`). So the symbolic text of a reading is the formula again,
for every dictionary whose phrases can be told from the words of the language
(`read_translate_reading`).
-/

namespace Sentential.Sentence

open Text Symbolic

/-! ## Tokens of items -/

/-- The tokens of an item. Those that have no sign have none. -/
def Item.tokens : Item → List Token
  | .atom label => [.identifier label]
  | .negation => [.not]
  | .leftParen => [.leftParen]
  | .rightParen => [.rightParen]
  | .link op => [.connective op]
  | _ => []

section
variable {is : List Item} {i : Item} {f : Formula} {s : Text}

/-- A text of parts spells the tokens that its parts spell. -/
lemma spells_of_tells {text : Item → Text} (each : ∀ i ∈ is, Spells i.tokens (text i))
    (tells : Tells (is.map text) s) : Spells (is.flatMap Item.tokens) s := by
  induction is generalizing s with
  | nil =>
    obtain ⟨k, rfl⟩ := tells.nil_inv
    have empty := Spells.nil.spaces k
    rwa [List.append_nil] at empty
  | cons i is ih =>
    obtain ⟨k, t, rfl, joint, rest⟩ := tells.cons_inv
    rw [List.flatMap_cons]
    refine Spells.spaces ?_ k
    refine (each i List.mem_cons_self).append ?_ (joint.parted_of (by decide))
    exact ih (fun j mem => each j (List.mem_cons_of_mem i mem)) rest

/-- Every item that has a sign spells its token. -/
lemma spells_item (known : Known signItems i) :
    Spells i.tokens ((signed [.or, .and, .iff, .imp]).text i) := by
  rcases known with ⟨l, rfl, label⟩ | fixed
  · exact spells_label label
  · cases i with
    | negation => exact .sign rfl .nil
    | leftParen => exact .sign rfl .nil
    | rightParen => exact .sign rfl .nil
    | link op =>
      cases op with
      | xor => simp [signItems, simpleItems] at fixed
      | _ => exact .sign rfl .nil
    | _ => simp [signItems, simpleItems] at fixed

/-! ## Derivations from items -/

/-- A literal binds as tightly as an operand. -/
lemma level_of_isLiteral (literal : f.isLiteral = true) : f.level = .operand := by
  cases f with
  | binary => cases literal
  | _ => rfl

/-- An operand is derived with no more open at once than it is deep. -/
lemma derives_operandItems
    (inner : ∃ n, n < f.depth ∧ Derives f.level n ((items f).flatMap Item.tokens) f) :
    ∃ n, n ≤ f.depth ∧ Derives .operand n ((operandItems f).flatMap Item.tokens) f := by
  obtain ⟨n, lt, d⟩ := inner
  rw [operandItems, wrapItems]
  cases literal : f.isLiteral with
  | true =>
    rw [level_of_isLiteral literal] at d
    exact ⟨n, Nat.le_of_lt lt, d⟩
  | false =>
    -- the group is one more that is open, but the formula in it is deeper than what it opens
    have group := (d.loosen f.level.rank_pos : Derives .equivalence n _ f).group
    refine ⟨n + 1, lt, ?_⟩
    rwa [Bool.not_false, if_pos rfl, List.cons_append, List.flatMap_cons, List.flatMap_append]

/-- The items of a simple formula derive it. -/
lemma derives_items (simple : f.isSimple = true) :
    ∃ n, n < f.depth ∧ Derives f.level n ((items f).flatMap Item.tokens) f := by
  induction f with
  | atom label => exact ⟨0, Nat.one_pos, .identifier label⟩
  | not operand _ =>
    obtain ⟨label, rfl⟩ := isSimple_not simple
    exact ⟨1, Nat.lt_succ_self 1, .not (.identifier label)⟩
  | binary op left right ihl ihr =>
    obtain ⟨kind, hl, hr⟩ := isSimple_binary simple
    obtain ⟨m, leM, dl⟩ := derives_operandItems (ihl hl)
    obtain ⟨n, leN, dr⟩ := derives_operandItems (ihr hr)
    have tight : ∀ level : Level, level.rank ≤ Level.rank .operand := Level.rank_le
    refine ⟨max m n, ?_, ?_⟩
    · rw [Formula.depth]
      omega
    · rw [items_binary kind, List.flatMap_append, List.flatMap_cons]
      exact .chain (Level.mem_connectives_ofConnective op) (dl.loosen (tight _))
        (dr.loosen (tight _))

/-- So do the items of a formula whose conditional has groups. -/
lemma derives_groupedItems (translatable : f.isTranslatable = true) :
    ∃ n, n ≤ f.depth ∧ Derives .equivalence n ((groupedItems f).flatMap Item.tokens) f := by
  rcases isTranslatable_cases translatable with simple | ⟨left, right, rfl, hl, hr⟩
  · obtain ⟨n, lt, d⟩ := derives_items simple
    rw [groupedItems_of_isSimple simple]
    exact ⟨n, Nat.le_of_lt lt, d.loosen f.level.rank_pos⟩
  · obtain ⟨m, leM, dl⟩ := derives_operandItems (derives_items hl)
    obtain ⟨n, leN, dr⟩ := derives_operandItems (derives_items hr)
    have groupL := (dl.loosen (by decide) : Derives .equivalence m _ left).group
    have groupR := (dr.loosen (by decide) : Derives .equivalence n _ right).group
    have chain : Derives .implication (max (m + 1) (n + 1)) _ (.binary .imp left right) :=
      .chain (by decide) (groupL.loosen (by decide)) (groupR.loosen (by decide))
    refine ⟨max (m + 1) (n + 1), ?_, ?_⟩
    · rw [Formula.depth]
      omega
    · simp only [groupedItems, if_pos, List.flatMap_append, List.flatMap_cons, List.flatMap_nil]
      exact chain.loosen (by decide)

/-! ## Formulas that the rules are made for -/

/-- The grouped items of a formula over labels are labels and items with signs. -/
lemma labelled_groupedItems (translatable : f.isTranslatable = true)
    (labels : ∀ l ∈ f.leaves, IsLabel l) : Labelled signItems (groupedItems f) :=
  labelled_grouped (Formula.isGroupable_of_isTranslatable translatable) labels

/-- The rules turn what tells the items of a formula into its grouped items with signs. -/
lemma tells_applyRules (translatable : f.isTranslatable = true) (labels : ∀ l ∈ f.leaves, IsLabel l)
    (tells : Tells ((items f).map (spoken id).text) s) :
    Tells ((groupedItems f).map (signed [.or, .and, .iff, .imp]).text) (applyRules s) :=
  tells_rules (Formula.isGroupable_of_isTranslatable translatable) labels tells

end

/-! ## Reading a translation -/

/-- The reading of a formula over the labels of a dictionary is translated into a text that reads as
the formula, if the engine accepts the patterns of its phrases. -/
theorem read_translate_reading [Engine] (d : Dictionary) (speakable : d.IsSpeakable) (f : Formula)
    (known : ∀ l ∈ f.leaves, l ∈ d.labels) (translatable : f.isTranslatable = true)
    (accepts : ∀ entry ∈ d.entries, entry.1 ∈ f.leaves → Accepts entry.2)
    (flat : f.depth ≤ maxDepth) : read (translate d (f.reading d.phrase?)) = .ok f := by
  have names : ∀ l ∈ f.leaves, IsAtomName l :=
    fun l leaf => speakable.labels _ (mem_entries_of_mem_labels speakable (known l leaf))
  have labels : ∀ l ∈ f.leaves, IsLabel l := fun l leaf => (names l leaf).1
  have tells := tells_applyRules translatable labels (tells_labels speakable known accepts)
  have spells := spells_of_tells
    (fun i mem => spells_item (labelled_groupedItems translatable labels i mem)) tells
  obtain ⟨n, le, derives⟩ := derives_groupedItems translatable
  have renders : Renders .equivalence n (translate d (f.reading d.phrase?)) f :=
    ⟨_, spells.gap_tidy.1, derives⟩
  refine renders.read_eq_ok (fun l leaf => (names l leaf).2) ⟨?_, flat⟩
  rw [Nat.zero_add]
  exact Nat.le_trans le flat

/-- Phrases may share words and parts, and groups and negations may stand on either side. -/
theorem read_translate_reading_of_overlapping_phrases :
    let _ : Engine := .limited (10 * 1024 * 1024)
    let d : Dictionary :=
      { entries := [("B".toList, "chove".toList), ("A_1".toList, "chove muito".toList),
          ("Z".toList, "muito frio".toList)]
        distinct := by decide }
    let f : Formula := .binary .imp
      (.binary .and (.atom "A_1".toList) (.binary .or (.not (.atom "B".toList)) (.atom "Z".toList)))
      (.binary .iff (.atom "B".toList) (.not (.atom "A_1".toList)))
    d.IsSpeakable ∧ (∀ l ∈ f.leaves, l ∈ d.labels) ∧ f.isTranslatable = true ∧
      (∀ entry ∈ d.entries, entry.1 ∈ f.leaves → Accepts entry.2) ∧ f.depth ≤ maxDepth ∧
      read (translate d (f.reading d.phrase?)) = .ok f := by
  intro _ d f
  have speakable : d.IsSpeakable := by decide
  have known : ∀ l ∈ f.leaves, l ∈ d.labels := by decide
  have translatable : f.isTranslatable = true := by decide
  have accepts : ∀ entry ∈ d.entries, entry.1 ∈ f.leaves → Accepts entry.2 := by decide
  have flat : f.depth ≤ maxDepth := by decide
  exact ⟨speakable, known, translatable, accepts, flat,
    read_translate_reading d speakable f known translatable accepts flat⟩

end Sentential.Sentence
