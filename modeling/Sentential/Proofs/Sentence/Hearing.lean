import Mathlib.Tactic.Lemma
import Sentential.Proofs.Sentence.Refusal
import Sentential.Proofs.Sentence.Translation

/-!
# What a reading is heard as

Where a formula has a conditional among other connectives, the parentheses that close what stands
around it close at the end of the sentence (`groupedItems`). So a connective behind the conditional
may come to bind an operand that it did not have. `heard` is the formula that the grammar derives
then (`derives_heard`), and it is the formula that was meant unless some connective binds tighter
than an operand on its left whose parenthesis closes late (`misgrouped`, `heard_eq_iff`). All other
readings are refused or come back as they are (`read_translate_reading_eq_iff`).
-/

namespace Sentential

namespace Formula

/-- Whether the parenthesis that closes an operand closes at the end of the sentence. -/
def closesLate : Formula → Bool
  | .binary op _ right => op == .imp || right.hasConditional
  | _ => false

/-- Whether some connective has an operand on its left that binds looser and closes late. -/
def misgrouped : Formula → Bool
  | .atom _ => false
  | .not operand => operand.misgrouped
  | .binary op left right =>
    wrapsLeft op left && left.closesLate || left.misgrouped || right.misgrouped

/-- A formula and what follows it. -/
def followed (f : Formula) : Option (Connective × Formula) → Formula
  | none => f
  | some (op, right) => .binary op f right

/-- Two operands and what follows them. The tighter of two connectives has the middle operand. -/
def chained (op : Connective) (left right : Formula) : Option (Connective × Formula) → Formula
  | none => .binary op left right
  | some (next, last) =>
    if next.precedence ≤ op.precedence then .binary next (.binary op left right) last
    else .binary op left (.binary next right last)

/-- The formula that is heard when a formula is read with groups for its conditional and something
follows it. -/
def heard : Formula → Option (Connective × Formula) → Formula
  | .binary op left right, tail =>
    if op = .imp then chained .imp left right tail
    else if left.hasConditional then followed (heard left (some (op, right))) tail
    else chained op left (heard right none) tail
  | f, tail => followed f tail

section
variable {left right : Formula} {op : Connective} {tail : Option (Connective × Formula)}

/-- A conditional is chained with what follows it. -/
lemma heard_here : heard (.binary .imp left right) tail = chained .imp left right tail := by
  rw [heard, if_pos rfl]

/-- A formula with a conditional on its left is a group, and what follows stands behind it. -/
lemma heard_left (kind : [Connective.and, .or, .iff].contains op = true)
    (one : OneConditional left) :
    heard (.binary op left right) tail = followed (heard left (some (op, right))) tail := by
  rw [heard, if_neg (ne_imp_of_contains kind), if_pos one.hasConditional]

/-- A formula with a conditional on its right is chained with what follows, behind its group. -/
lemma heard_right (kind : [Connective.and, .or, .iff].contains op = true)
    (simple : left.isSimple = true) :
    heard (.binary op left right) tail = chained op left (heard right none) tail := by
  rw [heard, if_neg (ne_imp_of_contains kind), hasConditional_of_isSimple simple,
    if_neg Bool.false_ne_true]

end

end Formula

namespace Sentence

open Text Symbolic
open Formula (OneConditional IsGroupable followed chained heard closesLate misgrouped)

/-! ## Derivations -/

/-- The tokens of what follows. -/
def tailTokens : Option (Connective × Formula) → List Token
  | none => []
  | some (op, right) => .connective op :: (operandItems right).flatMap Item.tokens

/-- Whether what follows has a simple operand. -/
def SimpleTail (tail : Option (Connective × Formula)) : Prop :=
  ∀ op right, tail = some (op, right) → right.isSimple = true

section
variable {f left right : Formula} {m n : Nat} {ts us : List Token}
  {tail : Option (Connective × Formula)}

/-- A simple formula is read from its items. -/
lemma derives_simple (simple : f.isSimple = true) :
    ∃ n, Derives .operand n ((operandItems f).flatMap Item.tokens) f := by
  obtain ⟨n, -, d⟩ := derives_operandItems (derives_items simple)
  exact ⟨n, d⟩

/-- An operand and what follows it are derived together. -/
lemma derives_followed (simple : SimpleTail tail) (d : Derives .operand n ts f) :
    ∃ k, Derives .equivalence k (ts ++ tailTokens tail) (followed f tail) := by
  have tight : ∀ level : Level, level.rank ≤ Level.rank .operand := Level.rank_le
  cases tail with
  | none =>
    refine ⟨n, ?_⟩
    rw [tailTokens, List.append_nil]
    exact d.loosen (tight _)
  | some next =>
    obtain ⟨op, last⟩ := next
    obtain ⟨k, dLast⟩ := derives_simple (simple op last rfl)
    have chain : Derives (.ofConnective op) (max n k) _ (.binary op f last) :=
      .chain (Level.mem_connectives_ofConnective op) (d.loosen (tight _)) (dLast.loosen (tight _))
    exact ⟨_, chain.loosen (Level.rank_pos _)⟩

/-- So are two operands and what follows them. -/
lemma derives_chained (op : Connective) (simple : SimpleTail tail) (dl : Derives .operand m ts left)
    (dr : Derives .operand n us right) :
    ∃ k, Derives .equivalence k (ts ++ .connective op :: us ++ tailTokens tail)
      (chained op left right tail) := by
  have tight : ∀ level : Level, level.rank ≤ Level.rank .operand := Level.rank_le
  have own := Level.mem_connectives_ofConnective
  have pair : Derives (.ofConnective op) (max m n) (ts ++ .connective op :: us)
      (.binary op left right) := .chain (own op) (dl.loosen (tight _)) (dr.loosen (tight _))
  cases tail with
  | none =>
    refine ⟨max m n, ?_⟩
    rw [tailTokens, List.append_nil]
    exact pair.loosen (Level.rank_pos _)
  | some next =>
    obtain ⟨next, last⟩ := next
    obtain ⟨k, dLast⟩ := derives_simple (simple next last rfl)
    rw [tailTokens, chained]
    split
    · rename_i le
      rw [← Level.rank_ofConnective, ← Level.rank_ofConnective] at le
      have chain : Derives (.ofConnective next) (max (max m n) k) _ _ :=
        .chain (own next) (pair.loosen le) (dLast.loosen (tight _))
      exact ⟨_, chain.loosen (Level.rank_pos _)⟩
    · rename_i lt
      rw [← Level.rank_ofConnective, ← Level.rank_ofConnective] at lt
      have inner : Derives (.ofConnective next) (max n k) _ (.binary next right last) :=
        .chain (own next) (dr.loosen (tight _)) (dLast.loosen (tight _))
      have le : (Level.ofConnective op).tighter.rank ≤ (Level.ofConnective next).rank := by
        rw [Level.rank_tighter (own op)]
        omega
      have chain : Derives (.ofConnective op) (max m (max n k)) _ _ :=
        .chain (own op) (dl.loosen (tight _)) (inner.loosen le)
      refine ⟨max m (max n k), ?_⟩
      rw [List.append_assoc]
      exact chain.loosen (Level.rank_pos _)

/-- The items of a formula with groups for its conditional, and what follows them, derive the
formula that is heard. -/
lemma derives_heard (one : OneConditional f) (simple : SimpleTail tail) :
    ∃ n, Derives .equivalence n ((groupedItems f).flatMap Item.tokens ++ tailTokens tail)
      (heard f tail) := by
  have nothing : SimpleTail none := nofun
  induction one generalizing tail with
  | @here left right hl hr =>
    obtain ⟨m, dl⟩ := derives_simple hl
    obtain ⟨n, dr⟩ := derives_simple hr
    have groupL := (dl.loosen (by decide) : Derives .equivalence m _ left).group
    have groupR := (dr.loosen (by decide) : Derives .equivalence n _ right).group
    obtain ⟨k, d⟩ := derives_chained .imp simple groupL groupR
    refine ⟨k, ?_⟩
    rw [Formula.heard_here]
    simpa [groupedItems, Item.tokens] using d
  | @left op left right kind one hr ih =>
    have tail' : SimpleTail (some (op, right)) := by
      intro _ _ e
      cases e
      exact hr
    obtain ⟨n, d⟩ := ih tail'
    obtain ⟨k, d'⟩ := derives_followed simple d.group
    refine ⟨k, ?_⟩
    rw [Formula.heard_left kind one, groupedItems_left kind one]
    simpa [tailTokens, Item.tokens] using d'
  | @right op left right kind hl one ih =>
    obtain ⟨m, dl⟩ := derives_simple hl
    obtain ⟨n, d⟩ := ih nothing
    obtain ⟨k, d'⟩ := derives_chained op simple dl d.group
    refine ⟨k, ?_⟩
    rw [Formula.heard_right kind hl, groupedItems_right kind hl one]
    simpa [tailTokens, Item.tokens] using d'

end

/-! ## Formulas that are heard as they are -/

section
variable {f : Formula}

/-- A simple formula does not close late. -/
lemma closesLate_of_isSimple (simple : f.isSimple = true) : f.closesLate = false := by
  cases f with
  | binary op left right =>
    obtain ⟨kind, -, hr⟩ := isSimple_binary simple
    rw [closesLate, Formula.hasConditional_of_isSimple hr,
      beq_eq_false_iff_ne.2 (Formula.ne_imp_of_contains kind)]
    rfl
  | _ => rfl

/-- A simple formula is not misgrouped. -/
lemma misgrouped_of_isSimple (simple : f.isSimple = true) : f.misgrouped = false := by
  induction f with
  | atom label => rfl
  | not operand _ =>
    obtain ⟨label, rfl⟩ := isSimple_not simple
    rfl
  | binary op left right ihl ihr =>
    obtain ⟨-, hl, hr⟩ := isSimple_binary simple
    rw [misgrouped, closesLate_of_isSimple hl, ihl hl, ihr hr, Bool.and_false]
    rfl

/-- A formula on the left needs no group if it binds no looser. -/
lemma wrapsLeft_binary {next op : Connective} {left right : Formula} :
    Formula.wrapsLeft next (.binary op left right) = false ↔ next.precedence ≤ op.precedence := by
  rw [Formula.wrapsLeft, decide_eq_false_iff_not, Nat.not_lt]
  rfl

/-- Of two connectives the second has both operands of the first on its left if it does not bind
tighter. -/
lemma chained_eq_iff {next op : Connective} {left middle right last : Formula} :
    chained op left middle (some (next, last)) = .binary next (.binary op left right) last ↔
      next.precedence ≤ op.precedence ∧ middle = right := by
  rw [chained]
  split
  · rename_i le
    rw [Formula.binary.injEq, Formula.binary.injEq]
    tauto
  · rename_i lt
    refine iff_of_false (fun e => ?_) fun h => lt h.1
    rw [(Formula.binary.inj e).1] at lt
    exact lt (Nat.le_refl _)

/-- A formula is heard as it is unless it is misgrouped, and it is heard as an operand of what
follows unless that binds tighter and the formula closes late. -/
lemma heard_eq_iff (one : OneConditional f) :
    (heard f none = f ↔ f.misgrouped = false) ∧
      ∀ next last, heard f (some (next, last)) = .binary next f last ↔
        (Formula.wrapsLeft next f && f.closesLate) = false ∧ f.misgrouped = false := by
  induction one with
  | @here left right hl hr =>
    have late : closesLate (.binary .imp left right) = true := rfl
    have grouped : misgrouped (.binary .imp left right) = false := by
      rw [misgrouped, closesLate_of_isSimple hl, misgrouped_of_isSimple hl,
        misgrouped_of_isSimple hr, Bool.and_false]
      rfl
    refine ⟨iff_of_true Formula.heard_here grouped, fun next last => ?_⟩
    rw [Formula.heard_here, chained_eq_iff, late, Bool.and_true, wrapsLeft_binary, grouped,
      eq_self_iff_true, eq_self_iff_true]
  | @left op left right kind one hr ih =>
    have early : closesLate (.binary op left right) = false := by
      rw [closesLate, Formula.hasConditional_of_isSimple hr,
        beq_eq_false_iff_ne.2 (Formula.ne_imp_of_contains kind)]
      rfl
    have whole : heard left (some (op, right)) = .binary op left right ↔
        misgrouped (.binary op left right) = false := by
      rw [ih.2, misgrouped, misgrouped_of_isSimple hr, Bool.or_false, Bool.or_eq_false_iff]
    rw [Formula.heard_left kind one, followed]
    refine ⟨whole, fun next last => ?_⟩
    rw [Formula.heard_left kind one, followed, Formula.binary.injEq, early, Bool.and_false, whole]
    tauto
  | @right op left right kind hl one ih =>
    have late : closesLate (.binary op left right) = true := by
      rw [closesLate, one.hasConditional, Bool.or_true]
    have whole : heard right none = right ↔ misgrouped (.binary op left right) = false := by
      rw [ih.1, misgrouped, closesLate_of_isSimple hl, misgrouped_of_isSimple hl, Bool.and_false,
        Bool.or_false, Bool.false_or]
    rw [Formula.heard_right kind hl, chained, Formula.binary.injEq]
    refine ⟨by tauto, fun next last => ?_⟩
    rw [Formula.heard_right kind hl, chained_eq_iff, late, Bool.and_true, wrapsLeft_binary, whole]

end

/-! ## Reading a translation -/

section
variable {d : Dictionary} {f : Formula}

/-- The labels of a dictionary that can be told name atoms. -/
lemma isAtomName_of_mem_labels (speakable : d.IsSpeakable) {l : Text} (mem : l ∈ d.labels) :
    IsAtomName l :=
  speakable.labels _ (mem_entries_of_mem_labels speakable mem)

/-- The identifiers among the tokens of a formula are its leaves. -/
lemma mem_leaves_of_token (groupable : f.IsGroupable) {name : Text}
    (mem : .identifier name ∈ (groupedItems f).flatMap Item.tokens) : name ∈ f.leaves := by
  have other : ∀ i ∈ signItems, ∀ t ∈ i.tokens, t.name? = none := by decide
  obtain ⟨i, memI, memT⟩ := List.mem_flatMap.1 mem
  rcases mem_groupedItems groupable memI with ⟨l, leaf, rfl⟩ | fixed
  · cases List.mem_singleton.1 memT
    exact leaf
  · exact absurd (other i fixed _ memT) nofun

/-- The translation of a reading with one conditional at most is read as its grouped items are. -/
lemma read_translate_reading_eq_parse [Engine] (speakable : d.IsSpeakable)
    (known : ∀ l ∈ f.leaves, l ∈ d.labels)
    (accepts : ∀ entry ∈ d.entries, entry.1 ∈ f.leaves → Accepts entry.2)
    (groupable : f.IsGroupable) :
    read (translate d (f.reading d.phrase?)) = parse ((groupedItems f).flatMap Item.tokens) := by
  have names : ∀ l ∈ f.leaves, IsAtomName l :=
    fun l leaf => isAtomName_of_mem_labels speakable (known l leaf)
  have labels : ∀ l ∈ f.leaves, IsLabel l := fun l leaf => (names l leaf).1
  have tells := tells_rules groupable labels (tells_labels speakable known accepts)
  have spells := spells_of_tells
    (fun i mem => spells_item (labelled_grouped groupable labels i mem)) tells
  obtain ⟨lexemes, out, tokens⟩ := spells.gap_tidy.1.tokenize
    fun name mem => (names name (mem_leaves_of_token groupable mem)).2
  rw [Symbolic.read, translate, out, ← tokens]

/-- A formula has one conditional at most, and is simple besides, if the translation of its reading
is read as any formula. -/
lemma isGroupable_of_read [Engine] {g : Formula} (speakable : d.IsSpeakable)
    (known : ∀ l ∈ f.leaves, l ∈ d.labels)
    (accepts : ∀ entry ∈ d.entries, entry.1 ∈ f.leaves → Accepts entry.2)
    (accepted : read (translate d (f.reading d.phrase?)) = .ok g) : f.IsGroupable := by
  have labels : ∀ l ∈ f.leaves, IsLabel l :=
    fun l leaf => (isAtomName_of_mem_labels speakable (known l leaf)).1
  refine isGroupable_of_applyRules labels (tells_labels speakable known accepts) fun d accent => ?_
  have absent := not_mem_of_read accepted accent
  rwa [translate, ← List.count_eq_zero, count_tidy (not_isBlank_of_accent d accent),
    List.count_eq_zero] at absent

end

/-- If the translation of a reading is read at all, and the engine accepts the patterns of its
phrases, it is read as the formula itself, unless some connective binds tighter than an operand on
its left which is a conditional or has one in its own right operand. -/
theorem read_translate_reading_eq_iff [Engine] (d : Dictionary) (speakable : d.IsSpeakable)
    (f g : Formula) (known : ∀ l ∈ f.leaves, l ∈ d.labels)
    (accepts : ∀ entry ∈ d.entries, entry.1 ∈ f.leaves → Accepts entry.2)
    (accepted : read (translate d (f.reading d.phrase?)) = .ok g) :
    g = f ↔ f.misgrouped = false := by
  have groupable := isGroupable_of_read speakable known accepts accepted
  rw [read_translate_reading_eq_parse speakable known accepts groupable] at accepted
  obtain ⟨n, derives, -⟩ := derives_of_parseWithin (by decide) accepted
  rcases groupable with simple | one
  · obtain ⟨m, -, meant⟩ := derives_items simple
    rw [groupedItems_of_isSimple simple] at derives
    exact iff_of_true (derives.unique (meant.loosen (Level.rank_pos _)))
      (misgrouped_of_isSimple simple)
  · have nothing : SimpleTail none := nofun
    obtain ⟨m, meant⟩ := derives_heard one nothing
    rw [tailTokens, List.append_nil] at meant
    rw [derives.unique meant]
    exact (heard_eq_iff one).1

/-- A conjunction that closes late is no trouble for a disjunction behind it. -/
theorem read_translate_reading_eq_iff_of_late_group :
    let _ : Engine := .limited (10 * 1024 * 1024)
    let d : Dictionary :=
      { entries := [("A".toList, "chove".toList), ("B".toList, "venta muito".toList),
          ("C_2".toList, "neva".toList)]
        distinct := by decide }
    let f : Formula := .binary .or
      (.binary .and (.not (.atom "C_2".toList))
        (.binary .imp (.atom "A".toList) (.atom "B".toList)))
      (.not (.atom "A".toList))
    d.IsSpeakable ∧ (∀ l ∈ f.leaves, l ∈ d.labels) ∧
      (∀ entry ∈ d.entries, entry.1 ∈ f.leaves → Accepts entry.2) ∧
      read (translate d (f.reading d.phrase?)) = .ok f ∧ (f = f ↔ f.misgrouped = false) := by
  intro _ d f
  have speakable : d.IsSpeakable := by decide
  have known : ∀ l ∈ f.leaves, l ∈ d.labels := by decide
  have accepts : ∀ entry ∈ d.entries, entry.1 ∈ f.leaves → Accepts entry.2 := by decide
  have one : OneConditional f := .left rfl (.right rfl rfl (.here rfl rfl)) rfl
  have accepted : read (translate d (f.reading d.phrase?)) = .ok f := by
    rw [read_translate_reading_eq_parse speakable known accepts (.inr one)]
    cbv
  exact ⟨speakable, known, accepts, accepted,
    read_translate_reading_eq_iff d speakable f f known accepts accepted⟩

/-- The conclusion of a conditional takes in the conjunction behind its group. -/
theorem read_translate_reading_ne :
    let _ : Engine := .limited (10 * 1024 * 1024)
    let d : Dictionary :=
      { entries := [("A".toList, "chove".toList), ("B".toList, "venta".toList),
          ("C".toList, "neva".toList)]
        distinct := by decide }
    let f : Formula := .binary .and
      (.binary .imp (.atom "A".toList) (.atom "B".toList)) (.atom "C".toList)
    let g : Formula := .binary .imp
      (.atom "A".toList) (.binary .and (.atom "B".toList) (.atom "C".toList))
    d.IsSpeakable ∧ (∀ l ∈ f.leaves, l ∈ d.labels) ∧
      (∀ entry ∈ d.entries, entry.1 ∈ f.leaves → Accepts entry.2) ∧
      read (translate d (f.reading d.phrase?)) = .ok g ∧ g ≠ f := by
  intro _ d f g
  have speakable : d.IsSpeakable := by decide
  have known : ∀ l ∈ f.leaves, l ∈ d.labels := by decide
  have accepts : ∀ entry ∈ d.entries, entry.1 ∈ f.leaves → Accepts entry.2 := by decide
  have one : OneConditional f := .left rfl (.here rfl rfl) rfl
  refine ⟨speakable, known, accepts, ?_, by decide⟩
  rw [read_translate_reading_eq_parse speakable known accepts (.inr one)]
  cbv

end Sentence

end Sentential
