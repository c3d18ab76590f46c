import Mathlib.Data.List.Chain
import Mathlib.Tactic.Lemma
import Sentential.Proofs.Sentence.Reading
import Sentential.Proofs.Text.Parts

/-!
# The items of a sentence

A formula is read as a sequence of items: atoms, negations, links between operands, the two words of
a conditional, the last words of an exclusive disjunction, and parentheses. Their order hardly
changes while a sentence becomes symbolic text; only how each is worded does (`Wording`). Which
items stand next to each other in any formula is told by `Adjoins` (`placed_items`), and more
closely by `Meets` for simple formulas (`formed_items`), where no atom stands between two links
(`loose_items`). An atom follows every negation if only atoms are negated (`chain_negates_items`).
-/

namespace Sentential

open Text

namespace Formula

/-- A formula of conjunctions, disjunctions and equivalences of literals. -/
def isSimple : Formula → Bool
  | .atom _ => true
  | .not operand => operand.isAtom
  | .binary op left right =>
    [Connective.and, .or, .iff].contains op && left.isSimple && right.isSimple

/-- Whether only atoms are negated in a formula. -/
def negatesAtoms : Formula → Bool
  | .atom _ => true
  | .not operand => operand.isAtom
  | .binary _ left right => left.negatesAtoms && right.negatesAtoms

/-- A simple formula, or a conditional of two of them. -/
def isTranslatable : Formula → Bool
  | .binary .imp left right => left.isSimple && right.isSimple
  | f => f.isSimple

end Formula

namespace Sentence

/-- An item of a sentence. -/
inductive Item where
  | atom (label : Text)
  | negation
  | leftParen
  | rightParen
  | link (op : Connective)
  | condition
  | conclusion
  | contrast
  | denial
deriving DecidableEq, Repr

/-- How the items of a sentence are worded. -/
structure Wording where
  atom : Text → Text
  negation : Text
  link : Connective → Text
  condition : Text
  conclusion : Text
  contrast : Text

/-- The text of an item in a wording. The last words of an exclusive disjunction are the same in
all. -/
def Wording.text (w : Wording) : Item → Text
  | .atom label => w.atom label
  | .negation => w.negation
  | .leftParen => ['(']
  | .rightParen => [')']
  | .link op => w.link op
  | .condition => w.condition
  | .conclusion => w.conclusion
  | .contrast => w.contrast
  | .denial => "não ambos".toList

/-- The words between the operands of a connective other than the conditional. -/
def linkWord : Connective → Text
  | .and => "e".toList
  | .iff => "se e somente se".toList
  | _ => "ou".toList

/-- How a normal form words items, where the texts of atoms are given. -/
def spoken (atom : Text → Text) : Wording where
  atom := atom
  negation := "não é verdade que".toList
  link := linkWord
  condition := "se".toList
  conclusion := "então".toList
  contrast := "e".toList

/-- Where a phrase is replaced, the items are worded anew whose text is the phrase. -/
lemma tells_rewrite_whole {is : List Item} {w w' : Wording} {q new s : Text} (phrase : IsPhrase q)
    (apart : ∀ us i vs, is = us ++ i :: vs → Apart q (w.text i) (vs.map w.text))
    (same : ∀ i ∈ is, (if w.text i = q then new else w.text i) = w'.text i)
    (tells : Tells (is.map w.text) s) :
    Tells (is.map w'.text) ((Pattern.whole q (' ' :: (new ++ [' ']))).rewrite s) := by
  have e : (is.map w.text).map (fun c => if c = q then new else c) = is.map w'.text := by
    rw [List.map_map]
    exact List.map_congr_left same
  rw [← e]
  refine tells.rewrite_whole phrase fun u c v cut => ?_
  obtain ⟨us, rest, rfl, -, behind⟩ := List.map_eq_append_iff.1 cut
  obtain ⟨i, vs, rfl, rfl, rfl⟩ := List.map_eq_cons_iff.1 behind
  exact apart us i vs rfl

/-- Items in parentheses, where they are needed. -/
def wrapItems (needed : Bool) (is : List Item) : List Item :=
  if needed then .leftParen :: is ++ [.rightParen] else is

/-- The items behind the operands of an exclusive disjunction. -/
def asideItems : List Item :=
  [.leftParen, .contrast, .denial, .rightParen]

/-- The items of a formula. -/
def items : Formula → List Item
  | .atom label => [.atom label]
  | .not operand => .negation :: wrapItems (!operand.isLiteral) (items operand)
  | .binary op left right =>
    let front := wrapItems (!left.isLiteral) (items left)
    let back := wrapItems (!right.isLiteral) (items right)
    match op with
    | .imp => .condition :: front ++ .conclusion :: back
    | .xor => front ++ .link .xor :: (back ++ asideItems)
    | op => front ++ .link op :: back

/-- The items of an operand. -/
def operandItems (f : Formula) : List Item :=
  wrapItems (!f.isLiteral) (items f)

/-! ## Items that meet -/

/-- Whether an operand can begin with an item. -/
def Item.begins : Item → Bool
  | .atom _ => true
  | .negation => true
  | .leftParen => true
  | _ => false

/-- Whether an operand can end with an item. -/
def Item.finishes : Item → Bool
  | .atom _ => true
  | .rightParen => true
  | _ => false

/-- Whether two items can meet. -/
def Meets : Item → Item → Prop
  | .negation, next => ∃ label, next = .atom label
  | item, next => next.begins = !item.finishes

/-- Items that can stand as an operand. -/
structure Formed (is : List Item) : Prop where
  chain : is.IsChain Meets
  first : is.head?.any Item.begins = true
  last : is.getLast?.any Item.finishes = true

/-- An operand has items. -/
lemma Formed.ne_nil {is : List Item} (formed : Formed is) : is ≠ [] := by
  rintro rfl
  cases formed.first

/-- An operand meets what its last item meets. -/
lemma Formed.chain_append {is js : List Item} (formed : Formed is) (chain : js.IsChain Meets)
    (next : js.head?.any Item.begins = false) : (is ++ js).IsChain Meets := by
  rw [List.isChain_append]
  refine ⟨formed.chain, chain, fun i last j first => ?_⟩
  have hi := formed.last
  rw [Option.mem_def.1 last] at hi
  rw [Option.mem_def.1 first] at next
  cases i with
  | negation => cases hi
  | _ => exact next.trans (by simpa using hi)

/-- An operand can stand behind an item that asks for one. -/
lemma Formed.chain_cons {i : Item} {is js : List Item} (formed : Formed is) (ne : i ≠ .negation)
    (open' : i.finishes = false) (chain : (is ++ js).IsChain Meets) :
    (i :: (is ++ js)).IsChain Meets := by
  rw [List.isChain_cons]
  refine ⟨fun j first => ?_, chain⟩
  have hj := formed.first
  rw [List.head?_append_of_ne_nil _ formed.ne_nil] at first
  rw [Option.mem_def.1 first] at hj
  cases i with
  | negation => exact absurd rfl ne
  | _ => exact Eq.trans hj (by rw [open']; rfl)

/-- An operand can stand behind what does not finish one. -/
lemma Formed.chain_behind {i : Item} {is : List Item} (formed : Formed is) (ne : i ≠ .negation)
    (open' : i.finishes = false) : (i :: is).IsChain Meets := by
  have chain : (is ++ []).IsChain Meets := by
    rw [List.append_nil]
    exact formed.chain
  rw [← List.append_nil is]
  exact formed.chain_cons ne open' chain

/-- An operand in parentheses is an operand. -/
lemma Formed.wrap {is : List Item} (formed : Formed is) :
    Formed (.leftParen :: is ++ [.rightParen]) := by
  refine ⟨?_, rfl, by simp [List.getLast?_cons, Item.finishes]⟩
  apply formed.chain_cons (by decide) rfl
  exact formed.chain_append (.singleton _) rfl

/-- Two operands with a link between them can stand as an operand. -/
lemma Formed.link {is js : List Item} (hl : Formed is) (op : Connective) (hr : Formed js) :
    Formed (is ++ .link op :: js) := by
  have right : (.link op :: js).IsChain Meets := hr.chain_behind (by simp) rfl
  refine ⟨hl.chain_append right rfl, ?_, ?_⟩
  · rw [List.head?_append_of_ne_nil _ hl.ne_nil]
    exact hl.first
  · obtain ⟨j, js, rfl⟩ := List.exists_cons_of_ne_nil hr.ne_nil
    rw [List.getLast?_append_of_ne_nil _ (List.cons_ne_nil _ _), List.getLast?_cons_cons]
    exact hr.last

section
variable {f left right : Formula} {op : Connective}

/-- The operands of a simple connective have its link between them. -/
lemma items_binary (simple : [Connective.and, .or, .iff].contains op = true) :
    items (.binary op left right) = operandItems left ++ .link op :: operandItems right := by
  cases op with
  | xor => cases simple
  | imp => cases simple
  | _ => rfl

/-- The operands of a conditional have its two words before them. -/
lemma items_imp :
    items (.binary .imp left right)
      = .condition :: operandItems left ++ .conclusion :: operandItems right := by
  rfl

/-- An exclusive disjunction has its link between its operands and more words behind them. -/
lemma items_xor :
    items (.binary .xor left right)
      = operandItems left ++ .link .xor :: (operandItems right ++ asideItems) := by
  rfl

/-- The operands of a simple formula are simple, and so is its connective. -/
lemma isSimple_binary (simple : (Formula.binary op left right).isSimple = true) :
    [Connective.and, .or, .iff].contains op = true ∧ left.isSimple = true ∧
      right.isSimple = true := by
  rw [Formula.isSimple, Bool.and_eq_true, Bool.and_eq_true] at simple
  exact ⟨simple.1.1, simple.1.2, simple.2⟩

/-- In a simple formula an atom is negated. -/
lemma isSimple_not (simple : (Formula.not f).isSimple = true) : ∃ label, f = .atom label := by
  cases f with
  | atom label => exact ⟨label, rfl⟩
  | _ => cases simple

/-- A formula that can stand as an operand can do so in its parentheses. -/
lemma formed_operandItems (formed : Formed (items f)) : Formed (operandItems f) := by
  rw [operandItems, wrapItems]
  split
  · exact formed.wrap
  · exact formed

/-- The items of a simple formula can stand as an operand. -/
lemma formed_items (simple : f.isSimple = true) : Formed (items f) := by
  induction f with
  | atom label => exact ⟨.singleton _, rfl, rfl⟩
  | not operand _ =>
    obtain ⟨label, rfl⟩ := isSimple_not simple
    refine ⟨?_, rfl, rfl⟩
    exact List.isChain_cons_cons.2 ⟨⟨label, rfl⟩, .singleton _⟩
  | binary op left right ihl ihr =>
    obtain ⟨kind, hl, hr⟩ := isSimple_binary simple
    rw [items_binary kind]
    exact (formed_operandItems (ihl hl)).link op (formed_operandItems (ihr hr))

/-- A translatable formula is simple or a conditional of simple formulas. -/
lemma isTranslatable_cases (translatable : f.isTranslatable = true) :
    f.isSimple = true ∨ ∃ left right, f = .binary .imp left right ∧ left.isSimple = true ∧
      right.isSimple = true := by
  cases f with
  | binary op left right =>
    cases op with
    | imp => exact .inr ⟨left, right, rfl, by simpa [Formula.isTranslatable] using translatable⟩
    | _ => exact .inl translatable
  | _ => exact .inl translatable

/-- The items that a simple formula can have besides atoms. -/
def simpleItems : List Item :=
  [.negation, .leftParen, .rightParen, .link .and, .link .or, .link .iff]

/-- The items besides atoms that have signs. -/
def signItems : List Item :=
  .link .imp :: simpleItems

/-- Atoms are none of the items that have signs. -/
lemma atom_not_mem_signItems (label : Text) : .atom label ∉ signItems := by
  simp [signItems, simpleItems]

/-- The items that a formula can have besides atoms. -/
def fixedItems : List Item :=
  [.condition, .conclusion, .link .xor, .contrast, .denial] ++ simpleItems

/-- Atoms are none of the fixed items. -/
lemma atom_not_mem_fixedItems (label : Text) : .atom label ∉ fixedItems := by
  simp [fixedItems, simpleItems]

/-- A fixed item is no atom. -/
lemma ne_atom_of_mem_fixedItems {i : Item} (mem : i ∈ fixedItems) (label : Text) :
    i ≠ .atom label := by
  rintro rfl
  exact atom_not_mem_fixedItems label mem

section
variable {i : Item} {fixed : List Item}

/-- An operand adds only parentheses to the items of its formula. -/
lemma mem_operandItems (parens : ∀ i ∈ [Item.leftParen, .rightParen], i ∈ fixed)
    (inner : i ∈ items f → (∃ label ∈ f.leaves, i = .atom label) ∨ i ∈ fixed)
    (mem : i ∈ operandItems f) : (∃ label ∈ f.leaves, i = .atom label) ∨ i ∈ fixed := by
  rw [operandItems, wrapItems] at mem
  split at mem
  · simp only [List.cons_append, List.mem_cons, List.mem_append, List.not_mem_nil,
      or_false] at mem
    rcases mem with rfl | mem | rfl
    · exact .inr (parens _ (by decide))
    · exact inner mem
    · exact .inr (parens _ (by decide))
  · exact inner mem

/-- What is known of the items of an operand is known of them in the whole formula. -/
lemma atom_or_left (h : (∃ label ∈ left.leaves, i = .atom label) ∨ i ∈ fixed) :
    (∃ label ∈ (Formula.binary op left right).leaves, i = .atom label) ∨ i ∈ fixed :=
  h.imp_left fun ⟨label, leaf, e⟩ => ⟨label, List.mem_append_left _ leaf, e⟩

/-- The items of a right operand are among those of the formula. -/
lemma atom_or_right (h : (∃ label ∈ right.leaves, i = .atom label) ∨ i ∈ fixed) :
    (∃ label ∈ (Formula.binary op left right).leaves, i = .atom label) ∨ i ∈ fixed :=
  h.imp_left fun ⟨label, leaf, e⟩ => ⟨label, List.mem_append_right _ leaf, e⟩

end

/-- The items of a simple formula are its atoms and simple items. -/
lemma mem_items_of_isSimple (simple : f.isSimple = true) {i : Item} (mem : i ∈ items f) :
    (∃ label ∈ f.leaves, i = .atom label) ∨ i ∈ simpleItems := by
  induction f with
  | atom label => exact .inl ⟨label, List.mem_cons_self, List.mem_singleton.1 mem⟩
  | not operand _ =>
    obtain ⟨label, rfl⟩ := isSimple_not simple
    rcases List.mem_cons.1 mem with rfl | mem
    · exact .inr (by decide)
    · exact .inl ⟨label, List.mem_cons_self, List.mem_singleton.1 mem⟩
  | binary op left right ihl ihr =>
    obtain ⟨kind, hl, hr⟩ := isSimple_binary simple
    have parens : ∀ i ∈ [Item.leftParen, .rightParen], i ∈ simpleItems := by decide
    have links : ∀ op ∈ [Connective.and, .or, .iff], .link op ∈ simpleItems := by decide
    rw [items_binary kind, List.mem_append, List.mem_cons] at mem
    rcases mem with mem | rfl | mem
    · exact atom_or_left (mem_operandItems parens (ihl hl) mem)
    · exact .inr (links op (List.contains_iff_mem.1 kind))
    · exact atom_or_right (mem_operandItems parens (ihr hr) mem)

/-- The items of a simple operand are its atoms and simple items. -/
lemma mem_operandItems_simple (simple : f.isSimple = true) {i : Item} (mem : i ∈ operandItems f) :
    (∃ label ∈ f.leaves, i = .atom label) ∨ i ∈ simpleItems :=
  mem_operandItems (by decide) (mem_items_of_isSimple simple) mem

/-- The items of a formula are its atoms and fixed items. -/
lemma mem_items {i : Item} (mem : i ∈ items f) :
    (∃ label ∈ f.leaves, i = .atom label) ∨ i ∈ fixedItems := by
  have parens : ∀ i ∈ [Item.leftParen, .rightParen], i ∈ fixedItems := by decide
  have asides : ∀ i ∈ asideItems, i ∈ fixedItems := by decide
  induction f with
  | atom label => exact .inl ⟨label, List.mem_cons_self, List.mem_singleton.1 mem⟩
  | not operand ih =>
    rcases List.mem_cons.1 mem with rfl | mem
    · exact .inr (by decide)
    · exact mem_operandItems (f := operand) parens ih mem
  | binary op left right ihl ihr =>
    have front : i ∈ operandItems left →
        (∃ label ∈ (Formula.binary op left right).leaves, i = .atom label) ∨ i ∈ fixedItems :=
      fun mem => atom_or_left (mem_operandItems parens ihl mem)
    have back : i ∈ operandItems right →
        (∃ label ∈ (Formula.binary op left right).leaves, i = .atom label) ∨ i ∈ fixedItems :=
      fun mem => atom_or_right (mem_operandItems parens ihr mem)
    cases op with
    | imp =>
      rw [items_imp, List.mem_append, List.mem_cons, List.mem_cons] at mem
      rcases mem with (rfl | mem) | rfl | mem
      · exact .inr (by decide)
      · exact front mem
      · exact .inr (by decide)
      · exact back mem
    | xor =>
      rw [items_xor, List.mem_append, List.mem_cons, List.mem_append] at mem
      rcases mem with mem | rfl | mem | mem
      · exact front mem
      · exact .inr (by decide)
      · exact back mem
      · exact .inr (asides i mem)
    | _ =>
      rw [items_binary (by decide), List.mem_append, List.mem_cons] at mem
      rcases mem with mem | rfl | mem
      · exact front mem
      · exact .inr (by decide)
      · exact back mem

/-! ## Neighbours in any formula -/

/-- Whether an item can stand next to another in what a formula is read as. -/
def Adjoins : Item → Item → Prop
  | .atom _, next => ∀ label, next ≠ .atom label
  | .negation, next => next.begins = true
  | .condition, next => next.begins = true
  | _, _ => True

/-- What finishes an operand can stand next to anything but an atom. -/
lemma Adjoins.of_finishes {i j : Item} (finishes : i.finishes = true)
    (ne : ∀ label, j ≠ .atom label) : Adjoins i j := by
  cases i with
  | atom label => exact ne
  | rightParen => exact trivial
  | _ => cases finishes

/-- Items the last of which finishes an operand. -/
structure Placed (is : List Item) : Prop where
  chain : is.IsChain Adjoins
  last : is.getLast?.any Item.finishes = true

/-- Items the last of which finishes an operand are not empty. -/
lemma Placed.ne_nil {is : List Item} (placed : Placed is) : is ≠ [] := by
  rintro rfl
  cases placed.last

/-- Placed items can follow others if they do not begin with an atom. -/
lemma Placed.append {is js : List Item} (hi : Placed is) (hj : Placed js)
    (next : ∀ label, js.head? ≠ some (.atom label)) : Placed (is ++ js) := by
  refine ⟨List.isChain_append.2 ⟨hi.chain, hj.chain, fun i last j first => ?_⟩, ?_⟩
  · have finishes := hi.last
    rw [Option.mem_def.1 last] at finishes
    exact .of_finishes finishes fun label e => next label (e ▸ first)
  · rw [List.getLast?_append_of_ne_nil _ hj.ne_nil]
    exact hj.last

/-- One item more can stand in front of placed ones. -/
lemma Placed.cons {i : Item} {is : List Item} (h : Placed is) (next : ∀ j ∈ is.head?, Adjoins i j) :
    Placed (i :: is) := by
  obtain ⟨j, js, rfl⟩ := List.exists_cons_of_ne_nil h.ne_nil
  refine ⟨List.isChain_cons.2 ⟨next, h.chain⟩, ?_⟩
  rw [List.getLast?_cons_cons]
  exact h.last

/-- Any operand begins as one. -/
lemma operandItems_first (f : Formula) {j : Item} (first : j ∈ (operandItems f).head?) :
    j.begins = true := by
  rw [operandItems, wrapItems] at first
  cases literal : f.isLiteral with
  | false =>
    rw [literal] at first
    cases first
    rfl
  | true =>
    rw [literal] at first
    cases f with
    | atom label =>
      cases first
      rfl
    | not operand =>
      cases first
      rfl
    | binary => cases literal

/-- The items of an operand are placed if those of the formula are. -/
lemma placed_operandItems (placed : Placed (items f)) : Placed (operandItems f) := by
  rw [operandItems, wrapItems]
  split
  · have close : Placed [.rightParen] := ⟨.singleton _, rfl⟩
    exact (placed.append close (by simp)).cons fun _ _ => trivial
  · exact placed

/-- In the items of any formula neighbours adjoin. -/
lemma placed_items (f : Formula) : Placed (items f) := by
  induction f with
  | atom label => exact ⟨.singleton _, rfl⟩
  | not operand ih => exact (placed_operandItems ih).cons fun _ first => operandItems_first _ first
  | binary op left right ihl ihr =>
    have front := placed_operandItems ihl
    have back := placed_operandItems ihr
    cases op with
    | imp =>
      have conclusion : Placed (.conclusion :: operandItems right) := back.cons fun _ _ => trivial
      refine (front.append conclusion (by simp)).cons fun j first => operandItems_first left ?_
      rwa [List.head?_append_of_ne_nil _ front.ne_nil] at first
    | xor =>
      have aside : Placed asideItems := by
        refine ⟨?_, rfl⟩
        rw [asideItems, List.isChain_cons_cons, List.isChain_cons_cons, List.isChain_cons_cons]
        exact ⟨trivial, trivial, trivial, .singleton _⟩
      have link : Placed (.link .xor :: (operandItems right ++ asideItems)) :=
        (back.append aside (by simp [asideItems])).cons fun _ _ => trivial
      exact front.append link (by simp)
    | _ =>
      rw [items_binary (by decide)]
      exact front.append (back.cons fun _ _ => trivial) (by simp)

/-! ## Negations -/

/-- Where items are neighbours, whether it is an atom that follows a negation. -/
def Negates (i j : Item) : Prop :=
  i = .negation → ∃ label, j = .atom label

/-- Items that can meet as a simple formula adjoin, and only atoms are negated. -/
lemma Meets.adjoins {i j : Item} (meets : Meets i j) : Adjoins i j ∧ Negates i j := by
  cases i with
  | atom label =>
    refine ⟨?_, nofun⟩
    rintro other rfl
    cases meets
  | negation =>
    obtain ⟨label, rfl⟩ := meets
    exact ⟨rfl, fun _ => ⟨label, rfl⟩⟩
  | condition => exact ⟨meets, nofun⟩
  | _ => exact ⟨trivial, nofun⟩

/-- An item that is no negation negates nothing. -/
lemma chain_negates_cons {i : Item} {is : List Item} (ne : i ≠ .negation) :
    (i :: is).IsChain Negates ↔ is.IsChain Negates := by
  rw [List.isChain_cons]
  exact and_iff_right fun _ _ e => absurd e ne

/-- No negation ends placed items, so none negates what follows them. -/
lemma Placed.chain_negates_append {is js : List Item} (placed : Placed is) :
    (is ++ js).IsChain Negates ↔ is.IsChain Negates ∧ js.IsChain Negates := by
  rw [List.isChain_append, ← and_assoc, and_iff_left]
  rintro i last j first rfl
  have finishes := placed.last
  rw [Option.mem_def.1 last] at finishes
  cases finishes

/-- Parentheses around an operand negate nothing. -/
lemma chain_negates_operandItems :
    (operandItems f).IsChain Negates ↔ (items f).IsChain Negates := by
  rw [operandItems, wrapItems]
  split
  · rw [List.cons_append, chain_negates_cons (by decide), (placed_items f).chain_negates_append]
    exact and_iff_left (.singleton _)
  · rfl

/-- Only an operand that is an atom begins with one. -/
lemma isAtom_of_head? {label : Text} (first : (operandItems f).head? = some (.atom label)) :
    f.isAtom = true := by
  rw [operandItems, wrapItems] at first
  split at first
  · cases first
  · cases f with
    | atom label => rfl
    | not operand => cases first
    | binary => contradiction

/-- An atom follows every negation among the items of a formula if only atoms are negated in it. -/
lemma chain_negates_items : (items f).IsChain Negates ↔ f.negatesAtoms = true := by
  induction f with
  | atom label => exact iff_of_true (.singleton _) rfl
  | not operand _ =>
    constructor
    · intro chain
      have placed := placed_operandItems (placed_items operand)
      obtain ⟨j, js, e⟩ := List.exists_cons_of_ne_nil placed.ne_nil
      have first : (operandItems operand).head? = some j := by
        rw [e]
        rfl
      obtain ⟨label, rfl⟩ := (List.isChain_cons.1 chain).1 j first rfl
      exact isAtom_of_head? first
    · intro negates
      cases operand with
      | atom label => exact List.isChain_cons_cons.2 ⟨fun _ => ⟨label, rfl⟩, .singleton _⟩
      | _ => cases negates
  | binary op left right ihl ihr =>
    have front := placed_operandItems (placed_items left)
    have back := placed_operandItems (placed_items right)
    rw [Formula.negatesAtoms, Bool.and_eq_true, ← ihl, ← ihr,
      ← chain_negates_operandItems (f := left), ← chain_negates_operandItems (f := right)]
    cases op with
    | imp =>
      rw [items_imp, List.cons_append, chain_negates_cons (by decide), front.chain_negates_append,
        chain_negates_cons (by decide)]
    | xor =>
      have aside : asideItems.IsChain Negates := by
        rw [asideItems, chain_negates_cons (by decide), chain_negates_cons (by decide),
          chain_negates_cons (by decide)]
        exact .singleton _
      rw [items_xor, front.chain_negates_append, chain_negates_cons (by decide),
        back.chain_negates_append, and_iff_left aside]
    | _ =>
      rw [items_binary (by decide), front.chain_negates_append, chain_negates_cons (by decide)]

/-! ## Links around atoms -/

/-- Whether no atom stands between two links. -/
def Loose : List Item → Prop
  | [] => True
  | i :: is =>
    (∀ op label op' rest, i = .link op → is ≠ .atom label :: .link op' :: rest) ∧ Loose is

/-- An item in front that is no link leaves items loose. -/
lemma loose_cons {i : Item} {is : List Item} (ne : ∀ op, i ≠ .link op) (loose : Loose is) :
    Loose (i :: is) :=
  ⟨fun op _ _ _ e => absurd e (ne op), loose⟩

/-- What the items of an operand begin with. -/
lemma operandItems_cases (simple : f.isSimple = true) :
    (∃ label, operandItems f = [.atom label]) ∨
    (∃ label, operandItems f = [.negation, .atom label]) ∨
    operandItems f = .leftParen :: items f ++ [.rightParen] := by
  cases f with
  | atom label => exact .inl ⟨label, rfl⟩
  | not operand =>
    obtain ⟨label, rfl⟩ := isSimple_not simple
    exact .inr (.inl ⟨label, rfl⟩)
  | binary => exact .inr (.inr rfl)

/-- In front of items without an atom between two links an operand puts none. -/
lemma loose_operandItems (simple : f.isSimple = true)
    (inner : ∀ rest, Loose rest → (∀ op more, rest ≠ .link op :: more) → Loose (items f ++ rest))
    {rest : List Item} (loose : Loose rest) : Loose (operandItems f ++ rest) := by
  rcases operandItems_cases simple with ⟨label, e⟩ | ⟨label, e⟩ | e
  · rw [e]
    exact loose_cons (by simp) loose
  · rw [e]
    exact loose_cons (by simp) (loose_cons (by simp) loose)
  · have behind : Loose (.rightParen :: rest) := loose_cons (by simp) loose
    rw [e, List.append_assoc, List.cons_append]
    exact loose_cons (by simp) (inner _ behind (by simp))

/-- Behind a link stands an operand, and no link behind that. -/
lemma loose_link (simple : f.isSimple = true) {rest : List Item}
    (next : ∀ op more, rest ≠ .link op :: more) (loose : Loose (operandItems f ++ rest)) :
    Loose (.link op :: (operandItems f ++ rest)) := by
  refine ⟨fun _ label op' more _ e => ?_, loose⟩
  rcases operandItems_cases simple with ⟨label', e'⟩ | ⟨label', e'⟩ | e'
  · rw [e'] at e
    exact next op' more (List.cons.inj e).2
  · rw [e'] at e
    exact absurd (List.cons.inj e).1 (by simp)
  · rw [e'] at e
    exact absurd (List.cons.inj e).1 (by simp)

/-- No atom of a simple formula stands between two links. -/
lemma loose_items (simple : f.isSimple = true) {rest : List Item} (loose : Loose rest)
    (next : ∀ op more, rest ≠ .link op :: more) : Loose (items f ++ rest) := by
  induction f generalizing rest with
  | atom label => exact loose_cons (by simp) loose
  | not operand _ =>
    obtain ⟨label, rfl⟩ := isSimple_not simple
    exact loose_cons (by simp) (loose_cons (by simp) loose)
  | binary op left right ihl ihr =>
    obtain ⟨kind, hl, hr⟩ := isSimple_binary simple
    rw [items_binary kind, List.append_assoc, List.cons_append]
    apply loose_operandItems hl fun _ => ihl hl
    exact loose_link hr next (loose_operandItems hr (fun _ => ihr hr) loose)

end

end Sentence

end Sentential
