import Mathlib.Tactic.Lemma
import Sentential.Proofs.Sentence.Links
import Sentential.Proofs.Sentence.Regular
import Sentential.Proofs.Sentence.Substitution
import Sentential.Sentence.Translation

/-!
# Chains of operands

A chain has phrases of a dictionary with `e` or `ou` between them. Such a sentence is in normal form
(`regular_chainText`), every phrase gets its label (`tells_substitute_chain`), and no rule but the
last three acts on it. The rule for exclusive disjunctions is made for `ou chove ou venta`, but it
finds such words inside of a chain too: where a second `ou` comes behind the operand of a first, the
two operands are taken as a pair, from the left (`paired`, `tells_paired`). The words that are left
get their signs one by one. So a chain is translated connective by connective iff no two
disjunctions in it are neighbours (`translate_chain`).
-/

namespace Sentential.Sentence

open Text Pattern Symbolic

/-- The parts of a chain behind its first operand: the word of each connective and the operand that
comes next. -/
def linked (word : Connective → Text) (links : List (Connective × Text)) : List Text :=
  links.flatMap fun link => [word link.1, link.2]

/-- A chain of operands. -/
def chainText (word : Connective → Text) (first : Text) (links : List (Connective × Text)) : Text :=
  unwords (first :: linked word links)

/-- The parts of a chain behind its first operand when pairs of neighbouring disjunctions, from the
left, are exclusive disjunctions of groups. -/
def paired (word : Connective → Text) : List (Connective × Text) → List Text
  | (.or, l) :: (.or, m) :: links => l.wrap :: ['⊕'] :: m.wrap :: paired word links
  | (op, l) :: links => word op :: l :: paired word links
  | [] => []

/-- The connectives of chains. -/
def chainOps : List Connective :=
  [.and, .or]

/-- The sign of a connective. -/
def sign (op : Connective) : Text :=
  [op.glyph]

/-- Whether two links are not both disjunctions. -/
def NotBothOr (a b : Connective × Text) : Prop :=
  ¬ (a.1 = .or ∧ b.1 = .or)

section
variable {word word' : Connective → Text} {links : List (Connective × Text)} {c : Text}

/-- A link that is not one of two neighbouring disjunctions keeps its connective. -/
lemma paired_cons {op : Connective} {l : Text}
    (alone : ∀ m more, links = (.or, m) :: more → op = .or → False) :
    paired word ((op, l) :: links) = word op :: l :: paired word links := by
  rw [paired]
  exact alone

/-- Where no two disjunctions are neighbours there is no pair. -/
lemma paired_eq_linked (apart : links.IsChain NotBothOr) :
    paired word links = linked word links := by
  induction links using paired.induct with
  | case1 l m links ih =>
    exact absurd ⟨rfl, rfl⟩ (List.isChain_cons_cons.1 apart).1
  | case2 op l links alone ih =>
    rw [paired_cons alone, ih apart.tail]
    rfl
  | case3 => rfl

/-- Else the operands of a pair become groups. -/
lemma exists_wrap_mem_paired (pair : ¬ links.IsChain NotBothOr) :
    ∃ link ∈ links, link.2.wrap ∈ paired word links := by
  induction links using paired.induct with
  | case1 l m links ih => exact ⟨(.or, l), List.mem_cons_self, List.mem_cons_self⟩
  | case2 op l links alone ih =>
    have rest : ¬ links.IsChain NotBothOr := by
      intro apart
      refine pair (List.isChain_cons.2 ⟨fun link first both => ?_, apart⟩)
      obtain ⟨more, e⟩ := List.head?_eq_some_iff.1 (Option.mem_def.1 first)
      obtain ⟨op', m⟩ := link
      obtain ⟨rfl, rfl⟩ := both
      exact alone m more e rfl
    obtain ⟨link, mem, group⟩ := ih rest
    rw [paired_cons alone]
    exact ⟨link, List.mem_cons_of_mem _ mem,
      List.mem_cons_of_mem _ (List.mem_cons_of_mem _ group)⟩
  | case3 => exact absurd .nil pair

/-- The parts of a chain. -/
lemma mem_linked (mem : c ∈ linked word links) :
    ∃ link ∈ links, c = word link.1 ∨ c = link.2 := by
  obtain ⟨link, memL, mem⟩ := List.mem_flatMap.1 mem
  exact ⟨link, memL, List.mem_pair.1 mem⟩

/-- The parts of a chain with pairs. -/
lemma mem_paired (mem : c ∈ paired word links) :
    c = ['⊕'] ∨ ∃ link ∈ links, c = word link.1 ∨ c = link.2 ∨ c = link.2.wrap := by
  induction links using paired.induct with
  | case1 l m links ih =>
    simp only [paired, List.mem_cons] at mem
    rcases mem with rfl | rfl | rfl | mem
    · exact .inr ⟨(.or, l), by simp, .inr (.inr rfl)⟩
    · exact .inl rfl
    · exact .inr ⟨(.or, m), by simp, .inr (.inr rfl)⟩
    · refine (ih mem).imp_right fun ⟨link, memL, e⟩ => ⟨link, ?_, e⟩
      exact List.mem_cons_of_mem _ (List.mem_cons_of_mem _ memL)
  | case2 op l links alone ih =>
    rw [paired_cons alone, List.mem_cons, List.mem_cons] at mem
    rcases mem with rfl | rfl | mem
    · exact .inr ⟨_, List.mem_cons_self, .inl rfl⟩
    · exact .inr ⟨_, List.mem_cons_self, .inr (.inl rfl)⟩
    · exact (ih mem).imp_right fun ⟨link, memL, e⟩ => ⟨link, List.mem_cons_of_mem _ memL, e⟩
  | case3 => cases mem

/-- Where only the words of connectives are written anew, they are so in the chain. -/
lemma map_paired {g : Text → Text} (plus : g ['⊕'] = ['⊕'])
    (each : ∀ link ∈ links,
      g (word link.1) = word' link.1 ∧ g link.2 = link.2 ∧ g link.2.wrap = link.2.wrap) :
    (paired word links).map g = paired word' links := by
  induction links using paired.induct with
  | case1 l m links ih =>
    obtain ⟨-, -, groupL⟩ := each (.or, l) (by simp)
    obtain ⟨-, -, groupM⟩ := each (.or, m) (by simp)
    have rest := ih fun link mem => each link (by simp [mem])
    simp only [paired, List.map_cons, plus, groupL, groupM, rest]
  | case2 op l links alone ih =>
    obtain ⟨sign, text, -⟩ := each (op, l) List.mem_cons_self
    have rest := ih fun link mem => each link (List.mem_cons_of_mem _ mem)
    rw [paired_cons alone, paired_cons alone, List.map_cons, List.map_cons, sign, text, rest]
  | case3 => rfl

end

/-! ## The items of a chain -/

/-- The items of a chain. -/
def chainItems (first : Text) (links : List (Connective × Text)) : List Item :=
  .atom first :: links.flatMap fun link => [.link link.1, .atom link.2]

section
variable {first : Text} {links : List (Connective × Text)}

/-- The texts of the items of a chain are those of its operands and connectives. -/
lemma map_chainItems (w : Wording) :
    (chainItems first links).map w.text
      = w.atom first :: linked w.link (links.map fun link => (link.1, w.atom link.2)) := by
  refine congrArg (w.atom first :: ·) ?_
  rw [List.map_flatMap, linked, List.flatMap_map]
  rfl

/-- The items of a chain can meet. -/
lemma isChain_chainItems : (chainItems first links).IsChain Meets := by
  induction links generalizing first with
  | nil => exact .singleton _
  | cons link links ih => exact .cons_cons rfl (.cons_cons rfl ih)

/-- The items of a chain are its operands and its connectives. -/
lemma mem_chainItems {i : Item} (mem : i ∈ chainItems first links) :
    i = .atom first ∨ ∃ link ∈ links, i = .link link.1 ∨ i = .atom link.2 := by
  refine (List.mem_cons.1 mem).imp_right fun mem => ?_
  obtain ⟨link, memL, mem⟩ := List.mem_flatMap.1 mem
  exact ⟨link, memL, by simpa using mem⟩

/-- A chain ends with an operand. -/
lemma finishes_chainItems : (chainItems first links).getLast?.any Item.finishes = true := by
  induction links generalizing first with
  | nil => rfl
  | cons link links ih => exact @ih link.2

/-- A disjunction comes behind the first operand only if its link does. -/
lemma chainItems_ne (alone : ∀ m more, links ≠ (.or, m) :: more) (l : Text) (rest : List Item) :
    chainItems first links ≠ .atom l :: .link .or :: rest := by
  intro e
  obtain ⟨-, e⟩ := List.cons.inj e
  cases links with
  | nil => cases e
  | cons link links =>
    obtain ⟨op, m⟩ := link
    obtain ⟨same, -⟩ := List.cons.inj e
    obtain rfl := Item.link.inj same
    exact alone m links rfl

/-- The items of a chain of labels. -/
lemma labelled_chainItems {fixed : List Item} (signs : .link .and ∈ fixed ∧ .link .or ∈ fixed)
    (label : IsLabel first) (known : ∀ link ∈ links, link.1 ∈ chainOps ∧ IsLabel link.2) :
    Labelled fixed (chainItems first links) := by
  intro i mem
  rcases mem_chainItems mem with rfl | ⟨link, memL, rfl | rfl⟩
  · exact .inl ⟨first, rfl, label⟩
  · have chainOp := (known link memL).1
    simp only [chainOps, List.mem_cons, List.not_mem_nil, or_false] at chainOp
    right
    rcases chainOp with e | e
    · exact e ▸ signs.1
    · exact e ▸ signs.2
  · exact .inl ⟨link.2, rfl, (known link memL).2⟩

/-- The first three rules have no signs for the connectives of a chain. -/
lemma map_signed_chainItems (known : ∀ link ∈ links, link.1 ∈ chainOps ∧ IsLabel link.2) :
    (chainItems first links).map (signed [.iff, .imp]).text = first :: linked linkWord links := by
  have plain : ∀ op ∈ chainOps, (signed [.iff, .imp]).link op = linkWord op := by decide
  rw [map_chainItems]
  refine congrArg (first :: ·) ?_
  rw [linked, List.flatMap_map, linked, List.flatMap_def, List.flatMap_def]
  refine congrArg List.flatten (List.map_congr_left fun link mem => ?_)
  rw [plain link.1 (known link mem).1]
  rfl

end

/-! ## Pairs of disjunctions -/

/-- Two words with the word of a disjunction before each and spaces between. -/
def pairText (i j k : Nat) (l m : Text) : Text :=
  orWord ++ (List.replicate (i + 1) ' ' ++ (l ++ (List.replicate (j + 1) ' ' ++
    (orWord ++ (List.replicate (k + 1) ' ' ++ m)))))

section
variable {before : Option Char} {l m s t : Text} {links : List (Connective × Text)}

/-- The parts of a pair stand one behind the other, and what follows stands behind them. -/
lemma pairText_append (i j k : Nat) (l m t : Text) :
    pairText i j k l m ++ t = orWord ++ (List.replicate (i + 1) ' ' ++ (l ++
      (List.replicate (j + 1) ' ' ++ (orWord ++ (List.replicate (k + 1) ' ' ++ (m ++ t)))))) := by
  simp only [pairText, List.append_assoc]

/-- The last character of a pair is that of its second operand. -/
lemma behind_pairText (i j k : Nat) (ne : m ≠ []) :
    behind before (pairText i j k l m) = behind none m := by
  have cut : pairText i j k l m = orWord ++ (List.replicate (i + 1) ' ' ++ (l ++
      (List.replicate (j + 1) ' ' ++ (orWord ++ List.replicate (k + 1) ' ')))) ++ m := by
    simp only [pairText, List.append_assoc]
  rw [cut, behind_append _ _ ne]

/-- An exclusive disjunction is found there. -/
lemma findExclusiveOr_pairText (i j k : Nat) (start : before.any isWordChar = false)
    (wordL : IsWord l) (wordM : IsWord m) (stop : t.head?.any isWordChar = false) :
    findExclusiveOr before (pairText i j k l m ++ t)
      = some (foundUpTo (pairText i j k l m ++ t) t [l, m]) := by
  have orPhrase : IsPhrase orWord := by decide
  have cut := pairText_append i j k l m t
  have first : boundary before (pairText i j k l m ++ t).head? = true := by
    rw [cut, List.head?_append_of_ne_nil _ orPhrase.ne_nil, boundary, start, orPhrase.1]
    rfl
  -- each word is found behind the blanks that follow the one before
  have stopL : (List.replicate (j + 1) ' ' ++ (orWord ++ (List.replicate (k + 1) ' ' ++
      (m ++ t)))).head?.any isWordChar = false :=
    isWordChar_ends ' ' (by decide)
  rw [findExclusiveOr_eq, first, behind?_eq_some.2 cut, Option.bind_some,
    behindBlanks?_spaces i (wordL.isPhrase.firm.append _).solid, Option.bind_some,
    word?_append wordL stopL, Option.bind_some,
    behindBlanks?_spaces j (orPhrase.firm.append _).solid, Option.bind_some,
    behind?_eq_some.2 rfl, Option.bind_some,
    behindBlanks?_spaces k (wordM.isPhrase.firm.append _).solid, Option.bind_some,
    word?_append wordM stop]
  rfl

/-- The two words become groups around the sign. -/
lemma rewriteFrom_pairText (i j k : Nat) (start : before.any isWordChar = false)
    (wordL : IsWord l) (wordM : IsWord m) (stop : t.head?.any isWordChar = false) :
    rewriteFrom exclusiveOrRule.pattern 0 before (pairText i j k l m ++ t)
      = ' ' :: (l.wrap ++ ' ' :: (['⊕'] ++ ' ' :: (m.wrap ++ ' ' ::
          rewriteFrom exclusiveOrRule.pattern 0 (behind none m) t))) := by
  have ne : pairText i j k l m ≠ [] := List.cons_ne_nil _ _
  rw [Rule.rewriteFrom_found ne (findExclusiveOr_pairText i j k start wordL wordM stop),
    behind_pairText i j k wordM.1]
  show (" (".toList ++ (l ++ (") ⊕ (".toList ++ (m ++ (") ".toList ++ []))))) ++ _ = _
  simp [Text.wrap]

/-- A text of a pair has its two words behind the words of disjunctions. -/
lemma tells_pair_inv {cs : List Text} (labelL : IsLabel l) (labelM : IsLabel m)
    (tells : Tells (orWord :: l :: orWord :: m :: cs) s) :
    ∃ h i j k t, s = List.replicate h ' ' ++ (pairText i j k l m ++ t) ∧ Joint m t ∧
      Tells cs t := by
  have marks : ¬ IsLabel ['('] ∧ ¬ IsLabel ['¬'] := by decide
  have firm : Firm orWord := IsPhrase.firm (by decide)
  obtain ⟨h, _, rfl, joint, tells⟩ := tells.cons_inv
  obtain ⟨i, _, rfl, joint, tells⟩ :=
    tells.firm_inv (firm_label labelL) (joint.ends (by decide) (by decide))
  obtain ⟨j, _, rfl, joint, tells⟩ :=
    tells.firm_inv firm (joint.ends (fun e => marks.1 (e ▸ labelL)) fun e => marks.2 (e ▸ labelL))
  obtain ⟨k, t, rfl, joint, tells⟩ :=
    tells.firm_inv (firm_label labelM) (joint.ends (by decide) (by decide))
  exact ⟨h, i, j, k, t, by rw [pairText_append], joint, tells⟩

/-- A pair of disjunctions is taken whatever comes behind it. -/
lemma tells_pair {cs ds : List Text} (labelL : IsLabel l) (labelM : IsLabel m)
    (rest : ∀ {before s}, Opens before s → Tells cs s →
      Tells ds (rewriteFrom exclusiveOrRule.pattern 0 before s))
    (opens : Opens before s) (tells : Tells (orWord :: l :: orWord :: m :: cs) s) :
    Tells (l.wrap :: ['⊕'] :: m.wrap :: ds) (rewriteFrom exclusiveOrRule.pattern 0 before s) := by
  have acts := exclusiveOrRule_atWord
  obtain ⟨h, i, j, k, t, rfl, joint, tells⟩ := tells_pair_inv labelL labelM tells
  obtain ⟨before', from', e⟩ := acts.rewriteFrom_spaces before h (pairText i j k l m ++ t)
  have opens' := opens.of_spaces from'
  rw [pairText_append] at opens'
  have stop := joint.stop labelM.isWord.isPhrase.2
  rw [e, rewriteFrom_pairText i j k (opens'.start (by decide)) labelL.isWord labelM.isWord stop]
  have behindM : Tells ds (rewriteFrom exclusiveOrRule.pattern 0 (behind none m) t) :=
    rest joint.opens tells
  exact Tells.spaces (.space (((behindM.word m.wrap).word ['⊕']).word l.wrap)) h

/-- The word of a disjunction that begins no pair is kept. -/
lemma tells_alone {cs ds : List Text}
    (miss : ∀ before t, Tells cs t → exclusiveOrRule.pattern before (orWord ++ t) = none)
    (rest : ∀ {before s}, Opens before s → Tells cs s →
      Tells ds (rewriteFrom exclusiveOrRule.pattern 0 before s))
    (tells : Tells (orWord :: cs) s) :
    Tells (orWord :: ds) (rewriteFrom exclusiveOrRule.pattern 0 before s) := by
  have acts := exclusiveOrRule_atWord
  obtain ⟨k, t, rfl, joint, tells⟩ := tells.cons_inv
  obtain ⟨before', -, e⟩ := acts.rewriteFrom_spaces before k (orWord ++ t)
  rw [e, acts.rewriteFrom_front (by decide) (by decide) (miss before' t tells)]
  exact Tells.spaces (.part (acts.joint_rewriteFrom joint) (rest joint.opens tells)) k

/-- The rule takes pairs of disjunctions, from the left, and keeps all other parts. -/
lemma tells_paired (known : ∀ link ∈ links, link.1 ∈ chainOps ∧ IsLabel link.2)
    (opens : Opens before s) (tells : Tells (linked linkWord links) s) :
    Tells (paired linkWord links) (rewriteFrom exclusiveOrRule.pattern 0 before s) := by
  have acts := exclusiveOrRule_atWord
  induction links using paired.induct generalizing before s with
  | case1 l m links ih =>
    have labelL : IsLabel l := (known (.or, l) (by simp)).2
    have labelM : IsLabel m := (known (.or, m) (by simp)).2
    exact tells_pair labelL labelM (ih fun link mem => known link (by simp [mem])) opens tells
  | case2 op l links alone ih =>
    have chainOp : op ∈ chainOps := (known (op, l) List.mem_cons_self).1
    have label : IsLabel l := (known (op, l) List.mem_cons_self).2
    have known' : ∀ link ∈ links, link.1 ∈ chainOps ∧ IsLabel link.2 :=
      fun link mem => known link (List.mem_cons_of_mem _ mem)
    have absent : ∀ c ∈ [l], orWord ∉ wordRuns c := by
      intro c mem
      rw [List.mem_singleton.1 mem]
      exact label.not_mem_wordRuns ⟨'o', by decide⟩
    have rest : ∀ {before s}, Opens before s → Tells (l :: linked linkWord links) s →
        Tells (l :: paired linkWord links) (rewriteFrom exclusiveOrRule.pattern 0 before s) :=
      fun opens tells => acts.tells_behind absent (ih known') opens tells
    rw [paired_cons alone]
    simp only [chainOps, List.mem_cons, List.not_mem_nil, or_false] at chainOp
    rcases chainOp with rfl | rfl
    · have absentAnd : ∀ c ∈ [andWord], orWord ∉ wordRuns c := by decide
      exact acts.tells_behind absentAnd rest opens tells
    · refine tells_alone (fun before' t tells => ?_) rest tells
      -- no disjunction comes behind the operand, so there is nothing for the rule to find
      rw [← map_signed_chainItems known'] at tells
      have chain : (.link .or :: chainItems l links).IsChain Meets :=
        .cons_cons rfl isChain_chainItems
      have labelled : Labelled signItems (chainItems l links) :=
        labelled_chainItems (by decide) label known'
      have alone' : ∀ l' rest, chainItems l links ≠ .atom l' :: .link .or :: rest :=
        chainItems_ne fun m more e => alone m more e rfl
      exact congrArg (Option.map _) (findExclusiveOr_eq_none chain alone' labelled tells)
  | case3 =>
    obtain ⟨k, rfl⟩ := tells.nil_inv
    obtain ⟨before', -, e⟩ := acts.rewriteFrom_spaces before k []
    rw [List.append_nil] at e
    rw [e, rewriteFrom_nil]
    exact Tells.nil.spaces k

end

/-! ## The parts of a chain with pairs -/

/-- The words of the connectives of chains and the signs. -/
def chainMarks : List Text :=
  [andWord, orWord, ['⊕'], ['∧'], ['∨']]

/-- A part of a chain: what stands for a connective, or an operand. -/
def IsChainPart (c : Text) : Prop :=
  c ∈ chainMarks ∨ ∃ l, IsLabel l ∧ (c = l ∨ c = l.wrap)

/-- A part of a chain with a sign for the word of a connective. -/
def partSign (c : Text) : Text :=
  orSigned (andSigned c)

/-- What stands for a connective is the word of a conjunction or does not begin like it. -/
lemma chainMarks_noAnd : ∀ c ∈ chainMarks, c = andWord ∨ NoAnd c := by decide

set_option maxRecDepth 4000 in
/-- What stands for a connective is the word of a disjunction or does not have it. -/
lemma chainMarks_orApart : ∀ c ∈ chainMarks, OrApart c := by decide

set_option maxRecDepth 4000 in
/-- What stands for a connective is not `(` and not `¬`, and it has no blanks. -/
lemma chainMarks_solid : ∀ c ∈ chainMarks, c ≠ ['('] ∧ c ≠ ['¬'] ∧ ∀ d ∈ c, isBlank d = false := by
  decide

/-- What stands for a connective is firm. -/
lemma firm_chainMarks {c : Text} (mem : c ∈ chainMarks) : Firm c := by
  simp only [chainMarks, List.mem_cons, List.not_mem_nil, or_false] at mem
  rcases mem with rfl | rfl | rfl | rfl | rfl
  all_goals exact ⟨_, _, rfl, by decide, by decide⟩

/-- The marks are no operands. -/
lemma not_mem_chainMarks {l : Text} (label : IsLabel l) : l ∉ chainMarks ∧ l.wrap ∉ chainMarks := by
  have first : ∀ c ∈ chainMarks, ¬ IsLabel c ∧ c.head? ≠ some '(' := by decide
  exact ⟨fun mem => (first l mem).1 label, fun mem => (first _ mem).2 rfl⟩

section
variable {c first l s : Text} {links : List (Connective × Text)}

/-- A label in parentheses has no blanks. -/
lemma isBlank_wrap (label : IsLabel l) : ∀ d ∈ l.wrap, isBlank d = false := by
  have marks : ∀ d ∈ ['(', ')'], isBlank d = false := by decide
  intro d mem
  rcases List.mem_append.1 mem with mem | mem
  · rcases List.mem_cons.1 mem with rfl | mem
    · exact marks '(' (by decide)
    · exact label.isBlank d mem
  · exact marks d (by simp [List.mem_singleton.1 mem])

/-- A label in parentheses has one word, the label. -/
lemma wordRuns_wrap (label : IsLabel l) : wordRuns l.wrap = [l] := by
  have close : Parted isWordChar l [')'] := .inr (by decide)
  have none : wordRuns [')'] = [] := by decide
  rw [Text.wrap, List.cons_append, wordRuns_cons _ (by decide), wordRuns_append close,
    label.isWord.wordRuns, none]
  rfl

/-- No operand is the word of a connective or begins with one. -/
lemma IsChainPart.noAnd (part : IsChainPart c) : c = andWord ∨ NoAnd c := by
  rcases part with mark | ⟨l, label, rfl | rfl⟩
  · exact chainMarks_noAnd c mark
  · exact .inr (noAnd_label label)
  · exact .inr ⟨List.cons_ne_nil _ _, fun e => absurd (Option.some.inj e) (by decide),
      isBlank_wrap label⟩

/-- A part of a chain is the word of a disjunction or does not have it. -/
lemma IsChainPart.orApart (part : IsChainPart c) : OrApart c := by
  rcases part with mark | ⟨l, label, rfl | rfl⟩
  · exact chainMarks_orApart c mark
  · exact orApart_label label
  · right
    rw [wordRuns_wrap label, ← label.isWord.wordRuns]
    exact label.not_mem_wordRuns ⟨'o', by decide⟩

/-- Parts of a chain need spaces between them. -/
lemma IsChainPart.solid (part : IsChainPart c) :
    Firm c ∧ c ≠ ['('] ∧ c ≠ ['¬'] ∧ ∀ d ∈ c, isBlank d = false := by
  have signs : ¬ IsLabel ['('] ∧ ¬ IsLabel ['¬'] := by decide
  rcases part with mark | ⟨l, label, rfl | rfl⟩
  · exact ⟨firm_chainMarks mark, chainMarks_solid c mark⟩
  · exact ⟨firm_label label, fun e => signs.1 (e ▸ label), fun e => signs.2 (e ▸ label),
      label.isBlank⟩
  · refine ⟨⟨'(', _, rfl, by decide, by decide⟩, fun e => ?_, fun e => ?_, isBlank_wrap label⟩
    · simp [Text.wrap] at e
    · exact absurd (List.cons.inj e).1 (by decide)

/-- A part of a chain stays one when conjunctions get their sign. -/
lemma IsChainPart.andSigned (part : IsChainPart c) : IsChainPart (andSigned c) := by
  rw [Sentence.andSigned]
  split
  · exact .inl (by decide)
  · exact part

/-- What does not stand for a connective gets no sign. -/
lemma partSign_of_not_mem (other : c ∉ chainMarks) : partSign c = c := by
  have and : c ≠ andWord := fun e => other (e ▸ by decide)
  have or : c ≠ orWord := fun e => other (e ▸ by decide)
  rw [partSign, Sentence.andSigned, if_neg and, orSigned, if_neg or]

/-- The parts of a link are parts of a chain. -/
lemma isChainPart_of_link {word : Connective → Text} {link : Connective × Text}
    (marks : ∀ op ∈ chainOps, word op ∈ chainMarks) (known : link.1 ∈ chainOps ∧ IsLabel link.2)
    (part : c = word link.1 ∨ c = link.2 ∨ c = link.2.wrap) : IsChainPart c := by
  rcases part with rfl | operand
  · exact .inl (marks link.1 known.1)
  · exact .inr ⟨link.2, known.2, operand⟩

/-- The parts of a chain of labels are such parts. -/
lemma isChainPart_paired {word : Connective → Text} (marks : ∀ op ∈ chainOps, word op ∈ chainMarks)
    (label : IsLabel first) (known : ∀ link ∈ links, link.1 ∈ chainOps ∧ IsLabel link.2)
    (mem : c ∈ first :: paired word links) : IsChainPart c := by
  rcases List.mem_cons.1 mem with rfl | mem
  · exact .inr ⟨c, label, .inl rfl⟩
  · rcases mem_paired mem with rfl | ⟨link, memL, part⟩
    · exact .inl (by decide)
    · exact isChainPart_of_link marks (known link memL) part

/-- The parts that are linked are parts of a chain. -/
lemma isChainPart_linked {word : Connective → Text} (marks : ∀ op ∈ chainOps, word op ∈ chainMarks)
    (label : IsLabel first) (known : ∀ link ∈ links, link.1 ∈ chainOps ∧ IsLabel link.2)
    (mem : c ∈ first :: linked word links) : IsChainPart c := by
  rcases List.mem_cons.1 mem with rfl | mem
  · exact .inr ⟨c, label, .inl rfl⟩
  · obtain ⟨link, memL, part⟩ := mem_linked mem
    exact isChainPart_of_link marks (known link memL) (part.imp_right .inl)

/-- There are no groups in a chain without pairs. -/
lemma wrap_not_mem_linked {word : Connective → Text}
    (marks : ∀ op ∈ chainOps, word op ∈ chainMarks)
    (known : ∀ link ∈ links, link.1 ∈ chainOps ∧ IsLabel link.2) (label : IsLabel l) :
    l.wrap ∉ linked word links := by
  intro mem
  obtain ⟨link, memL, e | e⟩ := mem_linked mem
  · exact (not_mem_chainMarks label).2 (e ▸ marks link.1 (known link memL).1)
  · have label' := (known link memL).2
    rw [← e] at label'
    exact absurd label'.1 (by decide)

/-- The last two rules give signs to the words that are left. -/
lemma map_partSign (label : IsLabel first)
    (known : ∀ link ∈ links, link.1 ∈ chainOps ∧ IsLabel link.2) :
    (first :: paired linkWord links).map partSign = first :: paired sign links := by
  have plus : partSign ['⊕'] = ['⊕'] := by decide
  have signs : ∀ op ∈ chainOps, partSign (linkWord op) = sign op := by decide
  rw [List.map_cons, partSign_of_not_mem (not_mem_chainMarks label).1,
    map_paired plus fun link mem => ?_]
  obtain ⟨chainOp, labelL⟩ := known link mem
  obtain ⟨bare, group⟩ := not_mem_chainMarks labelL
  exact ⟨signs link.1 chainOp, partSign_of_not_mem bare, partSign_of_not_mem group⟩

/-! ## All rules -/

/-- The last two rules on a chain with pairs. -/
lemma tells_signs (label : IsLabel first)
    (known : ∀ link ∈ links, link.1 ∈ chainOps ∧ IsLabel link.2)
    (tells : Tells (first :: paired linkWord links) s) :
    Tells (first :: paired sign links) (disjunctionRule.apply (conjunctionRule.apply s)) := by
  have part : ∀ c ∈ first :: paired linkWord links, IsChainPart c :=
    fun c => isChainPart_paired (by decide) label known
  have apart : AndApart (first :: paired linkWord links) := by
    refine ⟨fun c mem => (part c mem).noAnd, List.Pairwise.isChain ?_⟩
    refine List.pairwise_of_forall_mem_list fun c mem _ _ _ => ?_
    exact ⟨(part c mem).solid.2.1, (part c mem).solid.2.2.1⟩
  have head : (first :: paired linkWord links).head? ≠ some andWord :=
    fun e => (not_mem_chainMarks label).1 (Option.some.inj e ▸ by decide)
  have conjunction := apart.tells_apply head tells
  have apart' : ∀ c ∈ (first :: paired linkWord links).map andSigned, OrApart c := by
    intro c mem
    obtain ⟨c', memC, rfl⟩ := List.mem_map.1 mem
    exact (part c' memC).andSigned.orApart
  have disjunction := tells_orSigned apart' conjunction
  rw [List.map_map] at disjunction
  rw [← map_partSign label known]
  exact disjunction

/-- All rules on a chain of labels. -/
lemma tells_applyRules_chain (label : IsLabel first)
    (known : ∀ link ∈ links, link.1 ∈ chainOps ∧ IsLabel link.2)
    (tells : Tells ((chainItems first links).map (spoken id).text) s) :
    Tells (first :: paired sign links) (applyRules s) := by
  have chain : (chainItems first links).IsChain Meets := isChain_chainItems
  have adjoins : (chainItems first links).IsChain Adjoins := chain.imp fun _ _ h => h.adjoins.1
  have negates : (chainItems first links).IsChain Negates := chain.imp fun _ _ h => h.adjoins.2
  have labelled : Labelled fixedItems (chainItems first links) :=
    labelled_chainItems (by decide) label known
  have labelled' : Labelled signItems (chainItems first links) :=
    labelled_chainItems (by decide) label known
  have negated := tells_negation negates labelled finishes_chainItems tells
  have biconditional := tells_biconditional adjoins labelled negated
  have same := labelled'.conditional_eq_self biconditional
  rw [map_signed_chainItems known] at biconditional
  have absent : ∀ c ∈ [first], orWord ∉ wordRuns c := by
    intro c mem
    rw [List.mem_singleton.1 mem]
    exact label.not_mem_wordRuns ⟨'o', by decide⟩
  rw [← same] at biconditional
  have pairs : Tells (first :: paired linkWord links) (exclusiveOrRule.apply _) :=
    exclusiveOrRule_atWord.tells_behind absent (tells_paired known) (.inl rfl) biconditional
  exact tells_signs label known pairs

end

/-! ## Translating a chain -/

section
variable {d : Dictionary} {first : Text × Text} {links : List (Connective × Text × Text)}

/-- The links of a chain with the labels of its operands. -/
def labelLinks (links : List (Connective × Text × Text)) : List (Connective × Text) :=
  links.map fun link => (link.1, link.2.1)

/-- The links of a chain with the phrases of its operands. -/
def phraseLinks (links : List (Connective × Text × Text)) : List (Connective × Text) :=
  links.map fun link => (link.1, link.2.2)

/-- A chain of phrases is in normal form. -/
lemma regular_chainText (phrases : ∀ entry ∈ d.entries, IsSpoken entry.2)
    (memFirst : first ∈ d.entries)
    (known : ∀ link ∈ links, link.1 ∈ chainOps ∧ link.2 ∈ d.entries) :
    Regular (chainText linkWord first.2 (phraseLinks links)) := by
  have regular : ∀ {p}, IsNormal p → Regular p := by
    intro p normal
    rw [← normal]
    exact regular_normal p
  have phrase : ∀ entry ∈ d.entries, entry.2 ≠ [] ∧ Regular entry.2 :=
    fun entry mem => ⟨(phrases entry mem).phrase.ne_nil, regular (phrases entry mem).normal⟩
  have word : ∀ op ∈ chainOps, linkWord op ≠ [] ∧ IsNormal (linkWord op) := by decide
  refine (regular_unwords fun w mem => ?_).1
  rcases List.mem_cons.1 mem with rfl | mem
  · exact phrase first memFirst
  · obtain ⟨link', mem', mem⟩ := List.mem_flatMap.1 mem
    obtain ⟨link, memL, rfl⟩ := List.mem_map.1 mem'
    obtain ⟨chainOp, entry⟩ := known link memL
    rcases List.mem_pair.1 mem with rfl | rfl
    · exact (word link.1 chainOp).imp_right regular
    · exact phrase link.2 entry

/-- Every phrase of a chain gets its label. -/
lemma tells_substitute_chain [Engine] (labels : ∀ entry ∈ d.entries, IsLabel entry.1)
    (phrases : ∀ entry ∈ d.entries, IsSpoken entry.2) (distinct : (d.entries.map Prod.snd).Nodup)
    (memFirst : first ∈ d.entries)
    (known : ∀ link ∈ links, link.1 ∈ chainOps ∧ link.2 ∈ d.entries)
    (accepts : ∀ entry ∈ first :: links.map Prod.snd, Accepts entry.2) :
    Tells ((chainItems first.1 (labelLinks links)).map (spoken id).text)
      (substitute d (chainText linkWord first.2 (phraseLinks links))) := by
  let shown : Text → Text := fun l => (d.entries.lookup l).getD l
  have shown_eq : ∀ entry ∈ d.entries, shown entry.1 = entry.2 := by
    intro entry mem
    rw [show shown entry.1 = (d.entries.lookup entry.1).getD entry.1 from rfl, lookup_of_mem mem]
    rfl
  have used : ∀ entry ∈ first :: links.map Prod.snd, entry ∈ d.entries := by
    refine List.forall_mem_cons.2 ⟨memFirst, fun entry mem => ?_⟩
    obtain ⟨link, memL, rfl⟩ := List.mem_map.1 mem
    exact (known link memL).2
  have entries : ∀ l ∈ (first :: links.map Prod.snd).map Prod.fst,
      (l, shown l) ∈ d.entries ∧ Accepts (shown l) := by
    intro l mem
    obtain ⟨entry, memE, rfl⟩ := List.mem_map.1 mem
    rw [shown_eq entry (used entry memE)]
    exact ⟨used entry memE, accepts entry memE⟩
  have adjoins : (chainItems first.1 (labelLinks links)).IsChain Adjoins :=
    isChain_chainItems.imp fun _ _ h => h.adjoins.1
  have parts : (chainItems first.1 (labelLinks links)).map (spoken shown).text
      = first.2 :: linked linkWord (phraseLinks links) := by
    have phrase : (spoken shown).atom first.1 = first.2 := shown_eq first memFirst
    have same : (labelLinks links).map (fun link => (link.1, (spoken shown).atom link.2))
        = phraseLinks links := by
      rw [labelLinks, List.map_map]
      exact List.map_congr_left fun link mem =>
        congrArg (link.1, ·) (shown_eq link.2 (known link mem).2)
    rw [map_chainItems, phrase, same]
    rfl
  refine tells_substitute_of_entries labels phrases distinct adjoins (fun i mem => ?_)
    (fun l mem => (entries l mem).1) (fun l mem => (entries l mem).2) ?_
  · rcases mem_chainItems mem with rfl | ⟨link', mem', item⟩
    · exact .inl ⟨first.1, List.mem_cons_self, rfl⟩
    · obtain ⟨link, memL, rfl⟩ := List.mem_map.1 mem'
      rcases item with rfl | rfl
      · have fixed : ∀ op ∈ chainOps, .link op ∈ fixedItems := by decide
        exact .inr (fixed link.1 (known link memL).1)
      · have entry := List.mem_cons_of_mem first (List.mem_map_of_mem (f := Prod.snd) memL)
        exact .inl ⟨link.2.1, List.mem_map_of_mem entry, rfl⟩
  · rw [parts]
    exact tells_unwords _

/-- A chain of phrases is translated into the labels with signs between them, where disjunctions
that are neighbours are taken in pairs, if the engine accepts the patterns of the phrases. So all
connectives get their own signs iff no disjunction has another one for its neighbour. -/
theorem translate_chain [Engine] (d : Dictionary) (labels : ∀ entry ∈ d.entries, IsLabel entry.1)
    (phrases : ∀ entry ∈ d.entries, IsSpoken entry.2) (distinct : (d.entries.map Prod.snd).Nodup)
    (first : Text × Text) (memFirst : first ∈ d.entries)
    (links : List (Connective × Text × Text))
    (known : ∀ link ∈ links, link.1 ∈ chainOps ∧ link.2 ∈ d.entries)
    (accepts : ∀ entry ∈ first :: links.map Prod.snd, Accepts entry.2) :
    translate d (chainText linkWord first.2 (phraseLinks links))
        = unwords (first.1 :: paired sign (labelLinks links)) ∧
      (translate d (chainText linkWord first.2 (phraseLinks links))
          = chainText sign first.1 (labelLinks links)
        ↔ (labelLinks links).IsChain NotBothOr) := by
  have label : IsLabel first.1 := labels first memFirst
  have known' : ∀ link ∈ labelLinks links, link.1 ∈ chainOps ∧ IsLabel link.2 := by
    intro link mem
    obtain ⟨link', memL, rfl⟩ := List.mem_map.1 mem
    exact (known link' memL).imp_right (labels link'.2)
  have part : ∀ c ∈ first.1 :: paired sign (labelLinks links), IsChainPart c :=
    fun c => isChainPart_paired (by decide) label known'
  have tells := tells_applyRules_chain label known'
    (tells_substitute_chain labels phrases distinct memFirst known accepts)
  have out : translate d (chainText linkWord first.2 (phraseLinks links))
      = unwords (first.1 :: paired sign (labelLinks links)) := by
    rw [translate, (regular_chainText phrases memFirst known).normal_eq, tidy,
      tells.words_eq fun c mem => (part c mem).solid]
  refine ⟨out, fun same => ?_, fun apart => ?_⟩
  · have part' : ∀ c ∈ first.1 :: linked sign (labelLinks links), IsChainPart c :=
      fun c => isChainPart_linked (by decide) label known'
    have parts : first.1 :: paired sign (labelLinks links)
        = first.1 :: linked sign (labelLinks links) := by
      rw [← (tells_unwords _).words_eq fun c mem => (part c mem).solid, ← out, same, chainText,
        (tells_unwords _).words_eq fun c mem => (part' c mem).solid]
    by_contra pair
    obtain ⟨link, mem, group⟩ :
        ∃ link ∈ labelLinks links, link.2.wrap ∈ paired sign (labelLinks links) :=
      exists_wrap_mem_paired pair
    rw [(List.cons.inj parts).2] at group
    exact wrap_not_mem_linked (by decide) known' (known' link mem).2 group
  · rw [out, paired_eq_linked apart]
    rfl

/-- A chain with three disjunctions, of which the first two are a pair, and a conjunction. -/
theorem translate_chain_of_three_disjunctions :
    let _ : Engine := .limited (10 * 1024 * 1024)
    let d : Dictionary :=
      { entries := [("A".toList, "chove".toList), ("B".toList, "chove muito".toList),
          ("C".toList, "neva".toList)]
        distinct := by decide }
    let links : List (Connective × Text × Text) :=
      [(.and, "B".toList, "chove muito".toList), (.or, "A".toList, "chove".toList),
        (.or, "C".toList, "neva".toList), (.or, "B".toList, "chove muito".toList)]
    (∀ entry ∈ d.entries, IsLabel entry.1) ∧ (∀ entry ∈ d.entries, IsSpoken entry.2) ∧
      (d.entries.map Prod.snd).Nodup ∧ ("C".toList, "neva".toList) ∈ d.entries ∧
      (∀ link ∈ links, link.1 ∈ chainOps ∧ link.2 ∈ d.entries) ∧
      (∀ entry ∈ ("C".toList, "neva".toList) :: links.map Prod.snd, Accepts entry.2) ∧
      translate d "neva e chove muito ou chove ou neva ou chove muito".toList
        = "C ∧ B (A) ⊕ (C) ∨ B".toList := by
  intro _ d links
  have labels : ∀ entry ∈ d.entries, IsLabel entry.1 := by decide
  have phrases : ∀ entry ∈ d.entries, IsSpoken entry.2 := by decide
  have distinct : (d.entries.map Prod.snd).Nodup := by decide
  have memFirst : ("C".toList, "neva".toList) ∈ d.entries := by decide
  have known : ∀ link ∈ links, link.1 ∈ chainOps ∧ link.2 ∈ d.entries := by decide
  have accepts : ∀ entry ∈ ("C".toList, "neva".toList) :: links.map Prod.snd,
      Accepts entry.2 := by
    decide
  exact ⟨labels, phrases, distinct, memFirst, known, accepts,
    (translate_chain d labels phrases distinct _ memFirst links known accepts).1⟩

/-- Of three operands with two disjunctions the last two become an exclusive disjunction, with no
connective before them. -/
theorem translate_two_disjunctions_ne :
    let _ : Engine := .limited (10 * 1024 * 1024)
    let d : Dictionary :=
      { entries := [("A".toList, "chove".toList), ("B".toList, "venta".toList),
          ("C".toList, "neva".toList)]
        distinct := by decide }
    (∀ entry ∈ d.entries, IsLabel entry.1) ∧ (∀ entry ∈ d.entries, IsSpoken entry.2) ∧
      (d.entries.map Prod.snd).Nodup ∧ (∀ entry ∈ d.entries, Accepts entry.2) ∧
      translate d "chove ou venta ou neva".toList = "A (B) ⊕ (C)".toList ∧
      translate d "chove ou venta ou neva".toList ≠ "A ∨ B ∨ C".toList := by
  intro _ d
  have phrases : ∀ entry ∈ d.entries, IsSpoken entry.2 := by decide
  have solid : ∀ entry ∈ d.entries, isBlankText entry.2 = false :=
    fun entry mem => (phrases entry mem).not_isBlankText
  have out : translate d "chove ou venta ou neva".toList = "A (B) ⊕ (C)".toList := by
    rw [translate, substitute_of_sorted solid (by decide)]
    decide +kernel
  refine ⟨by decide, phrases, by decide, by decide, out, ?_⟩
  rw [out]
  decide

end

end Sentential.Sentence
