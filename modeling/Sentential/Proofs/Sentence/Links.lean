import Mathlib.Tactic.Lemma
import Sentential.Proofs.Sentence.Conditional

/-!
# The rules for the words between operands

In the items of a formula no atom stands between two links, so there is no exclusive disjunction to
be found (`tells_exclusiveOr`). The word of a conjunction has a blank in front, which its rule takes
along (`tells_conjunction`), and the word of a disjunction is replaced like any phrase. When all
rules have been applied, every item has its sign (`tells_rules`).
-/

namespace Sentential.Sentence

open Text Pattern Symbolic

/-! ## Exclusive disjunctions -/

/-- The word of a disjunction. -/
def orWord : Text := "ou".toList

/-- An exclusive disjunction is found step by step: words, blanks and two operands. -/
lemma findExclusiveOr_eq (before : Option Char) (s : Text) :
    findExclusiveOr before s = if !boundary before s.head? then none else
      (behind? orWord s).bind fun rest => (behindBlanks? rest).bind fun rest =>
        (word? rest).bind fun left => (behindBlanks? left.2).bind fun rest =>
          (behind? orWord rest).bind fun rest => (behindBlanks? rest).bind fun rest =>
            (word? rest).bind fun right =>
              some (foundUpTo s right.2 [left.1, right.1]) := by
  rfl

/-- Behind blanks is the rest of a text from its first other character on. -/
lemma behindBlanks?_eq_some {s t : Text} (h : behindBlanks? s = some t) :
    t = s.dropWhile isBlank := by
  rw [behindBlanks?] at h
  split at h
  · exact (Option.some.inj h).symm
  · cases h

/-- A text that does not begin with a word character has no word in front. -/
lemma word?_eq_none {s : Text} (h : s.head?.any isWordChar = false) : word? s = none := by
  rw [word?, h]
  rfl

section
variable {is : List Item} {s t : Text} {before : Option Char}

/-- No disjunction comes behind an operand that is a label, unless its item does. -/
lemma behind?_orWord_eq_none {l : Text} (chain : (.atom l :: is).IsChain Meets)
    (alone : ∀ rest, is ≠ .link .or :: rest) (labelled : Labelled signItems is)
    (tells : Tells (is.map (signed [.iff, .imp]).text) t) :
    behind? orWord (t.dropWhile isBlank) = none := by
  rw [Option.eq_none_iff_forall_ne_some]
  intro rest found
  have e := behind?_eq_some.1 found
  have other : ∀ d u k, isBlank d = false → d ≠ 'o' →
      (List.replicate k ' ' ++ d :: u).dropWhile isBlank ≠ orWord ++ rest := by
    intro d u k solid ne e
    have e' := (dropWhile_spaces (t := d :: u) k solid).symm.trans e
    exact ne (List.cons.inj e').1
  cases is with
  | nil =>
    obtain ⟨k, rfl⟩ := tells.nil_inv
    rw [dropWhile_replicate] at e
    cases e
  | cons i is =>
    obtain ⟨k, u, rfl, -, -⟩ := tells.cons_inv
    have meets : i.begins = false := (List.isChain_cons_cons.1 chain).1
    have known := labelled i List.mem_cons_self
    cases i with
    | rightParen => exact other ')' u k (by decide) (by decide) e
    | link op =>
      cases op with
      | and => exact other 'e' u k (by decide) (by decide) e
      | or => exact alone is rfl
      | xor => exact absurd (known.mem nofun) (by decide)
      | imp => exact other '→' u k (by decide) (by decide) e
      | iff => exact other '↔' u k (by decide) (by decide) e
    | condition => exact absurd (known.mem nofun) (by decide)
    | conclusion => exact absurd (known.mem nofun) (by decide)
    | contrast => exact absurd (known.mem nofun) (by decide)
    | denial => exact absurd (known.mem nofun) (by decide)
    | _ => cases meets

/-- A text of items begins with a word only if its first item is a label, which is the word. -/
lemma word?_operand {i : Item} (begins : i.begins = true) (labelled : Labelled signItems (i :: is))
    (tells : Tells ((i :: is).map (signed [.iff, .imp]).text) t) {found : Text × Text}
    (word : word? (t.dropWhile isBlank) = some found) :
    ∃ l, i = .atom l ∧ Tells (is.map (signed [.iff, .imp]).text) found.2 := by
  have sign : ∀ c ∈ ['¬', '('], isBlank c = false ∧ isWordChar c = false := by decide
  have other : ∀ c ∈ ['¬', '('], ∀ k u, t ≠ List.replicate k ' ' ++ c :: u := by
    rintro c mem k u rfl
    have none : word? (c :: u) = none := word?_eq_none (sign c mem).2
    rw [dropWhile_spaces k (t := c :: u) (sign c mem).1, none] at word
    cases word
  cases i with
  | atom l =>
    have label := labelled.isLabel atom_not_mem_signItems List.mem_cons_self
    obtain ⟨k, u, rfl, joint, rest⟩ : ∃ k u, t = List.replicate k ' ' ++ (l ++ u) ∧ Joint l u ∧
        Tells (is.map (signed [.iff, .imp]).text) u := tells.cons_inv
    have stop := joint.stop label.isWord.isPhrase.2
    rw [dropWhile_spaces k ((firm_label label).append u).solid,
      word?_append label.isWord stop] at word
    cases word
    exact ⟨l, rfl, rest⟩
  | negation =>
    obtain ⟨k, u, e, -⟩ := tells.cons_inv
    exact absurd e (other '¬' (by decide) k u)
  | leftParen =>
    obtain ⟨k, u, e, -⟩ := tells.cons_inv
    exact absurd e (other '(' (by decide) k u)
  | _ => cases begins

/-- Nothing is found where no disjunction comes behind the operand of a disjunction. -/
lemma findExclusiveOr_eq_none (chain : (.link .or :: is).IsChain Meets)
    (alone : ∀ l rest, is ≠ .atom l :: .link .or :: rest) (labelled : Labelled signItems is)
    (tells : Tells (is.map (signed [.iff, .imp]).text) t) :
    findExclusiveOr before (orWord ++ t) = none := by
  rw [findExclusiveOr_eq, behind?_eq_some.2 rfl, Option.bind_some,
    Option.eq_none_iff_forall_ne_some]
  intro found h
  split at h
  · cases h
  · obtain ⟨x, blanks, h⟩ := Option.bind_eq_some_iff.1 h
    obtain ⟨left, word, h⟩ := Option.bind_eq_some_iff.1 h
    obtain ⟨y, blanks', h⟩ := Option.bind_eq_some_iff.1 h
    obtain ⟨z, back, -⟩ := Option.bind_eq_some_iff.1 h
    rw [behindBlanks?_eq_some blanks] at word
    rw [behindBlanks?_eq_some blanks'] at back
    cases is with
    | nil =>
      obtain ⟨k, rfl⟩ := tells.nil_inv
      rw [dropWhile_replicate] at word
      cases word
    | cons i is =>
      obtain ⟨meets, chain'⟩ := List.isChain_cons_cons.1 chain
      obtain ⟨l, rfl, rest⟩ := word?_operand meets labelled tells word
      rw [behind?_orWord_eq_none chain' (fun more e => alone l more (by rw [e])) labelled.tail
        rest] at back
      cases back

end

set_option maxRecDepth 4000 in
/-- The texts of items with signs do not have the word of a disjunction, but for its link. -/
lemma no_or_word : ∀ i ∈ signItems, i ≠ .link .or →
    orWord ∉ wordRuns ((signed [.iff, .imp]).text i) := by
  decide

section
variable {f : Formula} {is : List Item} {s : Text}

/-- The rule for exclusive disjunctions keeps all items. -/
lemma turns_exclusiveOr (chain : is.IsChain Meets) (loose : Loose is)
    (labelled : Labelled signItems is) :
    Turns exclusiveOrRule.pattern (is.map (signed [.iff, .imp]).text)
      (is.map (signed [.iff, .imp]).text) := by
  induction is with
  | nil => exact .nil
  | cons i is ih =>
    have ih' := ih chain.tail loose.2 labelled.tail
    rw [List.map_cons]
    by_cases e : i = .link .or
    · subst e
      refine .keep (fun before t joint tells => ?_) ih'
      have alone : ∀ l rest, is ≠ .atom l :: .link .or :: rest :=
        fun l rest => loose.1 .or l .or rest rfl
      have miss : exclusiveOrRule.pattern before (orWord ++ t) = none :=
        congrArg (Option.map _) (findExclusiveOr_eq_none chain alone labelled.tail tells)
      exact exclusiveOrRule_atWord.rewriteFrom_front (by decide) (by decide) miss
    · refine turns_keep exclusiveOrRule_atWord ?_ ih'
      exact labelled.absent rfl List.mem_cons_self ⟨'o', by decide⟩
        fun fixed => no_or_word i fixed e

/-- The fourth rule finds nothing. -/
lemma tells_exclusiveOr (chain : is.IsChain Meets) (loose : Loose is)
    (labelled : Labelled signItems is) (tells : Tells (is.map (signed [.iff, .imp]).text) s) :
    Tells (is.map (signed [.iff, .imp]).text) (exclusiveOrRule.apply s) :=
  (turns_exclusiveOr chain loose labelled).rewriteFrom exclusiveOrRule_atWord tells (.inl rfl)

end

/-! ## Conjunctions -/

section
variable {before : Option Char} {c s t : Text}

/-- No conjunction is found behind another character than a blank, nor before another word. -/
lemma conjunctionRule_miss {d : Char} (h : isBlank d = false ∨ s.head? ≠ some 'e') :
    conjunctionRule.pattern before (d :: s) = none := by
  have none : findConjunction before (d :: s) = none := by
    unfold findConjunction
    split
    · rename_i blank rest e
      cases e
      rcases h with solid | other
      · rw [solid]
        rfl
      · exact absurd rfl other
    · rfl
  exact congrArg (Option.map _) none

/-- The word of a conjunction is a word character. -/
lemma isWordChar_e : isWordChar 'e' = true := by decide

/-- The word of a conjunction is taken with the blank before it. -/
lemma rewriteFrom_conjunction (stop : t.head?.any isWordChar = false) :
    rewriteFrom conjunctionRule.pattern 0 before (' ' :: 'e' :: t)
      = ' ' :: '∧' :: ' ' :: rewriteFrom conjunctionRule.pattern 0 (some 'e') t := by
  have bound : boundary (some 'e') t.head? = true := by
    rw [boundary, stop]
    exact congrArg (· != false) isWordChar_e
  have found : findConjunction before (' ' :: 'e' :: t) = some ⟨1, []⟩ := by
    rw [findConjunction, bound]
    rfl
  have hit : conjunctionRule.pattern before ([' ', 'e'] ++ t) = some ⟨1, " ∧ ".toList⟩ :=
    congrArg (Option.map _) found
  exact rewriteFrom_hit (List.cons_ne_nil _ _) hit

/-- A part without blanks stays. -/
lemma rewriteFrom_conjunction_append (solid : ∀ d ∈ c, isBlank d = false) :
    rewriteFrom conjunctionRule.pattern 0 before (c ++ t)
      = c ++ rewriteFrom conjunctionRule.pattern 0 (behind before c) t := by
  apply rewriteFrom_miss_append
  rintro u d v rfl
  exact conjunctionRule_miss (.inl (solid d (by simp)))

/-- Spaces stay unless the word of a conjunction comes behind them. -/
lemma rewriteFrom_conjunction_spaces (before : Option Char) (k : Nat) (other : s.head? ≠ some 'e') :
    ∃ before', rewriteFrom conjunctionRule.pattern 0 before (List.replicate k ' ' ++ s)
      = List.replicate k ' ' ++ rewriteFrom conjunctionRule.pattern 0 before' s := by
  induction k generalizing before with
  | zero => exact ⟨before, rfl⟩
  | succ k ih =>
    obtain ⟨before', e⟩ := ih (some ' ')
    have next : (List.replicate k ' ' ++ s).head? ≠ some 'e' := by
      cases k with
      | zero => exact other
      | succ k => exact fun e => absurd (Option.some.inj e) (by decide)
    refine ⟨before', ?_⟩
    rw [List.replicate_succ, List.cons_append,
      rewriteFrom_miss (conjunctionRule_miss (.inr next)), e]
    rfl

/-- What can follow a part still can when conjunctions get their sign. -/
lemma ends_rewriteFrom_conjunction (ends : Ends t) :
    Ends (rewriteFrom conjunctionRule.pattern 0 before t) := by
  rcases ends with rfl | ⟨t, rfl⟩ | ⟨t, rfl⟩
  · exact ends_nil
  · cases h : conjunctionRule.pattern before (' ' :: t) with
    | none =>
      rw [rewriteFrom_miss h]
      exact ends_space _
    | some hit =>
      obtain ⟨found, -, rfl⟩ := Option.map_eq_some_iff.1 h
      rw [rewriteFrom, h]
      exact ends_space _
  · rw [rewriteFrom_miss (conjunctionRule_miss (.inl (by decide)))]
    exact ends_close _

end

/-- The word of a conjunction. -/
def andWord : Text := "e".toList

/-- Whether a part has no blanks and does not begin like the word of a conjunction. -/
def NoAnd (c : Text) : Prop :=
  c ≠ [] ∧ c.head? ≠ some 'e' ∧ ∀ d ∈ c, isBlank d = false

instance : DecidablePred NoAnd := fun c =>
  inferInstanceAs (Decidable (c ≠ [] ∧ c.head? ≠ some 'e' ∧ ∀ d ∈ c, isBlank d = false))

/-- Whether the word of a conjunction is kept apart from the other parts: it stands behind none that
needs no space behind it. -/
structure AndApart (cs : List Text) : Prop where
  others : ∀ c ∈ cs, c = andWord ∨ NoAnd c
  behind : cs.IsChain fun c d => d = andWord → c ≠ ['('] ∧ c ≠ ['¬']

/-- A part with a sign for the word of a conjunction. -/
def andSigned (c : Text) : Text :=
  if c = andWord then ['∧'] else c

section
variable {c : Text} {cs : List Text} {s t : Text} {before : Option Char}

/-- What is kept apart is so behind the first part. -/
lemma AndApart.tail (apart : AndApart (c :: cs)) : AndApart cs :=
  ⟨fun d mem => apart.others d (List.mem_cons_of_mem c mem), apart.behind.tail⟩

/-- A text does not begin with the word of a conjunction unless its parts do. -/
lemma AndApart.head_ne (apart : AndApart cs) (ne : cs.head? ≠ some andWord) (tells : Tells cs s) :
    s.head? ≠ some 'e' := by
  have space : ∀ k u, (List.replicate (k + 1) ' ' ++ u).head? ≠ some 'e' :=
    fun k u e => absurd (Option.some.inj e) (by decide)
  cases cs with
  | nil =>
    obtain ⟨k, rfl⟩ := tells.nil_inv
    cases k with
    | zero => exact nofun
    | succ k => simpa using space k []
  | cons c cs =>
    obtain ⟨k, u, rfl, -, -⟩ := tells.cons_inv
    cases k with
    | zero =>
      rcases apart.others c List.mem_cons_self with rfl | ⟨full, other, -⟩
      · exact absurd rfl ne
      · rwa [List.replicate_zero, List.nil_append, List.head?_append_of_ne_nil _ full]
    | succ k => exact space k _

/-- Behind a part no word of a conjunction follows without a space. -/
lemma AndApart.head_ne_of_joint (apart : AndApart (c :: cs)) (joint : Joint c t)
    (tells : Tells cs t) : t.head? ≠ some 'e' := by
  have behind : c = ['('] ∨ c = ['¬'] → cs.head? ≠ some andWord := by
    intro opens e
    obtain ⟨open', sign⟩ := (List.isChain_cons.1 apart.behind).1 _ (Option.mem_def.2 e) rfl
    exact opens.elim open' sign
  rcases joint with e | e | rfl | ⟨u, rfl⟩ | ⟨u, rfl⟩
  · exact apart.tail.head_ne (behind (.inl e)) tells
  · exact apart.tail.head_ne (behind (.inr e)) tells
  · exact nofun
  · exact fun e => absurd (Option.some.inj e) (by decide)
  · exact fun e => absurd (Option.some.inj e) (by decide)

/-- The word of a conjunction becomes a sign, for a space stands before it. -/
lemma AndApart.tells_rewriteFrom (apart : AndApart cs) (tells : Tells cs s)
    (first : s.head? ≠ some 'e') :
    Tells (cs.map andSigned) (rewriteFrom conjunctionRule.pattern 0 before s) := by
  induction cs generalizing s before with
  | nil =>
    obtain ⟨k, rfl⟩ := tells.nil_inv
    obtain ⟨_, e⟩ := rewriteFrom_conjunction_spaces before (s := []) k (by simp)
    rw [List.append_nil, rewriteFrom_nil, List.append_nil] at e
    rw [e]
    exact tells
  | cons c cs ih =>
    obtain ⟨k, t, rfl, joint, rest⟩ := tells.cons_inv
    have ih' : ∀ before, Tells (cs.map andSigned)
        (rewriteFrom conjunctionRule.pattern 0 before t) :=
      fun _ => ih apart.tail rest (apart.head_ne_of_joint joint rest)
    by_cases e : c = andWord
    · subst e
      have ends : Ends t := joint.ends (by decide) (by decide)
      cases k with
      | zero => exact absurd rfl first
      | succ k =>
        -- the last of the spaces is taken with the word
        have cut : List.replicate (k + 1) ' ' ++ (andWord ++ t)
            = List.replicate k ' ' ++ ' ' :: 'e' :: t := by
          rw [List.replicate_succ', List.append_assoc]
          rfl
        obtain ⟨before', out⟩ := rewriteFrom_conjunction_spaces before
          (s := ' ' :: 'e' :: t) k (fun e => absurd (Option.some.inj e) (by decide))
        rw [cut, out, rewriteFrom_conjunction ends.head]
        refine Tells.spaces (.space (.part (c := ['∧']) ?_ (.space (ih' _)))) k
        exact .inr (.inr (ends_space _))
    · obtain ⟨full, other, solid⟩ := (apart.others c List.mem_cons_self).resolve_left e
      have head : (c ++ t).head? ≠ some 'e' := by rwa [List.head?_append_of_ne_nil _ full]
      obtain ⟨before', out⟩ := rewriteFrom_conjunction_spaces before k head
      rw [out, rewriteFrom_conjunction_append solid, List.map_cons, andSigned, if_neg e]
      refine Tells.spaces (.part ?_ (ih' _)) k
      exact joint.imp_right (Or.imp_right ends_rewriteFrom_conjunction)

/-- Signs are put for the words of conjunctions that are kept apart. -/
lemma AndApart.tells_apply (apart : AndApart cs) (ne : cs.head? ≠ some andWord)
    (tells : Tells cs s) : Tells (cs.map andSigned) (conjunctionRule.apply s) :=
  apart.tells_rewriteFrom tells (apart.head_ne ne tells)

end

set_option maxRecDepth 4000 in
/-- The text of an item is the word of a conjunction iff the item is its link. -/
lemma and_texts : ∀ i ∈ signItems,
    ((signed [.iff, .imp]).text i = andWord ↔ i = .link .and) ∧
      (i ≠ .link .and → NoAnd ((signed [.iff, .imp]).text i)) ∧
      andSigned ((signed [.iff, .imp]).text i) = (signed [.and, .iff, .imp]).text i := by
  decide

/-- No capital letter is the word of a conjunction. -/
lemma head_label : ∀ c ∈ capitals, c ≠ 'e' := by
  decide

/-- A label does not begin like the word of a conjunction. -/
lemma noAnd_label {l : Text} (label : IsLabel l) : NoAnd l := by
  refine ⟨label.ne_nil, fun e => ?_, label.isBlank⟩
  cases l with
  | nil => exact label.elim
  | cons c l => exact head_label c label.1 (Option.some.inj e)

section
variable {is : List Item} {i : Item} {s : Text}

/-- What is known of the text of an item. -/
lemma and_text (known : Known signItems i) :
    ((signed [.iff, .imp]).text i = andWord ↔ i = .link .and) ∧
      (i ≠ .link .and → NoAnd ((signed [.iff, .imp]).text i)) ∧
      andSigned ((signed [.iff, .imp]).text i) = (signed [.and, .iff, .imp]).text i := by
  rcases known with ⟨l, rfl, label⟩ | fixed
  · have other : ¬ IsLabel andWord := by decide
    have ne : l ≠ andWord := fun e => other (e ▸ label)
    exact ⟨⟨fun e => absurd e ne, nofun⟩, fun _ => noAnd_label label, if_neg ne⟩
  · exact and_texts i fixed

/-- An item that finishes an operand needs a space behind it. -/
lemma text_of_finishes (finishes : i.finishes = true)
    (known : Known signItems i) :
    (signed [.iff, .imp]).text i ≠ ['('] ∧ (signed [.iff, .imp]).text i ≠ ['¬'] := by
  have signs : ¬ IsLabel ['('] ∧ ¬ IsLabel ['¬'] := by decide
  rcases known with ⟨l, rfl, label⟩ | fixed
  · exact ⟨fun e => signs.1 (e ▸ label), fun e => signs.2 (e ▸ label)⟩
  · cases i with
    | atom l => exact absurd fixed (atom_not_mem_signItems l)
    | rightParen => decide
    | _ => cases finishes

/-- Conjunctions stand among items behind what finishes an operand. -/
lemma andApart_items (chain : is.IsChain Meets) (labelled : Labelled signItems is) :
    AndApart (is.map (signed [.iff, .imp]).text) where
  others := by
    intro c mem
    obtain ⟨i, memI, rfl⟩ := List.mem_map.1 mem
    obtain ⟨word, other, -⟩ := and_text (labelled i memI)
    by_cases e : i = .link .and
    · exact .inl (word.2 e)
    · exact .inr (other e)
  behind := by
    rw [List.isChain_map]
    refine chain.imp_of_mem_imp fun i j memI memJ meets e => ?_
    obtain rfl := (and_text (labelled j memJ)).1.1 e
    refine text_of_finishes ?_ (labelled i memI)
    cases i with
    | negation =>
      obtain ⟨l, e⟩ := meets
      cases e
    | _ => simpa [Meets, Item.begins] using meets

/-- The fifth rule gives signs to conjunctions. -/
lemma tells_conjunction (chain : is.IsChain Meets) (labelled : Labelled signItems is)
    (first : is.head? ≠ some (.link .and)) (tells : Tells (is.map (signed [.iff, .imp]).text) s) :
    Tells (is.map (signed [.and, .iff, .imp]).text) (conjunctionRule.apply s) := by
  have same : (is.map (signed [.iff, .imp]).text).map andSigned
      = is.map (signed [.and, .iff, .imp]).text := by
    rw [List.map_map]
    exact List.map_congr_left fun i mem => (and_text (labelled i mem)).2.2
  rw [← same]
  refine (andApart_items chain labelled).tells_apply (fun e => first ?_) tells
  rw [List.head?_map, Option.map_eq_some_iff] at e
  obtain ⟨i, e, word⟩ := e
  rw [e, (and_text (labelled i (List.mem_of_head? e))).1.1 word]

end

/-! ## Disjunctions -/

/-- Whether a part is the word of a disjunction or does not have it. -/
def OrApart (c : Text) : Prop :=
  c = orWord ∨ orWord ∉ wordRuns c

instance : DecidablePred OrApart := fun c =>
  inferInstanceAs (Decidable (c = orWord ∨ orWord ∉ wordRuns c))

/-- A part with a sign for the word of a disjunction. -/
def orSigned (c : Text) : Text :=
  if c = orWord then ['∨'] else c

/-- The word of a disjunction becomes a sign. -/
lemma tells_orSigned {cs : List Text} {s : Text} (apart : ∀ c ∈ cs, OrApart c)
    (tells : Tells cs s) : Tells (cs.map orSigned) (disjunctionRule.apply s) := by
  have first : (wordRuns orWord).head? = some orWord := by decide
  have pattern : disjunctionRule.pattern = whole orWord (' ' :: (['∨'] ++ [' '])) :=
    Rule.pattern_eq_whole rfl
  rw [Rule.apply, pattern]
  refine tells.rewrite_whole (by decide) ?_
  rintro u c v rfl
  exact (apart c (by simp)).imp id fun absent => .inl ⟨_, first, absent⟩

/-- A label does not have the word of a disjunction. -/
lemma orApart_label {l : Text} (label : IsLabel l) : OrApart l :=
  .inr (label.not_mem_wordRuns ⟨'o', by decide⟩)

set_option maxRecDepth 4000 in
/-- The text of an item is the word of a disjunction or does not have it. -/
lemma or_texts : ∀ i ∈ signItems,
    OrApart ((signed [.and, .iff, .imp]).text i) ∧
      orSigned ((signed [.and, .iff, .imp]).text i)
        = (signed [.or, .and, .iff, .imp]).text i := by
  decide

section
variable {is : List Item} {i : Item} {s : Text} {f : Formula}

/-- What is known of the text of an item. -/
lemma or_text (known : Known signItems i) :
    OrApart ((signed [.and, .iff, .imp]).text i) ∧
      orSigned ((signed [.and, .iff, .imp]).text i)
        = (signed [.or, .and, .iff, .imp]).text i := by
  rcases known with ⟨l, rfl, label⟩ | fixed
  · have other : ¬ IsLabel orWord := by decide
    have ne : l ≠ orWord := fun e => other (e ▸ label)
    exact ⟨orApart_label label, if_neg ne⟩
  · exact or_texts i fixed

/-- The sixth rule gives signs to disjunctions. -/
lemma tells_disjunction (labelled : Labelled signItems is)
    (tells : Tells (is.map (signed [.and, .iff, .imp]).text) s) :
    Tells (is.map (signed [.or, .and, .iff, .imp]).text) (disjunctionRule.apply s) := by
  have same : (is.map (signed [.and, .iff, .imp]).text).map orSigned
      = is.map (signed [.or, .and, .iff, .imp]).text := by
    rw [List.map_map]
    exact List.map_congr_left fun i mem => (or_text (labelled i mem)).2
  rw [← same]
  refine tells_orSigned (fun c mem => ?_) tells
  obtain ⟨i, memI, rfl⟩ := List.mem_map.1 mem
  exact (or_text (labelled i memI)).1

/-! ## All rules -/

/-- The items of a formula over labels are labels and fixed items. -/
lemma labelled_items (labels : ∀ l ∈ f.leaves, IsLabel l) : Labelled fixedItems (items f) :=
  fun _ mem => (mem_items mem).imp_left fun ⟨l, leaf, e⟩ => ⟨l, e, labels l leaf⟩

/-- When all rules have been applied, a text tells the items of a formula in signs, with groups for
a conditional. -/
lemma tells_rules (groupable : f.IsGroupable) (labels : ∀ l ∈ f.leaves, IsLabel l)
    (tells : Tells ((items f).map (spoken id).text) s) :
    Tells ((groupedItems f).map (signed [.or, .and, .iff, .imp]).text) (applyRules s) := by
  have placed := placed_items f
  have labelled := labelled_items labels
  have formed := formed_groupedItems groupable
  have labelled' := labelled_grouped groupable labels
  have first : (groupedItems f).head? ≠ some (.link .and) := by
    intro e
    have begins := formed.first
    rw [e] at begins
    cases begins
  have negated :=
    tells_negation (chain_negates_items.2 groupable.negatesAtoms) labelled placed.last tells
  have biconditional := tells_biconditional placed.chain labelled negated
  have grouped := tells_conditional groupable labels biconditional
  have same := tells_exclusiveOr formed.chain (loose_groupedItems groupable) labelled' grouped
  have conjunction := tells_conjunction formed.chain labelled' first same
  exact tells_disjunction labelled' conjunction

end

end Sentential.Sentence
