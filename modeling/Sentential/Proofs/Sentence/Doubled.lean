import Mathlib.Tactic.Lemma
import Sentential.Proofs.Sentence.Cutting
import Sentential.Proofs.Sentence.Learnt

/-!
# Connectives that clauses keep

Two neighbouring connectives share the space between them, and where the first one is cut the second
one is not found. So a piece that a cut at a connective of one word leaves has this word only in
front, and the word stands twice in a row in what has been cut (`doubled_of_mem_splitOn`). Other
cuts only take away more of the words (`exists_wider_fragment`). Hence a clause has no connective
but one word that is its first one, and only where the sentence doubles this word
(`connective_of_mem_clauses`).
-/

namespace Sentential.Sentence

open Text

/-! ## A connective of one word -/

/-- The connectives of one word, without their spaces. -/
def loneWords : List Text :=
  ["se".toList, "então".toList, "e".toList, "ou".toList]

/-- Whether a word that is among some words is only the first of them, and stands twice in a row in
others, with those words behind it. -/
def Doubled (w : Text) (others ws : List Text) : Prop :=
  w ∈ ws → ∃ vs, ws = w :: vs ∧ w ∉ vs ∧ w :: w :: vs <:+: others

section
variable {w p f : Text} {ws vs others : List Text}

/-- Of fewer words this is so too, and in more others. -/
lemma Doubled.mono {more : List Text} (doubled : Doubled w others ws) (fewer : vs <:+: ws)
    (within : others <:+: more) : Doubled w more vs := by
  intro mem
  obtain ⟨us, rfl, once, inside⟩ := doubled (fewer.subset mem)
  -- words among which the first one is begin with it
  rcases List.infix_cons_iff.1 fewer with front | behind
  · rcases vs with _ | ⟨v, vs⟩
    · cases mem
    · obtain ⟨rfl, front'⟩ := List.cons_prefix_cons.1 front
      refine ⟨vs, rfl, fun mem => once (front'.subset mem), ?_⟩
      exact (List.cons_prefix_cons.2 ⟨rfl, front⟩).isInfix.trans (inside.trans within)
  · exact absurd (behind.subset mem) once

/-- Where a word stands in a text behind a blank, it is found between spaces. -/
lemma infix_of_word {u z : Text} (spaces : ∀ c ∈ u ++ (w ++ z), isBlank c = true → c = ' ')
    (ne : u ≠ []) (start : u.getLast?.any (fun c => !isBlank c) = false)
    (stop : z.head?.any (fun c => !isBlank c) = false) :
    ' ' :: (w ++ [' ']) <:+: u ++ (w ++ z) ++ [' '] := by
  obtain ⟨u, c, rfl⟩ := u.eq_nil_or_concat'.resolve_left ne
  obtain rfl : c = ' ' := spaces c (by simp) (by simpa using start)
  cases z with
  | nil => exact ⟨u, [], by simp⟩
  | cons d z =>
    obtain rfl : d = ' ' := spaces d (by simp) (by simpa using stop)
    exact ⟨u, z ++ [' '], by simp⟩

/-- In a piece without a word between spaces the word is only the first one. -/
lemma first_of_absent (spaces : ∀ c ∈ p, isBlank c = true → c = ' ')
    (absent : ¬ ' ' :: (w ++ [' ']) <:+: p ++ [' ']) (mem : w ∈ words p) :
    ∃ z, p = w ++ z ∧ words p = w :: words z ∧ w ∉ words z := by
  obtain ⟨ne, solid⟩ := words_not_blank mem
  obtain ⟨u, z, rfl, start, stop⟩ := exists_of_mem_runs mem
  obtain rfl : u = [] := by
    by_contra some
    exact absent (infix_of_word spaces some start stop)
  rw [List.nil_append] at spaces absent ⊢
  have cut : words (w ++ z) = w :: words z := by
    rw [words, runs_append (.inr stop), ← words, words_of_no_blank ne solid]
    rfl
  refine ⟨z, rfl, cut, fun mem' => ?_⟩
  obtain ⟨u, z, rfl, start', stop'⟩ := exists_of_mem_runs mem'
  -- the second one is behind a blank, for no word begins where the first one ends
  by_cases none : u = []
  · subst none
    rw [List.nil_append, List.head?_append_of_ne_nil w ne, List.head?_eq_some_head ne] at stop
    simp [solid _ (List.head_mem ne)] at stop
  · have last : (w ++ u).getLast?.any (fun c => !isBlank c) = false := by
      rwa [List.getLast?_append_of_ne_nil w none]
    rw [← List.append_assoc w] at spaces absent
    exact absent (infix_of_word spaces (by simp [none]) last stop')

/-- A connective of one word is the word between spaces. -/
lemma loneWords_eq : ∀ w ∈ loneWords, ' ' :: (w ++ [' ']) ∈ connectives ∧
    words (' ' :: (w ++ [' '])) = [w] ∧ (' ' :: w).getLast? ≠ some ' ' ∧ w.head? ≠ some ' ' ∧
      w ≠ [] := by
  decide

/-- A piece in which the word is left begins with it, and stands behind the connective or at the
front of the text. -/
lemma front_of_mem_splitOn (memW : w ∈ loneWords) {s : Text}
    (last : s = [] ∨ s.getLast? = some ' ') (spaces : ∀ c ∈ s, isBlank c = true → c = ' ')
    (mem : p ∈ splitOn (' ' :: (w ++ [' '])) s) (left : w ∈ words p) :
    ∃ z, p = w ++ z ∧ words p = w :: words z ∧ w ∉ words z ∧
      (p <+: s ∧ words p <+: words s ∨ w :: words p <:+: words s) := by
  obtain ⟨memK, single, solid, -, -⟩ := loneWords_eq w memW
  have ne : ' ' :: (w ++ [' ']) ≠ [] := List.cons_ne_nil _ _
  revert last spaces p
  refine splitOn_induction (motive := fun s pieces => ∀ {p : Text},
    (s = [] ∨ s.getLast? = some ' ') → (∀ c ∈ s, isBlank c = true → c = ' ') → p ∈ pieces →
      w ∈ words p → ∃ z, p = w ++ z ∧ words p = w :: words z ∧ w ∉ words z ∧
        (p <+: s ∧ words p <+: words s ∨ w :: words p <:+: words s)) ne ?_ ?_ s
  · intro s absent p last spaces mem left
    obtain rfl := List.mem_singleton.1 mem
    have absent' : ¬ ' ' :: (w ++ [' ']) <:+: p ++ [' '] :=
      fun found => absent (infix_of_infix_concat (List.cons_ne_nil ' ' w) solid last found)
    obtain ⟨z, e, cut, once⟩ := first_of_absent spaces absent' left
    exact ⟨z, e, cut, once, .inl ⟨List.prefix_rfl, List.prefix_rfl⟩⟩
  · intro piece rest pieces first ih p last spaces mem left
    have whole := words_append_connective memK piece rest
    rw [single] at whole
    rcases List.mem_cons.1 mem with rfl | mem
    · have absent : ¬ ' ' :: (w ++ [' ']) <:+: p ++ [' '] := by
        intro found
        have front : p ++ [' '] <+: p ++ (' ' :: (w ++ [' '])).dropLast := by
          rw [← List.cons_append, List.dropLast_concat]
          exact (List.prefix_append_right_inj p).2 ⟨w, rfl⟩
        exact first (found.trans front.isInfix)
      have spaces' : ∀ c ∈ p, isBlank c = true → c = ' ' :=
        fun c mem => spaces c (List.mem_append_left _ mem)
      obtain ⟨z, e, cut, once⟩ := first_of_absent spaces' absent left
      refine ⟨z, e, cut, once, .inl ⟨List.prefix_append _ _, ?_⟩⟩
      rw [whole, List.append_assoc]
      exact List.prefix_append _ _
    · have last' : rest = [] ∨ rest.getLast? = some ' ' := by
        by_cases none : rest = []
        · exact .inl none
        · rw [← List.append_assoc, List.getLast?_append_of_ne_nil _ none] at last
          exact last.imp_left (by simp [none])
      have spaces' : ∀ c ∈ rest, isBlank c = true → c = ' ' :=
        fun c mem => spaces c (List.mem_append_right _ (List.mem_append_right _ mem))
      obtain ⟨z, e, cut, once, behind⟩ := ih last' spaces' mem left
      refine ⟨z, e, cut, once, .inr ?_⟩
      rw [whole]
      rcases behind with ⟨-, u, e'⟩ | inside
      · exact ⟨words piece, u, by rw [← e']; simp⟩
      · exact inside.trans (List.suffix_append _ _).isInfix

/-- The word of a connective at which a fragment is cut is left only in front of a piece, behind one
more of them. -/
lemma doubled_of_mem_splitOn (memW : w ∈ loneWords) (spaces : ∀ c ∈ f, isBlank c = true → c = ' ')
    (mem : p ∈ splitOn (' ' :: (w ++ [' '])) ([' '] ++ f ++ [' '])) :
    Doubled w (words f) (words p) := by
  intro left
  obtain ⟨-, -, -, head, ne⟩ := loneWords_eq w memW
  have spaces' : ∀ c ∈ [' '] ++ f ++ [' '], isBlank c = true → c = ' ' := by
    intro c mem
    simp only [List.mem_append, List.mem_singleton] at mem
    rcases mem with (rfl | mem) | rfl
    · exact fun _ => rfl
    · exact spaces c mem
    · exact fun _ => rfl
  have same : words ([' '] ++ f ++ [' ']) = words f := (Wider.refl f).front.back.words_eq
  obtain ⟨z, rfl, cut, once, ⟨front, -⟩ | inside⟩ :=
    front_of_mem_splitOn memW (.inr List.getLast?_concat) spaces' mem left
  · -- the text begins with a space and not with the word
    obtain ⟨d, w, rfl⟩ := List.exists_cons_of_ne_nil ne
    obtain ⟨u, e⟩ := front
    exact absurd (congrArg some (List.cons.inj e).1) head
  · rw [same, cut] at inside
    exact ⟨words z, cut, once, inside⟩

end

/-! ## Clauses -/

section
variable {w p c k s : Text} {fs ks : List Text}

/-- Cuts leave no words that were not together before. -/
lemma exists_wider_fragment (memK : ∀ k ∈ ks, k ∈ connectives) (mem : p ∈ ks.foldl cutAt fs) :
    ∃ f ∈ fs, words p <:+: words f := by
  induction ks generalizing fs with
  | nil => exact ⟨p, mem, List.infix_rfl⟩
  | cons k ks ih =>
    obtain ⟨memHere, memRest⟩ := List.forall_mem_cons.1 memK
    obtain ⟨g, memG, fewer⟩ := ih memRest mem
    obtain ⟨f, memF, memG⟩ := List.mem_flatMap.1 memG
    exact ⟨f, memF, fewer.trans ((joined_splitOn memHere f).words_within memG)⟩

/-- In a fragment the word of such a connective is left only in front, where it stands twice in a
row in the sentence. -/
lemma doubled_of_mem_fragments (memW : w ∈ loneWords) (mem : p ∈ fragments (normal s)) :
    Doubled w (words (normal s)) (words p) := by
  obtain ⟨memK, -⟩ := loneWords_eq w memW
  obtain ⟨before, after, e⟩ := List.append_of_mem memK
  have memBefore : ∀ k ∈ before, k ∈ connectives := fun k mem => by
    rw [e]
    exact List.mem_append_left _ mem
  have memAfter : ∀ k ∈ after, k ∈ connectives := fun k mem => by
    rw [e]
    exact List.mem_append_right _ (List.mem_cons_of_mem _ mem)
  rw [fragments, e, List.foldl_append, List.foldl_cons] at mem
  obtain ⟨g, memG, fewer⟩ := exists_wider_fragment memAfter mem
  obtain ⟨f, memF, memG⟩ := List.mem_flatMap.1 memG
  obtain ⟨t, memT, within⟩ := exists_wider_fragment memBefore memF
  obtain rfl := List.mem_singleton.1 memT
  refine (doubled_of_mem_splitOn memW (fun d memD blank => ?_) memG).mono fewer within
  rcases mem_of_mem_foldl_cutAt memBefore memF memD with inside | space
  · exact (neat_tidy _).spaces d inside blank
  · exact space

/-- A connective of one word stands in a clause only where it is doubled. -/
lemma doubled_of_mem_clauses (memW : w ∈ loneWords) (mem : c ∈ clauses s) :
    Doubled w (words (normal s)) (words c) := by
  obtain ⟨-, f, memF, rfl⟩ := exists_fragment_of_mem_clauses mem
  have last := (leaves_dropNegation (tidy f)).words_suffix
  rw [words_tidy, ← clauseOf_eq] at last
  exact (doubled_of_mem_fragments memW memF).mono last.isInfix List.infix_rfl

/-- The words of a connective that stands in a clause between spaces are words of the clause. -/
lemma words_infix_of_infix (memK : k ∈ connectives) (inside : k <:+: [' '] ++ c ++ [' ']) :
    words k <:+: words c := by
  obtain ⟨u, v, e⟩ := inside
  have same : words ([' '] ++ c ++ [' ']) = words c := (Wider.refl c).front.back.words_eq
  rw [← same, ← e, List.append_assoc, words_append_connective memK]
  exact ⟨words u, words v, rfl⟩

/-- A clause with a space on either side has a connective only if this is one word that is the first
word of the clause and no other, and the sentence has it twice in a row there. -/
theorem connective_of_mem_clauses (s : Text) {c k : Text} (mem : c ∈ clauses s)
    (memK : k ∈ connectives) (inside : k <:+: [' '] ++ c ++ [' ']) :
    ∃ w ∈ loneWords, k = [' '] ++ w ++ [' '] ∧
      ∃ ws, words c = w :: ws ∧ w ∉ ws ∧ w :: w :: ws <:+: words (normal s) := by
  have within := words_infix_of_infix memK inside
  -- a connective of more words has ` se ` behind its first word
  have table : ∀ k ∈ connectives, (∃ w ∈ loneWords, k = [' '] ++ w ++ [' '] ∧ words k = [w]) ∨
      "se".toList ∈ (words k).tail := by
    decide
  rcases table k memK with ⟨w, memW, e, single⟩ | more
  · rw [single] at within
    exact ⟨w, memW, e, doubled_of_mem_clauses memW mem (within.subset List.mem_cons_self)⟩
  · have some := List.mem_of_mem_tail more
    obtain ⟨ws, e, once, -⟩ := doubled_of_mem_clauses (by decide) mem (within.subset some)
    rw [e] at within
    rcases List.infix_cons_iff.1 within with ⟨us, front⟩ | behind
    · have rest := congrArg List.tail front
      rw [List.tail_append_of_ne_nil (List.ne_nil_of_mem some), List.tail_cons] at rest
      exact absurd (rest ▸ List.mem_append_left us more) once
    · exact absurd (behind.subset some) once

/-- The second of two conjunctions stays in front of the clause behind them. -/
theorem connective_of_mem_clauses_of_two_conjunctions :
    let s := "chove e e venta".toList
    let c := "e venta".toList
    let k := " e ".toList
    c ∈ clauses s ∧ k ∈ connectives ∧ k <:+: [' '] ++ c ++ [' '] ∧
      ∃ w ∈ loneWords, k = [' '] ++ w ++ [' '] ∧
        ∃ ws, words c = w :: ws ∧ w ∉ ws ∧ w :: w :: ws <:+: words (normal s) := by
  intro s c k
  have mem : c ∈ clauses s := by decide +kernel
  have memK : k ∈ connectives := by decide
  have inside : k <:+: [' '] ++ c ++ [' '] := ⟨[], "venta ".toList, by decide⟩
  exact ⟨mem, memK, inside, connective_of_mem_clauses s mem memK inside⟩

end

end Sentential.Sentence
