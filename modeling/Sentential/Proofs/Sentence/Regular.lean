import Mathlib.Tactic.Lemma
import Sentential.Proofs.Sentence.Normal
import Sentential.Sentence.Clause
import Sentential.Sentence.Translation

/-!
# Regular sentences

What a normal form looks like is said without the stages that make it: a regular sentence is in
lower case, has no marks, single spaces and no informal words (`Regular`). No stage makes what an
earlier one has taken away, so every normal form is regular (`regular_normal`), and no stage has
anything to do in a regular sentence (`Regular.normal_eq`). So the normal forms are the regular
sentences, and to take the normal form again changes nothing (`normal_eq_self_iff`).
-/

namespace Sentential.Sentence

open Text

/-- The words for which others are written. -/
def informalTexts : List Text :=
  ["mas".toList, "ssi".toList, "nao".toList]

/-- A sentence as it is to be in normal form. -/
structure Regular (s : Text) : Prop where
  lowered : lower s = s
  unmarked : ∀ c ∈ s, c ∉ punctuation
  neat : Neat s
  formal : ∀ r ∈ informalTexts, ¬ StandsIn r s

/-- The words for which others are written are words. -/
lemma informalTexts_word : ∀ r ∈ informalTexts, IsWord r := by decide

/-- No informal word is among the words that are written for one. -/
lemma not_mem_formal {r : Text} (informal : r ∈ informalTexts) (w : Text) : r ∉ formal w := by
  have written : r ∉ ["e".toList] ++
      ["se".toList, "e".toList, "somente".toList, "se".toList] ++ ["não".toList] := by
    revert r
    decide
  simp only [List.mem_append, not_or] at written
  unfold formal
  split
  · exact written.1.1
  · split
    · exact written.1.2
    · split
      · exact written.2
      · rename_i notMas notSsi notNao
        rw [List.mem_singleton]
        rintro rfl
        simp only [informalTexts, List.mem_cons, List.not_mem_nil, or_false] at informal
        rcases informal with e | e | e
        · exact notMas e
        · exact notSsi e
        · exact notNao e

/-- Every normal form is regular. -/
lemma regular_normal (s : Text) : Regular (normal s) where
  lowered := lower_eq_self fun _ mem => (steady_of_mem_normal mem).1
  unmarked := fun _ mem => (steady_of_mem_normal mem).2
  neat := neat_tidy _
  formal := by
    intro r informal
    rw [standsIn_iff (informalTexts_word r informal), wordRuns_normal, List.mem_flatMap]
    rintro ⟨w, -, mem⟩
    exact not_mem_formal informal w mem

section
variable {s : Text}

/-- A text without marks has none to be removed. -/
lemma dropPunctuation_eq_self (unmarked : ∀ c ∈ s, c ∉ punctuation) : dropPunctuation s = s := by
  rw [dropPunctuation]
  refine (List.map_congr_left fun c mem => ?_).trans s.map_id
  rw [if_neg (fun found => unmarked c mem (List.contains_iff_mem.1 found)), id]

/-- A regular sentence is in lower case and without marks. -/
lemma Regular.plain_eq (regular : Regular s) : plain s = s := by
  rw [plain, regular.lowered, dropPunctuation_eq_self regular.unmarked]

/-- A pattern for an informal word takes nothing in a regular sentence. -/
lemma Regular.rewrite_eq (regular : Regular s) {r : Text} (informal : r ∈ informalTexts)
    (new : Text) : (Pattern.whole r new).rewrite s = s := by
  have word : IsWord r := informalTexts_word r informal
  refine (Pattern.atWord_word word).rewrite_eq_self fun mem => ?_
  exact regular.formal r informal ((standsIn_iff word).2 mem)

/-- A regular sentence is its own normal form. -/
lemma Regular.normal_eq (regular : Regular s) : normal s = s := by
  simp only [normal, informalWords, List.foldl_cons, List.foldl_nil]
  rw [← plain, regular.plain_eq, regular.rewrite_eq (by decide), regular.rewrite_eq (by decide),
    regular.rewrite_eq (by decide), regular.neat.tidy_eq]

end

/-! ## Sentences put together -/

section
variable {s t : Text}

/-- Regular sentences with a space between them are regular. -/
lemma Regular.append_space (hs : Regular s) (ht : Regular t) (nes : s ≠ []) (net : t ≠ []) :
    Regular (s ++ ' ' :: t) where
  lowered := by rw [lower_append_cons breaks_space, hs.lowered, ht.lowered]
  unmarked := by
    intro c mem
    rcases List.mem_append.1 mem with mem | mem
    · exact hs.unmarked c mem
    · rcases List.mem_cons.1 mem with rfl | mem
      · decide
      · exact ht.unmarked c mem
  neat := hs.neat.append_space ht.neat nes net
  formal := by
    intro r informal
    have word := informalTexts_word r informal
    have split : wordRuns (s ++ ' ' :: t) = wordRuns s ++ wordRuns t :=
      runs_append_cons s t (isWordChar_of_isBlank isBlank_space)
    rw [standsIn_iff word, split, List.mem_append, ← standsIn_iff word, ← standsIn_iff word]
    exact fun stands => stands.elim (hs.formal r informal) (ht.formal r informal)

/-- Regular sentences with spaces between them are a regular sentence. -/
lemma regular_unwords {ws : List Text} (h : ∀ w ∈ ws, w ≠ [] ∧ Regular w) :
    Regular (unwords ws) ∧ (ws ≠ [] → unwords ws ≠ []) := by
  induction ws with
  | nil => exact ⟨regular_normal [], fun ne => absurd rfl ne⟩
  | cons w ws ih =>
    obtain ⟨ne, regular⟩ := h w List.mem_cons_self
    obtain ⟨rest, full⟩ := ih fun v mem => h v (List.mem_cons_of_mem w mem)
    by_cases none : ws = []
    · have e : unwords [w] = w := by simp [unwords, List.intercalate]
      rw [none, e]
      exact ⟨regular, fun _ => ne⟩
    · rw [unwords_cons w none]
      exact ⟨regular.append_space rest ne (full none), fun _ => by simp⟩

end

/-- The normal form of a sentence is regular, and the regular sentences are their own normal forms.
So a sentence has the normal form, the clauses and the translations of its normal form. -/
theorem normal_eq_self_iff [Engine] (s : Text) :
    Regular (normal s) ∧ (normal s = s ↔ Regular s) ∧ normal (normal s) = normal s ∧
      clauses (normal s) = clauses s ∧ ∀ d, translate d (normal s) = translate d s := by
  have again : normal (normal s) = normal s := (regular_normal s).normal_eq
  refine ⟨regular_normal s, ⟨fun same => ?_, Regular.normal_eq⟩, again, ?_, fun d => ?_⟩
  · rw [← same]
    exact regular_normal s
  · rw [clauses, clauses, again]
  · rw [translate, translate, again]

end Sentential.Sentence
