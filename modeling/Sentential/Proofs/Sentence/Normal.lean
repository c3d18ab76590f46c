import Mathlib.Tactic.Lemma
import Sentential.Proofs.Text.Lower
import Sentential.Proofs.Text.Rewrite
import Sentential.Sentence.Normal

/-!
# What is normal about a normal form

A normal form has only characters that lowering and the removal of marks leave as they are
(`steady_of_mem_normal`), and its words are those of the sentence with formal ones for the informal
ones (`wordRuns_normal`). So for a text that is its own normal form every stage does nothing
(`IsNormal`), and a sentence without informal words but `mas` is lowered, cleared of marks, rid of
that word and tidied (`normal_eq_tidy`).
-/

namespace Sentential.Sentence

open Text

/-- A text that is its own normal form. -/
def IsNormal (s : Text) : Prop :=
  normal s = s

instance : DecidablePred IsNormal := fun s => inferInstanceAs (Decidable (normal s = s))

/-- A sentence in lower case and without marks. -/
def plain (s : Text) : Text :=
  dropPunctuation (lower s)

/-- The words that stand for one in a normal form. -/
def formal (r : Text) : List Text :=
  if r = "mas".toList then ["e".toList]
  else if r = "ssi".toList then ["se".toList, "e".toList, "somente".toList, "se".toList]
  else if r = "nao".toList then ["não".toList]
  else [r]

/-! ## Words -/

set_option maxRecDepth 4000 in
/-- The words of a normal form are those of the sentence, with formal ones for the informal ones. -/
lemma wordRuns_normal (s : Text) :
    wordRuns (normal s) = (wordRuns (plain s)).flatMap formal := by
  have mas : IsWord "mas".toList := by decide
  have ssi : IsWord "ssi".toList := by decide
  have nao : IsWord "nao".toList := by decide
  have e : wordRuns " e ".toList = ["e".toList] := by decide
  have iff : wordRuns " se e somente se ".toList
      = ["se".toList, "e".toList, "somente".toList, "se".toList] := by decide
  have neg : wordRuns " não ".toList = ["não".toList] := by decide
  simp only [normal, informalWords, List.foldl_cons, List.foldl_nil]
  rw [← plain, wordRuns_tidy, Pattern.wordRuns_rewrite_whole nao (by decide),
    Pattern.wordRuns_rewrite_whole ssi (by decide), Pattern.wordRuns_rewrite_whole mas (by decide),
    List.flatMap_assoc, List.flatMap_assoc, e, iff, neg]
  congr 1
  funext r
  by_cases hm : r = "mas".toList
  · subst hm
    decide
  · by_cases hs : r = "ssi".toList
    · subst hs
      decide
    · by_cases hn : r = "nao".toList
      · subst hn
        decide
      · simp only [formal, if_neg hm, if_neg hs, if_neg hn, List.flatMap_cons, List.flatMap_nil,
          List.append_nil]

/-- A sentence in lower case and without marks, with the formal word for `mas`. -/
def contrasted (s : Text) : Text :=
  (Pattern.whole "mas".toList " e ".toList).rewrite (plain s)

/-- A sentence without other informal words is but lowered, cleared of marks and tidied. -/
lemma normal_eq_tidy {s : Text}
    (h : ∀ r ∈ wordRuns (contrasted s), formal r = [r]) :
    normal s = tidy (contrasted s) := by
  have stays : ∀ q new, IsWord q → formal q ≠ [q] →
      (Pattern.whole q new).rewrite (contrasted s) = contrasted s := by
    intro q new word informal
    exact (Pattern.atWord_word word).rewrite_eq_self fun mem => informal (h q mem)
  simp only [normal, informalWords, List.foldl_cons, List.foldl_nil]
  rw [← plain, ← contrasted, stays _ _ (by decide) (by decide), stays _ _ (by decide) (by decide)]

/-- A space parts a sentence into two that become plain on their own. -/
lemma plain_append_space (s t : Text) : plain (s ++ ' ' :: t) = plain s ++ ' ' :: plain t := by
  rw [plain, lower_append_cons breaks_space, dropPunctuation, List.map_append]
  rfl

/-! ## Characters -/

/-- What is left without marks was there before, or is a space. -/
lemma mem_dropPunctuation {s : Text} {d : Char} (mem : d ∈ dropPunctuation s) :
    (d ∈ s ∧ d ∉ punctuation) ∨ d = ' ' := by
  obtain ⟨c, memC, e⟩ := List.mem_map.1 mem
  split at e
  · exact .inr e.symm
  · rename_i other
    subst e
    exact .inl ⟨memC, fun found => other (List.contains_iff_mem.2 found)⟩

/-- No stage has anything to do with a character of a normal form. -/
lemma steady_of_mem_normal {s : Text} {d : Char} (mem : d ∈ normal s) :
    Steady d ∧ d ∉ punctuation := by
  have written : ∀ c ∈ ' ' :: (" e ".toList ++ " se e somente se ".toList ++ " não ".toList),
      Steady c ∧ c ∉ punctuation := by
    decide
  simp only [normal, informalWords, List.foldl_cons, List.foldl_nil] at mem
  rcases mem_tidy mem with mem | rfl
  · rcases Pattern.mem_rewrite_whole mem with mem | mem
    · rcases Pattern.mem_rewrite_whole mem with mem | mem
      · rcases Pattern.mem_rewrite_whole mem with mem | mem
        · rcases mem_dropPunctuation mem with ⟨mem, other⟩ | rfl
          · exact ⟨steady_of_mem_lower mem, other⟩
          · exact written ' ' List.mem_cons_self
        · exact written d (by simp only [List.mem_cons, List.mem_append, mem, true_or, or_true])
      · exact written d (by simp only [List.mem_cons, List.mem_append, mem, true_or, or_true])
    · exact written d (by simp only [List.mem_cons, List.mem_append, mem, or_true])
  · exact written ' ' List.mem_cons_self

/-! ## Texts in normal form -/

section
variable {s : Text}

/-- The characters of a normal form are steady, and none is a mark. -/
lemma IsNormal.steady (h : IsNormal s) {d : Char} (mem : d ∈ s) : Steady d ∧ d ∉ punctuation := by
  rw [← h] at mem
  exact steady_of_mem_normal mem

/-- A normal form has no blanks at its ends and single spaces between its words. -/
lemma IsNormal.neat (h : IsNormal s) : Neat s := by
  rw [← h]
  exact neat_tidy _

/-- What one character becomes when it is lowered and marks are removed. -/
def plainChar (c : Char) : Text :=
  dropPunctuation (lowerChar c)

/-- Without a capital sigma a text becomes plain character by character. -/
lemma plain_eq_flatMap (h : 'Σ' ∉ s) : plain s = s.flatMap plainChar := by
  rw [plain, lower_eq_flatMap h, dropPunctuation, List.map_flatMap]
  rfl

/-- A steady character that is no mark stays as it is. -/
lemma plainChar_of_steady {c : Char} (steady : Steady c) (other : c ∉ punctuation) :
    plainChar c = [c] := by
  rw [plainChar, steady.2, dropPunctuation, List.map_singleton, if_neg]
  exact fun found => other (List.contains_iff_mem.1 found)

/-- A text in normal form is plain. -/
lemma IsNormal.plain_eq (h : IsNormal s) : plain s = s := by
  have sigma : 'Σ' ∉ s := fun mem => (h.steady mem).1.1 rfl
  have same : ∀ c ∈ s, plainChar c = [c] :=
    fun c mem => plainChar_of_steady (h.steady mem).1 (h.steady mem).2
  rw [plain_eq_flatMap sigma, List.flatMap_congr same, List.flatMap_singleton']

/-- A word of a text in normal form has its formal words beside it. -/
lemma IsNormal.formal_subset (h : IsNormal s) {r : Text} (mem : r ∈ wordRuns s) :
    formal r ⊆ wordRuns s := by
  have words := wordRuns_normal s
  rw [h, h.plain_eq] at words
  intro w memW
  rw [words]
  exact List.mem_flatMap.2 ⟨r, mem, memW⟩

end

end Sentential.Sentence
