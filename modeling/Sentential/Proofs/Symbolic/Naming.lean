import Mathlib.Tactic.Lemma
import Sentential.Proofs.Symbolic.Alphabet
import Sentential.Proofs.Symbolic.Rendering

/-!
# The names in a formula that is read

The names of a formula are among the words of the main spelling of its text, in which no connective
is spelled as a word any more. So a formula that is read has names of atoms at its leaves
(`isAtomName_of_read`). Accented letters are outside the alphabet, so no formula is read where there
is one (`not_mem_of_read`).
-/

namespace Sentential.Symbolic

open Text

/-- The identifiers among the tokens of a text are names of atoms. -/
lemma isAtomName_of_tokenize {s name : Text} {lexemes : List Lexeme}
    (out : tokenize s = .ok lexemes) (mem : .identifier name ∈ lexemes.map Lexeme.token) :
    IsAtomName name := by
  obtain ⟨r, run, written, rfl⟩ := (spells_of_lexFrom out).wordRuns mem
  refine ⟨isLabel_map_toUpper.2 written, fun connective => ?_⟩
  -- a word that is a connective in capitals is one in small letters too
  have small : ∀ word ∈ aliasWords, word.map foldLetter ∈ connectiveWords := by decide
  have same := map_foldLetter_map_toUpper written.isNameChar
  exact mem_wordRuns_mainSpelling run (same ▸ small _ connective)

/-- Letters that occur in sentences, but never in symbolic text. -/
def accents : Text :=
  ['é', 'ã']

/-- No accented letter is a blank. -/
lemma not_isBlank_of_accent : ∀ d ∈ accents, isBlank d = false := by
  decide

/-- Accented letters are foreign, and none is a long s. -/
lemma isForeign_of_accent : ∀ d ∈ accents, IsForeign d ∧ d ≠ 'ſ' := by
  decide

section
variable {s : Text} {f : Formula}

/-- The tokens from which a formula is read. -/
lemma derives_of_read (accepted : read s = .ok f) :
    ∃ lexemes n, tokenize s = .ok lexemes ∧
      Derives .equivalence n (lexemes.map Lexeme.token) f ∧ Fits maxDepth 0 n f := by
  rw [read] at accepted
  split at accepted
  · rename_i lexemes out
    obtain ⟨n, d, fits⟩ := derives_of_parseWithin (by decide) accepted
    exact ⟨lexemes, n, out, d, fits⟩
  · cases accepted

/-- A formula that is read has names of atoms at its leaves. -/
lemma isAtomName_of_read (accepted : read s = .ok f) : ∀ name ∈ f.leaves, IsAtomName name := by
  obtain ⟨lexemes, n, out, d, -⟩ := derives_of_read accepted
  intro name mem
  rw [← d.leaves_eq, List.mem_filterMap] at mem
  obtain ⟨token, mem, e⟩ := mem
  apply isAtomName_of_tokenize out
  cases token with
  | identifier name' =>
    cases e
    exact mem
  | _ => cases e

/-- There is no accented letter where a formula is read. -/
lemma not_mem_of_read (accepted : read s = .ok f) {d : Char} (accent : d ∈ accents) : d ∉ s := by
  obtain ⟨lexemes, _, out, -, -⟩ := derives_of_read accepted
  obtain ⟨foreign, other⟩ := isForeign_of_accent d accent
  intro mem
  rw [← List.count_pos_iff, ← count_mainSpelling foreign other, List.count_pos_iff] at mem
  obtain ⟨_, _, e⟩ := tokenize_of_isForeign foreign mem
  rw [out] at e
  cases e

end

end Sentential.Symbolic
