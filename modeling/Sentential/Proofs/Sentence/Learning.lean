import Mathlib.Data.List.Basic
import Mathlib.Tactic.Lemma
import Sentential.Proofs.Sentence.Clauses
import Sentential.Proofs.Sentence.Normal
import Sentential.Proofs.Symbolic.Label

/-!
# What is learnt from a sentence

A dictionary that is learnt from a sentence has labels of atoms (`isLabel_labelAt`), and its phrases
are clauses of the sentence (`mem_learn`): neat texts in lower case.
-/

namespace Sentential

open Text Symbolic

/-! ## Entries that have been inserted -/

/-- An entry is the one that is put or was there before. -/
lemma Entries.mem_put {α : Type} {key : Text} {value : α} {entries : List (Text × α)}
    {entry : Text × α} (mem : entry ∈ put key value entries) :
    entry = (key, value) ∨ entry ∈ entries := by
  induction entries with
  | nil => exact .inl (List.mem_singleton.1 mem)
  | cons first entries ih =>
    rw [put] at mem
    split at mem
    · rename_i same
      rcases List.mem_cons.1 mem with rfl | mem
      · exact .inl (congrArg (·, value) same)
      · exact .inr (List.mem_cons_of_mem first mem)
    · rcases List.mem_cons.1 mem with rfl | mem
      · exact .inr List.mem_cons_self
      · exact (ih mem).imp_right (List.mem_cons_of_mem first)

namespace Dictionary

/-- A dictionary has no other entries than those from which it arises. -/
lemma mem_ofList {es : List (Text × Text)} {entry : Text × Text}
    (mem : entry ∈ (ofList es).entries) : entry ∈ es := by
  revert mem
  refine List.foldlRecOn (motive := fun d : Dictionary => entry ∈ d.entries → entry ∈ es) es _
    (fun mem => absurd mem List.not_mem_nil) fun d ih e memE mem => ?_
  rcases Entries.mem_put mem with rfl | mem
  · exact memE
  · exact ih mem

/-! ## Labels -/

/-- Digits can stand in labels. -/
lemma mem_labelChars_of_isDigit {c : Char} (digit : c.isDigit = true) : c ∈ labelChars := by
  have between : ('0' ≤ c && c ≤ '9') = true := by
    simpa [Char.isDigit, Char.le_def, UInt32.le_iff_toNat_le] using digit
  have name : isNameChar c = true := by
    rw [isNameChar, between, Bool.or_true, Bool.true_or]
  have letter : ∀ d ∈ smallLetters, d.isDigit = false := by decide
  rcases List.mem_append.1 (mem_nameChars name) with label | small
  · exact label
  · rw [letter c small] at digit
    cases digit

/-- The labels for phrases are labels of atoms. -/
lemma isLabel_labelAt (index : Nat) : IsLabel (labelAt index) := by
  rw [labelAt, labelWith]
  split
  · rename_i letter found
    have capital : letter ∈ capitals := List.mem_of_getElem? found
    exact ⟨capital, fun _ mem => absurd mem List.not_mem_nil⟩
  · refine ⟨by decide, fun c mem => mem_labelChars_of_isDigit ?_⟩
    exact Nat.isDigit_of_mem_toDigits (by decide) (by decide) mem

end Dictionary

namespace Sentence

/-! ## Phrases -/

/-- Phrases that are labelled have labels of places. -/
lemma mem_labelled {entry : Text × Text} {phrases : List Text} {index : Nat}
    (mem : entry ∈ labelled index phrases) :
    (∃ place, entry.1 = Dictionary.labelAt place) ∧ entry.2 ∈ phrases := by
  induction phrases generalizing index with
  | nil => cases mem
  | cons phrase phrases ih =>
    rcases List.mem_cons.1 mem with rfl | mem
    · exact ⟨⟨index, rfl⟩, List.mem_cons_self⟩
    · exact (ih mem).imp_right (List.mem_cons_of_mem phrase)

/-- A dictionary that is learnt from a sentence has labels for its clauses. -/
lemma mem_learn {s : Text} {entry : Text × Text} (mem : entry ∈ (learn s).entries) :
    IsLabel entry.1 ∧ entry.2 ∈ clauses s := by
  obtain ⟨⟨place, label⟩, phrase⟩ := mem_labelled (Dictionary.mem_ofList mem)
  exact ⟨label ▸ Dictionary.isLabel_labelAt place, phrase⟩

/-- A phrase as it is learnt from a sentence. -/
structure IsLearnt (p : Text) : Prop where
  ne_nil : p ≠ []
  neat : Neat p
  steady : ∀ c ∈ p, Steady c

/-- Clauses are learnt phrases. -/
lemma isLearnt_of_mem_clauses {s clause : Text} (mem : clause ∈ clauses s) : IsLearnt clause := by
  have space : Steady ' ' := by decide
  refine ⟨(exists_fragment_of_mem_clauses mem).1, ?_, fun d memD => ?_⟩
  · obtain ⟨-, fragment, -, rfl⟩ := exists_fragment_of_mem_clauses mem
    exact neat_clauseOf fragment
  · rcases mem_of_mem_clauses mem memD with memD | rfl
    · exact (steady_of_mem_normal memD).1
    · exact space

end Sentence

end Sentential
