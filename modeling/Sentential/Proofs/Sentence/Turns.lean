import Mathlib.Tactic.Lemma
import Sentential.Proofs.Sentence.Substitution
import Sentential.Sentence.Translation

/-!
# Whose turn it is

Phrases are replaced in the order of their lengths, and phrases of one length in the order of the
dictionary, for the sort is stable (`filter_replacements`). A list that is sorted is told by its
members of each length (`eq_of_sorted`). So the order of the replacements tells no more of a
dictionary than its entries of each length, without those whose phrases are blank
(`replacements_eq_iff`), and neither does a translation (`translate_eq_of_same_lengths`).
-/

namespace Sentential

open Text

/-- The entries with a phrase of a given length that is not blank, in their order. -/
def Dictionary.entriesOfLength (d : Dictionary) (n : Nat) : List (Text × Text) :=
  (d.entries.filter fun entry => !isBlankText entry.2).filter fun entry => entry.2.length == n

namespace Sentence

/-! ## Sorted lists -/

section
variable {α : Type} {measure : α → Nat} {l m : List α}

/-- Lists with the same members of each measure have the same members. -/
lemma mem_iff_of_filter_eq
    (same : ∀ n, (l.filter fun a => measure a == n) = m.filter fun a => measure a == n) (a : α) :
    a ∈ l ↔ a ∈ m := by
  have inside := congrArg (a ∈ ·) (same (measure a))
  simpa using inside

/-- The first member of a sorted list has the greatest measure. -/
lemma measure_le_first {a b : α} (sorted : (b :: m).Pairwise fun a b => measure b ≤ measure a)
    (mem : a ∈ b :: m) : measure a ≤ measure b := by
  rcases List.mem_cons.1 mem with rfl | behind
  · exact Nat.le_refl _
  · exact (List.pairwise_cons.1 sorted).1 a behind

/-- A list in which a measure falls is told by its members of each measure. -/
lemma eq_of_sorted (measure : α → Nat)
    (sortedL : l.Pairwise fun a b => measure b ≤ measure a)
    (sortedM : m.Pairwise fun a b => measure b ≤ measure a)
    (same : ∀ n, (l.filter fun a => measure a == n) = m.filter fun a => measure a == n) :
    l = m := by
  induction l generalizing m with
  | nil =>
    cases m with
    | nil => rfl
    | cons b m =>
      have none := (mem_iff_of_filter_eq same b).2 List.mem_cons_self
      exact absurd none List.not_mem_nil
  | cons a l ih =>
    have memA := (mem_iff_of_filter_eq same a).1 List.mem_cons_self
    cases m with
    | nil => exact absurd memA List.not_mem_nil
    | cons b m =>
      -- each of the first members is in the other list, so they are the first of one measure
      have memB := (mem_iff_of_filter_eq same b).2 List.mem_cons_self
      have level : measure b = measure a :=
        Nat.le_antisymm (measure_le_first sortedL memB) (measure_le_first sortedM memA)
      have first := same (measure a)
      rw [List.filter_cons, List.filter_cons, if_pos (beq_self_eq_true _),
        if_pos (beq_iff_eq.2 level)] at first
      obtain ⟨rfl, -⟩ := List.cons.inj first
      have rest : ∀ n, (l.filter fun c => measure c == n) = m.filter fun c => measure c == n := by
        intro n
        have both := same n
        rw [List.filter_cons, List.filter_cons] at both
        split at both
        · exact (List.cons.inj both).2
        · exact both
      rw [ih (List.pairwise_cons.1 sortedL).2 (List.pairwise_cons.1 sortedM).2 rest]

end

/-! ## The order of the replacements -/

variable {d d' : Dictionary}

/-- The phrases of one length have their turns in the order of the dictionary. -/
lemma filter_replacements (d : Dictionary) (n : Nat) :
    ((replacements d).filter fun entry => entry.2.length == n) = d.entriesOfLength n := by
  let solid := d.entries.filter fun entry => !isBlankText entry.2
  let longer : Text × Text → Text × Text → Bool := fun a b => b.2.length ≤ a.2.length
  have alike : ∀ entry ∈ d.entriesOfLength n, entry.2.length = n := by
    intro entry mem
    rw [Dictionary.entriesOfLength, List.mem_filter, beq_iff_eq] at mem
    exact mem.2
  have sorted : (d.entriesOfLength n).Pairwise fun a b => longer a b = true := by
    refine List.pairwise_of_forall_mem_list fun a memA b memB => ?_
    simp only [longer, alike a memA, alike b memB, Nat.le_refl, decide_true]
  -- a sublist that is in order stays one
  have kept : (d.entriesOfLength n).Sublist (replacements d) := by
    refine List.sublist_mergeSort ?_ ?_ sorted List.filter_sublist
    · simp only [decide_eq_true_eq]
      exact fun a b c ab bc => Nat.le_trans bc ab
    · simp only [Bool.or_eq_true, decide_eq_true_eq]
      exact fun a b => Nat.le_total _ _
  have inside : (d.entriesOfLength n).Sublist
      ((replacements d).filter fun entry => entry.2.length == n) := by
    have all := kept.filter fun entry => entry.2.length == n
    rwa [List.filter_eq_self.2 fun entry mem => beq_iff_eq.2 (alike entry mem)] at all
  have many : ((replacements d).filter fun entry => entry.2.length == n).Perm
      (d.entriesOfLength n) :=
    (List.mergeSort_perm solid longer).filter _
  exact (inside.eq_of_length many.length_eq.symm).symm

/-- The order of the replacements tells the entries of each length and nothing else. -/
lemma replacements_eq_iff :
    replacements d = replacements d' ↔ ∀ n, d.entriesOfLength n = d'.entriesOfLength n := by
  constructor
  · intro same n
    rw [← filter_replacements, same, filter_replacements]
  · intro same
    refine eq_of_sorted (fun entry => entry.2.length) (replacements_sorted d)
      (replacements_sorted d') fun n => ?_
    exact (filter_replacements d n).trans ((same n).trans (filter_replacements d' n).symm)

/-- Dictionaries that have, for every length, the same entries with phrases of that length in the
same order, blank ones left out, translate every sentence alike. -/
theorem translate_eq_of_same_lengths [Engine]
    (same : ∀ n, d.entriesOfLength n = d'.entriesOfLength n) (s : Text) :
    translate d s = translate d' s := by
  rw [translate, translate, substitute, substitute, replacements_eq_iff.2 same]

/-- A longer phrase moves in front of the two that it holds a word of, and blank phrases go. -/
theorem translate_eq_of_same_lengths_of_moved_phrase :
    let _ : Engine := .limited (10 * 1024 * 1024)
    let d : Dictionary :=
      .ofList [("A".toList, "chove".toList), ("B".toList, "\u00a0".toList),
        ("C".toList, "venta".toList), ("D".toList, "chove muito".toList)]
    let d' : Dictionary :=
      .ofList [("D".toList, "chove muito".toList), ("A".toList, "chove".toList),
        ("C".toList, "venta".toList), ("P27".toList, [])]
    let s : Text := "Chove muito ou venta, mas não é verdade que chove.".toList
    (∀ n, d.entriesOfLength n = d'.entriesOfLength n) ∧ d ≠ d' ∧
      translate d s = translate d' s ∧ translate d' s = "D ∨ C ∧ ¬A".toList := by
  intro _ d d' s
  have lengths : ∀ n, n ∉ [5, 11] → d.entriesOfLength n = [] ∧ d'.entriesOfLength n = [] := by
    intro n other
    have table : ∀ e ∈ [d, d'], ∀ entry ∈ e.entries.filter fun entry => !isBlankText entry.2,
        entry.2.length ∈ [5, 11] := by
      decide
    have none : ∀ e ∈ [d, d'], e.entriesOfLength n = [] := by
      intro e mem
      rw [Dictionary.entriesOfLength, List.filter_eq_nil_iff]
      intro entry memE here
      exact other (beq_iff_eq.1 here ▸ table e mem entry memE)
    exact ⟨none d (by simp), none d' (by simp)⟩
  have same : ∀ n, d.entriesOfLength n = d'.entriesOfLength n := by
    intro n
    by_cases known : n ∈ [5, 11]
    · have table : ∀ n ∈ [5, 11], d.entriesOfLength n = d'.entriesOfLength n := by decide
      exact table n known
    · rw [(lengths n known).1, (lengths n known).2]
  have order : replacements d'
      = [("D".toList, "chove muito".toList), ("A".toList, "chove".toList),
        ("C".toList, "venta".toList)] := by
    rw [replacements]
    exact List.mergeSort_of_pairwise (by decide)
  have out : translate d' s = "D ∨ C ∧ ¬A".toList := by
    rw [translate, substitute, order]
    decide +kernel
  exact ⟨same, by decide, translate_eq_of_same_lengths same s, out⟩

end Sentence

end Sentential
