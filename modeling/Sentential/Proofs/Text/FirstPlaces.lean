import Mathlib.Data.List.Basic
import Mathlib.Data.List.Induction
import Mathlib.Tactic.Lemma
import Sentential.Formula.Basic

/-!
# First places

Without its repetitions a list has its members in the order in which they first come
(`firstPlaces_eraseDups`). One text more at the end goes behind the others if it is new, and changes
nothing otherwise (`eraseDups_concat`). The atoms of a formula are collected in this way, so they
are its leaves without their repetitions (`atoms_eq`).
-/

namespace Sentential

namespace Text

/-- Whether a list has the members of another, each once and in the order of their first places. -/
structure FirstPlaces (all firsts : List Text) : Prop where
  distinct : firsts.Nodup
  mem_iff : ∀ t, t ∈ firsts ↔ t ∈ all
  ordered : firsts.Pairwise fun t u => all.idxOf t < all.idxOf u

/-- A text at the end is kept if it is new. -/
lemma eraseDups_concat (ts : List Text) (t : Text) :
    (ts ++ [t]).eraseDups = if t ∈ ts then ts.eraseDups else ts.eraseDups ++ [t] := by
  rw [List.eraseDups_append]
  split
  · rename_i known
    simp [List.removeAll, known]
  · rename_i fresh
    simp [List.removeAll, fresh, List.eraseDups_cons]

/-- What comes first in a list stays in its place in a longer one. -/
lemma pairwise_idxOf_eraseDups (ts : List Text) :
    ts.eraseDups.Pairwise fun t u => ts.idxOf t < ts.idxOf u := by
  induction ts using List.reverseRecOn with
  | nil => exact .nil
  | append_singleton ts last ih =>
    have kept : ts.eraseDups.Pairwise
        fun t u => (ts ++ [last]).idxOf t < (ts ++ [last]).idxOf u := by
      refine ih.imp_of_mem fun {t u} memT memU before => ?_
      rwa [List.idxOf_append_of_mem (List.mem_eraseDups.1 memT),
        List.idxOf_append_of_mem (List.mem_eraseDups.1 memU)]
    rw [eraseDups_concat]
    split
    · exact kept
    · rename_i fresh
      refine List.pairwise_append.2 ⟨kept, List.pairwise_singleton _ _, fun t memT u memU => ?_⟩
      have known := List.mem_eraseDups.1 memT
      rw [List.mem_singleton.1 memU, List.idxOf_append_of_mem known,
        List.idxOf_append_of_notMem fresh]
      exact Nat.lt_add_right _ (List.idxOf_lt_length_iff.2 known)

/-- Without its repetitions a list has none. -/
lemma nodup_eraseDups (ts : List Text) : ts.eraseDups.Nodup :=
  (pairwise_idxOf_eraseDups ts).imp fun before same => by
    rw [same] at before
    exact Nat.lt_irrefl _ before

/-- Without its repetitions a list has its members in the order of their first places. -/
lemma firstPlaces_eraseDups (ts : List Text) : FirstPlaces ts ts.eraseDups :=
  ⟨nodup_eraseDups ts, fun _ => List.mem_eraseDups, pairwise_idxOf_eraseDups ts⟩

end Text

/-! ## Atoms -/

namespace Formula

/-- Collecting the atoms of a formula behind some texts takes in its leaves. -/
lemma collectAtoms_eraseDups (f : Formula) (ts : List Text) :
    collectAtoms ts.eraseDups f = (ts ++ f.leaves).eraseDups := by
  induction f generalizing ts with
  | atom name =>
    rw [collectAtoms, leaves, Text.eraseDups_concat]
    simp only [List.contains_eq_mem, List.mem_eraseDups, decide_eq_true_eq]
  | not operand ih => exact ih ts
  | binary op left right ihL ihR =>
    rw [collectAtoms, ihL, ihR, leaves, List.append_assoc]

/-- The atoms of a formula are its leaves without their repetitions. -/
lemma atoms_eq (f : Formula) : f.atoms = f.leaves.eraseDups :=
  collectAtoms_eraseDups f []

/-- The atoms are the leaves, each in its first place. -/
lemma firstPlaces_atoms (f : Formula) : Text.FirstPlaces f.leaves f.atoms :=
  f.atoms_eq ▸ Text.firstPlaces_eraseDups f.leaves

end Formula

end Sentential
