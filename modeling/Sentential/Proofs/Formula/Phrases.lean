import Mathlib.Data.List.Nodup
import Mathlib.Data.List.Perm.Lattice
import Mathlib.Tactic.Lemma
import Sentential.Formula.Outline
import Sentential.Proofs.Dictionary.Access
import Sentential.Proofs.Sentence.Reading
import Sentential.Proofs.Text.FirstPlaces

/-!
# The phrases that a formula shows

A reading and an outline ask a dictionary for the phrases of the names at the leaves and for nothing
else (`reading_congr`, `outline_congr`). What two dictionaries have in common then are the entries
that the formula shows, those of its atoms whose phrases are not blank, in any order
(`agree_iff_perm`).
-/

namespace Sentential.Formula

open Text

/-- The entries of a dictionary that a formula shows: those of its atoms with phrases not blank. -/
def shownEntries (f : Formula) (d : Dictionary) : List (Text × Text) :=
  d.entries.filter fun entry => f.atoms.contains entry.1 && !isBlankText entry.2

/-! ## Phrases of leaves -/

section
variable {p q : Text → Option Text} {f : Formula}

/-- A reading asks for nothing but the phrases of the leaves. -/
lemma reading_congr (same : ∀ name ∈ f.leaves, p name = q name) : f.reading p = f.reading q := by
  induction f with
  | atom name => rw [reading_atom, reading_atom, same name List.mem_cons_self]
  | not operand ih => rw [reading_not, reading_not, ih same]
  | binary op left right ihl ihr =>
    have sameL := ihl fun name mem => same name (List.mem_append_left _ mem)
    have sameR := ihr fun name mem => same name (List.mem_append_right _ mem)
    by_cases imp : op = .imp
    · rw [imp, reading_imp, reading_imp, sameL, sameR]
    · rw [reading_binary imp, reading_binary imp, sameL, sameR]

/-- The lines of an outline ask for nothing but the phrases of the leaves. -/
lemma outlineLines_congr (same : ∀ name ∈ f.leaves, p name = q name) (columns : Text)
    (last : Bool) : outlineLines p columns last f = outlineLines q columns last f := by
  induction f generalizing columns last with
  | atom name => rw [outlineLines, outlineLines, caption, caption, same name List.mem_cons_self]
  | not operand ih =>
    rw [outlineLines, outlineLines, ih same]
    rfl
  | binary op left right ihl ihr =>
    rw [outlineLines, outlineLines, ihl fun name mem => same name (List.mem_append_left _ mem),
      ihr fun name mem => same name (List.mem_append_right _ mem)]
    rfl

/-- An outline asks for nothing but the phrases of the leaves. -/
lemma outline_congr (same : ∀ name ∈ f.leaves, p name = q name) : f.outline p = f.outline q := by
  rw [outline, outline, outlineLines_congr same]

end

/-! ## Entries of dictionaries -/

section
variable {f : Formula} {d d' : Dictionary} {label phrase : Text}

/-- The phrase of a label is that of its entry, unless it is blank. -/
lemma phrase?_eq_some_iff :
    d.phrase? label = some phrase
      ↔ (label, phrase) ∈ d.entries ∧ isBlankText phrase = false := by
  rw [Dictionary.phrase?, Option.filter_eq_some_iff, Dictionary.get?_eq_some_iff,
    Bool.not_eq_true']

/-- A formula shows the phrases that its atoms have. -/
lemma mem_shownEntries :
    (label, phrase) ∈ f.shownEntries d ↔ label ∈ f.atoms ∧ d.phrase? label = some phrase := by
  rw [shownEntries, List.mem_filter, phrase?_eq_some_iff, Bool.and_eq_true, List.contains_iff_mem,
    Bool.not_eq_true']
  tauto

/-- No entry is shown twice. -/
lemma nodup_shownEntries (f : Formula) (d : Dictionary) : (f.shownEntries d).Nodup :=
  (d.distinct.of_map _).filter _

/-- The atoms of a formula have the same phrases in two dictionaries iff the formula shows the same
entries of both, in any order. -/
lemma agree_iff_perm :
    (∀ name ∈ f.atoms, d.phrase? name = d'.phrase? name)
      ↔ (f.shownEntries d).Perm (f.shownEntries d') := by
  rw [List.perm_ext_iff_of_nodup (nodup_shownEntries f d) (nodup_shownEntries f d')]
  constructor
  · rintro same ⟨label, phrase⟩
    rw [mem_shownEntries, mem_shownEntries]
    exact and_congr_right fun mem => by rw [same label mem]
  · intro same name mem
    refine Option.ext fun phrase => ?_
    have entry := same (name, phrase)
    rw [mem_shownEntries, mem_shownEntries] at entry
    simpa [mem] using entry

/-- Dictionaries in which the atoms of a formula have the same phrases, a blank one counting as
missing, cannot be told apart by the reading of the formula nor by its outline. They are those of
which the formula shows the same entries: the order of the entries, those of other labels and those
with blank phrases make no difference. -/
theorem shown_eq_of_agree (f : Formula) (d d' : Dictionary) :
    ((∀ name ∈ f.atoms, d.phrase? name = d'.phrase? name) →
      f.reading d.phrase? = f.reading d'.phrase? ∧ f.outline d.phrase? = f.outline d'.phrase?) ∧
    ((∀ name ∈ f.atoms, d.phrase? name = d'.phrase? name)
      ↔ (f.shownEntries d).Perm (f.shownEntries d')) := by
  refine ⟨fun agree => ?_, agree_iff_perm⟩
  have same : ∀ name ∈ f.leaves, d.phrase? name = d'.phrase? name :=
    fun name mem => agree name ((f.firstPlaces_atoms.mem_iff name).2 mem)
  exact ⟨reading_congr same, outline_congr same⟩

/-- Other places, other labels and a blank phrase in place of none make no difference. -/
theorem shown_eq_of_agree_of_moved_entry :
    let f : Formula := .binary .imp (.atom "A".toList) (.not (.atom "B".toList))
    let d : Dictionary :=
      .ofList [("A".toList, "chove".toList), ("B".toList, " ".toList), ("C".toList, "neva".toList)]
    let d' : Dictionary := .ofList [("P1".toList, "venta".toList), ("A".toList, "chove".toList)]
    (∀ name ∈ f.atoms, d.phrase? name = d'.phrase? name) ∧ d ≠ d' ∧
    f.reading d.phrase? = f.reading d'.phrase? ∧ f.outline d.phrase? = f.outline d'.phrase? := by
  intro f d d'
  have agree : ∀ name ∈ f.atoms, d.phrase? name = d'.phrase? name := by decide
  exact ⟨agree, by decide, (shown_eq_of_agree f d d').1 agree⟩

end

end Sentential.Formula
