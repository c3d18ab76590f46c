import Mathlib.Data.Char
import Mathlib.Data.List.Induction
import Mathlib.Order.Bounds.Defs
import Sentential.Proofs.Dictionary.Access

/-!
# Dictionaries after a history of changes

A dictionary arises from the empty one by inserting phrases and removing labels. What it holds can
be told from the changes alone (`Reflects`): a label has the phrase of its last change, unless that
is a removal, and the labels stand in the order in which they came in since they were last removed.
One change keeps this (`Reflects.apply`), so every history does (`reflects_edited`).
-/

namespace Sentential.Dictionary

/-- A change of a dictionary. -/
inductive Edit where
  | insert (label phrase : Text)
  | remove (label : Text)
deriving DecidableEq, Repr

namespace Edit

/-- The label that is changed. -/
def label : Edit → Text
  | insert label _ => label
  | remove label => label

/-- The phrase that the label has after the change. -/
def phrase? : Edit → Option Text
  | insert _ phrase => some phrase
  | remove _ => none

/-- The dictionary after a change. -/
def apply (d : Dictionary) : Edit → Dictionary
  | insert label phrase => d.insert label phrase
  | remove label => d.erase label

end Edit

/-- The dictionary after some changes of the empty one. -/
def edited (edits : List Edit) : Dictionary :=
  edits.foldl Edit.apply empty

/-- Whether a phrase is inserted under a label that is not changed afterwards. -/
def Holds (edits : List Edit) (label phrase : Text) : Prop :=
  ∃ before after, edits = before ++ .insert label phrase :: after ∧
    ∀ edit ∈ after, edit.label ≠ label

/-- Whether every insertion of a label is followed by a removal. -/
def Gone (edits : List Edit) (label : Text) : Prop :=
  ∀ before phrase after, edits = before ++ .insert label phrase :: after →
    .remove label ∈ after

/-- The place of the first insertion of a label since its last removal. -/
def Enters (edits : List Edit) (label : Text) (place : Nat) : Prop :=
  ∃ before phrase after, edits = before ++ .insert label phrase :: after ∧
    before.length = place ∧ Gone before label ∧ .remove label ∉ after

/-- Whether labels stand in the order in which they came in since they were last removed. -/
structure InOrder (edits : List Edit) (labels : List Text) : Prop where
  entered : ∀ label ∈ labels, ∃ place, Enters edits label place
  ordered : labels.Pairwise fun k l => ∃ i j, Enters edits k i ∧ Enters edits l j ∧ i < j

/-- What a dictionary is after some changes of the empty one. -/
structure Reflects (edits : List Edit) (d : Dictionary) : Prop where
  distinct : d.labels.Nodup
  held : ∀ label phrase, d.get? label = some phrase ↔ Holds edits label phrase
  gone : ∀ label, d.get? label = none ↔ Gone edits label
  inOrder : InOrder edits d.labels

/-! ## One change more -/

section
variable {edits : List Edit} {edit : Edit} {label phrase : Text} {place : Nat}
  {labels kept : List Text}

/-- A change of a longer history is the last one or one of those before. -/
lemma concat_eq_iff {x : Edit} {before after : List Edit} :
    edits ++ [edit] = before ++ x :: after ↔
      (after = [] ∧ before = edits ∧ x = edit) ∨
        ∃ rest, after = rest ++ [edit] ∧ edits = before ++ x :: rest := by
  constructor
  · intro e
    rcases after.eq_nil_or_concat' with rfl | ⟨rest, last, rfl⟩
    · obtain ⟨same, last⟩ := List.append_inj' e rfl
      exact .inl ⟨rfl, same.symm, (List.singleton_inj.1 last).symm⟩
    · rw [← List.cons_append, ← List.append_assoc] at e
      obtain ⟨same, last⟩ := List.append_inj' e rfl
      exact .inr ⟨rest, by rw [List.singleton_inj.1 last], same⟩
  · rintro (⟨rfl, rfl, rfl⟩ | ⟨rest, rfl, rfl⟩)
    · rfl
    · rw [List.append_assoc, List.cons_append]

/-- An insertion is a change that gives a phrase to its label. -/
lemma Edit.eq_insert_iff :
    edit = .insert label phrase ↔ label = edit.label ∧ edit.phrase? = some phrase := by
  cases edit <;> simp [Edit.label, Edit.phrase?, eq_comm]

/-- A removal is a change that gives no phrase to its label. -/
lemma Edit.eq_remove_iff : edit = .remove label ↔ label = edit.label ∧ edit.phrase? = none := by
  cases edit <;> simp [Edit.label, Edit.phrase?, eq_comm]

/-- The last change tells what its own label holds. -/
lemma holds_concat : Holds (edits ++ [edit]) label phrase ↔
    if label = edit.label then edit.phrase? = some phrase else Holds edits label phrase := by
  simp only [Holds, concat_eq_iff]
  split
  · rename_i same
    constructor
    · rintro ⟨before, after, ⟨rfl, rfl, e⟩ | ⟨rest, rfl, e⟩, others⟩
      · exact (Edit.eq_insert_iff.1 e.symm).2
      · exact absurd same.symm (others edit (by simp))
    · intro e
      exact ⟨edits, [], .inl ⟨rfl, rfl, (Edit.eq_insert_iff.2 ⟨same, e⟩).symm⟩, nofun⟩
  · rename_i other
    constructor
    · rintro ⟨before, after, ⟨rfl, rfl, e⟩ | ⟨rest, rfl, e⟩, others⟩
      · exact absurd (Edit.eq_insert_iff.1 e.symm).1 other
      · exact ⟨before, rest, e, fun x mem => others x (List.mem_append_left _ mem)⟩
    · rintro ⟨before, rest, e, others⟩
      refine ⟨before, rest ++ [edit], .inr ⟨rest, rfl, e⟩, fun x mem => ?_⟩
      rcases List.mem_append.1 mem with mem | mem
      · exact others x mem
      · rw [List.mem_singleton.1 mem]
        exact fun e => other e.symm

/-- The last change tells whether its own label is gone. -/
lemma gone_concat : Gone (edits ++ [edit]) label ↔
    if label = edit.label then edit.phrase? = none else Gone edits label := by
  simp only [Gone, concat_eq_iff]
  split
  · rename_i same
    constructor
    · intro gone
      rw [Option.eq_none_iff_forall_ne_some]
      intro phrase e
      have new : Edit.insert label phrase = edit := (Edit.eq_insert_iff.2 ⟨same, e⟩).symm
      exact absurd (gone edits phrase [] (.inl ⟨rfl, rfl, new⟩)) List.not_mem_nil
    · intro none
      have removal : edit = .remove label := Edit.eq_remove_iff.2 ⟨same, none⟩
      rintro before phrase after (⟨rfl, rfl, e⟩ | ⟨rest, rfl, e⟩)
      · rw [removal] at e
        cases e
      · exact List.mem_append_right rest (List.mem_singleton.2 removal.symm)
  · rename_i other
    constructor
    · intro gone before phrase rest e
      have mem := gone before phrase (rest ++ [edit]) (.inr ⟨rest, rfl, e⟩)
      rcases List.mem_append.1 mem with mem | mem
      · exact mem
      · exact absurd (Edit.eq_remove_iff.1 (List.mem_singleton.1 mem).symm).1 other
    · rintro gone before phrase after (⟨rfl, rfl, e⟩ | ⟨rest, rfl, e⟩)
      · exact absurd (Edit.eq_insert_iff.1 e.symm).1 other
      · exact List.mem_append_left _ (gone before phrase rest e)

/-- A label that is not removed has come in where it has before. -/
lemma Enters.concat (enters : Enters edits label place) (stays : edit ≠ .remove label) :
    Enters (edits ++ [edit]) label place := by
  obtain ⟨before, phrase, after, rfl, size, gone, kept⟩ := enters
  refine ⟨before, phrase, after ++ [edit], by simp, size, gone, fun mem => ?_⟩
  rcases List.mem_append.1 mem with mem | mem
  · exact kept mem
  · exact stays (List.mem_singleton.1 mem).symm

/-- A label that is gone comes in with its next insertion. -/
lemma Gone.enters (gone : Gone edits label) (phrase : Text) :
    Enters (edits ++ [.insert label phrase]) label edits.length :=
  ⟨edits, phrase, [], rfl, rfl, gone, List.not_mem_nil⟩

/-- A label comes in with one of the changes. -/
lemma Enters.lt (enters : Enters edits label place) : place < edits.length := by
  obtain ⟨before, phrase, after, rfl, rfl, -, -⟩ := enters
  simp

/-- A label comes in at one place. -/
lemma Enters.unique {i j : Nat} (hi : Enters edits label i) (hj : Enters edits label j) :
    i = j := by
  -- a later insertion is the first one since a removal only if there is a removal between the two
  have least : ∀ {i j}, Enters edits label i → Enters edits label j → j ≤ i := by
    intro i j hi hj
    obtain ⟨before, phrase, after, rfl, rfl, -, kept⟩ := hi
    obtain ⟨before', phrase', after', e, rfl, gone, -⟩ := hj
    rcases List.append_eq_append_iff.1 e with ⟨between, rfl, rest⟩ | ⟨between, rfl, -⟩
    · rcases between with _ | ⟨x, between⟩
      · simp
      · obtain ⟨rfl, rfl⟩ := List.cons.inj rest
        have mem := gone before phrase between rfl
        exact absurd (List.mem_append_left _ mem) kept
    · simp
  exact Nat.le_antisymm (least hj hi) (least hi hj)

/-- Labels that are not removed stay in order. -/
lemma InOrder.keep (h : InOrder edits labels) (sub : kept.Sublist labels)
    (stays : ∀ l ∈ kept, edit ≠ .remove l) : InOrder (edits ++ [edit]) kept where
  entered := fun l mem => by
    obtain ⟨place, enters⟩ := h.entered l (sub.subset mem)
    exact ⟨place, enters.concat (stays l mem)⟩
  ordered := (h.ordered.sublist sub).imp_of_mem fun {k l} memK memL before => by
    obtain ⟨i, j, hi, hj, lt⟩ := before
    exact ⟨i, j, hi.concat (stays k memK), hj.concat (stays l memL), lt⟩

/-- A label that is gone comes in behind the others. -/
lemma InOrder.append (h : InOrder edits labels) (gone : Gone edits label) (phrase : Text) :
    InOrder (edits ++ [.insert label phrase]) (labels ++ [label]) := by
  have last := gone.enters phrase
  have before : InOrder (edits ++ [.insert label phrase]) labels :=
    h.keep (List.Sublist.refl _) fun _ _ => Edit.noConfusion
  refine ⟨fun l mem => ?_, List.pairwise_append.2
    ⟨before.ordered, List.pairwise_singleton _ _, fun k memK l memL => ?_⟩⟩
  · rcases List.mem_append.1 mem with mem | mem
    · exact before.entered l mem
    · rw [List.mem_singleton.1 mem]
      exact ⟨edits.length, last⟩
  · obtain ⟨i, hi⟩ := h.entered k memK
    rw [List.mem_singleton.1 memL]
    exact ⟨i, edits.length, hi.concat Edit.noConfusion, last, hi.lt⟩

/-! ## The dictionary after a history -/

/-- The empty dictionary is what it is after no change. -/
lemma reflects_empty : Reflects [] empty where
  distinct := List.nodup_nil
  held := fun label phrase => by
    refine iff_of_false (by simp [get?, empty]) ?_
    rintro ⟨before, after, e, -⟩
    simp at e
  gone := fun label => iff_of_true rfl fun before phrase after e => by simp at e
  inOrder := ⟨nofun, .nil⟩

/-- A change is one of the phrase of its own label and of no other. -/
lemma get?_apply (d : Dictionary) (edit : Edit) (label : Text) :
    (edit.apply d).get? label = if label = edit.label then edit.phrase? else d.get? label := by
  cases edit with
  | insert l phrase => exact get?_insert d l phrase label
  | remove l => exact get?_erase d l label

/-- The labels are in order after one change more. -/
lemma Reflects.inOrder_apply {d : Dictionary} (h : Reflects edits d) (edit : Edit) :
    InOrder (edits ++ [edit]) (edit.apply d).labels := by
  cases edit with
  | insert label phrase =>
    rw [Edit.apply, labels_insert]
    split
    · exact h.inOrder.keep (List.Sublist.refl _) fun _ _ => Edit.noConfusion
    · rename_i fresh
      exact h.inOrder.append ((h.gone label).1 ((get?_eq_none_iff d label).2 fresh)) phrase
  | remove label =>
    rw [Edit.apply, labels_erase]
    refine h.inOrder.keep List.filter_sublist fun l mem e => ?_
    have other : l ≠ label := bne_iff_ne.1 (List.mem_filter.1 mem).2
    exact other (Edit.remove.inj e).symm

/-- One change more is reflected, too. -/
lemma Reflects.apply {d : Dictionary} (h : Reflects edits d) (edit : Edit) :
    Reflects (edits ++ [edit]) (edit.apply d) where
  distinct := (edit.apply d).distinct
  held := fun label phrase => by
    rw [get?_apply, holds_concat]
    split
    · exact Iff.rfl
    · exact h.held label phrase
  gone := fun label => by
    rw [get?_apply, gone_concat]
    split
    · exact Iff.rfl
    · exact h.gone label
  inOrder := h.inOrder_apply edit

/-- After changes that are made one after the other, a dictionary reflects them. -/
lemma reflects_foldl (edits : List Edit) : Reflects edits (edits.foldl Edit.apply empty) := by
  induction edits using List.reverseRecOn with
  | nil => exact reflects_empty
  | append_singleton edits edit ih =>
    rw [List.foldl_concat]
    exact ih.apply edit

end

/-! ## Free letters -/

/-- Whether a character is a letter that is no label. -/
def IsFreeLetter (d : Dictionary) (c : Char) : Prop :=
  'A' ≤ c ∧ c ≤ 'Z' ∧ [c] ∉ d.labels

/-- The letters for labels are those from A to Z. -/
lemma mem_letters_iff {c : Char} : c ∈ letters ↔ 'A' ≤ c ∧ c ≤ 'Z' := by
  constructor
  · revert c
    decide
  · rintro ⟨low, high⟩
    have table : ∀ k < 26, Char.ofNat (65 + k) ∈ letters := by decide
    have low' : 65 ≤ c.toNat := low
    have high' : c.toNat ≤ 90 := high
    have mem := table (c.toNat - 65) (by omega)
    rwa [Nat.add_sub_cancel' low', Char.ofNat_toNat] at mem

/-- The letters for labels are in the order of their codes. -/
lemma letters_sorted : letters.Pairwise (· < ·) := by decide

section
variable {d : Dictionary} {c : Char}

/-- A label that has an entry is one of the dictionary. -/
lemma contains_iff {label : Text} : d.contains label = true ↔ label ∈ d.labels := by
  rw [contains, Option.isSome_iff_ne_none, ne_eq, get?_eq_none_iff, not_not]

/-- A letter is free if no entry has it for its label. -/
lemma isFreeLetter_iff : IsFreeLetter d c ↔ c ∈ letters ∧ d.contains [c] = false := by
  rw [IsFreeLetter, mem_letters_iff, ← Bool.not_eq_true, contains_iff, and_assoc]

/-- The free letter that is found is the least one. -/
lemma freeLetter?_eq_some_iff : d.freeLetter? = some c ↔ IsLeast {b | IsFreeLetter d b} c := by
  rw [freeLetter?, List.find?_eq_some_iff_append]
  constructor
  · rintro ⟨free, before, after, cut, taken⟩
    have mem : c ∈ letters := by simp [cut]
    refine ⟨isFreeLetter_iff.2 ⟨mem, by simpa using free⟩, fun b hb => ?_⟩
    obtain ⟨memB, freeB⟩ := isFreeLetter_iff.1 hb
    have sorted := letters_sorted
    rw [cut, List.pairwise_append, List.pairwise_cons] at sorted
    rw [cut, List.mem_append, List.mem_cons] at memB
    rcases memB with memB | rfl | memB
    · have takenB := taken b memB
      rw [freeB] at takenB
      cases takenB
    · exact le_refl b
    · exact le_of_lt (sorted.2.1.1 b memB)
  · rintro ⟨free, least⟩
    obtain ⟨mem, freeC⟩ := isFreeLetter_iff.1 free
    obtain ⟨before, after, cut⟩ := List.append_of_mem mem
    refine ⟨by rw [freeC]; rfl, before, after, cut, fun b memB => ?_⟩
    have sorted := letters_sorted
    rw [cut, List.pairwise_append] at sorted
    have less : b < c := sorted.2.2 b memB c List.mem_cons_self
    -- a smaller letter is not free
    rw [Bool.not_not, ← Bool.not_eq_false]
    intro freeB
    have memB' : b ∈ letters := cut ▸ List.mem_append_left _ memB
    exact absurd (least (isFreeLetter_iff.2 ⟨memB', freeB⟩)) (not_le_of_gt less)

/-- No letter is found where none is free. -/
lemma freeLetter?_eq_none_iff : d.freeLetter? = none ↔ ∀ b, ¬ IsFreeLetter d b := by
  rw [freeLetter?, List.find?_eq_none]
  constructor
  · intro taken b hb
    obtain ⟨mem, free⟩ := isFreeLetter_iff.1 hb
    exact taken b mem (by rw [free]; rfl)
  · intro none b mem free
    exact none b (isFreeLetter_iff.2 ⟨mem, by simpa using free⟩)

end

/-- After every history of insertions and removals a dictionary reflects the history, and its labels
came in at places of their own. Removing a label tells the phrase that was found under it and leaves
the entries of the other labels. The free letter is the least of `A` to `Z` that is no label, there
is none iff all of them are labels, and a phrase that is inserted under it replaces no other. Many
entries are inserted by a history of insertions. -/
theorem reflects_edited (edits : List Edit) :
    let d := edited edits
    Reflects edits d ∧
    (∀ label i j, Enters edits label i → Enters edits label j → i = j) ∧
    (∀ label, (d.remove label).1 = d.get? label ∧
      (d.remove label).2 = (Edit.remove label).apply d ∧
      (d.remove label).2.entries = d.entries.filter fun entry => entry.1 != label) ∧
    (∀ c, d.freeLetter? = some c ↔ IsLeast {b | IsFreeLetter d b} c) ∧
    (d.freeLetter? = none ↔ ∀ b, 'A' ≤ b ∧ b ≤ 'Z' → [b] ∈ d.labels) ∧
    (∀ c phrase, d.freeLetter? = some c →
      (d.insert [c] phrase).entries = d.entries ++ [([c], phrase)]) ∧
    ∀ entries, ofList entries = edited (entries.map fun entry => .insert entry.1 entry.2) := by
  intro d
  refine ⟨reflects_foldl edits, fun _ _ _ => Enters.unique, fun label => ?_,
    fun _ => freeLetter?_eq_some_iff, ?_, fun c phrase found => ?_, fun entries => ?_⟩
  · exact ⟨(d.remove_eq label).1, rfl, (d.remove_eq label).2⟩
  · rw [freeLetter?_eq_none_iff]
    simp only [IsFreeLetter, not_and, not_not, and_imp]
  · have free := (freeLetter?_eq_some_iff.1 found).1
    exact entries_insert_of_not_mem free.2.2 phrase
  · rw [edited, List.foldl_map]
    rfl

/-- A label that is removed and inserted again goes to the end, and the next free letter follows
it. -/
theorem reflects_edited_of_label_inserted_again :
    let edits : List Edit := [.insert ['B'] "chove".toList, .insert ['A'] "venta".toList,
      .remove ['B'], .insert ['B'] "neva".toList]
    let d := edited edits
    d.labels = [['A'], ['B']] ∧ Enters edits ['B'] 3 ∧
      (∀ place, Enters edits ['B'] place → place = 3) ∧ d.freeLetter? = some 'C' ∧
      (d.insert ['C'] "faz sol".toList).entries = d.entries ++ [(['C'], "faz sol".toList)] := by
  intro edits d
  obtain ⟨-, unique, -, -, -, appended, -⟩ := reflects_edited edits
  have gone : Gone (edits.take 3) ['B'] :=
    ((reflects_edited (edits.take 3)).1.gone ['B']).1 (by decide)
  have enters : Enters edits ['B'] 3 := gone.enters "neva".toList
  have free : d.freeLetter? = some 'C' := by decide
  exact ⟨by decide, enters, fun place other => unique _ _ _ other enters, free,
    appended _ _ free⟩

end Sentential.Dictionary
