import Mathlib.Tactic.Lemma
import Sentential.Formula.Json
import Sentential.Proofs.Formula.Acceptance
import Sentential.Proofs.Json.Objects

/-!
# Formulas read back from JSON text

The JSON value of a formula spells the formula (`ofJson?_toJson`), and its objects nest as deep as
the formula (`nestsWithin_toJson`). So both written texts are read back as the formula as long as
the reader of JSON allows so many levels. The reader of formulas allows more, so some formulas that
have been read are written and not read back (`readJson?_toJson`).
-/

namespace Sentential.Formula

open Json Symbolic

/-! ## Values -/

/-- A connective is told by its name. -/
lemma connective?_name (op : Connective) : connective? (.string op.name) = some op := by
  cases op <;> rfl

/-- The JSON value of a formula is an object whose fields spell the formula. -/
lemma exists_fields (f : Formula) :
    ∃ fields, f.toJson = .object fields ∧
      ∀ numbered, ofFields numbered (fieldParts fields) = some f := by
  induction f with
  | atom name => exact ⟨_, rfl, fun _ => rfl⟩
  | not operand ih =>
    obtain ⟨fields, e, spelled⟩ := ih
    refine ⟨_, rfl, fun numbered => ?_⟩
    have inner : ofInnerJson operand.toJson = some operand := by
      rw [e]
      exact spelled true
    simp only [fieldParts, inner]
    rfl
  | binary op left right ihl ihr =>
    obtain ⟨fieldsL, el, spelledL⟩ := ihl
    obtain ⟨fieldsR, er, spelledR⟩ := ihr
    refine ⟨_, rfl, fun numbered => ?_⟩
    have innerL : ofInnerJson left.toJson = some left := by
      rw [el]
      exact spelledL true
    have innerR : ofInnerJson right.toJson = some right := by
      rw [er]
      exact spelledR true
    simp only [fieldParts, innerL, innerR]
    show (connective? (.string op.name)).bind _ = _
    rw [connective?_name]
    rfl

/-- A formula is told by its value. -/
lemma ofJson?_toJson (f : Formula) : ofJson? f.toJson = some f := by
  obtain ⟨fields, e, spelled⟩ := f.exists_fields
  rw [e]
  exact spelled false

/-- The objects of the JSON value of a formula nest as deep as the formula. -/
lemma nestsWithin_toJson (f : Formula) (levels : Nat) :
    NestsWithin levels f.toJson ↔ f.depth ≤ levels := by
  have flat : ∀ levels text, NestsWithin levels (.string text) ↔ True := fun levels text => by
    cases levels <;> exact Iff.rfl
  -- an object takes one level, and its strings need none of those that are left
  induction f generalizing levels with
  | atom name =>
    cases levels with
    | zero => exact iff_of_false id (Nat.not_succ_le_zero 0)
    | succ levels =>
      simp only [toJson, NestsWithin, List.forall_mem_cons, List.not_mem_nil, IsEmpty.forall_iff,
        implies_true, flat, depth, and_true, true_iff]
      omega
  | not operand ih =>
    cases levels with
    | zero => exact iff_of_false id (by rw [depth]; omega)
    | succ levels =>
      simp only [toJson, NestsWithin, List.forall_mem_cons, List.not_mem_nil, IsEmpty.forall_iff,
        implies_true, flat, ih, depth, and_true, true_and]
      omega
  | binary op left right ihl ihr =>
    cases levels with
    | zero => exact iff_of_false id (by rw [depth]; omega)
    | succ levels =>
      simp only [toJson, NestsWithin, List.forall_mem_cons, List.not_mem_nil, IsEmpty.forall_iff,
        implies_true, flat, ihl, ihr, depth, and_true, true_and]
      omega

/-- What holds of strings and passes from the fields of an object to the object holds of the JSON
value of a formula. -/
lemma toJson_induction {motive : Value → Prop} (string : ∀ text, motive (.string text))
    (object : ∀ fields, (∀ field ∈ fields, motive field.2) → motive (.object fields))
    (f : Formula) : motive f.toJson := by
  induction f with
  | atom name =>
    refine object _ ?_
    simp only [List.forall_mem_cons]
    exact ⟨string _, string _, nofun⟩
  | not operand ih =>
    refine object _ ?_
    simp only [List.forall_mem_cons]
    exact ⟨string _, ih, nofun⟩
  | binary op left right ihl ihr =>
    refine object _ ?_
    simp only [List.forall_mem_cons]
    exact ⟨string _, string _, ihl, ihr, nofun⟩

/-! ## Texts -/

/-- The compact text of a formula spells its value. -/
lemma spells_compact_toJson (f : Formula) : Spells f.toJson f.toJson.compact :=
  f.toJson_induction (motive := fun v => Spells v v.compact) spells_quoted
    fun _ => spells_compact

/-- The indented text of a formula spells its value at each level. -/
lemma spells_prettyAt_toJson (f : Formula) :
    ∀ level, Spells f.toJson (f.toJson.prettyAt level) :=
  f.toJson_induction (motive := fun v => ∀ level, Spells v (v.prettyAt level))
    (fun text _ => spells_quoted text)
    fun _ inner level => spells_prettyAt fun field mem => inner field mem (level + 1)

/-- A JSON text of a formula is read as the formula iff the formula is not too deep for it. -/
lemma readJson?_of_spells {f : Formula} {s : Text} (h : SpellsWhole f.toJson s) :
    readJson? s = if f.depth ≤ maxLevels then some f else none := by
  obtain ⟨t, g, rfl, spells, gap⟩ := h
  obtain ⟨reads, fails⟩ := readWhole_decides gap (spells.decides maxLevels)
  rw [nestsWithin_toJson] at reads fails
  rw [readJson?, Json.read]
  split_ifs with flat
  · rw [reads flat]
    exact f.ofJson?_toJson
  · obtain ⟨fault, e⟩ := fails flat
    rw [e]

/-- Both JSON texts of a formula, over whatever names, are read back as the formula if it is at most
127 deep, and are refused if it is deeper. So formulas that are read from text and cannot be read
back from JSON text have the depths from 128 to 256. -/
theorem readJson?_toJson :
    (∀ f : Formula,
      readJson? f.toJson.compact = (if f.depth ≤ 127 then some f else none) ∧
      readJson? f.toJson.pretty = if f.depth ≤ 127 then some f else none) ∧
    ∀ depth, (∃ s f, Symbolic.read s = .ok f ∧ f.depth = depth ∧ readJson? f.toJson.compact = none ∧
      readJson? f.toJson.pretty = none) ↔ 127 < depth ∧ depth ≤ 256 := by
  have back : ∀ f : Formula,
      readJson? f.toJson.compact = (if f.depth ≤ 127 then some f else none) ∧
      readJson? f.toJson.pretty = if f.depth ≤ 127 then some f else none := fun f =>
    ⟨readJson?_of_spells f.spells_compact_toJson.whole,
      readJson?_of_spells (f.spells_prettyAt_toJson 0).whole⟩
  refine ⟨back, fun depth => ⟨?_, ?_⟩⟩
  · rintro ⟨s, f, accepted, rfl, lost, -⟩
    obtain ⟨-, -, -, -, -, flat⟩ := derives_of_read accepted
    refine ⟨Nat.lt_of_not_le fun near => ?_, flat⟩
    rw [(back f).1, if_pos near] at lost
    cases lost
  · rintro ⟨deep, flat⟩
    -- negations on negations are read up to the limit of the depth
    obtain ⟨n, rfl⟩ : ∃ n, depth = n + 1 := ⟨depth - 1, by omega⟩
    have isName : IsAtomName "A".toList := by decide
    have high : (Formula.not^[n] (.atom "A".toList)).depth = n + 1 := depth_iterate_not n _
    have lost : ¬ (Formula.not^[n] (.atom "A".toList)).depth ≤ 127 := by omega
    refine ⟨_, _, read_iterate_not isName flat, high, ?_, ?_⟩
    · rw [(back _).1, if_neg lost]
    · rw [(back _).2, if_neg lost]

end Sentential.Formula
