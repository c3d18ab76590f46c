import Mathlib.Tactic.Lemma
import Sentential.Proofs.Settings.Merging
import Sentential.Settings.Basic

/-!
# Fields of settings

The settings are read from three fields of a tree (`ofSetting?_eq_some`). Where values have been
merged into a tree, a field shows what these values give to it on their own, or what it had before,
or nothing (`reveals_value?`). It shows a value (`Shows`) if it has this value, or has a table with
all its keys: a choice is read from such a table only if it has no other key (`Shows.choice?`).
-/

namespace Sentential

namespace Setting

/-- Whether a value is an empty table. Merging it sets nothing. -/
def isEmpty : Setting → Bool
  | .table [] => true
  | _ => false

end Setting

namespace Settings

open Setting

/-! ## Fields -/

/-- A value unless it is an empty table. -/
def filled (value : Option Setting) : Option Setting :=
  value.filter fun value => !value.isEmpty

/-- A table with entries is no empty one. -/
lemma filled_table {entries : List (Text × Setting)} (ne : entries ≠ []) :
    filled (some (.table entries)) = some (.table entries) := by
  obtain ⟨entry, entries, rfl⟩ := List.exists_cons_of_ne_nil ne
  rfl

/-- A field of the settings. -/
inductive Field where
  | format
  | dictionaryFormat
  | initial
deriving DecidableEq, Repr

namespace Field

/-- The group that has a field. -/
def group : Field → Text
  | .format => "output".toList
  | .dictionaryFormat => "output".toList
  | .initial => "dictionary".toList

/-- The names of the fields of the group, in order. -/
def names : Field → List Text
  | .format => ["format".toList, "dictionary_format".toList]
  | .dictionaryFormat => ["format".toList, "dictionary_format".toList]
  | .initial => ["default".toList]

/-- The name of a field in its group. -/
def name : Field → Text
  | .format => "format".toList
  | .dictionaryFormat => "dictionary_format".toList
  | .initial => "default".toList

/-- The place of a field, as it is written. -/
def place (field : Field) : Text :=
  field.group ++ '.' :: field.name

/-- The way to the place of a field. -/
def turns (field : Field) : List Turn :=
  [.key field.group, .key field.name]

/-- The value that a tree has for a field. An empty table is none. -/
def value? (field : Field) (root : Setting) : Option Setting :=
  filled ((root.child? field.group).bind (field? field.names field.name))

end Field

/-! ## Reading fields -/

/-- Only a table has single fields. -/
lemma field?_nil (name : Text) (root : Setting) : field? [] name root = root.child? name := by
  cases root <;> rfl

/-- A value that names a choice is no empty table. -/
lemma filled_of_choice? {value : Setting} {name : Text} (read : choice? value = some name) :
    filled (some value) = some value := by
  match value, read with
  | .text _, _ => rfl
  | .table [_], _ => rfl

/-- A field has the value under its name in its group. -/
lemma Field.value?_eq_some (field : Field) {root group value : Setting}
    (inside : root.child? field.group = some group)
    (here : field? field.names field.name group = some value)
    (full : filled (some value) = some value) : field.value? root = some value := by
  rw [Field.value?, inside, Option.bind_some, here, full]

/-- Settings are read field by field. -/
lemma ofSetting?_eq_some {root : Setting} {settings : Settings}
    (read : ofSetting? root = some settings) :
    (∃ value, Field.format.value? root = some value ∧
        (choice? value).bind FormulaFormat.ofName? = some settings.format) ∧
      (∃ value, Field.dictionaryFormat.value? root = some value ∧
        (choice? value).bind DictionaryFormat.ofName? = some settings.dictionaryFormat) ∧
      ∃ items, Field.initial.value? root = some (.list items) ∧
        items.mapM entry? = some settings.initial := by
  simp only [ofSetting?, field?_nil, Option.bind_eq_bind, Option.bind_eq_some_iff] at read
  obtain ⟨output, group, dictionary, group', format, field, dictionaryFormat, field', entries,
    field'', read⟩ := read
  match entries, read with
  | .list items, read =>
    simp only [Option.bind_eq_some_iff] at read
    obtain ⟨name, chosen, form, known, name', chosen', form', known', initial, listed, whole⟩ :=
      read
    cases whole
    exact ⟨⟨format, Field.format.value?_eq_some group field (filled_of_choice? chosen),
        by rw [chosen]; exact known⟩,
      ⟨dictionaryFormat, Field.dictionaryFormat.value?_eq_some group field'
        (filled_of_choice? chosen'), by rw [chosen']; exact known'⟩,
      items, Field.initial.value?_eq_some group' field'' rfl, listed⟩

/-! ## What a tree shows of a field -/

/-- Whether one value is found where another one was set: the same, or a table with more keys. -/
inductive Shows : Setting → Setting → Prop where
  | same {value} :
    Shows value value
  | more {own full} :
    own ≠ [] →
    (Entries.keys own).Nodup →
    Entries.keys own ⊆ Entries.keys full →
    Shows (.table own) (.table full)

/-- A choice is read from a value as from its source. -/
lemma Shows.choice? {given found : Setting} {name : Text} (shows : Shows given found)
    (read : Settings.choice? found = some name) : Settings.choice? given = some name := by
  cases shows with
  | same => exact read
  | @more own full ne distinct sub =>
    -- the table that is found has one key, so the one that was set has this key and no other
    match full, read with
    | [(key, _)], read =>
      obtain ⟨⟨first, v⟩, rest, rfl⟩ := List.exists_cons_of_ne_nil ne
      have only : ∀ k ∈ Entries.keys ((first, v) :: rest), k = key :=
        fun k mem => List.mem_singleton.1 (sub mem)
      obtain ⟨rfl, others⟩ := List.forall_mem_cons.1 only
      cases rest with
      | nil => exact read
      | cons entry rest =>
        have same := others entry.1 List.mem_cons_self
        exact absurd (same ▸ List.mem_cons_self) (List.nodup_cons.1 distinct).1

/-- A list is found only where it was set. -/
lemma Shows.eq_list {given : Setting} {items : List Setting} (shows : Shows given (.list items)) :
    given = .list items := by
  cases shows
  rfl

/-- What is found of a field behind some values, where they give the own value on their own: this
value, or what was there before, or nothing. -/
def Reveals (own base full : Option Setting) : Prop :=
  match own with
  | some value => ∃ found, full = some found ∧ Shows value found
  | none => full = base ∨ full = none

section
variable {own base full : Option Setting}

/-- A value that is given as it is shows itself. -/
lemma reveals_of_eq (value : Option Setting) : Reveals value base value := by
  cases value with
  | none => exact .inr rfl
  | some found => exact ⟨found, rfl, .same⟩

/-- What is found of one value. -/
lemma reveals_of_over (laid : Over own base full) :
    Reveals (filled own) (filled base) (filled full) := by
  cases laid with
  | kept => exact .inl rfl
  | gone => exact .inr rfl
  | empty => exact .inl rfl
  | replaced _ => exact reveals_of_eq _
  | @merged base own full ne distinct inner =>
    have sub := keys_subset_of_over inner
    have shown : Shows (.table own) (.table full) := .more ne distinct sub
    have ne' : full ≠ [] := by
      rintro rfl
      obtain ⟨entry, own, rfl⟩ := List.exists_cons_of_ne_nil ne
      cases sub List.mem_cons_self
    rw [filled_table ne, filled_table ne']
    exact ⟨_, rfl, shown⟩

/-- What is found over nothing can be found over anything. -/
lemma Reveals.of_none (reveals : Reveals own none full) : Reveals own base full := by
  cases own with
  | none => exact .inr (reveals.elim id id)
  | some value => exact reveals

/-- What is found of a field of a group. -/
lemma reveals_field (laid : Over own base full) (names : List Text) (name : Text) :
    Reveals (filled (own.bind (field? names name))) (filled (base.bind (field? names name)))
      (filled (full.bind (field? names name))) := by
  cases laid with
  | kept => exact .inl rfl
  | gone => exact .inr rfl
  | empty => exact .inl rfl
  | replaced _ => exact reveals_of_eq _
  | @merged base own full _ _ inner =>
    have reveals := reveals_of_over (inner name)
    -- a group that was no table has been replaced, so what it had is gone
    cases base with
    | none => exact reveals
    | some base =>
      cases base with
      | table entries => exact reveals
      | _ => exact Reveals.of_none reveals

end

/-- What is found of a field in a tree. -/
lemma reveals_value? {own base full : Setting} (laid : Over (some own) (some base) (some full))
    (field : Field) : Reveals (field.value? own) (field.value? base) (field.value? full) :=
  reveals_field (laid.child? field.group) field.names field.name

/-! ## Single values -/

/-- What a value gives on its own. -/
def given? (value : Setting) : Option Setting :=
  filled (some ((Setting.table []).merge value))

/-- The place of a field is read as the way to it. -/
lemma Field.readPlace?_place (field : Field) : readPlace? field.place = some field.turns := by
  cases field <;> decide +kernel

/-- A field is told by the way to it. -/
lemma Field.turns_inj {field field' : Field} (same : field.turns = field'.turns) :
    field = field' := by
  cases field <;> cases field' <;> first | rfl | exact absurd same (by decide)

/-- A field is told by its place. -/
lemma Field.place_inj {field field' : Field} (same : field.place = field'.place) :
    field = field' := by
  have places := field.readPlace?_place
  rw [same, field'.readPlace?_place] at places
  exact (Field.turns_inj (Option.some.inj places)).symm

/-- A value at the place of a field is given to this field and to no other one. -/
lemma Field.value?_setAt (field field' : Field) (value : Setting) :
    field.value? (setAt value field'.turns (.table []))
      = if field' = field then given? value else none := by
  cases field <;> cases field' <;> rfl

/-- A value at the place of a field leaves the other fields as they were, or takes them away. -/
lemma Field.reveals_setAt (field field' : Field) (value root : Setting) :
    Reveals (if field' = field then given? value else none) (field.value? root)
      (field.value? (setAt value field'.turns root)) := by
  have keys : ∀ turn ∈ field'.turns, turn.isKey = true := by
    cases field' <;> decide
  rw [← field.value?_setAt field' value]
  exact reveals_value? (Over.setAt .empty value keys) field

end Settings

end Sentential
