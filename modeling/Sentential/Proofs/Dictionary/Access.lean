import Mathlib.Data.List.Basic
import Mathlib.Tactic.Lemma
import Sentential.Dictionary.Basic

/-!
# Looking up entries

What is inserted under a label is found there, and nothing changes for the other labels
(`get?_insert`). Removing a label takes out the first of its entries and tells its phrase
(`remove_eq`). No label has a second entry, so what is left are the entries of the other labels
(`entries_erase`).
-/

namespace Sentential

namespace Entries

variable {α : Type}

/-! ## Lookups -/

section
variable {κ : Type} [BEq κ] [LawfulBEq κ] {key : κ} {entries entries' : List (κ × α)}

/-- The first entry is looked at first. -/
lemma lookup_cons [DecidableEq κ] (first k : κ) (value : α) (more : List (κ × α)) :
    ((first, value) :: more).lookup k = if k = first then some value else more.lookup k := by
  rw [List.lookup_cons]
  by_cases same : k = first
  · rw [if_pos same, beq_iff_eq.2 same]
  · rw [if_neg same, beq_false_of_ne same]

/-- A key without an entry has no value. -/
lemma lookup_eq_none_iff : entries.lookup key = none ↔ key ∉ keys entries := by
  rw [List.lookup_eq_none_iff, keys, List.mem_map]
  constructor
  · rintro absent ⟨entry, mem, rfl⟩
    simpa using absent entry mem
  · intro absent entry mem
    exact bne_iff_ne.2 fun e => absent ⟨entry, mem, e.symm⟩

/-- Where keys are different, a key has the value of its entry. -/
lemma lookup_eq_some_iff (distinct : (keys entries).Nodup) {value : α} :
    entries.lookup key = some value ↔ (key, value) ∈ entries := by
  classical
  induction entries with
  | nil => simp
  | cons entry more ih =>
    obtain ⟨first, v⟩ := entry
    obtain ⟨absent, distinct⟩ := List.nodup_cons.1 distinct
    rw [lookup_cons, List.mem_cons, Prod.mk.injEq]
    by_cases same : key = first
    · subst same
      have other : (key, value) ∉ more := fun mem => absent (List.mem_map.2 ⟨_, mem, rfl⟩)
      simp [other, eq_comm]
    · rw [if_neg same, ih distinct]
      simp [same]

/-- Where keys are different, it does not matter in which order the entries are. -/
lemma lookup_eq_of_perm (perm : entries.Perm entries') (distinct : (keys entries).Nodup) :
    entries.lookup key = entries'.lookup key := by
  have distinct' : (keys entries').Nodup := (perm.map Prod.fst).nodup_iff.1 distinct
  ext value
  rw [lookup_eq_some_iff distinct, lookup_eq_some_iff distinct', perm.mem_iff]

end

/-! ## Changes -/

variable {key : Text} {entries : List (Text × α)}

/-- A key has the value that was put under it, and the others have theirs. -/
lemma lookup_put (key k : Text) (value : α) (entries : List (Text × α)) :
    (put key value entries).lookup k = if k = key then some value else entries.lookup k := by
  induction entries with
  | nil => exact lookup_cons key k value []
  | cons entry more ih =>
    obtain ⟨first, v⟩ := entry
    rw [put]
    by_cases same : first = key
    · subst same
      rw [if_pos rfl, lookup_cons, lookup_cons]
      split <;> rfl
    · rw [if_neg same, lookup_cons, lookup_cons, ih]
      by_cases h : k = first
      · rw [if_pos h, if_pos h, if_neg (h ▸ same)]
      · rw [if_neg h, if_neg h]

/-- A new key goes behind the others. -/
lemma put_of_not_mem (fresh : key ∉ keys entries) (value : α) :
    put key value entries = entries ++ [(key, value)] := by
  induction entries with
  | nil => rfl
  | cons entry more ih =>
    obtain ⟨other, fresh⟩ := List.ne_and_not_mem_of_not_mem_cons fresh
    rw [put, if_neg (fun e => other e.symm), ih fresh, List.cons_append]

/-- Without the entries of a key, the key has no value, and the others have theirs. -/
lemma lookup_filter (key k : Text) (entries : List (Text × α)) :
    (entries.filter fun entry => entry.1 != key).lookup k
      = if k = key then none else entries.lookup k := by
  induction entries with
  | nil =>
    rw [List.filter_nil, List.lookup_nil]
    split <;> rfl
  | cons entry more ih =>
    obtain ⟨first, v⟩ := entry
    rw [List.filter_cons]
    by_cases same : first = key
    · subst same
      rw [if_neg (by simp), ih, lookup_cons]
      split <;> rfl
    · rw [if_pos (by simpa using same), lookup_cons, lookup_cons, ih]
      by_cases h : k = first
      · rw [if_pos h, if_pos h, if_neg (h ▸ same)]
      · rw [if_neg h, if_neg h]

/-- A key without entries has none to be taken out. -/
lemma filter_eq_self (absent : key ∉ keys entries) :
    (entries.filter fun entry => entry.1 != key) = entries := by
  refine List.filter_eq_self.2 fun entry mem => bne_iff_ne.2 ?_
  rintro rfl
  exact absent (List.mem_map_of_mem mem)

/-- The first entry of a key is the one that is looked up, and where keys are different the others
are those of the other keys. -/
lemma of_findIdx?_eq_some {place : Nat} (distinct : (keys entries).Nodup)
    (found : entries.findIdx? (fun entry => entry.1 == key) = some place) :
    entries[place]?.map Prod.snd = entries.lookup key ∧
      entries.eraseIdx place = entries.filter fun entry => entry.1 != key := by
  induction entries generalizing place with
  | nil => cases found
  | cons entry more ih =>
    obtain ⟨first, v⟩ := entry
    obtain ⟨absent, distinct⟩ := List.nodup_cons.1 distinct
    rw [List.findIdx?_cons] at found
    by_cases same : first = key
    · subst same
      rw [if_pos (by simp)] at found
      cases found
      rw [List.filter_cons_of_neg (by simp), filter_eq_self absent, lookup_cons, if_pos rfl]
      exact ⟨rfl, rfl⟩
    · rw [if_neg (by simpa using same)] at found
      obtain ⟨behind, found', rfl⟩ := Option.map_eq_some_iff.1 found
      obtain ⟨value, rest⟩ := ih distinct found'
      rw [List.filter_cons_of_pos (by simpa using same), lookup_cons,
        if_neg (fun e => same e.symm), List.getElem?_cons_succ, List.eraseIdx_cons_succ, value,
        rest]
      exact ⟨rfl, rfl⟩

end Entries

namespace Dictionary

variable (d : Dictionary) (label : Text)

/-- A label has the phrase that was inserted, and the others have theirs. -/
lemma get?_insert (phrase k : Text) :
    (d.insert label phrase).get? k = if k = label then some phrase else d.get? k :=
  Entries.lookup_put label k phrase d.entries

/-- A label without a phrase is none of the dictionary. -/
lemma get?_eq_none_iff : d.get? label = none ↔ label ∉ d.labels :=
  Entries.lookup_eq_none_iff

/-- A label has the phrase of its entry. -/
lemma get?_eq_some_iff {phrase : Text} :
    d.get? label = some phrase ↔ (label, phrase) ∈ d.entries :=
  Entries.lookup_eq_some_iff d.distinct

/-- Removing a label tells the phrase that it had and leaves the entries of the others. -/
lemma remove_eq :
    (d.remove label).1 = d.get? label ∧
      (d.remove label).2.entries = d.entries.filter fun entry => entry.1 != label := by
  cases found : d.place? label with
  | none =>
    have absent : d.get? label = none := by
      rw [get?_eq_none_iff, labels, Entries.keys, List.mem_map]
      rintro ⟨entry, mem, rfl⟩
      simpa using List.findIdx?_eq_none_iff.1 found entry mem
    rw [remove, found, absent]
    exact ⟨rfl, (Entries.filter_eq_self ((get?_eq_none_iff d label).1 absent)).symm⟩
  | some place =>
    rw [remove, found]
    exact Entries.of_findIdx?_eq_some d.distinct found

/-- The entries of the other labels are left, in their order. -/
lemma entries_erase :
    (d.erase label).entries = d.entries.filter fun entry => entry.1 != label :=
  (d.remove_eq label).2

/-- A label that is erased has no phrase, and the others have theirs. -/
lemma get?_erase (k : Text) :
    (d.erase label).get? k = if k = label then none else d.get? k := by
  rw [get?, entries_erase]
  exact Entries.lookup_filter label k d.entries

/-- The other labels are left, in their order. -/
lemma labels_erase : (d.erase label).labels = d.labels.filter (· != label) := by
  rw [labels, labels, entries_erase, Entries.keys, Entries.keys, List.filter_map]
  rfl

/-- A new label goes behind the others, and a known one keeps its place. -/
lemma labels_insert (phrase : Text) :
    (d.insert label phrase).labels
      = if label ∈ d.labels then d.labels else d.labels ++ [label] :=
  Entries.keys_put label phrase d.entries

variable {d label} in
/-- A phrase under a new label goes behind the other entries. -/
lemma entries_insert_of_not_mem (fresh : label ∉ d.labels) (phrase : Text) :
    (d.insert label phrase).entries = d.entries ++ [(label, phrase)] :=
  Entries.put_of_not_mem fresh phrase

end Dictionary

end Sentential
