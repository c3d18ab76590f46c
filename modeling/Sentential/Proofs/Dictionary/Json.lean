import Mathlib.Data.List.Induction
import Sentential.Dictionary.Json
import Sentential.Proofs.Dictionary.Access
import Sentential.Proofs.Json.Objects
import Sentential.Proofs.Text.FirstPlaces

/-!
# Dictionaries read back from JSON text

A JSON object of strings is read field by field, whatever its text is (`readPairs_decides`), and
each field is inserted. So the labels stand in the order of their first fields and have the phrases
of their last ones (`labels_ofList`, `get?_ofList`). The entries of a dictionary have different
labels and come back as they are (`ofList_entries`), so every dictionary is read back from both of
its JSON texts (`readJson_toJson`).
-/

namespace Sentential.Dictionary

open Json Text

/-! ## Entries inserted in order -/

/-- The last of some entries is inserted last. -/
lemma ofList_concat (pairs : List (Text × Text)) (pair : Text × Text) :
    ofList (pairs ++ [pair]) = (ofList pairs).insert pair.1 pair.2 :=
  List.foldl_concat _ _ _ _

/-- Each label stands where it comes first. -/
lemma labels_ofList (pairs : List (Text × Text)) :
    (ofList pairs).labels = (pairs.map Prod.fst).eraseDups := by
  induction pairs using List.reverseRecOn with
  | nil => rfl
  | append_singleton pairs pair ih =>
    rw [ofList_concat, labels_insert, ih, List.map_append, List.map_singleton, eraseDups_concat]
    simp only [List.mem_eraseDups]

/-- Each label has the phrase that comes last. -/
lemma get?_ofList (pairs : List (Text × Text)) (label : Text) :
    (ofList pairs).get? label = pairs.reverse.lookup label := by
  induction pairs using List.reverseRecOn with
  | nil => rfl
  | append_singleton pairs pair ih =>
    rw [ofList_concat, get?_insert, ih, List.reverse_concat, Entries.lookup_cons]

/-- Entries of different labels stay as they are. -/
lemma entries_ofList {pairs : List (Text × Text)} (distinct : (Entries.keys pairs).Nodup) :
    (ofList pairs).entries = pairs := by
  induction pairs using List.reverseRecOn with
  | nil => rfl
  | append_singleton pairs pair ih =>
    rw [Entries.keys, List.map_append, List.nodup_append] at distinct
    obtain ⟨distinct, -, apart⟩ := distinct
    have fresh : pair.1 ∉ (ofList pairs).labels := by
      rw [labels, ih distinct]
      exact fun mem => apart _ mem pair.1 (by simp) rfl
    rw [ofList_concat, entries_insert_of_not_mem fresh, ih distinct]

/-- A dictionary arises from its own entries. -/
lemma ofList_entries (d : Dictionary) : ofList d.entries = d := by
  have same : (ofList d.entries).entries = d.entries := entries_ofList d.distinct
  cases h : ofList d.entries
  cases d
  rw [h] at same
  cases same
  rfl

/-! ## Reading -/

/-- The JSON object of some fields with strings. -/
def objectOf (pairs : List (Text × Text)) : Value :=
  .object (pairs.map fun pair => (pair.1, .string pair.2))

section
variable {pairs : List (Text × Text)} {s phrase rest : Text}

/-- A phrase is read from every spelling of it. -/
lemma readPhrase_decides (h : Spells (.string phrase) s) :
    Decides True readPhrase (s ++ rest) phrase rest := by
  cases h with
  | @string g _ s gap spells =>
    obtain ⟨h₁, e₁⟩ : Next (g ++ '\x22' :: (s ++ rest)) '\x22' (s ++ rest) :=
      next_gap gap (by decide)
    obtain ⟨h₂, e₂⟩ : Reads readString (s ++ rest) phrase rest := spells.reads
    rw [List.append_assoc, List.cons_append]
    refine ⟨fun _ => ⟨Nat.lt_trans h₂ h₁, ?_⟩, fun bad => absurd trivial bad⟩
    simp only [readPhrase, e₁, e₂, if_true]
    rfl

/-- The fields of every text of an object of strings are read. -/
lemma readPairs_decides (h : Spells (objectOf pairs) s) :
    Decides True readPairs (s ++ rest) pairs rest := by
  rw [objectOf] at h
  generalize e : Value.object _ = v at h
  cases h with
  | string => cases e
  | @object g s fields gap spells =>
    cases e
    obtain ⟨h₁, e₁⟩ : Next (g ++ '\x7b' :: (s ++ rest)) '\x7b' (s ++ rest) :=
      next_gap gap (by decide)
    have decides : Decides (∀ x ∈ pairs, True) (readObject readPhrase) (s ++ rest) pairs rest :=
      spells.of_map.decides fun _ _ _ => readPhrase_decides
    obtain ⟨h₂, e₂⟩ := decides.1 fun _ _ => trivial
    rw [List.append_assoc, List.cons_append]
    refine ⟨fun _ => ⟨Nat.lt_trans h₂ h₁, ?_⟩, fun bad => absurd trivial bad⟩
    simp only [readPairs, e₁, e₂, if_true]
    rfl

/-- Every text of an object of strings is read as the dictionary into which its fields are
inserted. -/
lemma readJson_of_spells (h : SpellsWhole (objectOf pairs) s) :
    readJson s = .ok (ofList pairs) := by
  obtain ⟨t, g, rfl, spells, gap⟩ := h
  obtain ⟨reads, -⟩ := readWhole_decides gap (readPairs_decides spells)
  rw [readJson, reads trivial]

/-- The compact text of an object spells it. -/
lemma spells_compact_objectOf (pairs : List (Text × Text)) :
    Spells (objectOf pairs) (objectOf pairs).compact := by
  refine spells_compact fun field mem => ?_
  obtain ⟨pair, -, rfl⟩ := List.mem_map.1 mem
  exact spells_quoted pair.2

/-- The indented text of an object spells it. -/
lemma spells_pretty_objectOf (pairs : List (Text × Text)) :
    Spells (objectOf pairs) (objectOf pairs).pretty := by
  refine spells_prettyAt fun field mem => ?_
  obtain ⟨pair, -, rfl⟩ := List.mem_map.1 mem
  exact spells_quoted pair.2

end

/-- Every dictionary is read back from its two JSON texts. Every text of a JSON object of strings,
those that are written for it among them, is read as the dictionary into which its fields are
inserted in order: the labels stand in the order of their first fields and have the phrases of their
last ones. -/
theorem readJson_toJson :
    (∀ d : Dictionary, readJson d.toJson.compact = .ok d ∧ readJson d.toJson.pretty = .ok d) ∧
    ∀ pairs : List (Text × Text),
      (∀ s, SpellsWhole (objectOf pairs) s → readJson s = .ok (ofList pairs)) ∧
      SpellsWhole (objectOf pairs) (objectOf pairs).compact ∧
      SpellsWhole (objectOf pairs) (objectOf pairs).pretty ∧
      (ofList pairs).labels = (pairs.map Prod.fst).eraseDups ∧
      ∀ label, (ofList pairs).get? label = pairs.reverse.lookup label := by
  refine ⟨fun d => ?_, fun pairs => ⟨fun s => readJson_of_spells,
    (spells_compact_objectOf pairs).whole, (spells_pretty_objectOf pairs).whole,
    labels_ofList pairs, get?_ofList pairs⟩⟩
  have compact := readJson_of_spells (spells_compact_objectOf d.entries).whole
  have pretty := readJson_of_spells (spells_pretty_objectOf d.entries).whole
  rw [ofList_entries] at compact pretty
  exact ⟨compact, pretty⟩

/-- A label that comes twice, the second time by its code, keeps its place and takes the last
phrase. -/
theorem readJson_toJson_of_repeated_label :
    let pairs := [("A".toList, "chove".toList), ("B".toList, "venta".toList),
      ("A".toList, "\"neva\"".toList)]
    let s := "\x7b \"A\": \"chove\",\n\"B\" : \"venta\",\"\\u0041\":\"\\\"neva\\\"\"\x7d\n".toList
    SpellsWhole (objectOf pairs) s ∧ readJson s = .ok (ofList pairs) ∧
      (ofList pairs).entries = [("A".toList, "\"neva\"".toList), ("B".toList, "venta".toList)] := by
  intro pairs s
  have line : IsGap ['\n'] := isGap_singleton rfl
  have third : SpellsString ['A'] "\\u0041\"".toList := by
    have zero : hexValue? '0' = some 0 := by decide
    have four : hexValue? '4' = some 4 := by decide
    have one : hexValue? '1' = some 1 := by decide
    have code : SpellsCode ('A'.toNat) "0041".toList := .digits zero zero four one
    exact .char (.code code) .close
  have phrase : ∀ text, Spells (.string text) (' ' :: quoted text) := fun text =>
    .string isGap_space (spellsString_escaped text)
  have spells : SpellsWhole (objectOf pairs) s :=
    ⟨_, _, rfl, .object isGap_nil (.fields
      (.field isGap_space (spellsString_escaped _) isGap_nil (phrase _)) (.more isGap_nil
      (.field line (spellsString_escaped _) isGap_space (phrase _)) (.more isGap_nil
      (.field isGap_nil third isGap_nil (spells_quoted _)) (.close isGap_nil)))), line⟩
  exact ⟨spells, (readJson_toJson.2 pairs).1 s spells, by decide⟩

end Sentential.Dictionary
