import Sentential.Text.Basic

/-!
# Entries under keys

Lists of entries, each under a key, in the order in which their keys were first put. Main
statement: putting a value under a key adds the key at the end unless it is there (`keys_put`), so
keys stay different (`nodup_keys_put`).
-/

namespace Sentential.Entries

variable {α : Type}

/-- Puts a value under a key, where it has an entry, or else at the end. -/
def put (key : Text) (value : α) : List (Text × α) → List (Text × α)
  | [] => [(key, value)]
  | (k, v) :: more => if k = key then (k, value) :: more else (k, v) :: put key value more

/-- The keys in order. -/
def keys {κ : Type} (entries : List (κ × α)) : List κ :=
  entries.map Prod.fst

/-- A value that is put adds its key at the end unless it is there. -/
theorem keys_put (key : Text) (value : α) (entries : List (Text × α)) :
    keys (put key value entries)
      = if key ∈ keys entries then keys entries else keys entries ++ [key] := by
  induction entries with
  | nil => rfl
  | cons entry more ih =>
    by_cases h : entry.1 = key
    · simp [put, keys, h]
    · have h' : ¬ key = entry.1 := fun e => h e.symm
      simp only [put, keys, h, if_false, List.map_cons, List.mem_cons, h', false_or] at ih ⊢
      rw [ih]
      split <;> simp [*]

/-- Keys stay different when a value is put. -/
theorem nodup_keys_put {key : Text} {value : α} {entries : List (Text × α)}
    (distinct : (keys entries).Nodup) : (keys (put key value entries)).Nodup := by
  rw [keys_put]
  split
  · exact distinct
  · rename_i fresh
    rw [List.nodup_append]
    refine ⟨distinct, by simp, ?_⟩
    intro k hk l hl e
    rw [List.mem_singleton] at hl
    exact fresh (hl ▸ e ▸ hk)

end Sentential.Entries
