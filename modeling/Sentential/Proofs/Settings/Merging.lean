import Mathlib.Tactic.Lemma
import Sentential.Proofs.Dictionary.Access
import Sentential.Settings.Value

/-!
# What merging leaves

Values are merged into a tree that was there before. The same values, merged into an empty table,
make a tree of their own. `Over own base full` tells how the three trees are related: where the own
tree has nothing, the full one has what was there before, or nothing; where the own tree has a value
that is no table, the full one has this value; and where the own tree has a table, the full one has
a table that is related to it key by key. The relation is kept by each of the ways in which a value
enters a tree: under a key (`Over.put`), merged (`Over.merge`) and at a place (`Over.setAt`).
-/

namespace Sentential.Setting

/-- What some values leave over a base, where they make the own value on their own. -/
inductive Over : Option Setting → Option Setting → Option Setting → Prop where
  | kept {base} :
    Over none base base
  | gone {base} :
    Over none base none
  | empty {base} :
    Over (some (.table [])) (some base) (some base)
  | replaced {base value} :
    value.entries = [] →
    Over (some value) base (some value)
  | merged {base own full} :
    own ≠ [] →
    (Entries.keys own).Nodup →
    (∀ key, Over (own.lookup key) (base.bind (child? key)) (full.lookup key)) →
    Over (some (.table own)) base (some (.table full))

section
variable {own base full : Option Setting} {s t : Setting}

/-- The relation goes on under each key. -/
lemma Over.child? (laid : Over (some s) base (some t)) (key : Text) :
    Over (s.child? key) (base.bind (Setting.child? key)) (t.child? key) := by
  cases laid with
  | empty => exact .kept
  | replaced none =>
    rw [Setting.child?, none]
    exact .gone
  | merged _ _ inner => exact inner key

/-- No key of the own table stands twice. -/
lemma Over.nodup (laid : Over (some s) base (some t)) : (Entries.keys s.entries).Nodup := by
  cases laid with
  | empty => exact List.nodup_nil
  | replaced none =>
    rw [none]
    exact List.nodup_nil
  | merged _ distinct _ => exact distinct

/-- What has been set is found. -/
lemma Over.exists_eq {value : Setting} (laid : Over (some value) base full) :
    ∃ found, full = some found := by
  cases laid with
  | empty => exact ⟨_, rfl⟩
  | replaced _ => exact ⟨_, rfl⟩
  | merged _ _ _ => exact ⟨_, rfl⟩

/-- So every key of the own table is one of the full table. -/
lemma keys_subset_of_over {own full : List (Text × Setting)} {bases : Text → Option Setting}
    (laid : ∀ key, Over (own.lookup key) (bases key) (full.lookup key)) :
    Entries.keys own ⊆ Entries.keys full := by
  intro key mem
  by_contra absent
  have here := laid key
  rw [Entries.lookup_eq_none_iff.2 absent] at here
  cases e : own.lookup key with
  | none => exact Entries.lookup_eq_none_iff.1 e mem
  | some value =>
    rw [e] at here
    obtain ⟨found, e'⟩ := here.exists_eq
    cases e'

/-- A missing value counts as an empty table on both sides. -/
lemma Over.getD (laid : Over own base full) :
    Over (some (own.getD (.table []))) base (some (full.getD (.table []))) := by
  cases laid with
  | kept =>
    cases base with
    | none => exact .replaced rfl
    | some base => exact .empty
  | gone => exact .replaced rfl
  | empty => exact .empty
  | replaced none => exact .replaced none
  | merged ne distinct inner => exact .merged ne distinct inner

/-- The relation goes on under each key, also where an empty table stands for no value. -/
lemma Over.child (laid : Over (some s) base (some t)) (key : Text) :
    Over (some (s.child key)) (base.bind (Setting.child? key)) (some (t.child key)) :=
  (laid.child? key).getD

/-- Values under a key enter both trees. -/
lemma Over.put {key : Text} {value value' : Setting} (laid : Over (some s) base (some t))
    (inner : Over (some value) (base.bind (Setting.child? key)) (some value')) :
    Over (some (s.put key value)) base (some (t.put key value')) := by
  refine .merged ?_ (Entries.nodup_keys_put laid.nodup) fun k => ?_
  · intro none
    have here := Entries.lookup_put key key value s.entries
    rw [none, if_pos rfl] at here
    cases here
  · rw [Entries.lookup_put, Entries.lookup_put]
    split
    · rename_i same
      subst same
      exact inner
    · exact laid.child? k

end

mutual

/-- A value is merged into both trees. -/
lemma Over.merge {base : Option Setting} {s t : Setting} (laid : Over (some s) base (some t)) :
    ∀ new : Setting, Over (some (s.merge new)) base (some (t.merge new))
  | .table entries => laid.mergeEntries entries
  | .text _ => .replaced rfl
  | .integer _ => .replaced rfl
  | .bool _ => .replaced rfl
  | .missing => .replaced rfl
  | .list _ => .replaced rfl

/-- The entries of a table are merged into both trees. -/
lemma Over.mergeEntries {base : Option Setting} {s t : Setting}
    (laid : Over (some s) base (some t)) :
    ∀ entries : List (Text × Setting),
      Over (some (s.mergeEntries entries)) base (some (t.mergeEntries entries))
  | [] => laid
  | (_, new) :: more => (laid.put ((laid.child _).merge new)).mergeEntries more

end

/-- Whether a turn goes to the value under a key. -/
def Turn.isKey : Turn → Bool
  | .key _ => true
  | .item _ => false

/-- A value is set in both trees at a place that lies under keys. -/
lemma Over.setAt {base : Option Setting} {s t : Setting} (laid : Over (some s) base (some t))
    (value : Setting) {turns : List Turn} (keys : ∀ turn ∈ turns, turn.isKey = true) :
    Over (some (setAt value turns s)) base (some (setAt value turns t)) := by
  induction turns generalizing s t base with
  | nil => exact laid.merge value
  | cons turn more ih =>
    obtain ⟨first, rest⟩ := List.forall_mem_cons.1 keys
    cases turn with
    | item index => cases first
    | key name => exact laid.put (ih (laid.child name) rest)

end Sentential.Setting
