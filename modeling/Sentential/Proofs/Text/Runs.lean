import Mathlib.Data.List.Basic
import Mathlib.Data.List.TakeWhile
import Mathlib.Tactic.Lemma
import Sentential.Text.WordChar

/-!
# The runs of a text

A run is a longest stretch of characters with a property. A character without the property parts
the runs before it from those behind it (`runs_append_cons`), and so does every place where two
neighbours do not both have it (`Parted`, `runs_append`). Words are runs of word characters.
-/

namespace Sentential.Text

variable {p : Char → Bool}

/-- The empty text has no runs. -/
@[simp] lemma runs_nil : runs p [] = [] := rfl

/-- Another character in front is in no run. -/
lemma runs_cons_of_not {c : Char} (rest : Text) (h : p c = false) :
    runs p (c :: rest) = runs p rest := by
  simp [runs, h]

/-- The runs behind a character, and whether one of them begins there, decide. -/
lemma runs_cons_congr {s t : Text} (c : Char) (same : runs p s = runs p t)
    (head : s.head?.any p = t.head?.any p) : runs p (c :: s) = runs p (c :: t) := by
  rw [runs, runs, same, head]

/-- A run at the front of a text goes on as far as it can. -/
lemma runs_cons {c : Char} (rest : Text) (h : p c = true) :
    runs p (c :: rest) = (c :: rest.takeWhile p) :: runs p (rest.dropWhile p) := by
  induction rest generalizing c with
  | nil => simp [runs, h]
  | cons d rest ih =>
    rw [runs]
    by_cases hd : p d = true
    · simp [h, hd, ih hd]
    · simp [h, hd]

/-- A character without the property parts the runs. -/
lemma runs_append_cons {c : Char} (s t : Text) (h : p c = false) :
    runs p (s ++ c :: t) = runs p s ++ runs p t := by
  induction s with
  | nil => exact runs_cons_of_not t h
  | cons d s ih =>
    rw [List.cons_append, runs, runs, ih]
    rcases s with _ | ⟨e, s⟩
    · by_cases hd : p d = true <;> simp [hd, h]
    · by_cases he : p e = true
      · by_cases hd : p d = true <;> simp [hd, he, runs_cons s he]
      · by_cases hd : p d = true <;> simp [hd, he]

/-- Another character at the end is in no run. -/
lemma runs_append_singleton {c : Char} (s : Text) (h : p c = false) :
    runs p (s ++ [c]) = runs p s := by
  simp [runs_append_cons s [] h]

/-- A text all of whose characters have the property is one run. -/
lemma runs_of_all {s : Text} (ne : s ≠ []) (h : ∀ c ∈ s, p c = true) : runs p s = [s] := by
  obtain ⟨c, s, rfl⟩ := List.exists_cons_of_ne_nil ne
  have all : ∀ d ∈ s, p d = true := fun d hd => h d (List.mem_cons_of_mem c hd)
  have take : s.takeWhile p = s := List.takeWhile_eq_self_iff.2 all
  have drop : s.dropWhile p = [] := List.dropWhile_eq_nil_iff.2 all
  rw [runs_cons s (h c List.mem_cons_self), take, drop, runs_nil]

/-- A text with a character of runs has one. -/
lemma runs_ne_nil {c : Char} {s : Text} (mem : c ∈ s) (h : p c = true) : runs p s ≠ [] := by
  induction s with
  | nil => cases mem
  | cons d s ih =>
    by_cases hd : p d = true
    · rw [runs_cons s hd]
      exact List.cons_ne_nil _ _
    · rw [runs_cons_of_not s (by simpa using hd)]
      rcases List.mem_cons.1 mem with rfl | mem
      · exact absurd h hd
      · exact ih mem

/-- The runs have all characters with the property, in their order. -/
lemma flatten_runs (s : Text) : (runs p s).flatten = s.filter p := by
  induction s with
  | nil => rfl
  | cons c s ih =>
    cases h : p c with
    | false => rw [runs_cons_of_not s h, ih, List.filter_cons_of_neg (by rw [h]; decide)]
    | true =>
      rw [List.filter_cons_of_pos h, ← ih, runs, if_pos h]
      cases s.head?.any p <;> cases runs p s <;> rfl

/-- Every run has characters, all of them with the property. -/
lemma of_mem_runs {r s : Text} (mem : r ∈ runs p s) :
    r ≠ [] ∧ (∀ c ∈ r, p c = true) ∧ r.Sublist s := by
  induction hn : s.length using Nat.strongRecOn generalizing s with
  | ind n ih =>
    rcases s with _ | ⟨c, s⟩
    · cases mem
    · by_cases h : p c = true
      · rw [runs_cons s h, List.mem_cons] at mem
        rcases mem with rfl | mem
        · refine ⟨List.cons_ne_nil _ _, ?_, (List.takeWhile_sublist p).cons_cons c⟩
          intro d hd
          rcases List.mem_cons.1 hd with rfl | hd
          · exact h
          · exact List.mem_takeWhile_imp hd
        · have shorter := (List.dropWhile_suffix p (l := s)).length_le
          rw [List.length_cons] at hn
          obtain ⟨ne, all, sub⟩ := ih _ (by omega) mem rfl
          exact ⟨ne, all, (sub.trans (List.dropWhile_sublist p)).cons c⟩
      · rw [runs_cons_of_not s (by simpa using h)] at mem
        obtain ⟨ne, all, sub⟩ := ih s.length (by simp at hn; omega) mem rfl
        exact ⟨ne, all, sub.cons c⟩

/-- Nothing is taken where the first character does not pass. -/
lemma takeWhile_of_head? {s : Text} (h : s.head?.any p = false) :
    s.takeWhile p = [] := by
  cases s with
  | nil => rfl
  | cons c s => exact List.takeWhile_cons_of_neg (by simpa using h)

/-- Nothing is dropped where the first character does not pass. -/
lemma dropWhile_of_head? {s : Text} (h : s.head?.any p = false) :
    s.dropWhile p = s := by
  cases s with
  | nil => rfl
  | cons c s => exact List.dropWhile_cons_of_neg (by simpa using h)

/-- Where a run is over, its property has ended. -/
lemma head?_any_dropWhile (s : Text) : (s.dropWhile p).head?.any p = false := by
  have stop := s.head?_dropWhile_not p
  rcases e : s.dropWhile p with _ | ⟨c, t⟩
  · rfl
  · rw [e] at stop
    simpa using stop

/-- Whether no run reaches across the place between two texts. -/
def Parted (p : Char → Bool) (s t : Text) : Prop :=
  s.getLast?.any p = false ∨ t.head?.any p = false

/-- The runs of two texts between which no run reaches across. -/
lemma runs_append {s t : Text} (parted : Parted p s t) :
    runs p (s ++ t) = runs p s ++ runs p t := by
  rcases parted with last | first
  · rcases s.eq_nil_or_concat' with rfl | ⟨s, c, rfl⟩
    · rfl
    · have h : p c = false := by simpa using last
      rw [List.append_assoc, List.singleton_append, runs_append_cons s t h,
        runs_append_singleton s h]
  · rcases t with _ | ⟨c, t⟩
    · simp
    · have h : p c = false := by simpa using first
      rw [runs_append_cons s t h, runs_cons_of_not t h]

/-- A run is parted from what stands around it. -/
lemma exists_of_mem_runs {r s : Text} (mem : r ∈ runs p s) :
    ∃ u v, s = u ++ (r ++ v) ∧ u.getLast?.any p = false ∧ v.head?.any p = false := by
  -- the text behind the first run is shorter, so the induction is on the length
  induction hn : s.length using Nat.strongRecOn generalizing s with
  | ind n ih =>
    rcases s with _ | ⟨c, s⟩
    · cases mem
    · by_cases h : p c = true
      · rw [runs_cons s h, List.mem_cons] at mem
        have cut := s.takeWhile_append_dropWhile (p := p)
        have front := head?_any_dropWhile (p := p) s
        generalize s.takeWhile p = t at cut mem
        generalize s.dropWhile p = rest at cut front mem
        subst cut
        rcases mem with rfl | mem
        · exact ⟨[], rest, rfl, rfl, front⟩
        · obtain ⟨u, v, rfl, left, right⟩ := ih rest.length (by simp at hn; omega) mem rfl
          obtain ⟨ne, all, -⟩ := of_mem_runs mem
          -- the run is not at the front, where no run begins
          rcases u with _ | ⟨d, u⟩
          · rw [List.nil_append, List.head?_append_of_ne_nil r ne,
              List.head?_eq_some_head ne, Option.any_some, all _ (List.head_mem ne)] at front
            cases front
          · refine ⟨c :: t ++ d :: u, v, by simp, ?_, right⟩
            rwa [List.getLast?_append_of_ne_nil _ (List.cons_ne_nil d u)]
      · have other : p c = false := by simpa using h
        rw [runs_cons_of_not s other] at mem
        obtain ⟨u, v, rfl, left, right⟩ := ih s.length (by simp at hn; omega) mem rfl
        refine ⟨c :: u, v, rfl, ?_, right⟩
        rcases u.eq_nil_or_concat' with rfl | ⟨u, d, rfl⟩
        · exact other
        · rwa [← List.cons_append, List.getLast?_concat, ← List.getLast?_concat]

end Sentential.Text
