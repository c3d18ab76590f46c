import Mathlib.Algebra.GroupWithZero.Nat
import Mathlib.Data.List.Basic
import Mathlib.Tactic.Lemma
import Sentential.Text.Basic

/-!
# The lines of a text

A text consists of lines if it is these lines one after the other, each with a line feed behind it
and none inside (`HasLines`). A text has its lines in one way only (`HasLines.unique`), there are as
many as it has line feeds (`HasLines.length_eq`), and every text that ends with a line feed consists
of lines (`exists_hasLines`).
-/

namespace Sentential.Text

/-- Whether a text consists of some lines, each with its line feed. -/
structure HasLines (s : Text) (lines : List Text) : Prop where
  joined : s = lines.flatMap (· ++ ['\n'])
  whole : ∀ line ∈ lines, '\n' ∉ line

section
variable {s t line : Text} {lines more : List Text}

/-- The empty text has no lines. -/
lemma hasLines_nil : HasLines [] [] :=
  ⟨rfl, nofun⟩

/-- A line with its line feed can stand in front. -/
lemma HasLines.cons (inside : '\n' ∉ line) (has : HasLines s lines) :
    HasLines (line ++ '\n' :: s) (line :: lines) where
  joined := by rw [has.joined, List.flatMap_cons, List.append_assoc, List.singleton_append]
  whole := List.forall_mem_cons.2 ⟨inside, has.whole⟩

/-- The lines of two texts in a row are put together. -/
lemma HasLines.append (hs : HasLines s lines) (ht : HasLines t more) :
    HasLines (s ++ t) (lines ++ more) where
  joined := by rw [hs.joined, ht.joined, List.flatMap_append]
  whole line mem := (List.mem_append.1 mem).elim (hs.whole line) (ht.whole line)

/-- A first line ends at the first line feed. -/
lemma append_lineFeed_inj {line' : Text} (inside : '\n' ∉ line) (inside' : '\n' ∉ line')
    (e : line ++ '\n' :: s = line' ++ '\n' :: t) : line = line' ∧ s = t := by
  induction line generalizing line' with
  | nil =>
    cases line' with
    | nil => exact ⟨rfl, (List.cons.inj e).2⟩
    | cons d line' =>
      cases e
      exact absurd List.mem_cons_self inside'
  | cons c line ih =>
    cases line' with
    | nil =>
      cases e
      exact absurd List.mem_cons_self inside
    | cons d line' =>
      obtain ⟨rfl, rest⟩ := List.cons.inj e
      obtain ⟨rfl, rfl⟩ :=
        ih (List.not_mem_of_not_mem_cons inside) (List.not_mem_of_not_mem_cons inside') rest
      exact ⟨rfl, rfl⟩

/-- A text has its lines and no others. -/
lemma HasLines.unique (has : HasLines s lines) (has' : HasLines s more) : lines = more := by
  induction lines generalizing s more with
  | nil =>
    cases more with
    | nil => rfl
    | cons line more =>
      have empty := has.joined
      rw [has'.joined, List.flatMap_cons] at empty
      simp at empty
  | cons line lines ih =>
    cases more with
    | nil =>
      have empty := has'.joined
      rw [has.joined, List.flatMap_cons] at empty
      simp at empty
    | cons line' more =>
      obtain ⟨inside, whole⟩ := List.forall_mem_cons.1 has.whole
      obtain ⟨inside', whole'⟩ := List.forall_mem_cons.1 has'.whole
      have e := has.joined.symm.trans has'.joined
      rw [List.flatMap_cons, List.flatMap_cons, List.append_assoc, List.append_assoc,
        List.singleton_append, List.singleton_append] at e
      obtain ⟨rfl, rest⟩ := append_lineFeed_inj inside inside' e
      rw [ih ⟨rfl, whole⟩ ⟨rest, whole'⟩]

/-- Some texts have a character as often as not at all iff none of them has it. -/
lemma sum_count_eq_zero_iff {α : Type} {xs : List α} {text : α → Text} {c : Char} :
    (xs.map fun x => (text x).count c).sum = 0 ↔ ∀ x ∈ xs, c ∉ text x := by
  rw [List.sum_eq_zero_iff_forall_eq_nat, List.forall_mem_map]
  simp only [List.count_eq_zero]

/-- Texts with a line feed behind each have these line feeds and their own. -/
lemma count_flatMap_lineFeed (lines : List Text) :
    (lines.flatMap (· ++ ['\n'])).count '\n'
      = lines.length + (lines.map fun line => line.count '\n').sum := by
  induction lines with
  | nil => rfl
  | cons line lines ih =>
    rw [List.flatMap_cons, List.count_append, List.count_append, ih, List.count_singleton_self,
      List.length_cons, List.map_cons, List.sum_cons]
    omega

/-- There are as many lines as line feeds. -/
lemma HasLines.length_eq (has : HasLines s lines) : lines.length = s.count '\n' := by
  rw [has.joined, count_flatMap_lineFeed, sum_count_eq_zero_iff.2 has.whole, Nat.add_zero]

/-- A text with a line feed behind it consists of lines. -/
lemma exists_hasLines (s : Text) : ∃ lines, HasLines (s ++ ['\n']) lines := by
  induction s with
  | nil => exact ⟨[[]], hasLines_nil.cons List.not_mem_nil⟩
  | cons c s ih =>
    obtain ⟨lines, has⟩ := ih
    by_cases feed : c = '\n'
    · subst feed
      exact ⟨[] :: lines, has.cons List.not_mem_nil⟩
    · -- the first character goes to the first line, of which there is one
      cases lines with
      | nil => exact absurd has.joined (by simp)
      | cons line lines =>
        obtain ⟨inside, whole⟩ := List.forall_mem_cons.1 has.whole
        refine ⟨(c :: line) :: lines, ?_, List.forall_mem_cons.2 ⟨?_, whole⟩⟩
        · rw [List.cons_append, has.joined]
          rfl
        · exact List.not_mem_cons_of_ne_of_not_mem (Ne.symm feed) inside

end

end Sentential.Text
