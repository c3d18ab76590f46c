import Mathlib.Data.List.Basic
import Mathlib.Tactic.Lemma
import Sentential.Proofs.Text.Parts

/-!
# How often a character stands in a text

Where a pattern writes a character as often as it takes it (`Pattern.Spares`), rewriting a text does
not change how often the character stands in it (`Pattern.Spares.count_rewrite`). Tidying changes
that of blanks only (`count_tidy`), and a text that tells parts has what its parts have
(`Tells.count`).
-/

namespace Sentential.Text

section
variable {s t : Text} {d : Char}

/-- No other character is in a text of blanks. -/
lemma count_eq_zero_of_blank (solid : isBlank d = false) (blank : ∀ c ∈ s, isBlank c = true) :
    s.count d = 0 := by
  refine List.count_eq_zero.2 fun mem => ?_
  rw [blank d mem] at solid
  cases solid

/-- No other character is in the space that tidying leaves. -/
lemma count_gap (solid : isBlank d = false) : (gap s).count d = 0 := by
  apply count_eq_zero_of_blank solid
  intro c mem
  rw [gap] at mem
  split at mem
  · rw [List.mem_singleton.1 mem]
    exact isBlank_space
  · cases mem

/-- Tidying keeps all characters but blanks. -/
lemma count_tidy (solid : isBlank d = false) : (tidy s).count d = s.count d := by
  induction s with
  | nil => rfl
  | cons c s ih =>
    cases blank : isBlank c with
    | true =>
      have ne : c ≠ d := fun e => by rw [e, solid] at blank; cases blank
      have same : tidy (c :: s) = tidy s := by rw [tidy, words_cons_blank s blank, tidy]
      rw [same, ih, List.count_cons_of_ne ne]
    | false =>
      rw [tidy_cons s blank, List.count_cons, List.count_cons, List.count_append,
        count_gap solid, Nat.zero_add, ih]

/-- Every character but the space stands in a text as often as in its parts. -/
lemma Tells.count {cs : List Text} (tells : Tells cs s) (ne : d ≠ ' ') :
    s.count d = cs.flatten.count d := by
  induction tells with
  | nil => rfl
  | space _ ih => rw [List.count_cons_of_ne ne.symm, ih]
  | part _ _ ih => rw [List.count_append, ih, List.flatten_cons, List.count_append]

end

/-! ## Patterns -/

namespace Pattern

/-- Whether a pattern writes a character as often as it takes it. -/
def Spares (p : Pattern) (d : Char) : Prop :=
  ∀ before s hit, p before s = some hit → hit.text.count d = (s.take (hit.more + 1)).count d

section
variable {p q : Pattern} {d : Char} {phrase new : Text}

/-- A character that a pattern spares stays as often as it is there. -/
lemma Spares.count_rewriteFrom (spares : Spares p d) (skip : Nat) (before : Option Char)
    (s : Text) : (rewriteFrom p skip before s).count d = (s.drop skip).count d := by
  induction s generalizing skip before with
  | nil => rw [rewriteFrom_nil, List.drop_nil]
  | cons c s ih =>
    cases skip with
    | succ skip => exact ih skip (some c)
    | zero =>
      cases h : p before (c :: s) with
      | none => rw [rewriteFrom_miss h, List.count_cons, ih, List.drop_zero, List.drop_zero,
          List.count_cons]
      | some hit =>
        have same := spares before (c :: s) hit h
        rw [rewriteFrom, h]
        simp only
        rw [List.count_append, ih, same, List.drop_zero]
        conv_rhs => rw [← List.take_append_drop (hit.more + 1) (c :: s)]
        rw [List.count_append, List.drop_succ_cons]

/-- A pattern changes nothing about how often a character stands in a text if it spares it. -/
lemma Spares.count_rewrite (spares : Spares p d) (s : Text) :
    (p.rewrite s).count d = s.count d :=
  spares.count_rewriteFrom 0 none s

/-- Two patterns spare a character together if each does. -/
lemma Spares.or (hp : Spares p d) (hq : Spares q d) : Spares (p.or q) d := by
  intro before s hit h
  rcases Option.or_eq_some_iff.1 h with h | ⟨-, h⟩
  · exact hp before s hit h
  · exact hq before s hit h

/-- A phrase as whole words spares the characters that neither it nor the new text has. -/
lemma spares_wholeBy {fold : Char → Char} (ne : phrase ≠ []) (old : fold d ∉ phrase)
    (other : d ∉ new) : Spares (wholeBy fold phrase new) d := by
  intro before s hit h
  obtain ⟨t, v, rfl, rfl, -, -, rfl⟩ := wholeBy_eq_some h
  have pos := List.length_pos_of_ne_nil ne
  have taken : (t.map fold).length - 1 + 1 = t.length := by
    rw [List.length_map] at pos ⊢
    omega
  have absent : d ∉ t := fun mem => old (List.mem_map_of_mem mem)
  rw [taken, List.take_left, List.count_eq_zero.2 other, List.count_eq_zero.2 absent]

/-- A pattern for whole words spares what is in neither of its texts. -/
lemma spares_whole (ne : phrase ≠ []) (old : d ∉ phrase) (other : d ∉ new) :
    Spares (whole phrase new) d :=
  spares_wholeBy ne old other

/-- A pattern for a phrase spares what is in neither of its texts. -/
lemma spares_literal (ne : phrase ≠ []) (old : d ∉ phrase) (other : d ∉ new) :
    Spares (literal phrase new) d := by
  intro before s hit h
  obtain ⟨v, rfl, rfl⟩ := literal_eq_some h
  have pos := List.length_pos_of_ne_nil ne
  have taken : phrase.length - 1 + 1 = phrase.length := by omega
  rw [taken, List.take_left, List.count_eq_zero.2 other, List.count_eq_zero.2 old]

end

end Pattern

end Sentential.Text
