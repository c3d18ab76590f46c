import Mathlib.Tactic.Lemma
import Sentential.Proofs.Text.Rewrite

/-!
# What is left of a phrase

Where a pattern writes nothing but a character that a phrase does not have (`Pattern.Writes`), no
new place of the phrase comes up: what stands in the rewritten text stood in the text before
(`Pattern.Writes.old_place`). So a phrase that the pattern takes wherever it meets it is gone behind
it (`Pattern.Writes.gone`). A text that does not have the phrases of a pattern stays as it is
(`Pattern.Passes`, `Pattern.rewrite_wholeBy_eq_self`).
-/

namespace Sentential.Text.Pattern

/-- Whether a pattern writes one character wherever it takes something. -/
def Writes (p : Pattern) (g : Char) : Prop :=
  ∀ before s hit, p before s = some hit → hit.text = [g]

section
variable {p p' : Pattern} {g : Char} {before : Option Char} {q s : Text}

/-- A pattern for a phrase writes its character. -/
lemma writes_literal (phrase : Text) (g : Char) : (literal phrase [g]).Writes g := by
  intro before s hit found
  obtain ⟨_, _, rfl⟩ := literal_eq_some found
  rfl

/-- A pattern for whole words writes its character. -/
lemma writes_wholeBy (fold : Char → Char) (phrase : Text) (g : Char) :
    (wholeBy fold phrase [g]).Writes g := by
  intro before s hit found
  obtain ⟨_, _, _, _, _, _, rfl⟩ := wholeBy_eq_some found
  rfl

/-- Two patterns that write one character do so together. -/
lemma Writes.or (hp : p.Writes g) (hp' : p'.Writes g) : (p.or p').Writes g := by
  intro before s hit found
  rcases Option.or_eq_some_iff.1 found with found | ⟨-, found⟩
  · exact hp before s hit found
  · exact hp' before s hit found

/-- Where a pattern takes something, its character is written. -/
lemma Writes.rewriteFrom_hit (writes : p.Writes g) {c : Char} {hit : Hit}
    (found : p before (c :: s) = some hit) :
    rewriteFrom p 0 before (c :: s) = g :: rewriteFrom p hit.more (some c) s := by
  rw [rewriteFrom, found]
  simp only [writes _ _ _ found, List.singleton_append]

/-- What stands at the front of a rewritten text stood at the front of the text. -/
lemma Writes.prefix_of_prefix (writes : p.Writes g) (absent : g ∉ q)
    (front : q <+: rewriteFrom p 0 before s) : q <+: s := by
  induction s generalizing before q with
  | nil => exact front
  | cons c s ih =>
    rcases q with _ | ⟨d, q⟩
    · exact List.nil_prefix
    cases found : p before (c :: s) with
    | none =>
      rw [rewriteFrom_miss found, List.cons_prefix_cons] at front
      obtain ⟨rfl, front⟩ := front
      have rest : q <+: s := ih (fun mem => absent (List.mem_cons_of_mem d mem)) front
      exact List.cons_prefix_cons.2 ⟨rfl, rest⟩
    | some hit =>
      rw [writes.rewriteFrom_hit found, List.cons_prefix_cons] at front
      exact absurd (front.1 ▸ List.mem_cons_self) absent

/-- A phrase in a rewritten text stands where the pattern took nothing in the text. -/
lemma Writes.exists_suffix {skip : Nat} (writes : p.Writes g) (absent : g ∉ q) (ne : q ≠ [])
    (inside : q <:+: rewriteFrom p skip before s) :
    ∃ before t, t <:+ s ∧ q <+: t ∧ p before t = none := by
  induction s generalizing skip before with
  | nil =>
    rw [rewriteFrom_nil] at inside
    exact absurd (List.infix_nil.1 inside) ne
  | cons c s ih =>
    have behind : ∀ {skip before}, q <:+: rewriteFrom p skip before s →
        ∃ before t, t <:+ c :: s ∧ q <+: t ∧ p before t = none := by
      intro skip before inside
      obtain ⟨before', t, suffix, front, miss⟩ := ih inside
      exact ⟨before', t, suffix.trans (List.suffix_cons c s), front, miss⟩
    cases skip with
    | succ skip => exact behind inside
    | zero =>
      cases found : p before (c :: s) with
      | none =>
        have out := rewriteFrom_miss found
        rw [out, List.infix_cons_iff] at inside
        rcases inside with front | inside
        · rw [← out] at front
          exact ⟨before, c :: s, List.suffix_rfl, writes.prefix_of_prefix absent front, found⟩
        · exact behind inside
      | some hit =>
        rw [writes.rewriteFrom_hit found] at inside
        rcases List.infix_cons_iff.1 inside with front | inside
        · obtain ⟨d, q, rfl⟩ := List.exists_cons_of_ne_nil ne
          rw [List.cons_prefix_cons] at front
          exact absurd (front.1 ▸ List.mem_cons_self) absent
        · exact behind inside

/-- No place of a phrase comes up. -/
lemma Writes.old_place (writes : p.Writes g) (absent : g ∉ q) (ne : q ≠ [])
    (inside : q <:+: p.rewrite s) : q <:+: s := by
  obtain ⟨_, t, suffix, front, -⟩ := writes.exists_suffix absent ne inside
  exact front.isInfix.trans suffix.isInfix

/-- A phrase that is always taken is gone. -/
lemma Writes.gone (writes : p.Writes g) (absent : g ∉ q) (ne : q ≠ [])
    (takes : ∀ before v, p before (q ++ v) ≠ none) : ¬ q <:+: p.rewrite s := by
  intro inside
  obtain ⟨before, _, -, ⟨v, rfl⟩, miss⟩ := writes.exists_suffix absent ne inside
  exact takes before v miss

/-- A phrase is found where it stands. -/
lemma literal_append (q new v : Text) (before : Option Char) :
    literal q new before (q ++ v) ≠ none := by
  have front : q <+: q ++ v := List.prefix_append q v
  rw [literal, if_pos (List.isPrefixOf_iff_prefix.2 front)]
  exact Option.some_ne_none _

end

/-! ## Texts that stay -/

section
variable {p p' : Pattern} {q new s : Text}

/-- Whether a pattern takes nothing in a text. -/
def Passes (p : Pattern) (s : Text) : Prop :=
  ∀ u c v, s = u ++ c :: v → p (behind none u) (c :: v) = none

/-- A phrase that does not stand in a text is not found there. -/
lemma passes_literal (absent : ¬ q <:+: s) : (literal q new).Passes s := by
  rintro u c v rfl
  rw [Option.eq_none_iff_forall_ne_some]
  intro hit found
  obtain ⟨w, e, -⟩ := literal_eq_some found
  exact absent ⟨u, w, by rw [e, List.append_assoc]⟩

/-- Two patterns take nothing together if neither does. -/
lemma Passes.or (hp : p.Passes s) (hp' : p'.Passes s) : (p.or p').Passes s :=
  fun u c v e => Option.or_eq_none_iff.2 ⟨hp u c v e, hp' u c v e⟩

/-- A text in which a pattern takes nothing stays as it is. -/
lemma Passes.rewrite_eq (passes : p.Passes s) : p.rewrite s = s :=
  rewrite_eq_self passes

/-- A text none of whose words is the one that is looked for stays. -/
lemma rewrite_wholeBy_eq_self {fold : Char → Char} (ne : q ≠ [])
    (letters : ∀ c, fold c ∈ q → isWordChar c = true)
    (others : ∀ r ∈ wordRuns s, r.map fold ≠ q) : (wholeBy fold q new).rewrite s = s := by
  suffices h : ∀ before, rewriteFrom (wholeBy fold q new) 0 before s = s from h none
  induction s using wordInduction with
  | nil => exact fun _ => rfl
  | other c s h ih =>
    intro before
    rw [wordRuns_cons s h] at others
    rw [rewriteFrom_miss (wholeBy_cons_eq_none ne letters h s), ih others]
  | word r s word stop ih =>
    intro before
    rw [wordRuns_append (.inr stop), word.wordRuns, List.singleton_append, List.forall_mem_cons]
      at others
    rw [rewriteFrom_wholeBy_word ne letters word stop others.1, ih others.2]

end

/-! ## Words that stay -/

/-- Whether a pattern takes only characters that are in no word. -/
def TakesNoWord (p : Pattern) : Prop :=
  ∀ before s hit, p before s = some hit → ∀ c ∈ s.take (hit.more + 1), isWordChar c = false

section
variable {p p' : Pattern} {g : Char} {q new : Text}

/-- A phrase without word characters is in no word. -/
lemma takesNoWord_literal (ne : q ≠ []) (others : ∀ c ∈ q, isWordChar c = false) :
    (literal q new).TakesNoWord := by
  intro before s hit found c mem
  obtain ⟨v, rfl, rfl⟩ := literal_eq_some found
  have taken : q.length - 1 + 1 = q.length := Nat.sub_add_cancel (List.length_pos_of_ne_nil ne)
  rw [taken, List.take_left] at mem
  exact others c mem

/-- Two patterns take no word together if neither does. -/
lemma TakesNoWord.or (hp : p.TakesNoWord) (hp' : p'.TakesNoWord) : (p.or p').TakesNoWord := by
  intro before s hit found
  rcases Option.or_eq_some_iff.1 found with found | ⟨-, found⟩
  · exact hp before s hit found
  · exact hp' before s hit found

/-- Where it writes a sign for what it takes, the words stay, and so does whether one begins at the
front. -/
lemma TakesNoWord.wordRuns_rewriteFrom (takes : p.TakesNoWord) (writes : p.Writes g)
    (sign : isWordChar g = false) (s : Text) (skip : Nat) (before : Option Char)
    (others : ∀ c ∈ s.take skip, isWordChar c = false) :
    wordRuns (rewriteFrom p skip before s) = wordRuns s ∧
      (skip = 0 → (rewriteFrom p skip before s).head?.any isWordChar
        = s.head?.any isWordChar) := by
  induction s generalizing skip before with
  | nil =>
    rw [rewriteFrom_nil]
    exact ⟨rfl, fun _ => rfl⟩
  | cons c s ih =>
    cases skip with
    | succ skip =>
      obtain ⟨first, others⟩ := List.forall_mem_cons.1 others
      refine ⟨?_, nofun⟩
      rw [wordRuns_cons s first]
      exact (ih skip (some c) others).1
    | zero =>
      cases found : p before (c :: s) with
      | none =>
        obtain ⟨same, head⟩ := ih 0 (some c) (by simp)
        rw [rewriteFrom_miss found]
        exact ⟨runs_cons_congr c same (head rfl), fun _ => rfl⟩
      | some hit =>
        obtain ⟨first, others⟩ := List.forall_mem_cons.1 (takes _ _ _ found)
        rw [writes.rewriteFrom_hit found, wordRuns_cons _ sign, wordRuns_cons s first]
        exact ⟨(ih hit.more (some c) others).1, fun _ => sign.trans first.symm⟩

/-- The words of a text stay if only others are taken and written. -/
lemma TakesNoWord.wordRuns_rewrite (takes : p.TakesNoWord) (writes : p.Writes g)
    (sign : isWordChar g = false) (s : Text) : wordRuns (p.rewrite s) = wordRuns s :=
  (takes.wordRuns_rewriteFrom writes sign s 0 none (by simp)).1

end

end Sentential.Text.Pattern
