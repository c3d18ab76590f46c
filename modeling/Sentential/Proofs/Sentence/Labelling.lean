import Mathlib.Data.List.Basic
import Mathlib.Tactic.Lemma
import Sentential.Proofs.Sentence.Learning
import Sentential.Proofs.Sentence.Substitution

/-!
# Labels are put for phrases of the sentence only

A learnt phrase has no part in a label or in the spaces around it (`rewriteFrom_label`). In a text
that has arisen from another one by putting labels (`Relabels`) it therefore stands only in what is
left of the other text (`Relabels.front`). So a further label replaces phrases of the first text
(`Relabels.putLabel`), and the same holds of the whole substitution (`substitute_learn`).
-/

namespace Sentential.Sentence

open Text Symbolic

/-- Whether a text arises from another one by putting the labels of some entries for their
phrases. -/
inductive Relabels (es : List (Text × Text)) : Text → Text → Prop where
  | nil : Relabels es [] []
  | keep {s t} (c : Char) :
    Relabels es s t →
    Relabels es (c :: s) (c :: t)
  | put {label phrase s t} :
    (label, phrase) ∈ es →
    Relabels es s t →
    Relabels es (phrase ++ s) ([' '] ++ label ++ [' '] ++ t)

section
variable {es : List (Text × Text)} {label q s t v : Text}

/-- A phrase that is learnt has no capital letters. -/
lemma IsLearnt.not_capital (learnt : IsLearnt q) {c : Char} (mem : c ∈ q) : c ∉ capitals :=
  fun capital => lowerChar_capital c capital (learnt.steady c mem).2

/-- A text arises from itself. -/
lemma Relabels.refl (s : Text) : Relabels es s s := by
  induction s with
  | nil => exact .nil
  | cons c s ih => exact .keep c ih

/-- A text does not end with a blank if it does not with a character more in front. -/
lemma last_of_cons {c : Char} (last : (c :: q).getLast?.any isBlank = false) :
    q.getLast?.any isBlank = false := by
  cases q with
  | nil => rfl
  | cons d q => exact last

/-- A learnt phrase does not begin where a label has been put: it neither ends with the space in
front of the label nor has its first letter. -/
lemma ne_label_append (isLabel : IsLabel label) (ne : q ≠ []) (learnt : ∀ c ∈ q, c ∉ capitals)
    (last : q.getLast?.any isBlank = false) : q ++ v ≠ [' '] ++ label ++ [' '] ++ t := by
  intro e
  obtain ⟨c, q, rfl⟩ := List.exists_cons_of_ne_nil ne
  obtain ⟨a, label, rfl⟩ := List.exists_cons_of_ne_nil isLabel.ne_nil
  obtain ⟨rfl, rest⟩ := List.cons.inj e
  rcases q with _ | ⟨d, q⟩
  · cases last
  · have same : d = a := (List.cons.inj rest).1
    exact absurd isLabel.1 (same ▸ learnt d (by simp))

/-- A learnt phrase at the front of a text in which labels have been put stood there before. -/
lemma Relabels.front (labels : ∀ e ∈ es, IsLabel e.1) (learnt : ∀ c ∈ q, c ∉ capitals)
    (last : q.getLast?.any isBlank = false) (h : Relabels es s (q ++ v)) :
    ∃ r, s = q ++ r ∧ Relabels es r v := by
  induction q generalizing s with
  | nil => exact ⟨s, rfl, h⟩
  | cons c q ih =>
    generalize e : c :: q ++ v = t at h
    cases h with
    | nil => cases e
    | @keep s t c' h =>
      obtain ⟨rfl, rfl⟩ := List.cons.inj e
      have learnt' : ∀ d ∈ q, d ∉ capitals := fun d mem => learnt d (List.mem_cons_of_mem c mem)
      obtain ⟨r, rfl, h'⟩ := ih learnt' (last_of_cons last) h
      exact ⟨r, rfl, h'⟩
    | put mem h =>
      exact absurd e (ne_label_append (labels _ mem) (List.cons_ne_nil c q) learnt last)

/-- Every character of a label between two spaces is a space, a capital letter or goes on a word. -/
lemma label_place (isLabel : IsLabel label) {u w : Text} {c : Char}
    (cut : [' '] ++ label ++ [' '] = u ++ c :: w) :
    c = ' ' ∨ c ∈ capitals ∨
      isWordChar c = true ∧ ∃ x, u.getLast? = some x ∧ isWordChar x = true := by
  rcases u with _ | ⟨space, u⟩
  · exact .inl (List.cons.inj cut).1.symm
  · have inside : label ++ [' '] = u ++ c :: w := (List.cons.inj cut).2
    rcases List.append_eq_append_iff.1 inside with ⟨b, rfl, e⟩ | ⟨b, rfl, e⟩
    · rcases b with _ | ⟨x, b⟩
      · exact .inl (List.cons.inj e).1.symm
      · cases b <;> cases e
    · rcases b with _ | ⟨x, b⟩
      · exact .inl (List.cons.inj e).1
      · obtain ⟨rfl, -⟩ := List.cons.inj e
        rcases u.eq_nil_or_concat' with rfl | ⟨u, x, rfl⟩
        · exact .inr (.inl isLabel.1)
        · refine .inr (.inr ⟨isLabel.isWordChar c (by simp), x, ?_, isLabel.isWordChar x (by simp)⟩)
          rw [← List.cons_append, List.getLast?_concat]

/-- A learnt phrase takes nothing of a label and the spaces around it. -/
lemma whole_label_eq_none (isLabel : IsLabel label) (learnt : IsLearnt q) {new : Text}
    {before : Option Char} {u w t : Text} {c : Char}
    (cut : [' '] ++ label ++ [' '] = u ++ c :: w) :
    Pattern.whole q new (behind before u) (c :: (w ++ t)) = none := by
  rw [Option.eq_none_iff_forall_ne_some]
  intro hit found
  obtain ⟨v, e, start, -⟩ := Pattern.whole_eq_some found
  obtain ⟨d, q', rfl⟩ := List.exists_cons_of_ne_nil learnt.ne_nil
  obtain ⟨rfl, -⟩ := List.cons.inj e
  rcases label_place isLabel cut with rfl | capital | ⟨word, x, last', more⟩
  · have first := learnt.neat.first
    cases first
  · exact learnt.not_capital List.mem_cons_self capital
  · simp [behind, boundary, last', word, more] at start

/-- No learnt phrase is found in a label that has been put. -/
lemma rewriteFrom_label (isLabel : IsLabel label) (learnt : IsLearnt q) (new : Text)
    (before : Option Char) (t : Text) :
    Pattern.rewriteFrom (.whole q new) 0 before ([' '] ++ label ++ [' '] ++ t)
      = [' '] ++ label ++ [' '] ++ Pattern.rewriteFrom (.whole q new) 0 (some ' ') t := by
  have last : behind before ([' '] ++ label ++ [' ']) = some ' ' := behind_concat _ _ _
  rw [Pattern.rewriteFrom_miss_append, last]
  exact fun _ _ _ cut => whole_label_eq_none isLabel learnt cut

/-- Putting a further label for a learnt phrase replaces phrases of the first text. -/
lemma Relabels.rewriteFrom (labels : ∀ e ∈ es, IsLabel e.1) (mem : (label, q) ∈ es)
    (learnt : IsLearnt q) (h : Relabels es s t) (before : Option Char) :
    Relabels es s (Pattern.rewriteFrom (.whole q ([' '] ++ label ++ [' '])) 0 before t) := by
  -- behind a phrase that is replaced the text goes on, so the induction is on its length
  induction hn : t.length using Nat.strongRecOn generalizing s t before with
  | ind n ih =>
    cases h with
    | nil =>
      rw [Pattern.rewriteFrom_nil]
      exact .nil
    | @keep s t c h =>
      cases found : Pattern.whole q ([' '] ++ label ++ [' ']) before (c :: t) with
      | none =>
        rw [Pattern.rewriteFrom_miss found]
        exact .keep c (ih _ (by rw [← hn, List.length_cons]; omega) h _ rfl)
      | some hit =>
        obtain ⟨v, e, -, -, rfl⟩ := Pattern.whole_eq_some found
        have whole : Relabels es (c :: s) (q ++ v) := e ▸ .keep c h
        obtain ⟨r, e', h'⟩ := whole.front labels (fun _ mem => learnt.not_capital mem)
          learnt.neat.last
        have shorter : v.length < n := by
          have pos := List.length_pos_of_ne_nil learnt.ne_nil
          rw [← hn, e, List.length_append]
          omega
        rw [e] at found ⊢
        rw [Pattern.rewriteFrom_hit learnt.ne_nil found, e']
        exact .put mem (ih _ shorter h' _ rfl)
    | @put label' phrase s t mem' h =>
      rw [rewriteFrom_label (labels _ mem') learnt]
      refine .put mem' (ih _ ?_ h _ rfl)
      rw [← hn]
      simp only [List.length_append, List.length_cons]
      omega

/-- So putting a label for an entry does. -/
lemma Relabels.putLabel [Engine] (labels : ∀ e ∈ es, IsLabel e.1) (mem : (label, q) ∈ es)
    (learnt : IsLearnt q) (accepts : Accepts q) (h : Relabels es s t) :
    Relabels es s (putLabel t (label, q)) := by
  rw [putLabel_of_accepts accepts, lower_eq_self learnt.steady]
  exact h.rewriteFrom labels mem learnt none

/-- The places at which labels have been put, and the texts between them. -/
lemma Relabels.exists_cuts (h : Relabels es s t) :
    ∃ (first : Text) (cuts : List ((Text × Text) × Text)),
      (∀ cut ∈ cuts, cut.1 ∈ es) ∧
      s = first ++ cuts.flatMap (fun cut => cut.1.2 ++ cut.2) ∧
      t = first ++ cuts.flatMap (fun cut => [' '] ++ cut.1.1 ++ [' '] ++ cut.2) := by
  induction h with
  | nil => exact ⟨[], [], nofun, rfl, rfl⟩
  | keep c _ ih =>
    obtain ⟨first, cuts, all, rfl, rfl⟩ := ih
    exact ⟨c :: first, cuts, all, rfl, rfl⟩
  | @put label phrase s t mem _ ih =>
    obtain ⟨first, cuts, all, rfl, rfl⟩ := ih
    refine ⟨[], ((label, phrase), first) :: cuts, ?_, ?_, ?_⟩
    · exact List.forall_mem_cons.2 ⟨mem, all⟩
    · simp
    · simp

end

/-- With a dictionary that was learnt from any sentence, labels are put in a sentence for phrases of
it only: what stands between them stays as it is, in its order. -/
theorem substitute_learn [Engine] (s t : Text) :
    ∃ (first : Text) (cuts : List ((Text × Text) × Text)),
      (∀ cut ∈ cuts, cut.1 ∈ (learn t).entries) ∧
      normal s = first ++ cuts.flatMap (fun cut => cut.1.2 ++ cut.2) ∧
      substitute (learn t) (normal s)
        = first ++ cuts.flatMap (fun cut => [' '] ++ cut.1.1 ++ [' '] ++ cut.2) := by
  have labels : ∀ e ∈ (learn t).entries, IsLabel e.1 := fun e mem => (mem_learn mem).1
  have whole : Relabels (learn t).entries (normal s) (substitute (learn t) (normal s)) := by
    rw [substitute_eq]
    refine List.foldlRecOn (motive := Relabels (learn t).entries (normal s))
      (turns (learn t)) putLabel (.refl _) fun out h e mem => ?_
    obtain ⟨known, accepts⟩ := of_mem_turns mem
    exact h.putLabel labels known (isLearnt_of_mem_clauses (mem_learn known).2) accepts
  exact whole.exists_cuts

end Sentential.Sentence
