import Mathlib.Data.List.Basic
import Mathlib.Tactic.Lemma
import Sentential.Proofs.Sentence.Labelling
import Sentential.Proofs.Text.Sides

/-!
# Where labels have been put

While labels are put, a text is a list of marks: each is a character that was kept or the entry
whose label stands for its phrase. The marks tell the first text (`source`) and the present one
(`written`), so no places have to be counted along. A further label leaves all marks of labels where
they are (`Extends`), and it is put unless its phrase is found nowhere (`exists_puts`). A place
of the phrase in the first text is either free, or the mark of a label covers some of it
(`exists_keep_or_covers`).
-/

namespace Sentential.Sentence

open Text Symbolic

/-- A piece of a text in which labels have been put. -/
inductive Mark where
  | kept (c : Char)
  | labelled (entry : Text × Text)

namespace Mark

/-- What a mark stands for. -/
def source : Mark → Text
  | kept c => [c]
  | labelled entry => entry.2

/-- How a mark is written. -/
def written : Mark → Text
  | kept c => [c]
  | labelled entry => [' '] ++ entry.1 ++ [' ']

end Mark

/-- The text before labels have been put. -/
def source (ms : List Mark) : Text :=
  ms.flatMap Mark.source

/-- The text with the labels. -/
def written (ms : List Mark) : Text :=
  ms.flatMap Mark.written

/-- The marks of a text without labels. -/
def keep (s : Text) : List Mark :=
  s.map .kept

/-- Whether the label of an entry stands for some of the characters of a phrase that is found behind
another text. -/
def Covers (ms : List Mark) (entry : Text × Text) (u q : Text) : Prop :=
  ∃ front back, ms = front ++ .labelled entry :: back ∧
    (source front).length < u.length + q.length ∧
    u.length < (source front).length + entry.2.length

section
variable {ms ns : List Mark} {entry : Text × Text} {c : Char} {q s t u v : Text}

/-- No marks stand for the empty text. -/
@[simp] lemma source_nil : source [] = [] := rfl

/-- A character that is kept stands for itself. -/
@[simp] lemma source_kept : source (.kept c :: ms) = c :: source ms := rfl

/-- A label stands for its phrase. -/
@[simp] lemma source_labelled : source (.labelled entry :: ms) = entry.2 ++ source ms := rfl

/-- Marks in a row stand for their texts in a row. -/
@[simp] lemma source_append : source (ms ++ ns) = source ms ++ source ns :=
  List.flatMap_append

/-- A text without labels stands for itself. -/
@[simp] lemma source_keep : source (keep s) = s := by
  induction s with
  | nil => rfl
  | cons c s ih => exact congrArg (c :: ·) ih

/-- No marks are written as the empty text. -/
@[simp] lemma written_nil : written [] = [] := rfl

/-- A character that is kept is written. -/
@[simp] lemma written_kept : written (.kept c :: ms) = c :: written ms := rfl

/-- A label is written between spaces. -/
@[simp] lemma written_labelled :
    written (.labelled entry :: ms) = [' '] ++ entry.1 ++ [' '] ++ written ms := rfl

/-- Marks in a row are written in a row. -/
@[simp] lemma written_append : written (ms ++ ns) = written ms ++ written ns :=
  List.flatMap_append

/-- A text without labels is written as it is. -/
@[simp] lemma written_keep : written (keep s) = s := by
  induction s with
  | nil => rfl
  | cons c s ih => exact congrArg (c :: ·) ih

/-- A text without labels has none. -/
lemma labelled_not_mem_keep : .labelled entry ∉ keep s := by
  simp [keep]

/-- A label that covers a phrase is there. -/
lemma Covers.mem (covers : Covers ms entry u q) : .labelled entry ∈ ms := by
  obtain ⟨front, back, rfl, -⟩ := covers
  simp

/-- In front of the marks, more of the text may stand. -/
lemma Covers.append (covers : Covers ms entry u q) (ls : List Mark) :
    Covers (ls ++ ms) entry (source ls ++ u) q := by
  obtain ⟨front, back, rfl, start, stop⟩ := covers
  refine ⟨ls ++ front, back, by rw [List.append_assoc], ?_, ?_⟩
  all_goals
    simp only [source_append, List.length_append]
    omega

/-! ## Free places -/

/-- A phrase at the front of the first text has been kept there, or a label covers some of it. -/
lemma exists_keep_of_source (e : source ms = q ++ v) :
    (∃ vs, ms = keep q ++ vs ∧ source vs = v) ∨
      ∃ a entry back, ms = keep a ++ .labelled entry :: back ∧ a.length < q.length := by
  induction q generalizing ms with
  | nil => exact .inl ⟨ms, rfl, e⟩
  | cons c q ih =>
    rcases ms with _ | ⟨d | entry, ms⟩
    · cases e
    · obtain ⟨rfl, e'⟩ := List.cons.inj e
      rcases ih e' with ⟨vs, rfl, same⟩ | ⟨a, entry, back, rfl, short⟩
      · exact .inl ⟨vs, rfl, same⟩
      · exact .inr ⟨d :: a, entry, back, rfl, Nat.succ_lt_succ short⟩
    · exact .inr ⟨[], entry, ms, rfl, Nat.succ_pos _⟩

/-- A phrase behind some front part of the first text has been kept there, or a label covers some of
it. -/
lemma exists_keep_or_covers (filled : ∀ entry, .labelled entry ∈ ms → entry.2 ≠ [])
    (e : source ms = u ++ (q ++ v)) :
    (∃ us vs, ms = us ++ (keep q ++ vs) ∧ source us = u ∧ source vs = v) ∨
      ∃ entry, Covers ms entry u q := by
  induction ms generalizing u with
  | nil =>
    obtain ⟨rfl, e'⟩ := List.append_eq_nil_iff.1 e.symm
    obtain ⟨rfl, rfl⟩ := List.append_eq_nil_iff.1 e'
    exact .inl ⟨[], [], rfl, rfl, rfl⟩
  | cons m ms ih =>
    have filled' : ∀ entry, .labelled entry ∈ ms → entry.2 ≠ [] :=
      fun entry mem => filled entry (List.mem_cons_of_mem m mem)
    have behind : ∀ w, u = m.source ++ w → source ms = w ++ (q ++ v) →
        (∃ us vs, m :: ms = us ++ (keep q ++ vs) ∧ source us = u ∧ source vs = v) ∨
          ∃ entry, Covers (m :: ms) entry u q := by
      rintro w rfl e'
      rcases ih filled' e' with ⟨us, vs, rfl, same, same'⟩ | ⟨entry, covers⟩
      · exact .inl ⟨m :: us, vs, rfl, by rw [← same]; rfl, same'⟩
      · have single : source [m] = m.source := List.append_nil _
        exact .inr ⟨entry, single ▸ covers.append [m]⟩
    by_cases none : u = []
    · subst none
      rcases exists_keep_of_source (q := q) e with ⟨vs, e', same⟩ | ⟨a, entry, back, e', short⟩
      · exact .inl ⟨[], vs, e', rfl, same⟩
      · have pos := List.length_pos_of_ne_nil (filled entry (by simp [e']))
        refine .inr ⟨entry, keep a, back, e', ?_, ?_⟩
        all_goals
          rw [source_keep, List.length_nil]
          omega
    · -- the text in front ends behind the first mark, or inside of it if that is a label
      rcases List.append_eq_append_iff.1 e.symm with ⟨b, em, e'⟩ | ⟨w, eu, e'⟩
      · rcases b with _ | ⟨d, b⟩
        · exact behind [] (by rw [em, List.append_nil, List.append_nil]) e'.symm
        · cases m with
          | kept c =>
            have length := congrArg List.length em
            have pos := List.length_pos_of_ne_nil none
            simp only [Mark.source, List.length_append, List.length_cons, List.length_nil] at length
            omega
          | labelled entry =>
            have length := congrArg List.length em
            have pos := List.length_pos_of_ne_nil none
            simp only [Mark.source, List.length_append, List.length_cons] at length
            refine .inr ⟨entry, [], ms, rfl, ?_, ?_⟩
            all_goals
              rw [source_nil, List.length_nil]
              omega
      · exact behind w eu e'

end

/-! ## Further labels -/

/-- Whether marks arise from others by putting further labels of some entries: the first text is the
same, and the marks of labels are where they were. -/
structure Extends (es : List (Text × Text)) (ms ns : List Mark) : Prop where
  source_eq : source ns = source ms
  carried : ∀ {front entry back}, ms = front ++ .labelled entry :: back →
    ∃ front' back', ns = front' ++ .labelled entry :: back' ∧ source front' = source front
  known : ∀ {entry}, .labelled entry ∈ ns → .labelled entry ∈ ms ∨ entry ∈ es

section
variable {es fs : List (Text × Text)} {ms ns ls : List Mark} {entry : Text × Text} {u q : Text}

/-- Marks extend themselves. -/
lemma Extends.refl (ms : List Mark) : Extends es ms ms :=
  ⟨rfl, fun e => ⟨_, _, e, rfl⟩, .inl⟩

/-- Marks can be extended again. -/
lemma Extends.trans (h : Extends es ms ns) (h' : Extends fs ns ls) : Extends (es ++ fs) ms ls where
  source_eq := h'.source_eq.trans h.source_eq
  carried e := by
    obtain ⟨front, back, e', same⟩ := h.carried e
    obtain ⟨front', back', e'', same'⟩ := h'.carried e'
    exact ⟨front', back', e'', same'.trans same⟩
  known mem := by
    rcases h'.known mem with mem | mem
    · exact (h.known mem).imp_right (List.mem_append_left fs)
    · exact .inr (List.mem_append_right es mem)

/-- Marks with one more in front are extended as the others are. -/
lemma Extends.cons (h : Extends es ms ns) (m : Mark) : Extends es (m :: ms) (m :: ns) where
  source_eq := congrArg (m.source ++ ·) h.source_eq
  carried {front entry back} e := by
    rcases front with _ | ⟨l, front⟩
    · obtain ⟨rfl, -⟩ := List.cons.inj e
      exact ⟨[], ns, rfl, rfl⟩
    · obtain ⟨rfl, e'⟩ := List.cons.inj e
      obtain ⟨front', back', rfl, same⟩ := h.carried e'
      exact ⟨m :: front', back', rfl, congrArg (m.source ++ ·) same⟩
  known mem := by
    rcases List.mem_cons.1 mem with e | mem
    · exact .inl (e ▸ List.mem_cons_self)
    · exact (h.known mem).imp_left (List.mem_cons_of_mem m)

/-- A label can be put in front for its phrase. -/
lemma Extends.put (h : Extends es ms ns) (mem : entry ∈ es) :
    Extends es (keep entry.2 ++ ms) (.labelled entry :: ns) where
  source_eq := by rw [source_labelled, source_append, source_keep, h.source_eq]
  carried e := by
    obtain ⟨w, rfl, e'⟩ := exists_of_append_cons labelled_not_mem_keep e.symm
    obtain ⟨front', back', rfl, same⟩ := h.carried e'
    exact ⟨.labelled entry :: front', back', rfl, by simp [same]⟩
  known mem' := by
    rcases List.mem_cons.1 mem' with e | mem'
    · cases e
      exact .inr mem
    · exact (h.known mem').imp_left (List.mem_append_right _)

/-- A label that was there is still there. -/
lemma Extends.mem (h : Extends es ms ns) (mem : .labelled entry ∈ ms) : .labelled entry ∈ ns := by
  obtain ⟨front, back, e⟩ := List.append_of_mem mem
  obtain ⟨front', back', rfl, -⟩ := h.carried e
  simp

/-- What a label covers it covers later on. -/
lemma Extends.covers (h : Extends es ms ns) (covers : Covers ms entry u q) :
    Covers ns entry u q := by
  obtain ⟨front, back, e, start, stop⟩ := covers
  obtain ⟨front', back', e', same⟩ := h.carried e
  exact ⟨front', back', e', by rwa [same], by rwa [same]⟩

end

/-- Whether every label stands for a phrase between two word boundaries of the first text, where the
character before the marks is given. -/
def Bounded : Option Char → List Mark → Prop
  | _, [] => True
  | _, .kept c :: ms => Bounded (some c) ms
  | before, .labelled entry :: ms =>
    boundary before entry.2.head? = true ∧
      boundary (behind before entry.2) (source ms).head? = true ∧
      Bounded (behind before entry.2) ms

/-- Whether the marks of labels have labels of atoms and phrases as they are learnt. -/
def Sound (ms : List Mark) : Prop :=
  ∀ entry, .labelled entry ∈ ms → IsLabel entry.1 ∧ IsLearnt entry.2

section
variable {ms : List Mark} {m : Mark} {label q v : Text} {before seen : Option Char}

/-- Characters that are kept leave it open whether the labels behind them are bounded. -/
lemma bounded_keep {s : Text} : Bounded before (keep s ++ ms) ↔ Bounded (behind before s) ms := by
  induction s generalizing before with
  | nil => rfl
  | cons c s ih =>
    rw [behind_cons, ← ih]
    rfl

/-- The marks behind the first are sound. -/
lemma Sound.tail (sound : Sound (m :: ms)) : Sound ms :=
  fun entry mem => sound entry (List.mem_cons_of_mem m mem)

/-- A learnt phrase at the front of a text with labels has been kept. -/
lemma exists_keep_of_written (sound : Sound ms) (learnt : ∀ c ∈ q, c ∉ capitals)
    (last : q.getLast?.any isBlank = false) (e : written ms = q ++ v) :
    ∃ vs, ms = keep q ++ vs ∧ written vs = v := by
  induction q generalizing ms with
  | nil => exact ⟨ms, rfl, e⟩
  | cons c q ih =>
    have learnt' : ∀ d ∈ q, d ∉ capitals := fun d mem => learnt d (List.mem_cons_of_mem c mem)
    rcases ms with _ | ⟨d | ⟨label, phrase⟩, ms⟩
    · cases e
    · obtain ⟨rfl, e'⟩ := List.cons.inj e
      obtain ⟨vs, rfl, same⟩ := ih sound.tail learnt' (last_of_cons last) e'
      exact ⟨vs, rfl, same⟩
    · obtain ⟨isLabel, -⟩ := sound _ List.mem_cons_self
      exact absurd e.symm (ne_label_append isLabel (List.cons_ne_nil c q) learnt last)

/-- A boundary in front of a text with labels is one of the first text. -/
lemma boundary_source (sound : Sound ms) (bounded : Bounded seen ms)
    (h : boundary seen (written ms).head? = true) : boundary seen (source ms).head? = true := by
  rcases ms with _ | ⟨d | entry, ms⟩
  · exact h
  · exact h
  · obtain ⟨-, learnt⟩ := sound entry List.mem_cons_self
    rw [source_labelled, List.head?_append_of_ne_nil _ learnt.ne_nil]
    exact bounded.1

/-- Whether a pattern takes nothing anywhere in a text. -/
def Missed (p : Pattern) (before : Option Char) (s : Text) : Prop :=
  ∀ u c v, s = u ++ c :: v → p (behind before u) (c :: v) = none

/-- A pattern that takes nothing in front nor behind it takes nothing. -/
lemma Missed.cons {p : Pattern} {c : Char} {s : Text} (front : p before (c :: s) = none)
    (missed : Missed p (some c) s) : Missed p before (c :: s) := by
  rintro (_ | ⟨d, u⟩) e v cut
  · obtain ⟨rfl, rfl⟩ := List.cons.inj cut
    exact front
  · obtain ⟨rfl, cut'⟩ := List.cons.inj cut
    rw [behind_cons]
    exact missed u e v cut'

/-- A learnt phrase is missed in a label. -/
lemma Missed.behind_label {new s : Text} (isLabel : IsLabel label) (learnt : IsLearnt q)
    (missed : Missed (.whole q new) (some ' ') s) :
    Missed (.whole q new) before ([' '] ++ label ++ [' '] ++ s) := by
  intro u c v cut
  rcases List.append_eq_append_iff.1 cut with ⟨w, rfl, e⟩ | ⟨w, e, e'⟩
  · rw [behind_append_append, behind_concat]
    exact missed w c v e
  · rcases w with _ | ⟨d, w⟩
    · rw [List.append_nil] at e
      rw [← e, behind_concat]
      exact missed [] c v e'.symm
    · obtain ⟨rfl, rfl⟩ := List.cons.inj e'
      exact whole_label_eq_none isLabel learnt e

end

/-- What putting a label does to marks: they are extended, every label stands between boundaries
again, and the label is put somewhere unless its phrase is missed. In front of them stands `seen` in
the first text and `before` in the present one. -/
structure Puts (label q : Text) (before seen : Option Char) (ms ns : List Mark) : Prop where
  extended : Extends [(label, q)] ms ns
  bounded : Bounded seen ns
  written_eq :
    written ns = Pattern.rewriteFrom (.whole q ([' '] ++ label ++ [' '])) 0 before (written ms)
  put : .labelled (label, q) ∈ ns ∨ Missed (.whole q ([' '] ++ label ++ [' '])) before (written ms)

section
variable {label q : Text} {before seen : Option Char} {ms ns : List Mark} {entry : Text × Text}

/-- There is nothing to put where there are no marks. -/
lemma Puts.nil : Puts label q before seen [] [] where
  extended := .refl []
  bounded := trivial
  written_eq := (Pattern.rewriteFrom_nil 0).symm
  put := .inr fun u c v cut => by simp at cut

/-- A character at which the phrase does not stand is kept. -/
lemma Puts.kept {c : Char}
    (miss : Pattern.whole q ([' '] ++ label ++ [' ']) before (c :: written ms) = none)
    (h : Puts label q (some c) (some c) ms ns) :
    Puts label q before seen (.kept c :: ms) (.kept c :: ns) where
  extended := h.extended.cons _
  bounded := h.bounded
  written_eq := by rw [written_kept, written_kept, Pattern.rewriteFrom_miss miss, h.written_eq]
  put := h.put.imp (List.mem_cons_of_mem _) (Missed.cons miss)

/-- A label is passed over, for the phrase does not stand in it. -/
lemma Puts.labelled (isLabel : IsLabel entry.1) (learnt : IsLearnt q)
    (bounded : Bounded seen (.labelled entry :: ms))
    (h : Puts label q (some ' ') (behind seen entry.2) ms ns) :
    Puts label q before seen (.labelled entry :: ms) (.labelled entry :: ns) where
  extended := h.extended.cons _
  bounded := ⟨bounded.1, h.extended.source_eq ▸ bounded.2.1, h.bounded⟩
  written_eq := by
    rw [written_labelled, written_labelled, rewriteFrom_label isLabel learnt, h.written_eq]
  put := h.put.imp (List.mem_cons_of_mem _) (Missed.behind_label isLabel learnt)

/-- The phrase is found, so its label is put. -/
lemma Puts.here (ne : q ≠ [])
    (found : Pattern.whole q ([' '] ++ label ++ [' ']) before (q ++ written ms)
      = some ⟨q.length - 1, [' '] ++ label ++ [' ']⟩)
    (start : boundary seen q.head? = true) (stop : boundary q.getLast? (source ms).head? = true)
    (h : Puts label q q.getLast? q.getLast? ms ns) :
    Puts label q before seen (keep q ++ ms) (.labelled (label, q) :: ns) where
  extended := h.extended.put List.mem_cons_self
  bounded := by
    rw [Bounded, behind_eq_getLast? ne, h.extended.source_eq]
    exact ⟨start, stop, h.bounded⟩
  written_eq := by
    rw [written_append, written_keep, Pattern.rewriteFrom_hit ne found, behind_eq_getLast? ne,
      ← h.written_eq]
    rfl
  put := .inl List.mem_cons_self

end

/-- A label can be put for every learnt phrase. In front of the text stands the last character of
the first text or, if a label has been put for that, a space. -/
lemma exists_puts (label : Text) {q : Text} (learnt : IsLearnt q) {ms : List Mark}
    (sound : Sound ms) {before seen : Option Char} (bounded : Bounded seen ms)
    (agrees : before = seen ∨ before = some ' ' ∧ boundary seen (source ms).head? = true) :
    ∃ ns, Puts label q before seen ms ns := by
  -- behind a phrase that is replaced the marks go on, so the induction is on their number
  induction hn : ms.length using Nat.strongRecOn generalizing ms before seen with
  | ind n ih =>
    rcases ms with _ | ⟨c | entry, ms⟩
    · exact ⟨[], .nil⟩
    · cases found : Pattern.whole q ([' '] ++ label ++ [' ']) before (c :: written ms) with
      | none =>
        have fewer : ms.length < n := by rw [← hn]; exact Nat.lt_succ_self _
        obtain ⟨ns, puts⟩ := ih ms.length fewer sound.tail bounded (.inl rfl) rfl
        exact ⟨.kept c :: ns, puts.kept found⟩
      | some hit =>
        obtain ⟨v, e, start, stop, rfl⟩ := Pattern.whole_eq_some found
        have front : written (.kept c :: ms) = q ++ v := e
        obtain ⟨vs, e', rfl⟩ := exists_keep_of_written sound
          (fun _ mem => learnt.not_capital mem) learnt.neat.last front
        have ne := learnt.ne_nil
        rw [e] at found start
        rw [e'] at sound bounded agrees hn ⊢
        rw [List.head?_append_of_ne_nil _ ne] at start
        rw [source_append, source_keep, List.head?_append_of_ne_nil _ ne] at agrees
        rw [bounded_keep, behind_eq_getLast? ne] at bounded
        have sound' : Sound vs := fun entry mem => sound entry (List.mem_append_right _ mem)
        have fewer : vs.length < n := by
          have pos := List.length_pos_of_ne_nil ne
          rw [← hn, keep, List.length_append, List.length_map]
          omega
        obtain ⟨ns, puts⟩ := ih vs.length fewer sound' bounded (.inl rfl) rfl
        -- the boundaries around the phrase are those of the first text
        have start' : boundary seen q.head? = true := by
          rcases agrees with rfl | ⟨-, other⟩
          · exact start
          · exact other
        exact ⟨_, puts.here ne found start' (boundary_source sound' bounded stop)⟩
    · obtain ⟨isLabel, -⟩ := sound entry List.mem_cons_self
      have fewer : ms.length < n := by rw [← hn]; exact Nat.lt_succ_self _
      obtain ⟨ns, puts⟩ := ih ms.length fewer sound.tail bounded.2.2 (.inr ⟨rfl, bounded.2.1⟩) rfl
      exact ⟨.labelled entry :: ns, puts.labelled isLabel learnt bounded⟩

end Sentential.Sentence
