import Mathlib.Data.List.Basic
import Mathlib.Data.List.Nodup
import Mathlib.Tactic.Lemma
import Sentential.Proofs.Sentence.Learnt
import Sentential.Proofs.Sentence.Marks

/-!
# Which clauses of a sentence are found again

The dictionary of a sentence is used on the sentence itself. A clause that begins and ends with a
word stands in the sentence as whole words (`standsIn_of_mem_clauses`), but longer phrases have
their turn before it, and their labels may stand where it was. At its turn a clause is found at
every place that no label covers (`not_missed`), so its label is missing only where each of its
places is covered by a phrase that is no shorter (`exists_marks`, `standsIn_substitute_iff`).
-/

namespace Sentential.Text

/-- Whether a phrase stands between two word boundaries behind a front part of a text. -/
def StandsBehind (u q s : Text) : Prop :=
  ∃ v, s = u ++ (q ++ v) ∧ boundary u.getLast? q.head? = true ∧
    boundary q.getLast? v.head? = true

/-- Some words of a row stand in it as a phrase. -/
lemma standsIn_unwords {ws : List Text} (phrase : IsPhrase (unwords ws)) (us vs : List Text) :
    StandsIn (unwords ws) (unwords (us ++ (ws ++ vs))) := by
  have space : isWordChar ' ' = false := isWordChar_of_isBlank isBlank_space
  have ne : ws ≠ [] := by
    rintro rfl
    exact phrase.ne_nil rfl
  have front : ∀ {xs : List Text}, xs ≠ [] → ∃ u, unwords (us ++ xs) = u ++ unwords xs ∧
      u.getLast?.any isWordChar = false := by
    intro xs some
    by_cases none : us = []
    · exact ⟨[], by rw [none]; rfl, rfl⟩
    · refine ⟨unwords us ++ [' '], by rw [unwords_append none some, List.append_assoc]; rfl, ?_⟩
      rw [List.getLast?_concat]
      exact space
  have back : ∃ v, unwords (ws ++ vs) = unwords ws ++ v ∧ v.head?.any isWordChar = false := by
    by_cases none : vs = []
    · exact ⟨[], by rw [none, List.append_nil, List.append_nil], rfl⟩
    · exact ⟨' ' :: unwords vs, unwords_append ne none, space⟩
  obtain ⟨u, eu, left⟩ := front (List.append_ne_nil_of_left_ne_nil ne vs)
  obtain ⟨v, ev, right⟩ := back
  refine ⟨u, v, by rw [eu, ev], ?_, ?_⟩
  · rw [boundary, left, phrase.1]
    rfl
  · rw [boundary, right, phrase.2]
    rfl

end Sentential.Text

namespace Sentential

/-- A label has one phrase. -/
lemma Dictionary.unique (d : Dictionary) {label p q : Text} (memP : (label, p) ∈ d.entries)
    (memQ : (label, q) ∈ d.entries) : p = q :=
  congrArg Prod.snd (List.inj_on_of_nodup_map d.distinct memP memQ rfl)

namespace Sentence

open Text Symbolic

/-! ## The places of a clause -/

/-- A clause that begins and ends with a word stands in its sentence as whole words. -/
lemma standsIn_of_mem_clauses {s clause : Text} (mem : clause ∈ clauses s)
    (phrase : IsPhrase clause) : StandsIn clause (normal s) := by
  have own : unwords (words clause) = clause := (isLearnt_of_mem_clauses mem).neat.tidy_eq
  have whole : unwords (words (normal s)) = normal s := (regular_normal s).neat.tidy_eq
  obtain ⟨us, vs, e⟩ := words_infix_of_mem_clauses mem
  rw [List.append_assoc] at e
  rw [← own] at phrase
  rw [← own, ← whole, ← e]
  exact standsIn_unwords phrase us vs

section
variable {ms us vs front back : List Mark} {entry other : Text × Text} {q r : Text}
  {before : Option Char}

/-- Next to a label stands a space, which is in no word. -/
lemma getLast?_written (h : (source us).getLast?.any isWordChar = false) :
    (written us).getLast?.any isWordChar = false := by
  rcases us.eq_nil_or_concat' with rfl | ⟨us, d | entry, rfl⟩
  · rfl
  · rw [source_append] at h
    rw [written_append]
    simpa using h
  · rw [written_append, written_labelled, written_nil, List.append_nil, ← List.append_assoc,
      List.getLast?_concat]
    exact isWordChar_space

/-- A text that begins with no word character begins with none when labels are put. -/
lemma head?_written (h : (source vs).head?.any isWordChar = false) :
    (written vs).head?.any isWordChar = false := by
  rcases vs with _ | ⟨d | entry, vs⟩
  · rfl
  · exact h
  · exact isWordChar_space

/-- A phrase is found where it stands as whole words and has been kept. -/
lemma not_missed {new : Text} (phrase : IsPhrase q)
    (start : boundary (source us).getLast? q.head? = true)
    (stop : boundary q.getLast? (source vs).head? = true) :
    ¬ Missed (.whole q new) none (written (us ++ (keep q ++ vs))) := by
  intro missed
  rw [boundary, phrase.1] at start
  rw [boundary, phrase.2] at stop
  have left : (written us).getLast?.any isWordChar = false :=
    getLast?_written (by simpa using start)
  have right : (written vs).head?.any isWordChar = false := head?_written (by simpa using stop)
  have start' : boundary (behind none (written us)) (q ++ written vs).head? = true := by
    rw [List.head?_append_of_ne_nil _ phrase.ne_nil, boundary, phrase.1, behind, Option.or_none,
      left]
    rfl
  have stop' : boundary q.getLast? (written vs).head? = true := by
    rw [boundary, phrase.2, right]
    rfl
  have found : Pattern.whole q new (behind none (written us)) (q ++ written vs) = some _ :=
    Pattern.whole_append start' stop'
  obtain ⟨c, rest, rfl⟩ := List.exists_cons_of_ne_nil phrase.ne_nil
  rw [List.cons_append, missed (written us) c (rest ++ written vs) (by simp)] at found
  cases found

/-- The stretch of a label is covered by no other one. -/
lemma Covers.unique (cut : ms = front ++ .labelled entry :: back)
    (covers : Covers ms other (source front) entry.2) : other = entry := by
  obtain ⟨front', back', cut', start, stop⟩ := covers
  rw [cut] at cut'
  rcases List.append_eq_append_iff.1 cut' with ⟨w, rfl, e⟩ | ⟨w, rfl, e⟩
  · rcases w with _ | ⟨m, w⟩
    · cases (List.cons.inj e).1
      rfl
    · obtain ⟨rfl, -⟩ := List.cons.inj e
      simp only [source_append, source_labelled, List.length_append] at start
      omega
  · rcases w with _ | ⟨m, w⟩
    · cases (List.cons.inj e).1
      rfl
    · obtain ⟨rfl, -⟩ := List.cons.inj e
      simp only [source_append, source_labelled, List.length_append] at stop
      omega

/-- A label stands for a phrase that stands as whole words in the first text. -/
lemma standsBehind_of_bounded (sound : Sound ms) (bounded : Bounded none ms)
    (cut : ms = front ++ .labelled entry :: back) :
    StandsBehind (source front) entry.2 (source ms) := by
  have ne : entry.2 ≠ [] := (sound entry (by simp [cut])).2.ne_nil
  suffices h : ∀ before, Bounded before (front ++ .labelled entry :: back) →
      boundary (behind before (source front)) entry.2.head? = true ∧
        boundary entry.2.getLast? (source back).head? = true by
    obtain ⟨start, stop⟩ := h none (cut ▸ bounded)
    rw [behind, Option.or_none] at start
    exact ⟨source back, by simp [cut], start, stop⟩
  clear cut sound bounded
  intro before bounded
  induction front generalizing before with
  | nil =>
    obtain ⟨start, stop, -⟩ := bounded
    rw [behind_eq_getLast? ne] at stop
    exact ⟨start, stop⟩
  | cons m front ih =>
    cases m with
    | kept c =>
      rw [source_kept, behind_cons]
      exact ih _ bounded
    | labelled entry' =>
      rw [source_labelled, behind_append_append]
      exact ih _ bounded.2.2

/-- A word of a text with labels is one of the labels, or its letters are those of the first
text. -/
lemma labelled_or_mem_source (kept : Text) (mem : r ∈ wordRuns (kept ++ written ms))
    (sound : Sound ms) :
    (∃ entry, .labelled entry ∈ ms ∧ r = entry.1) ∨ ∀ c ∈ r, c ∈ kept ∨ c ∈ source ms := by
  induction ms generalizing kept with
  | nil =>
    rw [written_nil, List.append_nil] at mem
    exact .inr fun c memC => .inl ((of_mem_runs mem).2.2.subset memC)
  | cons m ms ih =>
    cases m with
    | kept d =>
      have e : kept ++ written (.kept d :: ms) = kept ++ [d] ++ written ms := by simp
      rw [e] at mem
      rcases ih (kept ++ [d]) mem sound.tail with ⟨entry, memE, same⟩ | inside
      · exact .inl ⟨entry, List.mem_cons_of_mem _ memE, same⟩
      · refine .inr fun c memC => ?_
        simpa [or_assoc] using inside c memC
    | labelled entry =>
      obtain ⟨isLabel, -⟩ := sound entry List.mem_cons_self
      have e : kept ++ written (.labelled entry :: ms)
          = kept ++ ' ' :: (entry.1 ++ ' ' :: written ms) := by simp
      rw [e, wordRuns, runs_append_cons _ _ isWordChar_space, runs_append_cons _ _ isWordChar_space,
        List.mem_append, List.mem_append] at mem
      rcases mem with mem | mem | mem
      · exact .inr fun c memC => .inl ((of_mem_runs mem).2.2.subset memC)
      · have word : runs isWordChar entry.1 = [entry.1] := isLabel.isWord.wordRuns
        rw [word, List.mem_singleton] at mem
        exact .inl ⟨entry, List.mem_cons_self, mem⟩
      · rcases ih [] mem sound.tail with ⟨entry', memE, same⟩ | inside
        · exact .inl ⟨entry', List.mem_cons_of_mem _ memE, same⟩
        · refine .inr fun c memC => .inr (List.mem_append_right _ ?_)
          exact (inside c memC).resolve_left List.not_mem_nil

/-- A label that stands in the text has been put, if the first text has no capital letter. -/
lemma exists_labelled_of_standsIn {label : Text} (sound : Sound ms)
    (lowered : ∀ c ∈ source ms, c ∉ capitals) (isLabel : IsLabel label)
    (stands : StandsIn label (written ms)) : ∃ phrase, .labelled (label, phrase) ∈ ms := by
  rw [standsIn_iff isLabel.isWord] at stands
  rcases labelled_or_mem_source [] stands sound with ⟨⟨label', phrase⟩, mem, rfl⟩ | inside
  · exact ⟨phrase, mem⟩
  · obtain ⟨a, rest, rfl⟩ := List.exists_cons_of_ne_nil isLabel.ne_nil
    have mem := (inside a List.mem_cons_self).resolve_left List.not_mem_nil
    exact absurd isLabel.1 (lowered a mem)

/-- A label that has been put stands in the text. -/
lemma standsIn_written (sound : Sound ms) (mem : .labelled entry ∈ ms) :
    StandsIn entry.1 (written ms) := by
  obtain ⟨isLabel, -⟩ := sound entry mem
  obtain ⟨front, back, rfl⟩ := List.append_of_mem mem
  have phrase := isLabel.isWord.isPhrase
  refine ⟨written front ++ [' '], ' ' :: written back, by simp, ?_, ?_⟩
  · rw [List.getLast?_concat, boundary, phrase.1, Option.any_some, isWordChar_space]
    rfl
  · rw [boundary, phrase.2, List.head?_cons, Option.any_some, isWordChar_space]
    rfl

end

/-! ## One label after the other -/

/-- Every entry of the dictionary of a sentence has a label and a clause. -/
lemma isLabel_and_isLearnt_of_mem_learn {s : Text} {entry : Text × Text}
    (mem : entry ∈ (learn s).entries) : IsLabel entry.1 ∧ IsLearnt entry.2 :=
  (mem_learn mem).imp_right isLearnt_of_mem_clauses

/-- Labels of sound entries leave the marks sound. -/
lemma Extends.sound {es : List (Text × Text)} {ms ns : List Mark} (h : Extends es ms ns)
    (sounds : ∀ e ∈ es, IsLabel e.1 ∧ IsLearnt e.2) (sound : Sound ms) : Sound ns := by
  intro entry mem
  rcases h.known mem with mem | mem
  · exact sound entry mem
  · exact sounds entry mem

section
variable [Engine]

/-- Putting one label. It is put unless all places of its phrase are covered by others. -/
lemma exists_putLabel {entry : Text × Text} (learnt : IsLearnt entry.2)
    (accepts : Accepts entry.2) {ms : List Mark} (sound : Sound ms) (bounded : Bounded none ms) :
    ∃ ns, Extends [entry] ms ns ∧ Bounded none ns ∧ written ns = putLabel (written ms) entry ∧
      (IsPhrase entry.2 → .labelled entry ∈ ns ∨
        ∀ u, StandsBehind u entry.2 (source ms) → ∃ other, Covers ms other u entry.2) := by
  obtain ⟨ns, puts⟩ := exists_puts entry.1 learnt sound bounded (.inl rfl)
  have same : written ns = putLabel (written ms) entry := by
    rw [puts.written_eq, putLabel_of_accepts accepts, lower_eq_self learnt.steady]
    rfl
  refine ⟨ns, puts.extended, puts.bounded, same, fun phrase => puts.put.imp_right ?_⟩
  rintro missed u ⟨v, e, start, stop⟩
  have filled : ∀ other, .labelled other ∈ ms → other.2 ≠ [] :=
    fun other mem => (sound other mem).2.ne_nil
  rcases exists_keep_or_covers filled e with ⟨us, vs, rfl, rfl, rfl⟩ | covered
  · exact absurd missed (not_missed phrase start stop)
  · exact covered

/-- Putting labels one after the other. The label of an entry is put unless each place of its phrase
is covered by the label of an entry that had its turn before. -/
lemma exists_marks {es : List (Text × Text)} (sounds : ∀ e ∈ es, IsLabel e.1 ∧ IsLearnt e.2)
    (accepts : ∀ e ∈ es, Accepts e.2) {ms : List Mark} (sound : Sound ms)
    (bounded : Bounded none ms) :
    ∃ ns, Extends es ms ns ∧ Bounded none ns ∧ written ns = es.foldl putLabel (written ms) ∧
      ∀ front entry back, es = front ++ entry :: back → IsPhrase entry.2 →
        .labelled entry ∈ ns ∨ ∀ u, StandsBehind u entry.2 (source ms) →
          ∃ other, (.labelled other ∈ ms ∨ other ∈ front) ∧ Covers ns other u entry.2 := by
  induction es generalizing ms with
  | nil => exact ⟨ms, .refl ms, bounded, rfl, fun front entry back e => by simp at e⟩
  | cons first es ih =>
    obtain ⟨-, learnt⟩ := sounds first List.mem_cons_self
    have sounds' : ∀ e ∈ es, IsLabel e.1 ∧ IsLearnt e.2 :=
      fun e mem => sounds e (List.mem_cons_of_mem first mem)
    have accepts' : ∀ e ∈ es, Accepts e.2 := fun e mem => accepts e (List.mem_cons_of_mem first mem)
    obtain ⟨ls, one, boundedL, writtenL, put⟩ :=
      exists_putLabel learnt (accepts first List.mem_cons_self) sound bounded
    have soundL : Sound ls := by
      apply one.sound _ sound
      intro e mem
      exact List.mem_singleton.1 mem ▸ sounds first List.mem_cons_self
    obtain ⟨ns, more, boundedN, writtenN, puts⟩ := ih sounds' accepts' soundL boundedL
    refine ⟨ns, one.trans more, boundedN, by rw [writtenN, writtenL]; rfl, ?_⟩
    rintro (_ | ⟨first', front⟩) entry back cut phrase
    · obtain ⟨rfl, -⟩ := List.cons.inj cut
      refine (put phrase).imp more.mem fun covered u stands => ?_
      obtain ⟨other, covers⟩ := covered u stands
      exact ⟨other, .inl covers.mem, more.covers (one.covers covers)⟩
    · obtain ⟨rfl, cut'⟩ := List.cons.inj cut
      refine (puts front entry back cut' phrase).imp_right fun covered u stands => ?_
      obtain ⟨other, turn, covers⟩ := covered u (one.source_eq ▸ stands)
      refine ⟨other, ?_, covers⟩
      rcases turn with mem | mem
      · refine (one.known mem).imp_right fun same => ?_
        rw [List.mem_singleton.1 same]
        exact List.mem_cons_self
      · exact .inr (List.mem_cons_of_mem _ mem)

/-- The marks of a sentence with the labels of its own dictionary. A label that has been put is that
of a clause whose pattern is accepted. Where the label of such a clause is missing, each place of
the clause is covered by another one that is no shorter. -/
lemma exists_marks_learn (s : Text) :
    ∃ ms, source ms = normal s ∧ written ms = substitute (learn s) (normal s) ∧
      (∀ entry, .labelled entry ∈ ms → entry ∈ (learn s).entries ∧ Accepts entry.2) ∧
      Bounded none ms ∧
      ∀ entry ∈ (learn s).entries, IsPhrase entry.2 → Accepts entry.2 →
        .labelled entry ∈ ms ∨ ∀ u, StandsBehind u entry.2 (normal s) →
          ∃ other, other ≠ entry ∧ entry.2.length ≤ other.2.length ∧
            Covers ms other u entry.2 := by
  have solid : ∀ e ∈ (learn s).entries, isBlankText e.2 = false :=
    fun e mem => isBlankText_of_mem_clauses (mem_learn mem).2
  have sorted := turns_sorted (learn s)
  have distinct : (turns (learn s)).Nodup :=
    .of_map Prod.snd (turns_distinct solid (nodup_phrases_learn s))
  have sound : Sound (keep (normal s)) := fun e mem => absurd mem labelled_not_mem_keep
  have bounded : Bounded none (keep (normal s)) := by
    rw [← List.append_nil (keep _), bounded_keep]
    trivial
  obtain ⟨ms, extended, bounded', same, puts⟩ :=
    exists_marks (fun e mem => isLabel_and_isLearnt_of_mem_learn (of_mem_turns mem).1)
      (fun e mem => (of_mem_turns mem).2) sound bounded
  rw [source_keep] at puts
  refine ⟨ms, ?_, ?_, fun entry mem => ?_, bounded', fun entry mem phrase accepts => ?_⟩
  · rw [extended.source_eq, source_keep]
  · rw [same, written_keep, substitute_eq]
  · exact of_mem_turns ((extended.known mem).resolve_left labelled_not_mem_keep)
  · obtain ⟨front, back, cut⟩ := List.append_of_mem ((mem_turns_iff solid).2 ⟨mem, accepts⟩)
    rw [cut] at sorted distinct
    refine (puts front entry back cut phrase).imp_right fun covered u stands => ?_
    -- what covers the place had its turn before, so it is another entry and no shorter
    obtain ⟨other, turn, covers⟩ := covered u stands
    have before : other ∈ front := turn.resolve_left labelled_not_mem_keep
    have differs := (List.nodup_append.1 distinct).2.2 other before entry List.mem_cons_self
    have longer := (List.pairwise_append.1 sorted).2.2 other before entry List.mem_cons_self
    exact ⟨other, differs, longer, covers⟩

/-- Clauses that come in the order of their lengths have their turns in that order. -/
lemma substitute_learn_of_sorted {s : Text} {es : List (Text × Text)}
    (entries : (learn s).entries = es) (sorted : es.Pairwise fun a b => b.2.length ≤ a.2.length) :
    substitute (learn s) (normal s) = es.foldl putLabel (normal s) := by
  subst entries
  exact substitute_of_sorted (fun _ mem => isBlankText_of_mem_clauses (mem_learn mem).2) sorted _

/-- The dictionary of a sentence is used on the sentence itself. Where the label of a clause stands
in what is written, its pattern has been accepted, and at one of the places where the clause stands
between word boundaries no label but its own stands for any of its characters. A clause that begins
and ends with a word stands in the sentence as whole words, and if its pattern is accepted, its
label stands in what is written iff at one of these places no label of another clause, which is no
shorter, stands for some of its characters. -/
theorem standsIn_substitute_iff (s : Text) :
    ∃ ms, source ms = normal s ∧ written ms = substitute (learn s) (normal s) ∧
      (∀ entry, .labelled entry ∈ ms → entry ∈ (learn s).entries) ∧
      ∀ label clause, (label, clause) ∈ (learn s).entries →
        (StandsIn label (substitute (learn s) (normal s)) → Accepts clause ∧
          ∃ u, StandsBehind u clause (normal s) ∧
            ∀ other, Covers ms other u clause → other = (label, clause)) ∧
        (IsPhrase clause → StandsIn clause (normal s) ∧
          (Accepts clause →
            (StandsIn label (substitute (learn s) (normal s))
              ↔ ∃ u, StandsBehind u clause (normal s) ∧
                ∀ other, Covers ms other u clause → clause.length ≤ other.2.length →
                  other = (label, clause)))) := by
  obtain ⟨ms, same, out, known, bounded, puts⟩ := exists_marks_learn s
  have sound : Sound ms :=
    fun entry mem => isLabel_and_isLearnt_of_mem_learn (known entry mem).1
  have place : ∀ label clause, (label, clause) ∈ (learn s).entries →
      StandsIn label (substitute (learn s) (normal s)) → Accepts clause ∧
        ∃ u, StandsBehind u clause (normal s) ∧
          ∀ other, Covers ms other u clause → other = (label, clause) := by
    intro label clause mem stands
    have lowered : ∀ c ∈ source ms, c ∉ capitals := by
      rw [same]
      exact fun c memC capital => lowerChar_capital c capital (steady_of_mem_normal memC).1.2
    obtain ⟨clause', memM⟩ :=
      exists_labelled_of_standsIn sound lowered (mem_learn mem).1 (out ▸ stands)
    obtain ⟨mem', accepts⟩ := known _ memM
    obtain rfl : clause' = clause := (learn s).unique mem' mem
    obtain ⟨front, back, cut⟩ := List.append_of_mem memM
    refine ⟨accepts, source front, same ▸ standsBehind_of_bounded sound bounded cut, ?_⟩
    exact fun other covers => covers.unique cut
  refine ⟨ms, same, out, fun entry mem => (known entry mem).1, fun label clause mem =>
    ⟨place label clause mem, fun phrase => ⟨?_, fun accepts => ⟨fun stands => ?_, ?_⟩⟩⟩⟩
  · exact standsIn_of_mem_clauses (mem_learn mem).2 phrase
  · obtain ⟨-, u, here, free⟩ := place label clause mem stands
    exact ⟨u, here, fun other covers _ => free other covers⟩
  · rintro ⟨u, stands, free⟩
    rcases puts _ mem phrase accepts with put | covered
    · exact out ▸ standsIn_written sound put
    · obtain ⟨other, differs, longer, covers⟩ := covered u stands
      exact absurd (free other covers longer) differs

end

/-- A clause that stands twice, once in a longer one. Its label is put at the other place. -/
theorem standsIn_substitute_iff_of_repeated_clause :
    let _ : Engine := .limited (10 * 1024 * 1024)
    let s : Text := "não é verdade que não chove e chove".toList
    let longer : Text × Text := ("A".toList, "não chove".toList)
    let shorter : Text × Text := ("B".toList, "chove".toList)
    (∀ entry ∈ [longer, shorter], entry ∈ (learn s).entries ∧ Accepts entry.2 ∧
      IsPhrase entry.2 ∧ StandsIn entry.2 (normal s)) ∧
    ∃ ms, source ms = normal s ∧ written ms = "não é verdade que  A  e  B ".toList ∧
      ∀ entry ∈ [longer, shorter], ∃ u, StandsBehind u entry.2 (normal s) ∧
        ∀ other, Covers ms other u entry.2 → entry.2.length ≤ other.2.length → other = entry := by
  intro _ s longer shorter
  have entries : (learn s).entries = [longer, shorter] := by
    rw [entries_learn]
    decide +kernel
  have out : substitute (learn s) (normal s) = "não é verdade que  A  e  B ".toList := by
    rw [substitute_learn_of_sorted entries (by decide)]
    decide +kernel
  have fit : ∀ entry ∈ [longer, shorter], Accepts entry.2 ∧ IsPhrase entry.2 := by decide
  have labels : ∀ entry ∈ [longer, shorter], IsWord entry.1 ∧
      entry.1 ∈ wordRuns "não é verdade que  A  e  B ".toList := by decide +kernel
  obtain ⟨ms, same, put, -, found⟩ := standsIn_substitute_iff s
  have known : ∀ entry ∈ [longer, shorter], entry ∈ (learn s).entries :=
    fun entry mem => entries ▸ mem
  refine ⟨fun entry mem => ?_, ms, same, put.trans out, fun entry mem => ?_⟩
  · obtain ⟨accepts, phrase⟩ := fit entry mem
    exact ⟨known entry mem, accepts, phrase, ((found _ _ (known entry mem)).2 phrase).1⟩
  · obtain ⟨accepts, phrase⟩ := fit entry mem
    obtain ⟨word, own⟩ := labels entry mem
    have stands : StandsIn entry.1 (substitute (learn s) (normal s)) :=
      out ▸ (standsIn_iff word).2 own
    exact (((found _ _ (known entry mem)).2 phrase).2 accepts).1 stands

/-- Labels of two clauses that are missing. One clause stands in a longer one at each of its places,
and the other one begins and ends with parentheses, so that it stands nowhere as whole words. -/
theorem not_standsIn_substitute :
    let _ : Engine := .limited (10 * 1024 * 1024)
    let s : Text := "não é verdade que não chove e não chove".toList
    let t : Text := "(chove) e venta".toList
    ((learn s).entries = [("A".toList, "não chove".toList), ("B".toList, "chove".toList)] ∧
      (∀ entry ∈ (learn s).entries, Accepts entry.2) ∧
      substitute (learn s) (normal s) = "não é verdade que  A  e  A ".toList ∧
      ¬ StandsIn "B".toList (substitute (learn s) (normal s))) ∧
    ((learn t).entries = [("A".toList, "(chove)".toList), ("B".toList, "venta".toList)] ∧
      (∀ entry ∈ (learn t).entries, Accepts entry.2) ∧
      substitute (learn t) (normal t) = "(chove) e  B ".toList ∧
      ¬ StandsIn "A".toList (substitute (learn t) (normal t))) := by
  intro _ s t
  have entriesS : (learn s).entries
      = [("A".toList, "não chove".toList), ("B".toList, "chove".toList)] := by
    rw [entries_learn]
    decide +kernel
  have entriesT : (learn t).entries
      = [("A".toList, "(chove)".toList), ("B".toList, "venta".toList)] := by
    rw [entries_learn]
    decide +kernel
  have outS : substitute (learn s) (normal s) = "não é verdade que  A  e  A ".toList := by
    rw [substitute_learn_of_sorted entriesS (by decide)]
    decide +kernel
  have outT : substitute (learn t) (normal t) = "(chove) e  B ".toList := by
    rw [substitute_learn_of_sorted entriesT (by decide)]
    decide +kernel
  refine ⟨⟨entriesS, ?_, outS, ?_⟩, entriesT, ?_, outT, ?_⟩
  · rw [entriesS]
    decide
  · rw [outS, standsIn_iff (by decide)]
    decide +kernel
  · rw [entriesT]
    decide
  · rw [outT, standsIn_iff (by decide)]
    decide +kernel

end Sentence

end Sentential
