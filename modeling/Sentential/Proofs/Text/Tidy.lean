import Mathlib.Data.List.Basic
import Mathlib.Data.List.Chain
import Mathlib.Data.List.TakeWhile
import Mathlib.Tactic.Lemma
import Sentential.Proofs.Text.Runs
import Sentential.Text.Blank

/-!
# Tidy texts

A text is neat if its blanks are single spaces, each between two other characters. Tidying leaves a
neat text as it is (`Neat.tidy_eq`) and keeps the words of every text (`words_tidy`).
-/

namespace Sentential.Text

/-- The blanks of a neat text are single spaces between other characters. -/
structure Neat (s : Text) : Prop where
  spaces : ∀ c ∈ s, isBlank c = true → c = ' '
  single : s.IsChain fun c d => isBlank c = false ∨ isBlank d = false
  first : s.head?.any isBlank = false
  last : s.getLast?.any isBlank = false

/-- A space is a blank. -/
lemma isBlank_space : isBlank ' ' = true := by decide

/-- The empty text is neat. -/
lemma Neat.nil : Neat [] :=
  ⟨fun _ mem => absurd mem List.not_mem_nil, .nil, rfl, rfl⟩

/-- A text without blanks is neat. -/
lemma neat_of_no_blank {s : Text} (h : ∀ c ∈ s, isBlank c = false) : Neat s := by
  refine ⟨fun c mem blank => ?_, ?_, ?_, ?_⟩
  · rw [h c mem] at blank
    cases blank
  · induction s with
    | nil => exact .nil
    | cons c s ih =>
      rw [List.isChain_cons]
      refine ⟨fun d _ => .inl (h c List.mem_cons_self), ih fun d mem => h d ?_⟩
      exact List.mem_cons_of_mem c mem
  · cases s with
    | nil => rfl
    | cons c s => exact h c List.mem_cons_self
  · rcases s.eq_nil_or_concat' with rfl | ⟨s, c, rfl⟩
    · rfl
    · simpa using h c (by simp)

/-- Neat texts with a space between them are neat. -/
lemma Neat.append_space {s t : Text} (hs : Neat s) (ht : Neat t) (nes : s ≠ []) (net : t ≠ []) :
    Neat (s ++ ' ' :: t) := by
  obtain ⟨d, t, rfl⟩ := List.exists_cons_of_ne_nil net
  refine ⟨fun c mem => ?_, ?_, ?_, ?_⟩
  · rcases List.mem_append.1 mem with mem | mem
    · exact hs.spaces c mem
    · rcases List.mem_cons.1 mem with rfl | mem
      · exact fun _ => rfl
      · exact ht.spaces c mem
  · rw [List.isChain_append, List.isChain_cons_cons]
    refine ⟨hs.single, ⟨.inr (by simpa using ht.first), ht.single⟩, fun c hc _ _ => ?_⟩
    have h := hs.last
    rw [Option.mem_def.1 hc] at h
    exact .inl h
  · obtain ⟨c, s, rfl⟩ := List.exists_cons_of_ne_nil nes
    exact hs.first
  · have e : (s ++ ' ' :: d :: t).getLast? = (d :: t).getLast? := by
      simp [List.getLast?_append, List.getLast?_cons]
    rw [e]
    exact ht.last

/-- A space stands between the first word and the others. -/
lemma unwords_cons (w : Text) {ws : List Text} (ne : ws ≠ []) :
    unwords (w :: ws) = w ++ ' ' :: unwords ws := by
  obtain ⟨v, vs, rfl⟩ := List.exists_cons_of_ne_nil ne
  simp [unwords, List.intercalate]

/-- A space stands between the words of two lists. -/
lemma unwords_append {vs ws : List Text} (nev : vs ≠ []) (new : ws ≠ []) :
    unwords (vs ++ ws) = unwords vs ++ ' ' :: unwords ws := by
  induction vs with
  | nil => exact absurd rfl nev
  | cons v vs ih =>
    by_cases ne : vs = []
    · subst ne
      rw [List.singleton_append, unwords_cons v new]
      simp [unwords, List.intercalate]
    · rw [List.cons_append, unwords_cons v (by simp [ne]), ih ne, unwords_cons v ne,
        List.append_assoc, List.cons_append]

/-- A blank parts the words. -/
lemma words_append_cons {c : Char} (s t : Text) (blank : isBlank c = true) :
    words (s ++ c :: t) = words s ++ words t :=
  runs_append_cons s t (by simp [blank])

/-- A blank in front is in no word. -/
lemma words_cons_blank {c : Char} (s : Text) (blank : isBlank c = true) :
    words (c :: s) = words s :=
  words_append_cons [] s blank

/-- A blank between two texts with words becomes a space. -/
lemma tidy_append_cons {c : Char} {s t : Text} (blank : isBlank c = true) (nes : words s ≠ [])
    (net : words t ≠ []) : tidy (s ++ c :: t) = tidy s ++ ' ' :: tidy t := by
  rw [tidy, words_append_cons s t blank, unwords_append nes net]
  rfl

/-- What follows a space in a neat text is neat. -/
lemma Neat.behind_space {s t : Text} (neat : Neat (s ++ ' ' :: t)) : Neat t := by
  obtain ⟨spaces, single, -, last⟩ := neat
  cases t with
  | nil => exact .nil
  | cons d t =>
    rw [List.isChain_append, List.isChain_cons_cons, isBlank_space] at single
    refine ⟨fun c mem => spaces c ?_, single.2.1.2, ?_, ?_⟩
    · exact List.mem_append_right s (List.mem_cons_of_mem ' ' mem)
    · simpa using single.2.1.1
    · simpa [List.getLast?_append, List.getLast?_cons] using last

/-- A text that is not blank has words. -/
lemma words_ne_nil {c : Char} {s : Text} (mem : c ∈ s) (h : isBlank c = false) : words s ≠ [] :=
  runs_ne_nil mem (by simp [h])

/-- A text without blanks is one word. -/
lemma words_of_no_blank {s : Text} (ne : s ≠ []) (h : ∀ c ∈ s, isBlank c = false) :
    words s = [s] :=
  runs_of_all ne fun c mem => by simp [h c mem]

/-- A neat text without blanks is a word; else a space parts its first word from a neat text. -/
lemma Neat.cases {s : Text} (neat : Neat s) :
    (∀ c ∈ s, isBlank c = false) ∨
    ∃ w t, s = w ++ ' ' :: t ∧ w ≠ [] ∧ (∀ c ∈ w, isBlank c = false) ∧ t ≠ [] ∧ Neat t := by
  have cut := s.takeWhile_append_dropWhile (p := fun c => !isBlank c)
  have front : ∀ c ∈ s.takeWhile (fun c => !isBlank c), isBlank c = false := fun c mem => by
    simpa using List.mem_takeWhile_imp mem
  have stop := s.head?_dropWhile_not (fun c => !isBlank c)
  generalize s.takeWhile (fun c => !isBlank c) = w at cut front
  generalize s.dropWhile (fun c => !isBlank c) = rest at cut stop
  subst cut
  rcases rest with _ | ⟨d, t⟩
  · simpa using Or.inl front
  · have blank : isBlank d = true := by simpa using stop
    have e : d = ' ' := neat.spaces d (by simp) blank
    subst e
    refine .inr ⟨w, t, rfl, ?_, front, ?_, neat.behind_space⟩
    · rintro rfl
      have first := neat.first
      simp [isBlank_space] at first
    · rintro rfl
      have last := neat.last
      simp [isBlank_space] at last

/-- Tidying leaves a neat text as it is. -/
lemma Neat.tidy_eq {s : Text} (neat : Neat s) : tidy s = s := by
  -- the rest behind the first word is neat again, so the induction is on the length
  induction hn : s.length using Nat.strongRecOn generalizing s with
  | ind n ih =>
    rcases neat.cases with front | ⟨w, t, rfl, new, front, net, neat'⟩
    · by_cases ne : s = []
      · subst ne
        rfl
      · rw [tidy, words_of_no_blank ne front]
        simp [unwords, List.intercalate]
    · have e : tidy t = t := ih t.length (by simp at hn; omega) neat' rfl
      obtain ⟨c, w', rfl⟩ := List.exists_cons_of_ne_nil new
      obtain ⟨d, t', rfl⟩ := List.exists_cons_of_ne_nil net
      have blank := neat'.first
      rw [tidy_append_cons isBlank_space
          (words_ne_nil List.mem_cons_self (front c List.mem_cons_self))
          (words_ne_nil List.mem_cons_self (by simpa using blank)), e, tidy,
        words_of_no_blank new front]
      simp [unwords, List.intercalate]

/-- Words set one space apart are a neat text. -/
lemma neat_unwords {ws : List Text} (h : ∀ w ∈ ws, w ≠ [] ∧ ∀ c ∈ w, isBlank c = false) :
    Neat (unwords ws) ∧ words (unwords ws) = ws ∧ (ws ≠ [] → unwords ws ≠ []) := by
  induction ws with
  | nil => exact ⟨.nil, rfl, fun ne => absurd rfl ne⟩
  | cons w ws ih =>
    obtain ⟨new, front⟩ := h w List.mem_cons_self
    obtain ⟨neat, same, net⟩ := ih fun v mem => h v (List.mem_cons_of_mem w mem)
    by_cases ne : ws = []
    · subst ne
      have e : unwords [w] = w := by simp [unwords, List.intercalate]
      rw [e]
      exact ⟨neat_of_no_blank front, words_of_no_blank new front, fun _ => new⟩
    · rw [unwords_cons w ne]
      refine ⟨(neat_of_no_blank front).append_space neat new (net ne), ?_, fun _ => by simp⟩
      rw [words_append_cons w _ isBlank_space, words_of_no_blank new front, same]
      rfl

/-- Words are not empty and have no blanks. -/
lemma words_not_blank {s w : Text} (mem : w ∈ words s) : w ≠ [] ∧ ∀ c ∈ w, isBlank c = false := by
  obtain ⟨ne, all, _⟩ := of_mem_runs mem
  exact ⟨ne, fun c hc => by simpa using all c hc⟩

/-- What is tidied is neat. -/
lemma neat_tidy (s : Text) : Neat (tidy s) :=
  (neat_unwords fun _ mem => words_not_blank mem).1

/-- Tidying keeps the words. -/
lemma words_tidy (s : Text) : words (tidy s) = words s :=
  (neat_unwords fun _ mem => words_not_blank mem).2.1

/-- A neat text has no blanks to be cleared from its ends. -/
lemma Neat.trim_eq {s : Text} (neat : Neat s) : trim s = s := by
  have last : s.reverse.head?.any isBlank = false := by
    rw [List.head?_reverse]
    exact neat.last
  rw [trim, dropWhile_of_head? neat.first, trimEnd, dropWhile_of_head? last, List.reverse_reverse]

/-! ## Tidying from left to right -/

/-- The space that tidying leaves where a text follows other characters. -/
def gap (s : Text) : Text :=
  if s.head?.any isBlank ∧ words s ≠ [] then [' '] else []

/-- No space is left where a text begins with another character. -/
lemma gap_cons_of_not {c : Char} (s : Text) (solid : isBlank c = false) : gap (c :: s) = [] := by
  simp [gap, solid]

/-- A character that is no blank stays, and a space behind it if blanks and words follow. -/
lemma tidy_cons {c : Char} (s : Text) (solid : isBlank c = false) :
    tidy (c :: s) = c :: (gap s ++ tidy s) := by
  have single : words [c] = [[c]] :=
    words_of_no_blank (List.cons_ne_nil c []) (by simpa using solid)
  rcases s with _ | ⟨d, s⟩
  · rw [tidy, single]
    rfl
  · by_cases blank : isBlank d = true
    · have e : words (c :: d :: s) = [c] :: words s := by
        rw [show c :: d :: s = [c] ++ d :: s from rfl, words_append_cons [c] s blank, single]
        rfl
      rw [tidy, e, tidy, words_cons_blank s blank]
      by_cases none : words s = []
      · simp [gap, words_cons_blank s blank, none, unwords, List.intercalate]
      · rw [unwords_cons [c] none]
        simp [gap, blank, words_cons_blank s blank, none]
    · have solid' : isBlank d = false := by simpa using blank
      have run := runs_cons (p := fun c => !isBlank c) s (by simpa using solid')
      rw [gap_cons_of_not s solid', tidy, tidy, words, words, run, runs]
      simp only [solid, solid', run, List.head?_cons, Option.any_some, Bool.not_false, if_true]
      generalize runs (fun c => !isBlank c) (s.dropWhile fun c => !isBlank c) = more
      rcases more with _ | ⟨w, more⟩
      · simp [unwords, List.intercalate]
      · rw [unwords_cons _ (List.cons_ne_nil w more), unwords_cons _ (List.cons_ne_nil w more)]
        rfl

/-- A stretch without blanks stays, and a space behind it if blanks and words follow. -/
lemma tidy_append {w : Text} (s : Text) (ne : w ≠ []) (solid : ∀ c ∈ w, isBlank c = false) :
    tidy (w ++ s) = w ++ (gap s ++ tidy s) := by
  induction w with
  | nil => exact absurd rfl ne
  | cons c w ih =>
    rw [List.cons_append, tidy_cons _ (solid c List.mem_cons_self)]
    rcases w with _ | ⟨d, w⟩
    · rfl
    · have all : ∀ e ∈ d :: w, isBlank e = false :=
        fun e mem => solid e (List.mem_cons_of_mem c mem)
      rw [ih (List.cons_ne_nil d w) all, List.cons_append,
        gap_cons_of_not _ (all d List.mem_cons_self)]
      rfl

/-- What follows a stretch begins as before, or with a space. -/
lemma head?_gap_tidy {p : Char → Bool} {s : Text} (space : p ' ' = false)
    (h : s.head?.any p = false) : (gap s ++ tidy s).head?.any p = false := by
  rcases s with _ | ⟨c, s⟩
  · rfl
  · by_cases blank : isBlank c = true
    · by_cases none : words (c :: s) = []
      · simp [gap, none, tidy, unwords, List.intercalate]
      · simp [gap, blank, none, space]
    · have solid : isBlank c = false := by simpa using blank
      rw [gap_cons_of_not s solid, tidy_cons s solid]
      exact h

/-- A neat text stays, and a space behind it if blanks and words follow. -/
lemma Neat.tidy_append {w : Text} (neat : Neat w) (ne : w ≠ []) (s : Text) :
    tidy (w ++ s) = w ++ (gap s ++ tidy s) := by
  induction hn : w.length using Nat.strongRecOn generalizing w with
  | ind n ih =>
    rcases neat.cases with solid | ⟨v, t, rfl, nev, solid, net, neat'⟩
    · exact Text.tidy_append s ne solid
    · have e : tidy (t ++ s) = t ++ (gap s ++ tidy s) :=
        ih t.length (by simp at hn; omega) neat' net rfl
      obtain ⟨c, t', et⟩ := List.exists_cons_of_ne_nil net
      -- a word follows the space, so the gap behind the first word is that space
      have some : words (' ' :: (t ++ s)) ≠ [] := by
        have first := neat'.first
        rw [et] at first ⊢
        rw [words_cons_blank _ isBlank_space]
        exact words_ne_nil List.mem_cons_self (by simpa using first)
      have space : gap (' ' :: (t ++ s)) = [' '] := if_pos ⟨rfl, some⟩
      have same : tidy (' ' :: (t ++ s)) = tidy (t ++ s) := by
        rw [tidy, words_cons_blank _ isBlank_space]
        rfl
      rw [List.append_assoc, List.cons_append, Text.tidy_append _ nev solid, space, same, e]
      simp

/-- A blank in front is tidied away. -/
lemma tidy_cons_blank {c : Char} (s : Text) (blank : isBlank c = true) :
    tidy (c :: s) = tidy s := by
  rw [tidy, words_cons_blank s blank, tidy]

/-- Tidying keeps a character that is no blank between its two tidy sides, with spaces in front of
it if there were blanks, and the gap of what follows behind it. -/
lemma tidy_append_solid {c : Char} (solid : isBlank c = false) (s t : Text) :
    ∃ k, tidy (s ++ c :: t) = tidy s ++ (List.replicate k ' ' ++ c :: (gap t ++ tidy t)) := by
  induction s with
  | nil => exact ⟨0, tidy_cons t solid⟩
  | cons e s ih =>
    obtain ⟨k, out⟩ := ih
    by_cases blank : isBlank e = true
    · exact ⟨k, by rw [List.cons_append, tidy_cons_blank _ blank, out, tidy_cons_blank s blank]⟩
    · have solid' : isBlank e = false := by simpa using blank
      rw [List.cons_append, tidy_cons _ solid', out, tidy_cons s solid']
      by_cases none : words s = []
      · -- only blanks stand in front of the character, and all of them become its spaces
        have same : gap s = [] := by simp [gap, none]
        have bare : tidy s = [] := by rw [tidy, none]; rfl
        rw [same, bare, gap]
        split
        · exact ⟨k + 1, by simp [List.replicate_succ]⟩
        · exact ⟨k, by simp⟩
      · have same : gap (s ++ c :: t) = gap s := by
          have some : words (s ++ c :: t) ≠ [] := words_ne_nil (by simp) solid
          have head : (s ++ c :: t).head? = s.head? := by
            apply List.head?_append_of_ne_nil
            rintro rfl
            exact none rfl
          rw [gap, gap, head]
          simp [none, some]
        exact ⟨k, by rw [same]; simp⟩

/-- The characters of a tidied text were there or are spaces. -/
lemma mem_tidy {s : Text} {d : Char} (mem : d ∈ tidy s) : d ∈ s ∨ d = ' ' := by
  have inside : ∀ ws : List Text, d ∈ unwords ws → (∃ w ∈ ws, d ∈ w) ∨ d = ' ' := by
    intro ws mem
    induction ws with
    | nil => cases mem
    | cons w ws ih =>
      by_cases ne : ws = []
      · subst ne
        exact .inl ⟨w, List.mem_cons_self, by simpa [unwords, List.intercalate] using mem⟩
      · rw [unwords_cons w ne, List.mem_append, List.mem_cons] at mem
        rcases mem with mem | rfl | mem
        · exact .inl ⟨w, List.mem_cons_self, mem⟩
        · exact .inr rfl
        · exact (ih mem).imp_left fun ⟨v, memV, mem⟩ => ⟨v, List.mem_cons_of_mem w memV, mem⟩
  rcases inside (words s) mem with ⟨w, memW, mem⟩ | rfl
  · obtain ⟨_, _, sub⟩ := of_mem_runs memW
    exact .inl (sub.subset mem)
  · exact .inr rfl

end Sentential.Text
