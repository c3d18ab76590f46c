import Mathlib.Data.List.Basic
import Mathlib.Data.List.Forall2
import Mathlib.Tactic.Lemma
import Sentential.Proofs.Text.FirstPlaces
import Sentential.Proofs.Text.Tidy
import Sentential.Sentence.Clause

/-!
# A sentence is its clauses and connectives

The pieces of a text with the separator between them are the text (`intercalate_splitOn`). A cut at
a connective therefore keeps the words of a fragment, and so do all cuts of a sentence
(`joined_fragments`): its words are those of the fragments with connectives between them
(`Joined`). Each fragment without its blanks and its negation is a clause, unless nothing is left of
it or it repeats one (`clauses_eq_of_joined`).
-/

namespace Sentential

namespace Text

/-! ## Pieces of a text -/

/-- A text that is split has at least one piece. -/
lemma splitFrom_ne_nil (separator : Text) (skip : Nat) (s : Text) :
    splitFrom separator skip s ≠ [] := by
  have first : ∀ c pieces, consFirst c pieces ≠ [] := by
    intro c pieces
    cases pieces <;> exact List.cons_ne_nil _ _
  induction s generalizing skip with
  | nil => cases skip <;> exact List.cons_ne_nil _ _
  | cons c s ih =>
    cases skip with
    | succ skip => exact ih skip
    | zero =>
      rw [splitFrom]
      split
      · exact List.cons_ne_nil _ _
      · exact first c _

section
variable {separator : Text}

/-- A separator stands between the first piece and the others. -/
lemma intercalate_cons (piece : Text) {pieces : List Text} (ne : pieces ≠ []) :
    separator.intercalate (piece :: pieces)
      = piece ++ (separator ++ separator.intercalate pieces) := by
  obtain ⟨next, pieces, rfl⟩ := List.exists_cons_of_ne_nil ne
  rw [List.intercalate_cons_cons, List.append_assoc]

/-- A character in front of the first piece stands in front of the text. -/
lemma intercalate_consFirst (c : Char) {pieces : List Text} (ne : pieces ≠ []) :
    separator.intercalate (consFirst c pieces) = c :: separator.intercalate pieces := by
  obtain ⟨piece, pieces, rfl⟩ := List.exists_cons_of_ne_nil ne
  cases pieces with
  | nil => rw [consFirst, List.intercalate_singleton, List.intercalate_singleton]
  | cons next pieces =>
    rw [consFirst, intercalate_cons _ (List.cons_ne_nil _ _),
      intercalate_cons _ (List.cons_ne_nil _ _), List.cons_append]

/-- The pieces of a text with the separators between them are the text. -/
lemma intercalate_splitFrom (ne : separator ≠ []) (skip : Nat) (s : Text) :
    separator.intercalate (splitFrom separator skip s) = s.drop skip := by
  induction s generalizing skip with
  | nil =>
    rw [List.drop_nil]
    cases skip <;> exact List.intercalate_singleton
  | cons c s ih =>
    cases skip with
    | succ skip => exact ih skip
    | zero =>
      rw [splitFrom, List.drop_zero]
      split
      · rename_i found
        -- the rest of the separator is passed before the next piece begins
        obtain ⟨d, rest, rfl⟩ := List.exists_cons_of_ne_nil ne
        obtain ⟨behind, e⟩ := List.isPrefixOf_iff_prefix.1 found
        obtain ⟨rfl, same⟩ := List.cons.inj e
        have same' : rest ++ behind = s := same
        subst same'
        rw [intercalate_cons [] (splitFrom_ne_nil _ _ _), ih, List.length_cons, Nat.add_sub_cancel,
          List.drop_left]
        rfl
      · rw [intercalate_consFirst c (splitFrom_ne_nil _ _ _), ih, List.drop_zero]

/-- The pieces of a text with the separator between them are the text. -/
lemma intercalate_splitOn (ne : separator ≠ []) (s : Text) :
    separator.intercalate (splitOn separator s) = s :=
  intercalate_splitFrom ne 0 s

/-- The characters of the pieces are in the text. -/
lemma mem_intercalate {piece : Text} {pieces : List Text} (mem : piece ∈ pieces) {d : Char}
    (memD : d ∈ piece) : d ∈ separator.intercalate pieces := by
  induction pieces with
  | nil => cases mem
  | cons first pieces ih =>
    by_cases none : pieces = []
    · subst none
      rwa [List.intercalate_singleton, ← List.mem_singleton.1 mem]
    · rw [intercalate_cons first none]
      rcases List.mem_cons.1 mem with rfl | mem
      · exact List.mem_append_left _ memD
      · exact List.mem_append_right _ (List.mem_append_right _ (ih mem))

/-- A piece has no other characters than the text. -/
lemma mem_of_mem_splitOn {s piece : Text} (ne : separator ≠ []) (mem : piece ∈ splitOn separator s)
    {d : Char} (memD : d ∈ piece) : d ∈ s := by
  rw [← intercalate_splitOn ne s]
  exact mem_intercalate mem memD

end

end Text

namespace Sentence

open Text

/-! ## Fragments -/

/-- Whether words are those of some fragments with connectives between them. -/
inductive Joined : List Text → List Text → Prop where
  | last (fragment : Text) :
    Joined [fragment] (words fragment)
  | next {connective fragments ws} (fragment : Text) :
    connective ∈ connectives →
    Joined fragments ws →
    Joined (fragment :: fragments) (words fragment ++ words connective ++ ws)

section
variable {connective : Text} {fs gs vs ws : List Text}

/-- A connective begins and ends with a blank. -/
lemma connectives_blank : ∀ k ∈ connectives, k.head?.any isBlank = true ∧
    k.getLast?.any isBlank = true := by
  decide

/-- No connective is empty. -/
lemma connectives_ne_nil (mem : connective ∈ connectives) : connective ≠ [] := by
  rintro rfl
  cases (connectives_blank [] mem).1

/-- A connective parts the words before it from those behind it. -/
lemma words_append_connective (mem : connective ∈ connectives) (s t : Text) :
    words (s ++ (connective ++ t)) = words s ++ words connective ++ words t := by
  obtain ⟨first, last⟩ := connectives_blank connective mem
  have ne := connectives_ne_nil mem
  have left : Parted (fun c => !isBlank c) s (connective ++ t) := by
    right
    rw [List.head?_append_of_ne_nil _ ne]
    obtain ⟨c, k, rfl⟩ := List.exists_cons_of_ne_nil ne
    simpa using first
  have right : Parted (fun c => !isBlank c) connective t := by
    left
    rw [List.getLast?_eq_some_getLast ne] at last ⊢
    simpa using last
  rw [words, runs_append left, runs_append right, ← List.append_assoc]
  rfl

/-- Joined fragments can be joined by a connective. -/
lemma Joined.append (hf : Joined fs vs) (mem : connective ∈ connectives) (hg : Joined gs ws) :
    Joined (fs ++ gs) (vs ++ words connective ++ ws) := by
  induction hf with
  | last fragment => exact .next fragment mem hg
  | @next other fs vs fragment memF _ ih =>
    have h := Joined.next fragment memF ih
    simpa only [List.cons_append, List.append_assoc] using h

/-- Pieces with a connective between them are joined. -/
lemma joined_intercalate (mem : connective ∈ connectives) {pieces : List Text} (ne : pieces ≠ []) :
    Joined pieces (words (connective.intercalate pieces)) := by
  induction pieces with
  | nil => exact absurd rfl ne
  | cons piece pieces ih =>
    by_cases none : pieces = []
    · subst none
      rw [List.intercalate_singleton]
      exact .last piece
    · rw [intercalate_cons piece none, words_append_connective mem]
      exact .next piece mem (ih none)

/-- The pieces of a fragment are joined by the connective at which it is cut. -/
lemma joined_splitOn (mem : connective ∈ connectives) (fragment : Text) :
    Joined (splitOn connective ([' '] ++ fragment ++ [' '])) (words fragment) := by
  have h := joined_intercalate mem
    (splitFrom_ne_nil connective 0 ([' '] ++ fragment ++ [' ']))
  have whole := intercalate_splitOn (connectives_ne_nil mem) ([' '] ++ fragment ++ [' '])
  have same : words ([' '] ++ fragment ++ [' ']) = words fragment := by
    rw [words_append_cons _ _ isBlank_space, List.singleton_append,
      words_cons_blank _ isBlank_space]
    exact List.append_nil _
  rw [splitOn] at whole ⊢
  rwa [whole, same] at h

/-- Cutting the fragments at a connective keeps what they join to. -/
lemma Joined.cutAt (mem : connective ∈ connectives) (h : Joined fs ws) :
    Joined (cutAt fs connective) ws := by
  induction h with
  | last fragment =>
    rw [Sentence.cutAt, List.flatMap_singleton]
    exact joined_splitOn mem fragment
  | @next other fs ws fragment memO _ ih =>
    rw [Sentence.cutAt, List.flatMap_cons]
    exact (joined_splitOn mem fragment).append memO ih

/-- The words of a sentence are those of its fragments with connectives between them. -/
lemma joined_fragments (s : Text) : Joined (fragments s) (words s) :=
  List.foldlRecOn (motive := fun fs => Joined fs (words s)) connectives Sentence.cutAt (.last s)
    fun _ h _ mem => h.cutAt mem

/-- Cuts bring no other characters than spaces. -/
lemma mem_of_mem_foldl_cutAt {ks : List Text} {s fragment : Text} (memK : ∀ k ∈ ks, k ∈ connectives)
    (mem : fragment ∈ ks.foldl Sentence.cutAt [s]) {d : Char} (memD : d ∈ fragment) :
    d ∈ s ∨ d = ' ' := by
  suffices h : ∀ f ∈ ks.foldl Sentence.cutAt [s], ∀ d ∈ f, d ∈ s ∨ d = ' ' from
    h fragment mem d memD
  refine List.foldlRecOn (motive := fun fs => ∀ f ∈ fs, ∀ d ∈ f, d ∈ s ∨ d = ' ') ks
    Sentence.cutAt ?_ fun fs ih k memK' piece mem d memD => ?_
  · intro f mem d memD
    exact .inl (List.mem_singleton.1 mem ▸ memD)
  · obtain ⟨f, memF, mem⟩ := List.mem_flatMap.1 mem
    have inside := mem_of_mem_splitOn (connectives_ne_nil (memK k memK')) mem memD
    simp only [List.mem_append, List.mem_singleton] at inside
    rcases inside with (space | inside) | space
    · exact .inr space
    · exact ih f memF d inside
    · exact .inr space

/-- A fragment has no other characters than the sentence, but for spaces. -/
lemma mem_of_mem_fragments {s fragment : Text} (mem : fragment ∈ fragments s) {d : Char}
    (memD : d ∈ fragment) : d ∈ s ∨ d = ' ' :=
  mem_of_mem_foldl_cutAt (fun _ mem => mem) mem memD

end

/-! ## Clauses -/

/-- Whether a clause is left of a text when the words of a negation are taken from its front, the
longer ones if they are there. -/
inductive Leaves : Text → Text → Prop where
  | denial (clause : Text) :
    Leaves ("não é verdade que ".toList ++ clause) clause
  | negation {clause : Text} :
    ¬ "é verdade que ".toList <+: clause →
    Leaves ("não ".toList ++ clause) clause
  | plain {clause : Text} :
    ¬ "não ".toList <+: clause →
    Leaves clause clause

/-- What is left of a neat text is neat. -/
lemma Leaves.neat {s clause : Text} (h : Leaves s clause) (neat : Neat s) : Neat clause := by
  have behind : ∀ front : Text, front.getLast? = some ' ' → Neat (front ++ clause) →
      Neat clause := by
    intro front space neat
    obtain ⟨front, rfl⟩ := List.getLast?_eq_some_iff.1 space
    rw [List.append_assoc] at neat
    exact neat.behind_space
  cases h with
  | denial => exact behind _ (by decide) neat
  | negation => exact behind _ (by decide) neat
  | plain => exact neat

/-- What is left of a text has no other characters. -/
lemma Leaves.mem {s clause : Text} (h : Leaves s clause) {d : Char} (mem : d ∈ clause) : d ∈ s := by
  cases h with
  | denial => exact List.mem_append_right _ mem
  | negation => exact List.mem_append_right _ mem
  | plain => exact mem

/-- The text without the words of its negation is what they leave. -/
lemma leaves_dropNegation (s : Text) : Leaves s (dropNegation s) := by
  rw [dropNegation]
  split
  · rename_i front
    obtain ⟨t, rfl⟩ := List.isPrefixOf_iff_prefix.1 front
    rw [List.drop_left, dropFront]
    split
    · rename_i more
      obtain ⟨clause, rfl⟩ := List.isPrefixOf_iff_prefix.1 more
      have whole : "não ".toList ++ "é verdade que ".toList = "não é verdade que ".toList := by
        decide
      rw [List.drop_left, ← List.append_assoc, whole]
      exact .denial clause
    · rename_i other
      exact .negation fun front => other (List.isPrefixOf_iff_prefix.2 front)
  · rename_i other
    exact .plain fun front => other (List.isPrefixOf_iff_prefix.2 front)

/-- The clause of a fragment is what is left of it when it has been tidied. -/
lemma clauseOf_eq (fragment : Text) : clauseOf fragment = dropNegation (tidy fragment) :=
  ((leaves_dropNegation _).neat (neat_tidy fragment)).trim_eq

/-- A clause has no blanks at its ends and single spaces between its words. -/
lemma neat_clauseOf (fragment : Text) : Neat (clauseOf fragment) := by
  rw [clauseOf_eq]
  exact (leaves_dropNegation _).neat (neat_tidy fragment)

/-- A clause is a fragment without its negation, of which something is left. -/
lemma exists_fragment_of_mem_clauses {s clause : Text} (mem : clause ∈ clauses s) :
    clause ≠ [] ∧ ∃ fragment ∈ fragments (normal s), clauseOf fragment = clause := by
  rw [clauses, List.mem_eraseDups, List.mem_filter, List.mem_map] at mem
  obtain ⟨found, some⟩ := mem
  refine ⟨?_, found⟩
  rintro rfl
  cases some

/-- A clause has no other characters than the sentence, but for spaces. -/
lemma mem_of_mem_clauses {s clause : Text} (mem : clause ∈ clauses s) {d : Char}
    (memD : d ∈ clause) : d ∈ normal s ∨ d = ' ' := by
  obtain ⟨-, fragment, memF, rfl⟩ := exists_fragment_of_mem_clauses mem
  rw [clauseOf_eq] at memD
  rcases mem_tidy ((leaves_dropNegation _).mem memD) with memD | space
  · exact mem_of_mem_fragments memF memD
  · exact .inr space

/-- The words of a sentence in normal form are those of its fragments with connectives between them,
and its clauses are what is left of the tidied fragments, without the empty ones and the
repetitions. So no clause is empty, has blanks at its ends or stands twice. -/
theorem clauses_eq_of_joined (s : Text) :
    ∃ found : List Text,
      Joined (fragments (normal s)) (words (normal s)) ∧
      List.Forall₂ (fun fragment clause => Leaves (tidy fragment) clause)
        (fragments (normal s)) found ∧
      clauses s = (found.filter fun clause => !clause.isEmpty).eraseDups ∧
      (∀ clause ∈ clauses s, clause ≠ [] ∧ trim clause = clause) ∧
      (clauses s).Nodup := by
  refine ⟨(fragments (normal s)).map clauseOf, joined_fragments _, ?_, rfl, fun clause mem => ?_,
    nodup_eraseDups _⟩
  · rw [List.forall₂_map_right_iff, List.forall₂_same]
    intro fragment _
    rw [clauseOf_eq]
    exact leaves_dropNegation _
  · obtain ⟨ne, fragment, -, rfl⟩ := exists_fragment_of_mem_clauses mem
    exact ⟨ne, (neat_clauseOf fragment).trim_eq⟩

end Sentence

end Sentential
