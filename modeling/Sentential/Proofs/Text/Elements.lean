import Mathlib.Data.List.DropRight
import Mathlib.Data.List.SplitBy
import Mathlib.Tactic.Lemma
import Sentential.Proofs.Text.Rewrite

/-!
# Texts element by element

The elements of a text are its words and the single characters between them. One text is edited into
another if some of its elements are taken out and others are put in (`Edited`). As long as no words
are put in, the words then only lose some (`Edited.filter`, `wordRuns_eq_filter`). A rewriting edits
what it edits at each place, if no word reaches across the ends of what it takes
(`Pattern.TakesWords.edited`).
-/

namespace Sentential.Text

/-- The words of a text and the single characters between them. -/
def elements (s : Text) : List Text :=
  s.splitBy fun c d => isWordChar c && isWordChar d

section
variable {c : Char} {r s t : Text}

/-- The empty text has no elements. -/
lemma elements_nil : elements [] = [] := rfl

/-- Where no word reaches across, the elements of two texts are put together. -/
lemma elements_append (parted : Parted isWordChar s t) :
    elements (s ++ t) = elements s ++ elements t := by
  refine List.splitBy_append fun c last d first => ?_
  rw [Parted, Option.mem_def.1 last, Option.mem_def.1 first] at parted
  rw [Bool.and_eq_false_iff]
  exact parted

/-- A word is one element. -/
lemma IsWord.elements (word : IsWord r) : elements r = [r] := by
  refine List.splitBy_of_isChain word.1 (List.Pairwise.isChain ?_)
  refine List.pairwise_of_forall_mem_list fun c mem d mem' => ?_
  rw [word.2 c mem, word.2 d mem']
  rfl

/-- A character that is in no word is an element of its own. -/
lemma elements_cons (s : Text) (other : isWordChar c = false) :
    elements (c :: s) = [c] :: elements s := by
  have parted : Parted isWordChar [c] s := .inl other
  exact elements_append parted

/-- Whether a text keeps those around it apart, as it neither begins nor ends with a word. -/
def Separates (w : Text) : Prop :=
  w ≠ [] ∧ w.head?.any isWordChar = false ∧ w.getLast?.any isWordChar = false

instance : DecidablePred Separates := fun w => inferInstanceAs
  (Decidable (w ≠ [] ∧ w.head?.any isWordChar = false ∧ w.getLast?.any isWordChar = false))

/-- What separates words has elements of its own. -/
lemma Separates.elements_append {w : Text} (separates : Separates w) (t : Text) :
    elements (w ++ t) = elements w ++ elements t :=
  Text.elements_append (.inl separates.2.2)

/-- Behind a text, what separates words has elements of its own too. -/
lemma Separates.elements {w : Text} (separates : Separates w) (s t : Text) :
    elements (s ++ (w ++ t)) = elements s ++ (elements w ++ elements t) := by
  have left : Parted isWordChar s (w ++ t) := by
    rw [Parted, List.head?_append_of_ne_nil w separates.1]
    exact .inr separates.2.1
  rw [Text.elements_append left, separates.elements_append]

/-- What stands between two such texts does not matter. -/
lemma Separates.around {a c : Text} (first : Separates a) (last : Separates c) (s : Text) :
    Separates (a ++ (s ++ c)) := by
  refine ⟨by simp [first.1], ?_, ?_⟩
  · rw [List.head?_append_of_ne_nil a first.1]
    exact first.2.1
  · have ne : s ++ c ≠ [] := by simp [last.1]
    rw [List.getLast?_append_of_ne_nil _ ne, List.getLast?_append_of_ne_nil _ last.1]
    exact last.2.2

/-- The elements of a text of blanks are its characters. -/
lemma elements_of_blank (blank : ∀ c ∈ s, isBlank c = true) :
    ∀ e ∈ elements s, ∃ c, e = [c] ∧ isBlank c = true := by
  induction s with
  | nil => exact fun e mem => absurd mem List.not_mem_nil
  | cons c s ih =>
    obtain ⟨here, rest⟩ := List.forall_mem_cons.1 blank
    rw [elements_cons s (isWordChar_of_isBlank here), List.forall_mem_cons]
    exact ⟨⟨c, rfl, here⟩, ih rest⟩

/-- The word at the end of a text and what stands before it. -/
lemma last_word (last : s.getLast?.any isWordChar = true) :
    ∃ u r, s = u ++ r ∧ IsWord r ∧ u.getLast?.any isWordChar = false := by
  refine ⟨s.rdropWhile isWordChar, s.rtakeWhile isWordChar,
    List.rdropWhile_append_rtakeWhile.symm, ⟨?_, fun c mem => List.mem_rtakeWhile_imp mem⟩, ?_⟩
  · intro none
    have ne : s ≠ [] := by
      rintro rfl
      cases last
    rw [List.getLast?_eq_some_getLast ne] at last
    exact List.rtakeWhile_eq_nil_iff.1 none ne last
  · by_cases ne : s.rdropWhile isWordChar = []
    · rw [ne]
      rfl
    · rw [List.getLast?_eq_some_getLast ne]
      simpa using List.rdropWhile_last_not isWordChar s ne

/-- The words of a text are those of its elements that begin with a word character. -/
lemma wordRuns_eq_filter (s : Text) :
    wordRuns s = (elements s).filter fun e => e.head?.any isWordChar := by
  induction s using wordInduction with
  | nil => rfl
  | other c s other ih =>
    rw [wordRuns_cons s other, elements_cons s other, ih, List.filter_cons_of_neg]
    simpa using other
  | word r s word stop ih =>
    rw [wordRuns_append (.inr stop), elements_append (.inr stop), word.wordRuns, word.elements, ih,
      List.filter_append, List.filter_cons, if_pos word.isPhrase.1]
    rfl

end

/-! ## Edits -/

/-- Whether a list is edited into another, of which some elements have been put in and from which
some have been taken out. -/
inductive Edited (gone new : Text → Prop) : List Text → List Text → Prop where
  | nil : Edited gone new [] []
  | keep {e es es'} : Edited gone new es es' → Edited gone new (e :: es) (e :: es')
  | take {e es es'} : gone e → Edited gone new es es' → Edited gone new (e :: es) es'
  | put {e es es'} : new e → Edited gone new es es' → Edited gone new es (e :: es')

namespace Edited

section
variable {gone new : Text → Prop} {e : Text} {es es' fs fs' : List Text}

/-- A list can be left as it is. -/
lemma refl : ∀ es, Edited gone new es es
  | [] => .nil
  | _ :: es => .keep (refl es)

/-- What can be taken out can be so where more can. -/
lemma mono {gone' : Text → Prop} (weaker : ∀ e, gone e → gone' e)
    (edited : Edited gone new es es') : Edited gone' new es es' := by
  induction edited with
  | nil => exact .nil
  | keep _ ih => exact .keep ih
  | take out _ ih => exact .take (weaker _ out) ih
  | put added _ ih => exact .put added ih

/-- Two edited lists are edited together. -/
lemma append (edited : Edited gone new es es') (edited' : Edited gone new fs fs') :
    Edited gone new (es ++ fs) (es' ++ fs') := by
  induction edited with
  | nil => exact edited'
  | keep _ ih => exact .keep ih
  | take out _ ih => exact .take out ih
  | put added _ ih => exact .put added ih

/-- Elements can be put in at the front. -/
lemma puts (added : ∀ e ∈ fs, new e) (edited : Edited gone new es es') :
    Edited gone new es (fs ++ es') := by
  induction fs with
  | nil => exact edited
  | cons e fs ih =>
    obtain ⟨here, rest⟩ := List.forall_mem_cons.1 added
    exact .put here (ih rest)

/-- Elements can be taken out at the front. -/
lemma takes (out : ∀ e ∈ fs, gone e) (edited : Edited gone new es es') :
    Edited gone new (fs ++ es) es' := by
  induction fs with
  | nil => exact edited
  | cons e fs ih =>
    obtain ⟨here, rest⟩ := List.forall_mem_cons.1 out
    exact .take here (ih rest)

/-- Elements are replaced by others. -/
lemma replaces (out : ∀ e ∈ es, gone e) (added : ∀ e ∈ es', new e) : Edited gone new es es' := by
  have edited : Edited gone new (es ++ []) (es' ++ []) := takes out (puts added .nil)
  rwa [List.append_nil, List.append_nil] at edited

/-- Elements can be taken out at the end. -/
lemma takes_behind (out : ∀ e ∈ fs, gone e) (edited : Edited gone new es es') :
    Edited gone new (es ++ fs) es' := by
  have both : Edited gone new (es ++ fs) (es' ++ []) := edited.append (replaces out nofun)
  rwa [List.append_nil] at both

/-- Elements can be put in at the end. -/
lemma puts_behind (added : ∀ e ∈ fs, new e) (edited : Edited gone new es es') :
    Edited gone new es (es' ++ fs) := by
  have both : Edited gone new (es ++ []) (es' ++ fs) := edited.append (replaces nofun added)
  rwa [List.append_nil] at both

/-- What becomes of the first element. -/
lemma cons_inv (edited : Edited gone new (e :: es) es') :
    ∃ added more, es' = added ++ more ∧ (∀ d ∈ added, new d) ∧
      (gone e ∧ Edited gone new es more ∨ ∃ rest, more = e :: rest ∧ Edited gone new es rest) := by
  generalize h : e :: es = ds at edited
  induction edited with
  | nil => cases h
  | keep edited =>
    cases h
    exact ⟨[], _, rfl, nofun, .inr ⟨_, rfl, edited⟩⟩
  | take out edited =>
    cases h
    exact ⟨[], _, rfl, nofun, .inl ⟨out, edited⟩⟩
  | @put d _ _ here _ ih =>
    obtain ⟨added, more, rfl, all, rest⟩ := ih h
    exact ⟨d :: added, more, rfl, List.forall_mem_cons.2 ⟨here, all⟩, rest⟩

/-- A list can be edited again. -/
lemma trans {ds : List Text} (edited : Edited gone new es ds) (edited' : Edited gone new ds fs) :
    Edited gone new es fs := by
  induction edited generalizing fs with
  | nil => exact edited'
  | take out _ ih => exact .take out (ih edited')
  | keep _ ih =>
    obtain ⟨added, more, rfl, all, ⟨out, rest⟩ | ⟨more, rfl, rest⟩⟩ := edited'.cons_inv
    · exact puts all (.take out (ih rest))
    · exact puts all (.keep (ih rest))
  | put here _ ih =>
    -- what has been put in may be taken out again
    obtain ⟨added, more, rfl, all, ⟨-, rest⟩ | ⟨more, rfl, rest⟩⟩ := edited'.cons_inv
    · exact puts all (ih rest)
    · exact puts all (.put here (ih rest))

/-- An element that is not put in has been there. -/
lemma kept_inv {us vs : List Text} (edited : Edited gone new es (us ++ e :: vs)) (old : ¬ new e) :
    ∃ us' vs', es = us' ++ e :: vs' ∧ Edited gone new us' us ∧ Edited gone new vs' vs := by
  generalize h : us ++ e :: vs = ds at edited
  induction edited generalizing us with
  | nil => simp at h
  | @keep d es ds edited ih =>
    cases us with
    | nil =>
      obtain ⟨rfl, rfl⟩ := List.cons.inj h
      exact ⟨[], es, rfl, .nil, edited⟩
    | cons u us =>
      obtain ⟨rfl, h'⟩ := List.cons.inj h
      obtain ⟨us', vs', rfl, front, back⟩ := ih h'
      exact ⟨u :: us', vs', rfl, .keep front, back⟩
  | @take d es ds out _ ih =>
    obtain ⟨us', vs', rfl, front, back⟩ := ih h
    exact ⟨d :: us', vs', rfl, .take out front, back⟩
  | @put d es ds added _ ih =>
    cases us with
    | nil => exact absurd ((List.cons.inj h).1 ▸ added) old
    | cons u us =>
      obtain ⟨rfl, h'⟩ := List.cons.inj h
      obtain ⟨us', vs', rfl, front, back⟩ := ih h'
      exact ⟨us', vs', rfl, .put added front, back⟩

/-- If only other elements are put in, those with a property lose some and keep their order. -/
lemma filter {p : Text → Bool} (other : ∀ e, new e → p e = false)
    (edited : Edited gone new es es') :
    Edited (fun e => gone e ∧ p e = true) (fun _ => False) (es.filter p) (es'.filter p) := by
  induction edited with
  | nil => exact .nil
  | @keep e _ _ _ ih =>
    rw [List.filter_cons, List.filter_cons]
    split
    · exact .keep ih
    · exact ih
  | @take e _ _ out _ ih =>
    rw [List.filter_cons]
    split
    · rename_i stays
      exact .take ⟨out, stays⟩ ih
    · exact ih
  | @put e _ _ added _ ih =>
    rwa [List.filter_cons_of_neg (by simp [other e added])]

end

end Edited

/-! ## Rewriting between words -/

namespace Pattern

section
variable {p : Pattern} {before : Option Char} {s : Text}

/-- A pattern takes nothing in a text, or something behind a first stretch. -/
lemma rewriteFrom_cases (p : Pattern) (before : Option Char) (s : Text) :
    rewriteFrom p 0 before s = s ∨ ∃ u t hit, s = u ++ t ∧ p (behind before u) t = some hit ∧
      rewriteFrom p 0 before s = u ++ rewriteFrom p 0 (behind before u) t := by
  induction s generalizing before with
  | nil => exact .inl rfl
  | cons c s ih =>
    cases found : p before (c :: s) with
    | some hit => exact .inr ⟨[], c :: s, hit, rfl, found, rfl⟩
    | none =>
      rw [rewriteFrom_miss found]
      rcases ih (some c) with same | ⟨u, t, hit, rfl, found', out⟩
      · exact .inl (congrArg _ same)
      · refine .inr ⟨c :: u, t, hit, rfl, ?_, ?_⟩
        · rwa [behind_cons]
        · rw [out, behind_cons]
          rfl

/-- Whether a pattern takes only stretches across whose ends no word reaches, and how the text that
it writes for one is related with it. -/
def TakesWords (p : Pattern) (writes : Text → Text → Prop) : Prop :=
  ∀ before s hit, p before s = some hit → ∃ x v, s = x ++ v ∧ x.length = hit.more + 1 ∧
    (before.any isWordChar = true → x.head?.any isWordChar = false) ∧ Parted isWordChar x v ∧
    writes x hit.text

/-- How what is written is related can be told in a weaker way. -/
lemma TakesWords.mono {writes writes' : Text → Text → Prop} (takes : p.TakesWords writes)
    (weaker : ∀ x w, writes x w → writes' x w) : p.TakesWords writes' := by
  intro before s hit found
  obtain ⟨x, v, e, length, start, stop, related⟩ := takes _ _ _ found
  exact ⟨x, v, e, length, start, stop, weaker _ _ related⟩

/-- Where something is taken, the text is written that is related with it. -/
lemma TakesWords.rewriteFrom_hit {writes : Text → Text → Prop} (takes : p.TakesWords writes)
    {hit : Hit} (found : p before s = some hit) :
    ∃ x v w before', s = x ++ v ∧ x ≠ [] ∧
      (before.any isWordChar = true → x.head?.any isWordChar = false) ∧ Parted isWordChar x v ∧
      writes x w ∧ rewriteFrom p 0 before s = w ++ rewriteFrom p 0 before' v := by
  obtain ⟨x, v, rfl, length, start, stop, related⟩ := takes _ _ _ found
  have ne : x ≠ [] := by
    rintro rfl
    cases length
  have more : hit = ⟨x.length - 1, hit.text⟩ := by rw [length]; rfl
  refine ⟨x, v, hit.text, behind before x, rfl, ne, start, stop, related, ?_⟩
  exact Pattern.rewriteFrom_hit ne (more ▸ found)

end

/-- A phrase is taken between words. -/
lemma takesWords_whole {q new : Text} (phrase : IsPhrase q) :
    (whole q new).TakesWords fun x w => x = q ∧ w = new := by
  intro before s hit found
  obtain ⟨v, rfl, start, stop, rfl⟩ := whole_eq_some found
  have pos := List.length_pos_of_ne_nil phrase.ne_nil
  refine ⟨q, v, rfl, ?_, fun word => ?_, ?_, rfl, rfl⟩
  · exact (Nat.sub_add_cancel pos).symm
  · rw [List.head?_append_of_ne_nil _ phrase.ne_nil] at start
    simpa [boundary, word] using start
  · rw [boundary, phrase.2] at stop
    exact .inr (by simpa using stop)

section
variable {p : Pattern} {before : Option Char} {gone new : Text → Prop}

/-- A rewriting edits what it edits at each place. -/
lemma TakesWords.edited
    (takes : p.TakesWords fun x w => Separates w ∧ Edited gone new (elements x) (elements w))
    (s : Text) : Edited gone new (elements s) (elements (rewriteFrom p 0 before s)) := by
  -- the text behind what is taken is shorter, so the induction is on the length
  induction hn : s.length using Nat.strongRecOn generalizing before s with
  | ind n ih =>
    rcases rewriteFrom_cases p before s with same | ⟨u, t, hit, rfl, found, out⟩
    · rw [same]
      exact .refl _
    · obtain ⟨x, v, w, before', rfl, ne, start, stop, ⟨separates, edited⟩, out'⟩ :=
        takes.rewriteFrom_hit found
      have pos := List.length_pos_of_ne_nil ne
      have rest : Edited gone new (Text.elements v) (Text.elements (rewriteFrom p 0 before' v)) :=
        ih v.length (by simp at hn; omega) v rfl
      have left : Parted isWordChar u (x ++ v) := by
        rw [Parted, List.head?_append_of_ne_nil x ne]
        rcases u.eq_nil_or_concat' with rfl | ⟨u, d, rfl⟩
        · exact .inl rfl
        · rw [behind_concat] at start
          rw [List.getLast?_concat]
          by_cases word : isWordChar d = true
          · exact .inr (start word)
          · exact .inl (by simpa using word)
      rw [out, out', separates.elements, elements_append left, elements_append stop]
      exact (Edited.refl _).append (edited.append rest)

end

end Pattern

end Sentential.Text
