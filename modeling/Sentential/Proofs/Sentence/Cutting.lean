import Mathlib.Data.List.Basic
import Mathlib.Data.List.Forall2
import Mathlib.Data.List.Infix
import Mathlib.Tactic.Lemma
import Sentential.Proofs.Sentence.Clauses

/-!
# A connective that never cuts

A text is cut where the separator is found first, and the rest is cut on its own
(`splitOn_induction`). So a piece with one more space behind it has no other ends of words than the
text, and does not have the separator (`infix_of_mem_splitOn`). When a sentence has been cut at
` se ` and then at ` então `, no fragment has ` somente se ` any more (`not_infix_somenteSe`), and
what is left to that connective is to set the fragments between spaces. Cutting wider fragments
gives wider ones (`Wider.splitOn`), and their clauses are the same (`clausesBy_erase_somenteSe`).
-/

namespace Sentential

namespace Text

/-! ## The first place of a separator -/

section
variable {separator : Text}

/-- Splitting behind some characters is splitting what is left. -/
lemma splitFrom_eq (skip : Nat) (s : Text) :
    splitFrom separator skip s = splitOn separator (s.drop skip) := by
  induction s generalizing skip with
  | nil =>
    rw [List.drop_nil]
    cases skip <;> rfl
  | cons c s ih =>
    cases skip with
    | zero => rfl
    | succ skip => exact ih skip

/-- A text without the separator is one piece. -/
lemma splitOn_of_absent {s : Text} (absent : ¬ separator <:+: s) :
    splitOn separator s = [s] := by
  induction s with
  | nil => rfl
  | cons c s ih =>
    rw [List.infix_cons_iff, not_or] at absent
    have rest : splitFrom separator 0 s = [s] := ih absent.2
    rw [splitOn, splitFrom, if_neg fun found => absent.1 (List.isPrefixOf_iff_prefix.1 found), rest]
    rfl

/-- A text is cut where the separator is found first. -/
lemma splitOn_append (ne : separator ≠ []) {piece : Text}
    (first : ¬ separator <:+: piece ++ separator.dropLast) (rest : Text) :
    splitOn separator (piece ++ (separator ++ rest)) = piece :: splitOn separator rest := by
  induction piece with
  | nil =>
    obtain ⟨d, more, rfl⟩ := List.exists_cons_of_ne_nil ne
    have found : (d :: more).isPrefixOf (d :: (more ++ rest)) = true :=
      List.isPrefixOf_iff_prefix.2 (List.prefix_append (d :: more) rest)
    rw [List.nil_append, List.cons_append, splitOn, splitFrom, if_pos found, splitFrom_eq,
      List.length_cons, Nat.add_sub_cancel, List.drop_left]
  | cons c piece ih =>
    have front : ¬ separator <+: c :: (piece ++ (separator ++ rest)) := by
      intro found
      have before : c :: piece ++ separator.dropLast <+: c :: (piece ++ (separator ++ rest)) :=
        (List.prefix_append_right_inj (c :: piece)).2
          ((List.dropLast_prefix separator).trans (List.prefix_append separator rest))
      have short : separator.length ≤ (c :: piece ++ separator.dropLast).length := by
        rw [List.length_append, List.length_cons, List.length_dropLast]
        omega
      exact first (List.prefix_of_prefix_length_le found before short).isInfix
    rw [List.cons_append, List.infix_cons_iff, not_or] at first
    have more : splitFrom separator 0 (piece ++ (separator ++ rest))
        = piece :: splitOn separator rest := ih first.2
    rw [List.cons_append, splitOn, splitFrom,
      if_neg fun found => front (List.isPrefixOf_iff_prefix.1 found), more]
    rfl

/-- A text that has the separator has it somewhere first. -/
lemma exists_first_place (ne : separator ≠ []) {s : Text} (found : separator <:+: s) :
    ∃ piece rest, s = piece ++ (separator ++ rest) ∧
      ¬ separator <:+: piece ++ separator.dropLast := by
  have shorter : ¬ separator <:+: separator.dropLast := by
    intro inside
    have le := inside.length_le
    have pos := List.length_pos_of_ne_nil ne
    rw [List.length_dropLast] at le
    omega
  induction s with
  | nil => exact absurd (List.infix_nil.1 found) ne
  | cons c s ih =>
    by_cases front : separator <+: c :: s
    · obtain ⟨rest, e⟩ := front
      exact ⟨[], rest, e.symm, shorter⟩
    · obtain ⟨piece, rest, rfl, first⟩ := ih ((List.infix_cons_iff.1 found).resolve_left front)
      refine ⟨c :: piece, rest, rfl, fun inside => ?_⟩
      rcases List.infix_cons_iff.1 inside with start | inside
      · apply front
        refine start.trans ((List.prefix_append_right_inj (c :: piece)).2 ?_)
        exact (List.dropLast_prefix separator).trans (List.prefix_append separator rest)
      · exact first inside

/-- Induction over the pieces of a text. -/
lemma splitOn_induction {motive : Text → List Text → Prop} (ne : separator ≠ [])
    (whole : ∀ s, ¬ separator <:+: s → motive s [s])
    (cut : ∀ piece rest pieces, ¬ separator <:+: piece ++ separator.dropLast →
      motive rest pieces → motive (piece ++ (separator ++ rest)) (piece :: pieces)) (s : Text) :
    motive s (splitOn separator s) := by
  induction hn : s.length using Nat.strongRecOn generalizing s with
  | ind n ih =>
    by_cases found : separator <:+: s
    · obtain ⟨piece, rest, rfl, first⟩ := exists_first_place ne found
      rw [splitOn_append ne first]
      refine cut piece rest _ first (ih rest.length ?_ rest rfl)
      have pos := List.length_pos_of_ne_nil ne
      simp only [List.length_append] at hn
      omega
    · rw [splitOn_of_absent found]
      exact whole s found

/-- A piece stands before the separator, which is not found sooner, or at the end of the text. -/
lemma mem_splitOn_cases (ne : separator ≠ []) {s piece : Text} (mem : piece ∈ splitOn separator s) :
    (piece ++ separator <:+: s ∧ ¬ separator <:+: piece ++ separator.dropLast) ∨
      (piece <:+ s ∧ ¬ separator <:+: piece) := by
  revert piece
  refine splitOn_induction (motive := fun s pieces => ∀ {piece : Text}, piece ∈ pieces →
    (piece ++ separator <:+: s ∧ ¬ separator <:+: piece ++ separator.dropLast) ∨
      (piece <:+ s ∧ ¬ separator <:+: piece)) ne ?_ ?_ s
  · intro s absent piece mem
    cases List.mem_singleton.1 mem
    exact .inr ⟨List.suffix_refl s, absent⟩
  · intro first rest pieces early ih piece mem
    rcases List.mem_cons.1 mem with rfl | mem
    · refine .inl ⟨⟨[], rest, ?_⟩, early⟩
      rw [List.nil_append, List.append_assoc]
    · have behind : rest <:+ first ++ (separator ++ rest) :=
        (List.suffix_append separator rest).trans (List.suffix_append first (separator ++ rest))
      exact (ih mem).imp (And.imp_left fun inside => inside.trans behind.isInfix)
        (And.imp_left fun inside => inside.trans behind)

end

end Text

namespace Sentence

open Text

/-! ## Cuts between spaces -/

/-- A connective is a phrase between two spaces. -/
lemma connectives_eq : ∀ k ∈ connectives, ∃ w, k = ' ' :: (w ++ [' ']) ∧ w ≠ [] ∧
    w.head? ≠ some ' ' ∧ w.getLast? ≠ some ' ' := by
  have table : ∀ k ∈ connectives, k = ' ' :: (k.tail.dropLast ++ [' ']) ∧ k.tail.dropLast ≠ [] ∧
      k.tail.dropLast.head? ≠ some ' ' ∧ k.tail.dropLast.getLast? ≠ some ' ' := by
    decide
  exact fun k mem => ⟨k.tail.dropLast, table k mem⟩

section
variable {k f piece w : Text}

/-- A text that ends in a space and has a phrase before one more space has it before a space. -/
lemma infix_of_infix_concat {s : Text} (ne : w ≠ []) (solid : w.getLast? ≠ some ' ')
    (last : s = [] ∨ s.getLast? = some ' ') (found : w ++ [' '] <:+: s ++ [' ']) :
    w ++ [' '] <:+: s := by
  rcases List.infix_concat_iff.1 found with back | inside
  · obtain ⟨u, e⟩ := back
    rw [← List.append_assoc] at e
    obtain ⟨rfl, -⟩ := List.append_inj' e rfl
    rw [List.getLast?_append_of_ne_nil u ne] at last
    rcases last with none | last
    · exact absurd (List.append_eq_nil_iff.1 none).2 ne
    · exact absurd last solid
  · exact inside

/-- The end of a word in a fragment was one before the cut, and was none of the connective. -/
lemma infix_of_mem_splitOn (memK : k ∈ connectives)
    (mem : piece ∈ splitOn k ([' '] ++ f ++ [' '])) (ne : w ≠ []) (solid : w.getLast? ≠ some ' ')
    (found : w ++ [' '] <:+: piece ++ [' ']) :
    w ++ [' '] <:+: [' '] ++ f ++ [' '] ∧ w ++ [' '] ≠ k := by
  obtain ⟨v, rfl, -, -, -⟩ := connectives_eq k memK
  rcases mem_splitOn_cases (List.cons_ne_nil _ _) mem with ⟨inside, first⟩ | ⟨behind, absent⟩
  · have front : piece ++ [' '] <+: piece ++ (' ' :: (v ++ [' '])).dropLast := by
      rw [← List.cons_append, List.dropLast_concat]
      exact (List.prefix_append_right_inj piece).2 ⟨v, rfl⟩
    have whole : piece ++ [' '] <+: piece ++ ' ' :: (v ++ [' ']) :=
      (List.prefix_append_right_inj piece).2 ⟨v ++ [' '], rfl⟩
    refine ⟨(found.trans whole.isInfix).trans inside, fun e => first ?_⟩
    rw [← e] at front ⊢
    exact found.trans front.isInfix
  · have last : piece = [] ∨ piece.getLast? = some ' ' := by
      obtain ⟨u, e⟩ := behind
      rcases piece.eq_nil_or_concat' with rfl | ⟨piece, c, rfl⟩
      · exact .inl rfl
      · right
        have same := congrArg List.getLast? e
        rw [← List.append_assoc, List.getLast?_concat, List.getLast?_concat] at same
        rw [List.getLast?_concat, same]
    have inside := infix_of_infix_concat ne solid last found
    exact ⟨inside.trans behind.isInfix, fun e => absent (e ▸ inside)⟩

/-! ## The connective that is cut before its turn -/

/-- The connective that is tried behind ` se `, which it has in it. -/
def somenteSe : Text := " somente se ".toList

/-- The fragments of a text on which that connective is tried. -/
def fragmentsBefore (s : Text) : List Text :=
  (connectives.take 3).foldl cutAt [s]

/-- No fragment has the connective any more when its turn comes. -/
lemma not_infix_somenteSe {s : Text} (mem : f ∈ fragmentsBefore s) :
    ¬ somenteSe <:+: [' '] ++ f ++ [' '] := by
  intro found
  -- the word before ` se ` ends in a letter, so it is met behind the space that is set in front
  have inner : ∀ t : Text, "e se".toList ++ [' '] <:+: [' '] ++ t ++ [' '] →
      "e se".toList ++ [' '] <:+: t ++ [' '] := by
    intro t inside
    rw [List.append_assoc, List.singleton_append, List.infix_cons_iff] at inside
    refine inside.resolve_left fun ⟨u, e⟩ => ?_
    cases (List.cons.inj e).1
  obtain ⟨p, memP, mem⟩ := List.mem_flatMap.1 mem
  obtain ⟨o, -, memP⟩ := List.mem_flatMap.1 memP
  have ends : "e se".toList ++ [' '] <:+: somenteSe := ⟨" soment".toList, [], rfl⟩
  have first := infix_of_mem_splitOn (w := "e se".toList) (by decide) mem (by decide) (by decide)
    (inner f (ends.trans found))
  have se : " se".toList ++ [' '] <:+: "e se".toList ++ [' '] := ⟨['e'], [], rfl⟩
  have second := infix_of_mem_splitOn (w := " se".toList) (by decide) memP (by decide) (by decide)
    (se.trans (inner p first.1))
  exact second.2 rfl

end

/-! ## Wider fragments -/

/-- Whether a text is another one with more spaces at its ends. -/
inductive Wider : Text → Text → Prop where
  | refl (s : Text) :
    Wider s s
  | front {s t} :
    Wider s t →
    Wider s (' ' :: t)
  | back {s t} :
    Wider s t →
    Wider s (t ++ [' '])

section
variable {k s t : Text} {fs gs : List Text}

/-- Spaces can be added to the ends of a wider text. -/
lemma Wider.trans {u : Text} (h : Wider s t) (h' : Wider t u) : Wider s u := by
  induction h' with
  | refl => exact h
  | front _ ih => exact .front ih
  | back _ ih => exact .back ih

/-- Spaces at the ends of a text change no words. -/
lemma Wider.words_eq (h : Wider s t) : words t = words s := by
  induction h with
  | refl => rfl
  | @front t _ ih => rw [words_cons_blank t isBlank_space, ih]
  | @back t _ ih =>
    rw [words_append_cons t [] isBlank_space, ih]
    exact List.append_nil _

/-- Spaces at the ends of a fragment do not change its clause. -/
lemma Wider.clauseOf_eq (h : Wider s t) : clauseOf t = clauseOf s := by
  rw [clauseOf, clauseOf, tidy, h.words_eq, tidy]

/-- Wider fragments have the same clauses. -/
lemma map_clauseOf_of_wider (h : List.Forall₂ Wider fs gs) : fs.map clauseOf = gs.map clauseOf := by
  induction h with
  | nil => rfl
  | cons first _ ih => rw [List.map_cons, List.map_cons, first.clauseOf_eq, ih]

/-- Spaces can be added to the ends of wider fragments. -/
lemma wider_trans {hs : List Text} (h : List.Forall₂ Wider fs gs) (h' : List.Forall₂ Wider gs hs) :
    List.Forall₂ Wider fs hs := by
  induction h generalizing hs with
  | nil => exact h'
  | cons first _ ih =>
    cases h' with
    | cons first' rest' => exact .cons (first.trans first') (ih rest')

/-- A space more in front only widens the first piece. -/
lemma splitOn_cons_space (memK : k ∈ connectives) (t : Text) :
    splitOn k (' ' :: ' ' :: t) = consFirst ' ' (splitOn k (' ' :: t)) := by
  obtain ⟨w, rfl, ne, head, -⟩ := connectives_eq k memK
  obtain ⟨c, w, rfl⟩ := List.exists_cons_of_ne_nil ne
  have other : ¬ (' ' :: (c :: w ++ [' '])).isPrefixOf (' ' :: ' ' :: t) = true := by
    intro found
    obtain ⟨u, e⟩ := List.isPrefixOf_iff_prefix.1 found
    exact head (congrArg some (List.cons.inj (List.cons.inj e).2).1)
  rw [splitOn, splitFrom, if_neg other]
  rfl

/-- A space more behind only widens the last piece. -/
lemma wider_splitOn_concat (memK : k ∈ connectives) (s : Text)
    (last : s = [] ∨ s.getLast? = some ' ') :
    List.Forall₂ Wider (splitOn k s) (splitOn k (s ++ [' '])) := by
  obtain ⟨w, rfl, ne, -, solid⟩ := connectives_eq k memK
  have ne' : ' ' :: (w ++ [' ']) ≠ [] := List.cons_ne_nil _ _
  revert last
  refine splitOn_induction (motive := fun s pieces => s = [] ∨ s.getLast? = some ' ' →
    List.Forall₂ Wider pieces (splitOn (' ' :: (w ++ [' '])) (s ++ [' ']))) ne' ?_ ?_ s
  · intro s absent last
    have absent' : ¬ ' ' :: (w ++ [' ']) <:+: s ++ [' '] := by
      intro found
      apply absent
      have solid' : (' ' :: w).getLast? ≠ some ' ' := by
        rwa [← List.singleton_append, List.getLast?_append_of_ne_nil _ ne]
      exact infix_of_infix_concat (List.cons_ne_nil ' ' w) solid' last found
    rw [splitOn_of_absent absent']
    exact .cons (.back (.refl s)) .nil
  · intro piece rest pieces first ih last
    rw [List.append_assoc, List.append_assoc, splitOn_append ne' first]
    refine .cons (.refl piece) (ih ?_)
    rcases rest.eq_nil_or_concat' with rfl | ⟨rest, c, rfl⟩
    · exact .inl rfl
    · right
      rcases last with none | last
      · simp at none
      · rwa [← List.append_assoc,
          List.getLast?_append_of_ne_nil _ (List.concat_ne_nil c rest)] at last

/-- A space in front of the first fragment makes it wider. -/
lemma wider_consFirst (ne : fs ≠ []) (h : List.Forall₂ Wider fs gs) :
    List.Forall₂ Wider fs (consFirst ' ' gs) := by
  cases h with
  | nil => exact absurd rfl ne
  | cons first rest => exact .cons (.front first) rest

/-- A wider fragment is cut into wider ones. -/
lemma Wider.splitOn (memK : k ∈ connectives) (h : Wider s t) :
    List.Forall₂ Wider (splitOn k ([' '] ++ s ++ [' '])) (splitOn k ([' '] ++ t ++ [' '])) := by
  induction h with
  | refl => exact List.forall₂_same.2 fun piece _ => .refl piece
  | @front t _ ih =>
    have more := splitOn_cons_space memK (t ++ [' '])
    exact more ▸ wider_consFirst (splitFrom_ne_nil k 0 _) ih
  | @back t _ ih =>
    have last : ([' '] ++ t ++ [' ']).getLast? = some ' ' := List.getLast?_concat
    have more := wider_trans ih (wider_splitOn_concat memK _ (.inr last))
    rwa [List.append_assoc [' '] t [' ']] at more

/-- Wider fragments are cut into wider fragments. -/
lemma wider_cutAt (memK : k ∈ connectives) (h : List.Forall₂ Wider fs gs) :
    List.Forall₂ Wider (cutAt fs k) (cutAt gs k) := by
  induction h with
  | nil => exact .nil
  | cons first _ ih =>
    rw [cutAt, cutAt, List.flatMap_cons, List.flatMap_cons]
    exact List.rel_append (first.splitOn memK) ih

/-- Wider fragments are cut into wider ones at any number of connectives. -/
lemma wider_foldl_cutAt {ks : List Text} (memK : ∀ k ∈ ks, k ∈ connectives)
    (h : List.Forall₂ Wider fs gs) :
    List.Forall₂ Wider (ks.foldl cutAt fs) (ks.foldl cutAt gs) := by
  induction ks generalizing fs gs with
  | nil => exact h
  | cons k ks ih =>
    refine ih (fun k' mem => memK k' (List.mem_cons_of_mem k mem)) ?_
    exact wider_cutAt (memK k List.mem_cons_self) h

/-- Where a connective does not stand, a cut at it only widens the fragments. -/
lemma wider_cutAt_of_absent (absent : ∀ f ∈ fs, ¬ k <:+: [' '] ++ f ++ [' ']) :
    List.Forall₂ Wider fs (cutAt fs k) := by
  induction fs with
  | nil => exact .nil
  | cons f fs ih =>
    rw [cutAt, List.flatMap_cons, splitOn_of_absent (absent f List.mem_cons_self)]
    refine .cons (.back (.front (.refl f))) (ih fun g mem => ?_)
    exact absent g (List.mem_cons_of_mem f mem)

end

/-! ## Clauses by other connectives -/

/-- The clauses of a sentence that is cut at the given connectives. -/
def clausesBy (ks : List Text) (s : Text) : List Text :=
  (((ks.foldl cutAt [normal s]).map clauseOf).filter fun clause => !clause.isEmpty).eraseDups

/-- A sentence that is cut at ` se ` before ` somente se ` never has a fragment in which the latter
stands, so its clauses are the same without that connective. -/
theorem clausesBy_erase_somenteSe (s : Text) :
    connectives[3]? = some somenteSe ∧
    (∀ fragment ∈ (connectives.take 3).foldl cutAt [normal s],
      ¬ somenteSe <:+: [' '] ++ fragment ++ [' ']) ∧
    clausesBy connectives s = clauses s ∧
    clausesBy (connectives.erase somenteSe) s = clauses s := by
  have whole : clausesBy connectives s = clauses s := by
    rw [clausesBy, clauses, fragments]
  refine ⟨rfl, fun _ mem => not_infix_somenteSe mem, whole, ?_⟩
  have all : connectives = connectives.take 3 ++ somenteSe :: connectives.drop 4 := rfl
  have others : connectives.erase somenteSe = connectives.take 3 ++ connectives.drop 4 := by decide
  have behind : ∀ k ∈ connectives.drop 4, k ∈ connectives := by decide
  have wider : List.Forall₂ Wider
      ((connectives.drop 4).foldl cutAt (fragmentsBefore (normal s)))
      ((connectives.drop 4).foldl cutAt (cutAt (fragmentsBefore (normal s)) somenteSe)) :=
    wider_foldl_cutAt behind (wider_cutAt_of_absent fun _ mem => not_infix_somenteSe mem)
  have cut : fragments (normal s)
      = (connectives.drop 4).foldl cutAt (cutAt (fragmentsBefore (normal s)) somenteSe) := by
    rw [fragments, fragmentsBefore]
    conv_lhs => rw [all, List.foldl_append, List.foldl_cons]
  rw [clausesBy, others, List.foldl_append, clauses, cut, ← map_clauseOf_of_wider wider,
    fragmentsBefore]

end Sentence

end Sentential
