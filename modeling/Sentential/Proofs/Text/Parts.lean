import Mathlib.Data.List.Basic
import Mathlib.Tactic.Lemma
import Sentential.Proofs.Text.Rewrite
import Sentential.Proofs.Text.Tidy

/-!
# Texts that tell parts

`Tells cs s` tells that the text `s` consists of the parts `cs` in their order, with any number of
spaces before, between and behind them. No space is needed behind `(` and `¬` and before `)`; else
two parts have one between them (`Joint`). What a pattern does to such a text is told part by part
(`Turns`, `Turns.rewriteFrom`), so that only the few places have to be looked at where it acts.
-/

namespace Sentential.Text

/-- Whether a text can follow a part that needs a space behind it. -/
def Ends (s : Text) : Prop :=
  s = [] ∨ (∃ t, s = ' ' :: t) ∨ ∃ t, s = ')' :: t

/-- Whether a text can follow a part. -/
def Joint (c s : Text) : Prop :=
  c = ['('] ∨ c = ['¬'] ∨ Ends s

/-- Texts that tell parts. -/
inductive Tells : List Text → Text → Prop where
  | nil : Tells [] []
  | space {cs s} :
    Tells cs s →
    Tells cs (' ' :: s)
  | part {c cs s} :
    Joint c s →
    Tells cs s →
    Tells (c :: cs) (c ++ s)

/-- What stands around parts is no word character. -/
lemma isWordChar_ends : ∀ c ∈ [' ', '(', ')', '¬'], isWordChar c = false := by
  decide

/-- A text that ends a part has no character in front that such a text cannot begin with. -/
lemma Ends.head_of {p : Char → Bool} (other : ∀ c ∈ [' ', '(', ')', '¬'], p c = false) {s : Text}
    (ends : Ends s) : s.head?.any p = false := by
  rcases ends with rfl | ⟨t, rfl⟩ | ⟨t, rfl⟩
  · rfl
  · exact other ' ' (by decide)
  · exact other ')' (by decide)

/-- What can follow a part that needs a space begins with no word character. -/
lemma Ends.head {s : Text} (ends : Ends s) : s.head?.any isWordChar = false :=
  ends.head_of isWordChar_ends

/-- A part can stand at the end. -/
lemma ends_nil : Ends [] := .inl rfl

/-- A space can follow a part. -/
lemma ends_space (s : Text) : Ends (' ' :: s) := .inr (.inl ⟨s, rfl⟩)

/-- A parenthesis that closes can follow a part. -/
lemma ends_close (s : Text) : Ends (')' :: s) := .inr (.inr ⟨s, rfl⟩)

/-- What can follow a part still can without its end. -/
lemma Ends.append_left {s t : Text} (ends : Ends (s ++ t)) : Ends s := by
  rcases s with _ | ⟨c, s⟩
  · exact ends_nil
  · rcases ends with e | ⟨u, e⟩ | ⟨u, e⟩
    · cases e
    · rw [(List.cons.inj e).1]
      exact ends_space s
    · rw [(List.cons.inj e).1]
      exact ends_close s

/-- No run of characters reaches from a part into what follows it, unless the runs have marks. -/
lemma Joint.parted_of {p : Char → Bool} (other : ∀ c ∈ [' ', '(', ')', '¬'], p c = false)
    {c s : Text} (joint : Joint c s) : Parted p c s := by
  rcases joint with rfl | rfl | ends
  · exact .inl (other '(' (by decide))
  · exact .inl (other '¬' (by decide))
  · exact .inr (ends.head_of other)

/-- No word reaches across the place where a text follows a part. -/
lemma Joint.parted {c s : Text} (joint : Joint c s) : Parted isWordChar c s :=
  joint.parted_of isWordChar_ends

/-- What follows another part than an opening mark is what ends it. -/
lemma Joint.ends {c s : Text} (joint : Joint c s) (parens : c ≠ ['(']) (sign : c ≠ ['¬']) :
    Ends s :=
  (joint.resolve_left parens).resolve_left sign

/-- A word that is a part is over where the part is. -/
lemma Joint.stop {c s : Text} (joint : Joint c s) (last : c.getLast?.any isWordChar = true) :
    s.head?.any isWordChar = false := by
  have parted := joint.parted
  rw [Parted, last] at parted
  simpa using parted

/-- Spaces in front do not count. -/
lemma Tells.spaces {cs : List Text} {s : Text} (tells : Tells cs s) (k : Nat) :
    Tells cs (List.replicate k ' ' ++ s) := by
  induction k with
  | zero => exact tells
  | succ k ih => exact .space ih

/-- A text that tells a part begins with it, but for spaces. -/
lemma Tells.cons_inv {c : Text} {cs : List Text} {s : Text} (tells : Tells (c :: cs) s) :
    ∃ k t, s = List.replicate k ' ' ++ (c ++ t) ∧ Joint c t ∧ Tells cs t := by
  generalize whole : c :: cs = ds at tells
  induction tells with
  | nil => cases whole
  | @space ds s _ ih =>
    obtain ⟨k, t, rfl, joint, tells⟩ := ih whole
    exact ⟨k + 1, t, rfl, joint, tells⟩
  | @part d ds s joint tells =>
    cases whole
    exact ⟨0, s, rfl, joint, tells⟩

/-- Whether a part begins with a character that is no blank and closes nothing. -/
def Firm (c : Text) : Prop :=
  ∃ d v, c = d :: v ∧ isBlank d = false ∧ d ≠ ')'

/-- A firm part does not follow another one that needs a space. -/
lemma Firm.not_ends {c s : Text} (firm : Firm c) : ¬ Ends (c ++ s) := by
  obtain ⟨d, v, rfl, solid, open'⟩ := firm
  rintro (e | ⟨t, e⟩ | ⟨t, e⟩)
  · cases e
  · rw [(List.cons.inj e).1, isBlank_space] at solid
    cases solid
  · exact open' (List.cons.inj e).1

/-- A firm part stays firm with more behind it. -/
lemma Firm.append {c : Text} (firm : Firm c) (s : Text) : Firm (c ++ s) := by
  obtain ⟨d, v, rfl, h⟩ := firm
  exact ⟨d, v ++ s, rfl, h⟩

/-- A firm part does not begin with a blank. -/
lemma Firm.solid {c : Text} (firm : Firm c) : c.head?.any isBlank = false := by
  obtain ⟨d, v, rfl, solid, -⟩ := firm
  exact solid

/-- A firm part is not empty. -/
lemma Firm.ne_nil {c : Text} (firm : Firm c) : c ≠ [] := by
  obtain ⟨d, v, rfl, -⟩ := firm
  exact List.cons_ne_nil d v

/-- A phrase is firm. -/
lemma IsPhrase.firm {q : Text} (phrase : IsPhrase q) : Firm q := by
  obtain ⟨c, s, rfl⟩ := List.exists_cons_of_ne_nil phrase.ne_nil
  have word : isWordChar c = true := phrase.1
  refine ⟨c, s, rfl, ?_, ?_⟩
  · rw [Bool.eq_false_iff]
    intro blank
    rw [isWordChar_of_isBlank blank] at word
    cases word
  · rintro rfl
    exact absurd word (by decide)

/-- Where a text can follow a part that needs a space behind it, a firm part has one before it. -/
lemma Tells.firm_inv {c : Text} {cs : List Text} {s : Text} (tells : Tells (c :: cs) s)
    (firm : Firm c) (ends : Ends s) :
    ∃ k t, s = List.replicate (k + 1) ' ' ++ (c ++ t) ∧ Joint c t ∧ Tells cs t := by
  obtain ⟨k, t, rfl, joint, rest⟩ := tells.cons_inv
  cases k with
  | zero => exact absurd ends firm.not_ends
  | succ k => exact ⟨k, t, rfl, joint, rest⟩

/-- Between a part that needs a space and a firm one there are spaces. -/
lemma Tells.firm_behind {c : Text} {cs : List Text} {s : Text} (tells : Tells (c :: cs) s)
    (firm : Firm c) (ends : Ends s) :
    ∃ k t, s = List.replicate (k + 1) ' ' ++ t ∧ Firm t ∧ Tells (c :: cs) t := by
  obtain ⟨k, t, rfl, joint, rest⟩ := tells.firm_inv firm ends
  exact ⟨k, c ++ t, rfl, firm.append t, .part joint rest⟩

/-- What tells no parts has nothing but spaces. -/
lemma Tells.nil_inv {s : Text} (tells : Tells [] s) : ∃ k, s = List.replicate k ' ' := by
  generalize whole : ([] : List Text) = ds at tells
  induction tells with
  | nil => exact ⟨0, rfl⟩
  | @space ds s _ ih =>
    obtain ⟨k, rfl⟩ := ih whole
    exact ⟨k + 1, rfl⟩
  | part => cases whole

/-- Two texts side by side tell what they tell on their own. -/
lemma Tells.append {cs ds : List Text} {s t : Text} (hs : Tells cs s) (ht : Tells ds t)
    (ends : Ends t) : Tells (cs ++ ds) (s ++ t) := by
  induction hs with
  | nil => exact ht
  | space _ ih => exact .space ih
  | @part c cs s joint _ ih =>
    rw [List.append_assoc]
    refine .part ?_ ih
    rcases joint with h | h | rfl | ⟨u, rfl⟩ | ⟨u, rfl⟩
    · exact .inl h
    · exact .inr (.inl h)
    · exact .inr (.inr ends)
    · exact .inr (.inr (ends_space (u ++ t)))
    · exact .inr (.inr (ends_close (u ++ t)))

/-- A space can stand behind the last part. -/
lemma Tells.space_behind {cs : List Text} {s : Text} (tells : Tells cs s) :
    Tells cs (s ++ [' ']) := by
  have wide := tells.append (.space .nil) (ends_space [])
  rwa [List.append_nil] at wide

/-- Parts can be put in parentheses. -/
lemma Tells.wrap {cs : List Text} {s : Text} (tells : Tells cs s) :
    Tells (['('] :: cs ++ [[')']]) ('(' :: s ++ [')']) := by
  have close : Tells [[')']] [')'] := .part (.inr (.inr ends_nil)) .nil
  exact .part (.inl rfl) (tells.append close (ends_close []))

/-- A part in front of a text, with a space behind it. -/
lemma Tells.word {cs : List Text} {s : Text} (c : Text) (tells : Tells cs s) :
    Tells (c :: cs) (c ++ ' ' :: s) :=
  .part (.inr (.inr (ends_space s))) (.space tells)

/-- Two texts with words between them, which have a space on either side. -/
lemma Tells.between {cs ds : List Text} {s t : Text} (c : Text) (hs : Tells cs s)
    (ht : Tells ds t) : Tells (cs ++ c :: ds) (s ++ ' ' :: (c ++ ' ' :: t)) :=
  hs.append (.space (ht.word c)) (ends_space _)

/-- A text that tells two lists of parts is cut right behind the last part of the first. -/
lemma Tells.split {cs ds : List Text} {s : Text} (tells : Tells (cs ++ ds) s) (ne : cs ≠ []) :
    ∃ t u, s = t ++ cs.getLast ne ++ u ∧ Tells cs (t ++ cs.getLast ne) ∧ Tells ds u := by
  induction cs generalizing s with
  | nil => exact absurd rfl ne
  | cons c cs ih =>
    obtain ⟨k, t, rfl, joint, rest⟩ := tells.cons_inv
    cases cs with
    | nil =>
      refine ⟨List.replicate k ' ', t, by simp, Tells.spaces ?_ k, rest⟩
      have single : Tells [c] (c ++ []) := .part (.inr (.inr ends_nil)) .nil
      rwa [List.append_nil] at single
    | cons d cs =>
      -- the first part goes in front of the cut of what follows it
      obtain ⟨u, v, rfl, hu, hv⟩ := ih rest (List.cons_ne_nil d cs)
      rw [List.getLast_cons (List.cons_ne_nil d cs)]
      refine ⟨List.replicate k ' ' ++ (c ++ u), v, by simp, ?_, hv⟩
      rw [List.append_assoc, List.append_assoc]
      exact Tells.spaces (.part (joint.imp_right (Or.imp_right Ends.append_left)) hu) k

/-- Every character of a text is a space or in one of its parts. -/
lemma Tells.mem {cs : List Text} {s : Text} (tells : Tells cs s) {d : Char} (mem : d ∈ s) :
    d = ' ' ∨ ∃ c ∈ cs, d ∈ c := by
  induction tells with
  | nil => cases mem
  | space _ ih =>
    rcases List.mem_cons.1 mem with rfl | mem
    · exact .inl rfl
    · exact ih mem
  | @part c cs s _ _ ih =>
    rcases List.mem_append.1 mem with mem | mem
    · exact .inr ⟨c, List.mem_cons_self, mem⟩
    · exact (ih mem).imp_right fun ⟨c', memC, mem⟩ => ⟨c', List.mem_cons_of_mem c memC, mem⟩

/-- The words of a text are those of its parts. -/
lemma Tells.wordRuns {cs : List Text} {s : Text} (tells : Tells cs s) :
    wordRuns s = cs.flatMap wordRuns := by
  induction tells with
  | nil => rfl
  | @space cs s _ ih => rw [wordRuns_cons s (isWordChar_ends ' ' (by decide)), ih]
  | part joint _ ih => rw [wordRuns_append joint.parted, ih, List.flatMap_cons]

/-! ## Tidying -/

/-- What can follow a part still can when it is tidied. -/
lemma Ends.gap_tidy {s : Text} (ends : Ends s) : Ends (gap s ++ tidy s) := by
  rcases ends with rfl | ⟨t, rfl⟩ | ⟨t, rfl⟩
  · exact ends_nil
  · by_cases some : words (' ' :: t) = []
    · have none : gap (' ' :: t) = [] := if_neg fun h => h.2 some
      rw [none, tidy, some]
      exact ends_nil
    · have one : gap (' ' :: t) = [' '] := if_pos ⟨rfl, some⟩
      rw [one]
      exact ends_space _
  · have solid : isBlank ')' = false := by decide
    rw [gap_cons_of_not t solid, tidy_cons t solid]
    exact ends_close _

/-- The space that tidying leaves can stand before the first part. -/
lemma Tells.gap {cs : List Text} {s t : Text} (tells : Tells cs t) : Tells cs (gap s ++ t) := by
  rw [Text.gap]
  split
  · exact .space tells
  · exact tells

/-- Tidying keeps neat parts. -/
lemma Tells.tidy {cs : List Text} {s : Text} (tells : Tells cs s)
    (neat : ∀ c ∈ cs, c ≠ [] ∧ Neat c) : Tells cs (tidy s) := by
  induction tells with
  | nil => exact .nil
  | @space cs s _ ih =>
    rw [Text.tidy, words_cons_blank s isBlank_space]
    exact ih neat
  | @part c cs s joint _ ih =>
    obtain ⟨ne, single⟩ := neat c List.mem_cons_self
    rw [single.tidy_append ne]
    refine .part (joint.imp_right (Or.imp_right Ends.gap_tidy)) ?_
    exact (ih fun d mem => neat d (List.mem_cons_of_mem c mem)).gap

/-- Parts that are one space apart. -/
lemma tells_unwords (cs : List Text) : Tells cs (unwords cs) := by
  induction cs with
  | nil => exact .nil
  | cons c cs ih =>
    by_cases ne : cs = []
    · subst ne
      have single : Tells [c] (c ++ []) := .part (.inr (.inr ends_nil)) .nil
      rw [List.append_nil] at single
      simpa [unwords, List.intercalate] using single
    · rw [unwords_cons c ne]
      exact ih.word c

/-- Spaces in front are none of the words. -/
lemma words_spaces (k : Nat) (s : Text) : words (List.replicate k ' ' ++ s) = words s := by
  induction k with
  | zero => rfl
  | succ k ih =>
    rw [List.replicate_succ, List.cons_append, words_cons_blank _ isBlank_space, ih]

/-- Parts without blanks that need a space between them are the words of a text. -/
lemma Tells.words_eq {cs : List Text} {s : Text} (tells : Tells cs s)
    (parted : ∀ c ∈ cs, Firm c ∧ c ≠ ['('] ∧ c ≠ ['¬'] ∧ ∀ d ∈ c, isBlank d = false) :
    words s = cs := by
  induction cs generalizing s with
  | nil =>
    obtain ⟨k, rfl⟩ := tells.nil_inv
    have none := words_spaces k []
    rwa [List.append_nil] at none
  | cons c cs ih =>
    obtain ⟨k, t, rfl, joint, rest⟩ := tells.cons_inv
    obtain ⟨firm, open', sign, solid⟩ := parted c List.mem_cons_self
    have words_t : words t = cs := ih rest fun d mem => parted d (List.mem_cons_of_mem c mem)
    -- the next part comes behind a space
    have spaced : t = [] ∨ ∃ u, t = ' ' :: u := by
      cases cs with
      | nil =>
        obtain ⟨k, rfl⟩ := rest.nil_inv
        cases k with
        | zero => exact .inl rfl
        | succ k => exact .inr ⟨_, List.replicate_succ⟩
      | cons d cs =>
        have firmD := (parted d (by simp)).1
        obtain ⟨k, u, e, -⟩ := rest.firm_inv firmD (joint.ends open' sign)
        exact .inr ⟨List.replicate k ' ' ++ (d ++ u), by rw [e, List.replicate_succ]; rfl⟩
    rw [words_spaces]
    rcases spaced with rfl | ⟨u, rfl⟩
    · rw [List.append_nil, words_of_no_blank firm.ne_nil solid, ← words_t]
      rfl
    · rw [words_append_cons _ _ isBlank_space, words_of_no_blank firm.ne_nil solid, ← words_t,
        words_cons_blank _ isBlank_space]
      rfl

/-! ## Rewriting -/

open Pattern

/-- A character before a text lets a word begin there. -/
def Opens (before : Option Char) (s : Text) : Prop :=
  before.any isWordChar = false ∨ s.head?.any isWordChar = false

/-- Where a word can begin behind spaces, it can behind fewer or more of them. -/
lemma Opens.of_spaces {before before' : Option Char} {k : Nat} {s : Text}
    (opens : Opens before (List.replicate k ' ' ++ s))
    (from' : before' = before ∧ k = 0 ∨ before' = some ' ') : Opens before' s := by
  rcases from' with ⟨rfl, rfl⟩ | rfl
  · exact opens
  · exact .inl (isWordChar_ends ' ' (by decide))

/-- No word goes on where a phrase can begin. -/
lemma Opens.start {before : Option Char} {q s : Text} (opens : Opens before (q ++ s))
    (phrase : IsPhrase q) : before.any isWordChar = false := by
  rw [Opens, List.head?_append_of_ne_nil _ phrase.ne_nil, phrase.1] at opens
  simpa using opens

/-- A word can begin behind a part. -/
lemma Joint.opens {before : Option Char} {c s : Text} (joint : Joint c s) :
    Opens (behind before c) s := by
  rcases joint with rfl | rfl | ends
  · exact .inl (isWordChar_ends '(' (by decide))
  · exact .inl (isWordChar_ends '¬' (by decide))
  · exact .inr ends.head

/-- How a pattern turns the parts of a text into others: it keeps one, or writes another one instead
with a space on either side, or does so and takes the next part along. -/
inductive Turns (p : Pattern) : List Text → List Text → Prop where
  | nil : Turns p [] []
  | keep {c cs ds} :
    (∀ before t, Joint c t → Tells cs t →
      rewriteFrom p 0 before (c ++ t) = c ++ rewriteFrom p 0 (behind before c) t) →
    Turns p cs ds →
    Turns p (c :: cs) (c :: ds)
  | put {c d cs ds} :
    (∀ before t, Opens before (c ++ t) → Joint c t → Tells cs t →
      rewriteFrom p 0 before (c ++ t) = ' ' :: (d ++ ' ' :: rewriteFrom p 0 (behind before c) t)) →
    Turns p cs ds →
    Turns p (c :: cs) (d :: ds)
  | carry {c e cs ds} :
    (∀ before t, Opens before (c ++ t) → Joint c t → Tells (e :: cs) t →
      ∃ u, Joint e u ∧ Tells cs u ∧
        rewriteFrom p 0 before (c ++ t)
          = ' ' :: '¬' :: (e ++ ' ' :: rewriteFrom p 0 (behind none e) u)) →
    Turns p cs ds →
    Turns p (c :: e :: cs) (['¬'] :: e :: ds)

section
variable {p : Pattern} {r : Text} {before : Option Char}

/-- What can follow a part still can when it is rewritten. -/
lemma Pattern.AtWord.ends_rewriteFrom (acts : AtWord p r) {s : Text} (ends : Ends s) :
    Ends (rewriteFrom p 0 before s) := by
  rcases ends with rfl | ⟨t, rfl⟩ | ⟨t, rfl⟩
  · exact ends_nil
  · rw [acts.rewriteFrom_cons (isWordChar_ends ' ' (by decide))]
    exact ends_space _
  · rw [acts.rewriteFrom_cons (isWordChar_ends ')' (by decide))]
    exact ends_close _

/-- What follows a part still does when it is rewritten. -/
lemma Pattern.AtWord.joint_rewriteFrom (acts : AtWord p r) {c s : Text} (joint : Joint c s) :
    Joint c (rewriteFrom p 0 before s) :=
  joint.imp_right (Or.imp_right acts.ends_rewriteFrom)

/-- Spaces are passed. -/
lemma Pattern.AtWord.rewriteFrom_spaces (acts : AtWord p r) (before : Option Char) (k : Nat)
    (s : Text) :
    ∃ before', (before' = before ∧ k = 0 ∨ before' = some ' ') ∧
      rewriteFrom p 0 before (List.replicate k ' ' ++ s)
        = List.replicate k ' ' ++ rewriteFrom p 0 before' s := by
  induction k generalizing before with
  | zero => exact ⟨before, .inl ⟨rfl, rfl⟩, rfl⟩
  | succ k ih =>
    obtain ⟨before', from', e⟩ := ih (some ' ')
    refine ⟨before', .inr (from'.elim And.left id), ?_⟩
    rw [List.replicate_succ, List.cons_append,
      acts.rewriteFrom_cons (isWordChar_ends ' ' (by decide)), e]
    rfl

/-- Parts without the word at which a pattern acts are kept, and it goes on behind them. -/
lemma Pattern.AtWord.tells_behind (acts : AtWord p r) {cs ds es : List Text}
    (absent : ∀ c ∈ cs, r ∉ wordRuns c)
    (rest : ∀ {before s}, Opens before s → Tells ds s → Tells es (rewriteFrom p 0 before s))
    {s : Text} (opens : Opens before s) (tells : Tells (cs ++ ds) s) :
    Tells (cs ++ es) (rewriteFrom p 0 before s) := by
  induction cs generalizing before s with
  | nil => exact rest opens tells
  | cons c cs ih =>
    obtain ⟨k, t, rfl, joint, tells⟩ := tells.cons_inv
    obtain ⟨before', _, e⟩ := acts.rewriteFrom_spaces before k (c ++ t)
    rw [e, acts.rewriteFrom_append joint.parted (absent c List.mem_cons_self)]
    refine Tells.spaces (.part (acts.joint_rewriteFrom joint) ?_) k
    exact ih (fun d mem => absent d (List.mem_cons_of_mem c mem)) joint.opens tells

/-- A text whose parts a pattern turns into others tells those when it has been rewritten. -/
lemma Turns.rewriteFrom (acts : AtWord p r) {cs ds : List Text} (turns : Turns p cs ds)
    {s : Text} (tells : Tells cs s) (opens : Opens before s) :
    Tells ds (rewriteFrom p 0 before s) := by
  -- the text behind each part tells the parts that are left, and a word may begin there
  induction turns generalizing before s with
  | nil =>
    obtain ⟨k, rfl⟩ := tells.nil_inv
    obtain ⟨before', _, e⟩ := acts.rewriteFrom_spaces before k []
    rw [List.append_nil] at e
    rw [e, rewriteFrom_nil]
    exact Tells.nil.spaces k
  | @keep c cs ds step _ ih =>
    obtain ⟨k, t, rfl, joint, tells⟩ := tells.cons_inv
    obtain ⟨before', _, e⟩ := acts.rewriteFrom_spaces before k (c ++ t)
    rw [e, step before' t joint tells]
    exact Tells.spaces (.part (acts.joint_rewriteFrom joint) (ih tells joint.opens)) k
  | @put c d cs ds step _ ih =>
    obtain ⟨k, t, rfl, joint, tells⟩ := tells.cons_inv
    obtain ⟨before', h, e⟩ := acts.rewriteFrom_spaces before k (c ++ t)
    rw [e, step before' t (opens.of_spaces h) joint tells]
    refine Tells.spaces (.space (.part (.inr (.inr (ends_space _))) (.space ?_))) k
    exact ih tells joint.opens
  | @carry c e cs ds step _ ih =>
    obtain ⟨k, t, rfl, joint, tells⟩ := tells.cons_inv
    obtain ⟨before', h, eq⟩ := acts.rewriteFrom_spaces before k (c ++ t)
    obtain ⟨u, joint', tells', out⟩ := step before' t (opens.of_spaces h) joint tells
    rw [eq, out]
    refine Tells.spaces (.space (.part (.inr (.inl rfl)) ?_)) k
    refine .part (.inr (.inr (ends_space _))) (.space ?_)
    exact ih tells' joint'.opens

end

/-! ## Phrases among parts -/

/-- Whether a phrase is kept out of the parts behind a place: there are none, or the first one
begins with a word or a mark that the phrase does not have. -/
def Fenced (q : Text) : List Text → Prop
  | [] => True
  | c :: _ => (∃ r, (wordRuns c).head? = some r ∧ r ∉ wordRuns q) ∨ ∃ d v, c = d :: v ∧ d ∉ q

/-- Spaces in front are in no word. -/
lemma wordRuns_spaces (k : Nat) (s : Text) : wordRuns (List.replicate k ' ' ++ s) = wordRuns s := by
  induction k with
  | zero => rfl
  | succ k ih =>
    rw [List.replicate_succ, List.cons_append, wordRuns_cons _ (isWordChar_ends ' ' (by decide)),
      ih]

/-- A phrase that is kept out of parts is kept out of a text that tells them. -/
lemma Fenced.blocked {q t : Text} {cs : List Text} (fenced : Fenced q cs) (tells : Tells cs t) :
    Blocked q t := by
  cases cs with
  | nil =>
    obtain ⟨k, rfl⟩ := tells.nil_inv
    have none := wordRuns_spaces k []
    rw [List.append_nil] at none
    exact .inl none
  | cons c cs =>
    obtain ⟨k, u, rfl, joint, tells⟩ := tells.cons_inv
    rcases fenced with ⟨r, first, absent⟩ | ⟨d, v, rfl, absent⟩
    · refine .inr (.inl ⟨r, ?_, absent⟩)
      have some : wordRuns c ≠ [] := fun e => by rw [e] at first; cases first
      rw [wordRuns_spaces, wordRuns_append joint.parted, List.head?_append_of_ne_nil _ some, first]
    · refine .inr (.inr ⟨List.replicate k ' ', d, v ++ u, rfl, ?_, absent⟩)
      have none := wordRuns_spaces k []
      rwa [List.append_nil] at none

/-- Whether a phrase stands among parts only as one of them, as far as one part and those behind
it are concerned. -/
def Apart (q c : Text) (cs : List Text) : Prop :=
  c = q ∨ (∃ r, (wordRuns q).head? = some r ∧ r ∉ wordRuns c) ∨
    c.length ≤ q.length ∧ Fenced q cs

/-- A phrase is replaced part by part. -/
lemma turns_whole {q new : Text} (phrase : IsPhrase q) {cs : List Text}
    (apart : ∀ u c v, cs = u ++ c :: v → Apart q c v) :
    Turns (whole q (' ' :: (new ++ [' ']))) cs (cs.map fun c => if c = q then new else c) := by
  obtain ⟨r, w, e, word, stop, runs⟩ := phrase.first
  have acts : AtWord (whole q (' ' :: (new ++ [' ']))) r := by
    rw [e]
    exact atWord_whole (e ▸ phrase) word stop
  induction cs with
  | nil => exact .nil
  | cons c cs ih =>
    have ih' := ih fun u d v e => apart (c :: u) d v (by rw [e]; rfl)
    rw [List.map_cons]
    by_cases same : c = q
    · subst same
      rw [if_pos rfl]
      refine .put (fun before t opens joint tells => ?_) ih'
      rw [rewriteFrom_whole phrase (opens.start phrase) joint.parted]
      simp
    · rw [if_neg same]
      refine .keep (fun before t joint tells => ?_) ih'
      rcases apart [] c cs rfl with same' | ⟨r', first, absent⟩ | ⟨short, fenced⟩
      · exact absurd same' same
      · rw [runs, List.head?_cons, Option.some.injEq] at first
        subst first
        exact acts.rewriteFrom_append joint.parted absent
      · exact rewriteFrom_whole_short phrase same short joint.parted (fenced.blocked tells)

/-- A text whose parts are apart from a phrase tells them with the new text for those that are the
phrase. -/
lemma Tells.rewrite_whole {q new s : Text} {cs : List Text} (tells : Tells cs s)
    (phrase : IsPhrase q) (apart : ∀ u c v, cs = u ++ c :: v → Apart q c v) :
    Tells (cs.map fun c => if c = q then new else c)
      ((whole q (' ' :: (new ++ [' ']))).rewrite s) := by
  obtain ⟨r, w, rfl, word, stop, -⟩ := phrase.first
  exact (turns_whole phrase apart).rewriteFrom (atWord_whole phrase word stop) tells (.inl rfl)

end Sentential.Text
