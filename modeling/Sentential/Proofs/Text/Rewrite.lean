import Mathlib.Data.List.Basic
import Mathlib.Tactic.Lemma
import Sentential.Proofs.Text.Words
import Sentential.Text.Rewrite

/-!
# How a text is rewritten

A pattern that takes nothing in a stretch leaves it (`rewriteFrom_miss_append`), and writes its own
text where it takes one (`rewriteFrom_hit`). Most patterns act only where a certain word stands
(`AtWord`), so they pass every stretch without that word. A phrase that is to stand as whole words
acts at its first word; besides it passes a shorter stretch unless it goes on in the text behind
(`Blocked`).
-/

namespace Sentential.Text

/-- The character before a place behind a text, which itself follows another character. -/
def behind (before : Option Char) (s : Text) : Option Char :=
  s.getLast?.or before

/-- The first character stands before the others. -/
@[simp] lemma behind_cons (before : Option Char) (c : Char) (s : Text) :
    behind before (c :: s) = behind (some c) s := by
  rcases s.eq_nil_or_concat' with rfl | ⟨s, d, rfl⟩
  · rfl
  · rw [behind, behind, ← List.cons_append, List.getLast?_concat, List.getLast?_concat]
    rfl

/-- The last character stands before what follows. -/
lemma behind_concat (before : Option Char) (s : Text) (c : Char) :
    behind before (s ++ [c]) = some c := by
  simp [behind]

/-- What stands before a text that is not empty does not count behind it. -/
lemma behind_append (before : Option Char) (s : Text) {t : Text} (ne : t ≠ []) :
    behind before (s ++ t) = behind none t := by
  rw [behind, behind, List.getLast?_append_of_ne_nil s ne, List.getLast?_eq_some_getLast ne]
  rfl

/-- Behind two texts is behind the second, with the first before it. -/
lemma behind_append_append (before : Option Char) (s t : Text) :
    behind before (s ++ t) = behind (behind before s) t := by
  rw [behind, behind, behind, List.getLast?_append, Option.or_assoc]

/-- Behind a text that is not empty is its last character. -/
lemma behind_eq_getLast? {before : Option Char} {s : Text} (ne : s ≠ []) :
    behind before s = s.getLast? := by
  rw [behind, List.getLast?_eq_some_getLast ne]
  rfl

namespace Pattern

variable {p : Pattern} {before : Option Char}

/-- There is nothing to rewrite in the empty text. -/
lemma rewriteFrom_nil (skip : Nat) : rewriteFrom p skip before [] = [] := by
  cases skip <;> rfl

/-- Where a pattern takes nothing, a character stays. -/
lemma rewriteFrom_miss {c : Char} {s : Text} (miss : p before (c :: s) = none) :
    rewriteFrom p 0 before (c :: s) = c :: rewriteFrom p 0 (some c) s := by
  rw [rewriteFrom, miss]

/-- Characters that were taken are passed. -/
lemma rewriteFrom_taken (s t : Text) :
    rewriteFrom p s.length before (s ++ t) = rewriteFrom p 0 (behind before s) t := by
  induction s generalizing before with
  | nil => rfl
  | cons c s ih => rw [List.cons_append, List.length_cons, rewriteFrom, ih, behind_cons]

/-- Where a pattern takes a stretch, its text is written instead. -/
lemma rewriteFrom_hit {s t new : Text} (ne : s ≠ [])
    (hit : p before (s ++ t) = some ⟨s.length - 1, new⟩) :
    rewriteFrom p 0 before (s ++ t) = new ++ rewriteFrom p 0 (behind before s) t := by
  obtain ⟨c, s, rfl⟩ := List.exists_cons_of_ne_nil ne
  rw [List.cons_append] at hit ⊢
  rw [rewriteFrom, hit, behind_cons]
  exact congrArg _ (rewriteFrom_taken s t)

/-- A stretch in which a pattern takes nothing stays. -/
lemma rewriteFrom_miss_append (s t : Text)
    (miss : ∀ u c v, s = u ++ c :: v → p (behind before u) (c :: (v ++ t)) = none) :
    rewriteFrom p 0 before (s ++ t) = s ++ rewriteFrom p 0 (behind before s) t := by
  induction s generalizing before with
  | nil => rfl
  | cons c s ih =>
    have here : p before (c :: (s ++ t)) = none := miss [] c s rfl
    rw [List.cons_append, rewriteFrom_miss here, ih, behind_cons]
    · rfl
    · intro u d v e
      have h := miss (c :: u) d v (by rw [e]; rfl)
      rwa [behind_cons] at h

/-- A text in which a pattern takes nothing stays as it is. -/
lemma rewrite_eq_self {s : Text}
    (miss : ∀ u c v, s = u ++ c :: v → p (behind none u) (c :: v) = none) : p.rewrite s = s := by
  have e : rewriteFrom p 0 none (s ++ []) = s ++ rewriteFrom p 0 (behind none s) [] :=
    rewriteFrom_miss_append s [] (by simpa using miss)
  rwa [List.append_nil, rewriteFrom_nil, List.append_nil] at e

/-- Every character of a rewritten text was there or has been written by the pattern. -/
lemma mem_rewriteFrom {skip : Nat} {s : Text} {d : Char} (mem : d ∈ rewriteFrom p skip before s) :
    d ∈ s ∨ ∃ before s hit, p before s = some hit ∧ d ∈ hit.text := by
  induction s generalizing skip before with
  | nil =>
    rw [rewriteFrom_nil] at mem
    cases mem
  | cons c s ih =>
    have more : ∀ {skip before}, d ∈ rewriteFrom p skip before s →
        d ∈ c :: s ∨ ∃ before s hit, p before s = some hit ∧ d ∈ hit.text := by
      intro skip before mem
      exact (ih mem).imp_left (List.mem_cons_of_mem c)
    cases skip with
    | succ skip => exact more mem
    | zero =>
      rw [rewriteFrom] at mem
      cases h : p before (c :: s) with
      | none =>
        rw [h] at mem
        rcases List.mem_cons.1 mem with rfl | mem
        · exact .inl List.mem_cons_self
        · exact more mem
      | some hit =>
        rw [h] at mem
        rcases List.mem_append.1 mem with mem | mem
        · exact .inr ⟨before, c :: s, hit, h, mem⟩
        · exact more mem

end Pattern

/-! ## Whole words -/

namespace Pattern

variable {fold : Char → Char} {q new : Text} {before : Option Char}

/-- Where a phrase is found as whole words. -/
lemma wholeBy_eq_some {s : Text} {hit : Hit} (h : wholeBy fold q new before s = some hit) :
    ∃ t v, s = t ++ v ∧ t.map fold = q ∧ boundary before s.head? = true ∧
      boundary t.getLast? v.head? = true ∧ hit = ⟨q.length - 1, new⟩ := by
  simp only [wholeBy, Bool.and_eq_true, beq_iff_eq] at h
  split at h
  · rename_i found
    obtain ⟨⟨start, same⟩, stop⟩ := found
    refine ⟨s.take q.length, s.drop q.length, (List.take_append_drop _ _).symm, same, start, stop,
      ?_⟩
    exact (Option.some.inj h).symm
  · cases h

/-- Where a phrase is found, it stands between two word boundaries. -/
lemma whole_eq_some {s : Text} {hit : Hit} (h : whole q new before s = some hit) :
    ∃ v, s = q ++ v ∧ boundary before s.head? = true ∧ boundary q.getLast? v.head? = true ∧
      hit = ⟨q.length - 1, new⟩ := by
  obtain ⟨t, v, e, same, start, stop, e'⟩ := wholeBy_eq_some h
  rw [List.map_id] at same
  subst same
  exact ⟨v, e, start, stop, e'⟩

/-- A phrase between two word boundaries is found. -/
lemma wholeBy_append {t v : Text} (same : t.map fold = q)
    (start : boundary before (t ++ v).head? = true) (stop : boundary t.getLast? v.head? = true) :
    wholeBy fold q new before (t ++ v) = some ⟨q.length - 1, new⟩ := by
  subst same
  rw [wholeBy]
  simp only [List.length_map, List.take_left, List.drop_left, start, stop, beq_self_eq_true,
    Bool.and_self, if_true]

/-- A phrase that stands between two word boundaries is found. -/
lemma whole_append {v : Text} (start : boundary before (q ++ v).head? = true)
    (stop : boundary q.getLast? v.head? = true) :
    whole q new before (q ++ v) = some ⟨q.length - 1, new⟩ :=
  wholeBy_append (List.map_id q) start stop

/-- Where a phrase is found as it is. -/
lemma literal_eq_some {s : Text} {hit : Hit} (h : literal q new before s = some hit) :
    ∃ v, s = q ++ v ∧ hit = ⟨q.length - 1, new⟩ := by
  rw [literal] at h
  split at h
  · rename_i front
    obtain ⟨v, rfl⟩ := List.isPrefixOf_iff_prefix.1 front
    exact ⟨v, rfl, (Option.some.inj h).symm⟩
  · cases h

section
variable (ne : q ≠ []) (letters : ∀ c, fold c ∈ q → isWordChar c = true)
include ne letters

/-- Between words a word is not found. -/
lemma wholeBy_cons_eq_none {c : Char} (other : isWordChar c = false) (s : Text) :
    wholeBy fold q new before (c :: s) = none := by
  rw [Option.eq_none_iff_forall_ne_some]
  intro hit found
  obtain ⟨t, v, e, rfl, -⟩ := wholeBy_eq_some found
  cases t with
  | nil => exact ne rfl
  | cons d t =>
    have word := letters d List.mem_cons_self
    rw [← (List.cons.inj e).1, other] at word
    cases word

/-- Another word stays. -/
lemma rewriteFrom_wholeBy_word {r s : Text} (word : IsWord r)
    (stop : s.head?.any isWordChar = false) (other : r.map fold ≠ q) :
    rewriteFrom (wholeBy fold q new) 0 before (r ++ s)
      = r ++ rewriteFrom (wholeBy fold q new) 0 (behind before r) s := by
  apply rewriteFrom_miss_append
  rintro u c v rfl
  rw [Option.eq_none_iff_forall_ne_some]
  intro hit found
  obtain ⟨t, w, e, rfl, start, stop', _⟩ := wholeBy_eq_some found
  have net : t ≠ [] := fun e => ne (by rw [e]; rfl)
  have all : ∀ d ∈ t, isWordChar d = true := fun d mem => letters d (List.mem_map_of_mem mem)
  have head : isWordChar c = true := word.2 c (by simp)
  -- the word that is found begins with the other one, and then it also ends with it
  have first : u = [] := by
    rcases u.eq_nil_or_concat' with rfl | ⟨u, d, rfl⟩
    · rfl
    · have last : isWordChar d = true := word.2 d (by simp)
      rw [behind_concat] at start
      simp [boundary, last, head] at start
  subst first
  have stop'' : w.head?.any isWordChar = false := by
    rw [boundary, (isPhrase_of_all net all).2] at stop'
    simpa using stop'
  have same : t = c :: v := by
    have cut := congrArg (List.takeWhile isWordChar) e
    rw [← List.cons_append, List.takeWhile_append_of_pos (by simpa using word.2),
      List.takeWhile_append_of_pos all, takeWhile_of_head? stop, takeWhile_of_head? stop'',
      List.append_nil, List.append_nil] at cut
    exact cut.symm
  exact other (by rw [same]; rfl)

/-- The word is replaced where it stands. -/
lemma rewriteFrom_wholeBy {r s : Text} (start : before.any isWordChar = false)
    (stop : s.head?.any isWordChar = false) (same : r.map fold = q) :
    rewriteFrom (wholeBy fold q new) 0 before (r ++ s)
      = new ++ rewriteFrom (wholeBy fold q new) 0 (behind before r) s := by
  subst same
  have all : ∀ c ∈ r, isWordChar c = true := fun c mem => letters c (List.mem_map_of_mem mem)
  have phrase : IsPhrase r := isPhrase_of_all (fun e => ne (by rw [e]; rfl)) all
  have found : wholeBy fold (r.map fold) new before (r ++ s) = some ⟨r.length - 1, new⟩ := by
    rw [wholeBy_append rfl, List.length_map]
    · rw [List.head?_append_of_ne_nil _ phrase.ne_nil, boundary, start, phrase.1]
      rfl
    · rw [boundary, phrase.2, stop]
      rfl
  exact rewriteFrom_hit phrase.ne_nil found

/-- Replacing a word, up to `fold`, acts on the words of a text. -/
lemma wordRuns_rewrite_wholeBy (last : new.getLast?.any isWordChar = false) (s : Text) :
    wordRuns ((wholeBy fold q new).rewrite s)
      = (wordRuns s).flatMap fun r => if r.map fold = q then wordRuns new else [r] := by
  -- a word may begin at every place that the induction reaches
  suffices h : ∀ before : Option Char, (before.any isWordChar = false ∨
      s.head?.any isWordChar = false) → wordRuns (rewriteFrom (wholeBy fold q new) 0 before s)
        = (wordRuns s).flatMap fun r => if r.map fold = q then wordRuns new else [r] from
    h none (.inl rfl)
  induction s using wordInduction with
  | nil => exact fun _ _ => rfl
  | other c s h ih =>
    intro before _
    rw [rewriteFrom_miss (wholeBy_cons_eq_none ne letters h s), wordRuns_cons _ h,
      wordRuns_cons _ h]
    exact ih (some c) (.inl h)
  | word r s isWord stop ih =>
    intro before start
    have words : wordRuns (r ++ s) = r :: wordRuns s := by
      rw [wordRuns_append (.inr stop), isWord.wordRuns]
      rfl
    rw [words, List.flatMap_cons]
    by_cases same : r.map fold = q
    · have start' : before.any isWordChar = false := by
        rw [List.head?_append_of_ne_nil _ isWord.1, isWord.isPhrase.1] at start
        simpa using start
      rw [rewriteFrom_wholeBy ne letters start' stop same, if_pos same,
        wordRuns_append (.inl last), ih _ (.inr stop)]
    · have stop' : (rewriteFrom (wholeBy fold q new) 0 (behind before r) s).head?.any isWordChar
          = false := by
        rcases s with _ | ⟨c, s⟩
        · rfl
        · rw [rewriteFrom_miss (wholeBy_cons_eq_none ne letters (by simpa using stop) s)]
          exact stop
      rw [rewriteFrom_wholeBy_word ne letters isWord stop same, wordRuns_append (.inr stop'),
        isWord.wordRuns, ih _ (.inr stop), if_neg same]

end

/-! ## Patterns that act at a word -/

/-- Whether a pattern takes something only where a given word stands. -/
def AtWord (p : Pattern) (r : Text) : Prop :=
  IsWord r ∧ ∀ before s hit, p before s = some hit →
    boundary before s.head? = true ∧ ∃ v, s = r ++ v ∧ boundary r.getLast? v.head? = true

/-- A pattern takes nothing in a stretch that does not have the word at which it acts. -/
lemma AtWord.miss {p : Pattern} {r u v t : Text} {c : Char} (acts : AtWord p r)
    (parted : Parted isWordChar (u ++ c :: v) t) (absent : r ∉ wordRuns (u ++ c :: v)) :
    p (behind before u) (c :: (v ++ t)) = none := by
  rw [Option.eq_none_iff_forall_ne_some]
  intro hit found
  obtain ⟨⟨ne, all⟩, acts⟩ := acts
  obtain ⟨start, w, e, stop⟩ := acts _ _ _ found
  have head : isWordChar c = true := by
    obtain ⟨d, r, rfl⟩ := List.exists_cons_of_ne_nil ne
    rw [(List.cons.inj e).1]
    exact all d List.mem_cons_self
  have left : Parted isWordChar u (c :: v) := by
    rcases u.eq_nil_or_concat' with rfl | ⟨u, d, rfl⟩
    · exact .inl rfl
    · rw [behind_concat] at start
      exact .inl (by simpa [boundary, head] using start)
  have word : wordRuns r = [r] := IsWord.wordRuns ⟨ne, all⟩
  rw [← List.cons_append] at e
  -- the word reaches behind the stretch, where it is parted, or is one of its words
  rcases List.append_eq_append_iff.1 e with ⟨b, er, et⟩ | ⟨b, ev, ew⟩
  · rcases b with _ | ⟨d, b⟩
    · rw [List.append_nil] at er
      rw [wordRuns_append left, ← er, word] at absent
      simp at absent
    · have last : (u ++ c :: v).getLast?.any isWordChar = true := by
        rw [List.getLast?_append_of_ne_nil _ (List.cons_ne_nil c v),
          List.getLast?_eq_some_getLast (List.cons_ne_nil c v)]
        exact all _ (er ▸ List.mem_append_left _ (List.getLast_mem _))
      have first : t.head?.any isWordChar = true := by
        rw [et]
        exact all d (er ▸ List.mem_append_right _ List.mem_cons_self)
      rw [Parted, last, first] at parted
      simp at parted
  · have right : Parted isWordChar r b := by
      rcases b with _ | ⟨d, b⟩
      · exact .inr rfl
      · have last := (isPhrase_of_all ne all).2
        rw [ew, boundary, last] at stop
        exact .inr (by simpa using stop)
    rw [wordRuns_append left, ev, wordRuns_append right, word] at absent
    simp at absent

/-- A stretch that does not have the word at which a pattern acts stays. -/
lemma AtWord.rewriteFrom_append {p : Pattern} {r s t : Text} (acts : AtWord p r)
    (parted : Parted isWordChar s t) (absent : r ∉ wordRuns s) :
    rewriteFrom p 0 before (s ++ t) = s ++ rewriteFrom p 0 (behind before s) t := by
  apply rewriteFrom_miss_append
  intro u c v e
  exact acts.miss (e ▸ parted) (e ▸ absent)

/-- A text that does not have the word at which a pattern acts stays. -/
lemma AtWord.rewrite_eq_self {p : Pattern} {r s : Text} (acts : AtWord p r)
    (absent : r ∉ wordRuns s) : p.rewrite s = s := by
  have e : rewriteFrom p 0 none (s ++ []) = s ++ rewriteFrom p 0 (behind none s) [] :=
    acts.rewriteFrom_append (.inr rfl) absent
  rwa [List.append_nil, rewriteFrom_nil, List.append_nil] at e

/-- Between words a pattern takes nothing. -/
lemma AtWord.rewriteFrom_cons {p : Pattern} {r : Text} {c : Char} (acts : AtWord p r)
    (other : isWordChar c = false) (s : Text) :
    rewriteFrom p 0 before (c :: s) = c :: rewriteFrom p 0 (some c) s := by
  have absent : r ∉ wordRuns [c] := by
    rw [wordRuns_cons [] other]
    exact List.not_mem_nil
  exact acts.rewriteFrom_append (.inl (by simpa using other)) absent

/-- A stretch stays if nothing is taken at its front and the first character of the word is not
behind that. -/
lemma AtWord.rewriteFrom_front {p : Pattern} {r s t : Text} (acts : AtWord p r) (ne : s ≠ [])
    (other : ∀ c ∈ s.tail, r.head? ≠ some c) (miss : p before (s ++ t) = none) :
    rewriteFrom p 0 before (s ++ t) = s ++ rewriteFrom p 0 (behind before s) t := by
  obtain ⟨c, s, rfl⟩ := List.exists_cons_of_ne_nil ne
  obtain ⟨d, r, rfl⟩ := List.exists_cons_of_ne_nil acts.1.1
  rw [List.cons_append] at miss ⊢
  rw [rewriteFrom_miss miss, behind_cons]
  refine congrArg _ (rewriteFrom_miss_append s t fun u e v cut => ?_)
  rw [Option.eq_none_iff_forall_ne_some]
  intro hit found
  obtain ⟨-, w, front, -⟩ := acts.2 _ _ _ found
  refine other e ?_ (congrArg some (List.cons.inj front).1.symm)
  rw [List.tail_cons, cut]
  exact List.mem_append_right u List.mem_cons_self

/-! ## Phrases -/

/-- A phrase that stands as whole words acts at its first word. -/
lemma atWord_whole {r w : Text} (phrase : IsPhrase (r ++ w)) (word : IsWord r)
    (stop : w.head?.any isWordChar = false) : AtWord (whole (r ++ w) new) r := by
  refine ⟨word, fun before s hit found => ?_⟩
  obtain ⟨v, rfl, start, stop', _⟩ := whole_eq_some found
  refine ⟨start, w ++ v, List.append_assoc r w v, ?_⟩
  rcases w with _ | ⟨d, w⟩
  · rwa [List.append_nil] at stop'
  · rw [boundary, word.isPhrase.2]
    simpa using stop

/-- A word acts at itself. -/
lemma atWord_word (word : IsWord q) : AtWord (whole q new) q := by
  have phrase : IsPhrase (q ++ []) := by
    rw [List.append_nil]
    exact word.isPhrase
  have acts : AtWord (whole (q ++ []) new) q := atWord_whole phrase word rfl
  rwa [List.append_nil] at acts

/-- A phrase is replaced where it stands. -/
lemma rewriteFrom_whole {t : Text} (phrase : IsPhrase q) (start : before.any isWordChar = false)
    (parted : Parted isWordChar q t) :
    rewriteFrom (whole q new) 0 before (q ++ t)
      = new ++ rewriteFrom (whole q new) 0 (behind before q) t := by
  have stop : boundary q.getLast? t.head? = true := by
    rw [Parted, phrase.2] at parted
    simpa [boundary, phrase.2] using parted
  have start' : boundary before (q ++ t).head? = true := by
    rw [List.head?_append_of_ne_nil _ phrase.ne_nil, boundary, start, phrase.1]
    rfl
  exact rewriteFrom_hit phrase.ne_nil (whole_append start' stop)

/-- The characters of a rewritten text were there or are in the new text. -/
lemma mem_rewrite_whole {s : Text} {d : Char} (mem : d ∈ (whole q new).rewrite s) :
    d ∈ s ∨ d ∈ new := by
  rcases mem_rewriteFrom mem with mem | ⟨before, t, hit, found, mem⟩
  · exact .inl mem
  · obtain ⟨_, _, _, _, rfl⟩ := whole_eq_some found
    exact .inr mem

/-- Replacing a word acts on the words of a text. -/
lemma wordRuns_rewrite_whole (word : IsWord q) (last : new.getLast?.any isWordChar = false)
    (s : Text) :
    wordRuns ((whole q new).rewrite s)
      = (wordRuns s).flatMap fun r => if r = q then wordRuns new else [r] := by
  have letters : ∀ c, id c ∈ q → isWordChar c = true := word.2
  have acts := wordRuns_rewrite_wholeBy word.1 letters last s
  simp only [List.map_id] at acts
  exact acts

/-- Whether a phrase that goes on from one text into the next is kept out of the next: there are no
words in it, or the first one is none of the phrase, or a character comes before it that the phrase
does not have. -/
def Blocked (q t : Text) : Prop :=
  wordRuns t = [] ∨ (∃ r, (wordRuns t).head? = some r ∧ r ∉ wordRuns q) ∨
    ∃ u c v, t = u ++ c :: v ∧ wordRuns u = [] ∧ c ∉ q

/-- No end of a phrase stands in front of a text that keeps it out. -/
lemma Blocked.ne_append {a b t w : Text} (blocked : Blocked (a ++ b) t)
    (parted : Parted isWordChar a b) (last : b.getLast?.any isWordChar = true)
    (stop : boundary b.getLast? w.head? = true) : t ≠ b ++ w := by
  intro e
  have some : wordRuns b ≠ [] := wordRuns_ne_nil_of_last last
  have behind : Parted isWordChar b w := by
    rw [boundary, last] at stop
    exact .inr (by simpa using stop)
  have words : wordRuns t = wordRuns b ++ wordRuns w := by rw [e, wordRuns_append behind]
  rcases blocked with none | ⟨r, first, absent⟩ | ⟨u, c, v, et, none, absent⟩
  · rw [words] at none
    exact some (List.append_eq_nil_iff.1 none).1
  · rw [words, List.head?_append_of_ne_nil _ some] at first
    apply absent
    rw [wordRuns_append parted]
    exact List.mem_append_right _ (List.mem_of_head? first)
  · have inside : ∀ x, u ≠ b ++ x := by
      rintro x rfl
      obtain ⟨b, d, rfl⟩ := (b.eq_nil_or_concat').resolve_left (by rintro rfl; cases last)
      have word : isWordChar d = true := by simpa using last
      exact runs_ne_nil (by simp) word none
    rw [e] at et
    rcases List.append_eq_append_iff.1 et with ⟨x, eu, _⟩ | ⟨x, eb, ec⟩
    · exact inside x eu
    · rcases x with _ | ⟨d, x⟩
      · exact inside [] (by rw [eb, List.append_nil, List.append_nil])
      · rw [eb, ← (List.cons.inj ec).1] at absent
        simp at absent

/-- A stretch that is no longer than a phrase and not the phrase itself stays, unless the phrase
goes on behind it. -/
lemma rewriteFrom_whole_short {s t : Text} (phrase : IsPhrase q) (ne : s ≠ q)
    (short : s.length ≤ q.length) (parted : Parted isWordChar s t) (blocked : Blocked q t) :
    rewriteFrom (whole q new) 0 before (s ++ t)
      = s ++ rewriteFrom (whole q new) 0 (behind before s) t := by
  apply rewriteFrom_miss_append
  intro u c v e
  rw [Option.eq_none_iff_forall_ne_some]
  intro hit found
  obtain ⟨w, cut, _, stop, _⟩ := whole_eq_some found
  rw [← List.cons_append] at cut
  have lengths : u.length + (c :: v).length ≤ q.length := by
    rwa [e, List.length_append] at short
  -- the phrase begins at or behind the front of the stretch and is no shorter, so it goes on behind
  -- the stretch, or it is the stretch
  rcases List.append_eq_append_iff.1 cut with ⟨b, eq, et⟩ | ⟨b, ev, ew⟩
  · rcases b.eq_nil_or_concat' with rfl | ⟨b, d, rfl⟩
    · rw [List.append_nil] at eq
      have none : u = [] := by
        rw [← List.length_eq_zero_iff]
        rw [eq] at lengths
        omega
      rw [none, List.nil_append, ← eq] at e
      exact ne e
    · have last := phrase.2
      rw [eq, List.getLast?_append_of_ne_nil _ (by simp)] at last
      rw [eq, List.getLast?_append_of_ne_nil _ (by simp)] at stop
      have middle : Parted isWordChar (c :: v) (b ++ [d]) := by
        have lastS : s.getLast? = (c :: v).getLast? := by
          rw [e, List.getLast?_append_of_ne_nil _ (List.cons_ne_nil c v)]
        have headT : t.head? = (b ++ [d]).head? := by
          rw [et, List.head?_append_of_ne_nil _ (by simp)]
        rwa [Parted, ← lastS, ← headT]
      exact (eq ▸ blocked).ne_append middle last stop et
  · have longer := congrArg List.length ev
    simp only [List.length_append] at longer lengths
    have none : u = [] := List.length_eq_zero_iff.1 (by omega)
    have none' : b = [] := List.length_eq_zero_iff.1 (by omega)
    rw [none, List.nil_append] at e
    rw [none', List.append_nil] at ev
    exact ne (e.trans ev)

end Pattern

end Sentential.Text
