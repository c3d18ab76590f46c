import Mathlib.Data.List.Sort
import Mathlib.Tactic.Lemma
import Sentential.Proofs.Dictionary.Access
import Sentential.Proofs.Sentence.Spoken
import Sentential.Proofs.Symbolic.Label
import Sentential.Sentence.Substitution

/-!
# Labels stand for phrases

While labels are put for phrases, one entry after the other, an atom is shown as its label or as a
phrase that has not had its turn (`Waits`). A phrase whose turn it is stands only where an atom is
shown as it: the texts of other atoms are labels or no longer, and no phrase reaches from an atom
into the items behind it (`apart_items`). So in the end all atoms are shown as their labels
(`tells_labels`). An entry whose pattern the engine refuses has no turn (`substitute_eq`).
-/

namespace Sentential

open Text Symbolic

namespace Sentence

/-! ## Phrases that have a turn -/

section
variable [Engine] {entry : Text × Text} {s : Text}

/-- Whether the engine accepts the pattern for a phrase. -/
def Accepts (phrase : Text) : Prop :=
  refusal? phrase = none

instance : DecidablePred Accepts := fun phrase =>
  inferInstanceAs (Decidable (refusal? phrase = none))

/-- A label is put for a phrase whose pattern is accepted. -/
lemma putLabel_of_accepts (accepts : Accepts entry.2) :
    putLabel s entry = (Pattern.whole (lower entry.2) ([' '] ++ entry.1 ++ [' '])).rewrite s := by
  rw [putLabel, accepts]

/-- A phrase whose pattern is refused is passed over. -/
lemma putLabel_of_refused (refused : ¬ Accepts entry.2) : putLabel s entry = s := by
  obtain ⟨cause, refused⟩ := Option.ne_none_iff_exists'.1 refused
  rw [putLabel, refused]

/-- The entries of a dictionary whose phrases have a turn, in the order of their turns. -/
def turns (d : Dictionary) : List (Text × Text) :=
  (replacements d).filter fun entry => decide (Accepts entry.2)

/-- Only entries of the dictionary have a turn, and only if their patterns are accepted. -/
lemma of_mem_turns {d : Dictionary} (mem : entry ∈ turns d) :
    entry ∈ d.entries ∧ Accepts entry.2 := by
  obtain ⟨mem, accepts⟩ := List.mem_filter.1 mem
  rw [replacements, List.mem_mergeSort] at mem
  exact ⟨(List.mem_filter.1 mem).1, of_decide_eq_true accepts⟩

/-- Labels are put for the phrases that have a turn. -/
lemma substitute_eq (d : Dictionary) (s : Text) : substitute d s = (turns d).foldl putLabel s := by
  rw [substitute, turns, List.foldl_filter]
  refine List.foldl_ext _ _ s fun out entry _ => ?_
  by_cases accepts : Accepts entry.2
  · rw [decide_eq_true accepts, if_pos rfl]
  · rw [decide_eq_false accepts, putLabel_of_refused accepts]
    rfl

end

/-! ## Labels and phrases -/

/-- A capital letter is lowered to another character. -/
lemma lowerChar_capital : ∀ c ∈ capitals, lowerChar c ≠ [c] := by
  decide

section
variable {q l : Text}

/-- No label is a word of a phrase in normal form, for it begins with a capital letter. -/
lemma IsNormal.label_not_mem (h : IsNormal q) (label : IsLabel l) : l ∉ wordRuns q := by
  intro mem
  cases l with
  | nil => exact label
  | cons c rest =>
    have inside : c ∈ q := (of_mem_runs mem).2.2.subset List.mem_cons_self
    exact lowerChar_capital c label.1 (h.steady inside).1.2

/-- A spoken phrase is no label. -/
lemma IsSpoken.ne_label (h : IsSpoken q) (label : IsLabel l) : l ≠ q := by
  rintro rfl
  apply h.normal.label_not_mem label
  rw [label.isWord.wordRuns]
  exact List.mem_singleton_self l

end

/-! ## Items around a phrase -/

/-- The words of fixed items are none of spoken phrases. -/
lemma fixed_text_words : ∀ i ∈ fixedItems, ∀ w ∈ wordRuns ((spoken id).text i), w ∈ fixedWords := by
  decide

/-- A fixed item has a word that no spoken phrase has, or is a parenthesis. -/
lemma fixed_text_marks : ∀ i ∈ fixedItems, (∃ w ∈ wordRuns ((spoken id).text i), w ∈ fixedWords) ∨
    (spoken id).text i = ['('] ∨ (spoken id).text i = [')'] := by
  decide

/-- The words between operands begin with one that no spoken phrase has. -/
lemma first_word_link (op : Connective) :
    ∃ r, (wordRuns (linkWord op)).head? = some r ∧ r ∈ fixedWords := by
  cases op with
  | and => exact ⟨"e".toList, by decide⟩
  | iff => exact ⟨"se".toList, by decide⟩
  | _ => exact ⟨"ou".toList, by decide⟩

/-- Whether an item, if it is an atom, is shown as a label or no longer than a phrase. -/
def Short (q : Text) (shown : Text → Text) (i : Item) : Prop :=
  (∃ l, i = .atom l ∧ (IsLabel (shown l) ∨ (shown l).length ≤ q.length)) ∨ i ∈ fixedItems

/-- How atoms are shown when a label has been put for a phrase. -/
def showLabel (label q : Text) (shown : Text → Text) (l : Text) : Text :=
  if shown l = q then label else shown l

section
variable {q : Text} {shown : Text → Text} {i : Item} {is : List Item}

/-- The items besides atoms are worded unlike any phrase. -/
lemma IsSpoken.ne_fixed (h : IsSpoken q) (fixed : i ∈ fixedItems) : (spoken shown).text i ≠ q := by
  rw [spoken_text (ne_atom_of_mem_fixedItems fixed)]
  rcases fixed_text_marks i fixed with ⟨w, mem, key⟩ | e | e
  · rintro rfl
    exact h.words w mem key
  · rw [e]
    rintro rfl
    exact h.parens.1 List.mem_cons_self
  · rw [e]
    rintro rfl
    exact h.parens.2 List.mem_cons_self

/-- No phrase goes on from an atom into the items behind it. -/
lemma IsSpoken.fenced (h : IsSpoken q) {label : Text}
    (chain : (.atom label :: is).IsChain Adjoins) :
    Fenced q (is.map (spoken shown).text) := by
  have word : ∀ {r}, r ∈ fixedWords → r ∉ wordRuns q := fun key mem => h.words _ mem key
  cases is with
  | nil => exact trivial
  | cons i is =>
    have adjoins : ∀ l, i ≠ .atom l := (List.isChain_cons_cons.1 chain).1
    cases i with
    | atom l => exact absurd rfl (adjoins l)
    | negation =>
      have first : (wordRuns "não é verdade que".toList).head? = some "não".toList := by decide
      exact .inl ⟨_, first, word (by decide)⟩
    | leftParen => exact .inr ⟨'(', [], rfl, h.parens.1⟩
    | rightParen => exact .inr ⟨')', [], rfl, h.parens.2⟩
    | link op =>
      obtain ⟨r, first, key⟩ := first_word_link op
      exact .inl ⟨r, first, word key⟩
    | condition =>
      have first : (wordRuns "se".toList).head? = some "se".toList := by decide
      exact .inl ⟨_, first, word (by decide)⟩
    | conclusion =>
      have first : (wordRuns "então".toList).head? = some "então".toList := by decide
      exact .inl ⟨_, first, word (by decide)⟩
    | contrast =>
      have first : (wordRuns "e".toList).head? = some "e".toList := by decide
      exact .inl ⟨_, first, word (by decide)⟩
    | denial =>
      have first : (wordRuns "não ambos".toList).head? = some "não".toList := by decide
      exact .inl ⟨_, first, word (by decide)⟩

/-- A phrase stands among items only as one of them if it is as long as every atom that is not shown
as a label. -/
lemma apart_items (h : IsSpoken q) {us : List Item} (chain : (us ++ i :: is).IsChain Adjoins)
    (short : ∀ j ∈ us ++ i :: is, Short q shown j) :
    Apart q ((spoken shown).text i) (is.map (spoken shown).text) := by
  obtain ⟨r, w, -, -, -, words⟩ := h.phrase.first
  have first : (wordRuns q).head? = some r := by rw [words, List.head?_cons]
  have mem : r ∈ wordRuns q := List.mem_of_head? first
  rcases short i (by simp) with ⟨l, rfl, label | short⟩ | fixed
  -- labels and fixed items do not have the first word of the phrase
  · refine .inr (.inl ⟨r, first, fun found => ?_⟩)
    have same : r = shown l := by
      rwa [show (spoken shown).text (.atom l) = shown l from rfl,
        label.isWord.wordRuns, List.mem_singleton] at found
    exact h.normal.label_not_mem label (same ▸ mem)
  -- a shorter phrase could at most be where this one begins, and then this one went on behind it
  · exact .inr (.inr ⟨short, h.fenced (List.isChain_append.1 chain).2.1⟩)
  · refine .inr (.inl ⟨r, first, fun found => ?_⟩)
    rw [spoken_text (ne_atom_of_mem_fixedItems fixed)] at found
    exact h.words r mem (fixed_text_words i fixed r found)

/-- Putting a label for a phrase shows the atoms by the label that were shown by the phrase. -/
lemma tells_putLabel [Engine] (h : IsSpoken q) (accepts : Accepts q) (chain : is.IsChain Adjoins)
    (short : ∀ i ∈ is, Short q shown i) {s : Text} (tells : Tells (is.map (spoken shown).text) s)
    (label : Text) :
    Tells (is.map (spoken (showLabel label q shown)).text) (putLabel s (label, q)) := by
  rw [putLabel_of_accepts accepts, h.lower_eq]
  refine tells_rewrite_whole h.phrase ?_ (fun i mem => ?_) tells
  · rintro us i vs rfl
    exact apart_items h chain short
  · rcases short i mem with ⟨l, rfl, -⟩ | fixed
    · rfl
    · have ne := ne_atom_of_mem_fixedItems fixed
      rw [if_neg (h.ne_fixed fixed), spoken_text ne]
      exact (spoken_text ne).symm

end

/-! ## All entries -/

/-- Whether an atom is shown as its label, or as its phrase in one of the entries that are still to
be taken. -/
def Waits (es : List (Text × Text)) (shown : Text → Text) (l : Text) : Prop :=
  shown l = l ∨ (l, shown l) ∈ es

/-- When its entry has been taken, an atom is shown as its label. -/
lemma waits_putLabel {entry : Text × Text} {es : List (Text × Text)} {shown : Text → Text}
    {l : Text} (h : IsSpoken entry.2) (label : IsLabel l)
    (distinct : ((entry :: es).map Prod.snd).Nodup) (waits : Waits (entry :: es) shown l) :
    Waits es (showLabel entry.1 entry.2 shown) l := by
  rw [Waits, showLabel]
  rcases waits with e | mem
  · have other : shown l ≠ entry.2 := by
      rw [e]
      exact h.ne_label label
    left
    rw [if_neg other, e]
  · rcases List.mem_cons.1 mem with rfl | mem
    · exact .inl (if_pos rfl)
    -- no other entry has the same phrase, so the atom goes on waiting
    · have other : shown l ≠ entry.2 := by
        intro e
        apply (List.nodup_cons.1 distinct).1
        exact List.mem_map.2 ⟨_, mem, e⟩
      right
      rwa [if_neg other]

section
variable {is : List Item} {ls : List Text}

/-- While labels are put for phrases, the phrase whose turn it is is as long as any that waits. -/
lemma short_of_waits {entry : Text × Text} {es : List (Text × Text)} {shown : Text → Text}
    (labels : ∀ l ∈ ls, IsLabel l)
    (sorted : (entry :: es).Pairwise fun a b => b.2.length ≤ a.2.length)
    (waits : ∀ l ∈ ls, Waits (entry :: es) shown l) {i : Item}
    (known : (∃ l ∈ ls, i = .atom l) ∨ i ∈ fixedItems) : Short entry.2 shown i := by
  refine known.imp_left ?_
  rintro ⟨l, leaf, rfl⟩
  refine ⟨l, rfl, ?_⟩
  rcases waits l leaf with e | mem
  · left
    rw [e]
    exact labels l leaf
  · right
    rcases List.mem_cons.1 mem with rfl | mem
    · exact Nat.le_refl _
    · exact (List.pairwise_cons.1 sorted).1 _ mem

/-- When all entries have been taken, longer phrases first, every atom is shown as its label. -/
lemma tells_foldl_putLabel [Engine] (chain : is.IsChain Adjoins)
    (known : ∀ i ∈ is, (∃ l ∈ ls, i = .atom l) ∨ i ∈ fixedItems) (labels : ∀ l ∈ ls, IsLabel l)
    {es : List (Text × Text)} (phrases : ∀ e ∈ es, IsSpoken e.2 ∧ Accepts e.2)
    (sorted : es.Pairwise fun a b => b.2.length ≤ a.2.length)
    (distinct : (es.map Prod.snd).Nodup) {shown : Text → Text}
    (waits : ∀ l ∈ ls, Waits es shown l) {s : Text}
    (tells : Tells (is.map (spoken shown).text) s) :
    Tells (is.map (spoken id).text) (es.foldl putLabel s) := by
  -- the entries that are left are the induction, the invariant is that every atom waits for them
  induction es generalizing shown s with
  | nil =>
    rwa [List.map_congr_left fun i mem => ?_]
    rcases known i mem with ⟨l, leaf, rfl⟩ | fixed
    · exact ((waits l leaf).resolve_right List.not_mem_nil).symm
    · exact (spoken_text (ne_atom_of_mem_fixedItems fixed)).symm
  | cons entry es ih =>
    obtain ⟨spokenEntry, accepts⟩ := phrases entry List.mem_cons_self
    have short : ∀ i ∈ is, Short entry.2 shown i :=
      fun i mem => short_of_waits labels sorted waits (known i mem)
    refine ih (fun e mem => phrases e (List.mem_cons_of_mem entry mem))
      (List.pairwise_cons.1 sorted).2 (List.nodup_cons.1 distinct).2
      (fun l leaf => waits_putLabel spokenEntry (labels l leaf) distinct (waits l leaf)) ?_
    exact tells_putLabel spokenEntry accepts chain short tells entry.1

end

end Sentence

/-! ## Dictionaries -/

/-- A dictionary whose labels name atoms and whose phrases, no two of which are the same, can be
told from what stands around them. -/
@[mk_iff]
structure Dictionary.IsSpeakable (d : Dictionary) : Prop where
  labels : ∀ entry ∈ d.entries, IsAtomName entry.1
  phrases : ∀ entry ∈ d.entries, Sentence.IsSpoken entry.2
  distinct : (d.entries.map Prod.snd).Nodup

instance : DecidablePred Dictionary.IsSpeakable := fun d =>
  decidable_of_iff' _ d.isSpeakable_iff

namespace Sentence

section
variable {d : Dictionary} {f : Formula}

/-- A spoken phrase is not blank. -/
lemma IsSpoken.not_isBlankText {p : Text} (h : IsSpoken p) : isBlankText p = false :=
  h.isClear.1

/-- A label has the phrase of its entry. -/
lemma lookup_of_mem {entry : Text × Text} (mem : entry ∈ d.entries) :
    d.entries.lookup entry.1 = some entry.2 :=
  (d.get?_eq_some_iff entry.1).2 mem

/-- A label of a speakable dictionary has an entry with its phrase. -/
lemma mem_entries_of_mem_labels (speakable : d.IsSpeakable) {l : Text} (mem : l ∈ d.labels) :
    (l, (d.phrase? l).getD l) ∈ d.entries := by
  obtain ⟨entry, memE, rfl⟩ := List.mem_map.1 mem
  have phrase : d.phrase? entry.1 = some entry.2 := by
    rw [Dictionary.phrase?, Dictionary.get?, lookup_of_mem memE, Option.filter_some,
      (speakable.phrases _ memE).not_isBlankText]
    rfl
  rwa [phrase, Option.getD_some]

/-- Where no phrase is blank, all entries have their turns. -/
lemma filter_entries (solid : ∀ entry ∈ d.entries, isBlankText entry.2 = false) :
    (d.entries.filter fun entry => !isBlankText entry.2) = d.entries := by
  rw [List.filter_eq_self]
  intro entry mem
  rw [solid entry mem]
  rfl

/-- If no phrase is blank, the replacements are the entries in some order. -/
lemma replacements_perm (solid : ∀ entry ∈ d.entries, isBlankText entry.2 = false) :
    (replacements d).Perm d.entries := by
  rw [replacements, filter_entries solid]
  exact List.mergeSort_perm _ _

/-- Phrases that come in the order of their lengths have their turns in that order. -/
lemma substitute_of_sorted [Engine] (solid : ∀ entry ∈ d.entries, isBlankText entry.2 = false)
    (sorted : d.entries.Pairwise fun a b => b.2.length ≤ a.2.length) (s : Text) :
    substitute d s = d.entries.foldl putLabel s := by
  rw [substitute, replacements, filter_entries solid, List.mergeSort_of_pairwise]
  exact sorted.imp decide_eq_true

/-- Longer phrases are replaced before shorter ones. -/
lemma replacements_sorted (d : Dictionary) :
    (replacements d).Pairwise fun a b => b.2.length ≤ a.2.length := by
  have sorted : (replacements d).Pairwise fun a b => decide (b.2.length ≤ a.2.length) = true := by
    apply List.pairwise_mergeSort
    · intro a b c hab hbc
      rw [decide_eq_true_eq] at hab hbc ⊢
      exact Nat.le_trans hbc hab
    · intro a b
      rw [Bool.or_eq_true, decide_eq_true_eq, decide_eq_true_eq]
      exact Nat.le_total b.2.length a.2.length
  exact sorted.imp of_decide_eq_true

/-- The entries of a dictionary without blank phrases that have a turn are those whose patterns are
accepted. -/
lemma mem_turns_iff [Engine] (solid : ∀ entry ∈ d.entries, isBlankText entry.2 = false)
    {entry : Text × Text} : entry ∈ turns d ↔ entry ∈ d.entries ∧ Accepts entry.2 := by
  rw [turns, List.mem_filter, (replacements_perm solid).mem_iff, decide_eq_true_iff]

/-- Longer phrases have their turns before shorter ones. -/
lemma turns_sorted [Engine] (d : Dictionary) :
    (turns d).Pairwise fun a b => b.2.length ≤ a.2.length :=
  (replacements_sorted d).filter _

/-- Each phrase has one turn. -/
lemma turns_distinct [Engine] (solid : ∀ entry ∈ d.entries, isBlankText entry.2 = false)
    (distinct : (d.entries.map Prod.snd).Nodup) : ((turns d).map Prod.snd).Nodup :=
  (((replacements_perm solid).map Prod.snd).nodup_iff.2 distinct).sublist
    (List.filter_sublist.map Prod.snd)

/-- With labels for the phrases of the dictionary, a text of items tells them with the labels of its
atoms if it has told them with their phrases, whose patterns are accepted. -/
lemma tells_substitute_of_entries [Engine] {is : List Item} {ls : List Text}
    {shown : Text → Text} {s : Text} (labels : ∀ entry ∈ d.entries, IsLabel entry.1)
    (phrases : ∀ entry ∈ d.entries, IsSpoken entry.2) (distinct : (d.entries.map Prod.snd).Nodup)
    (chain : is.IsChain Adjoins) (known : ∀ i ∈ is, (∃ l ∈ ls, i = .atom l) ∨ i ∈ fixedItems)
    (entries : ∀ l ∈ ls, (l, shown l) ∈ d.entries) (accepts : ∀ l ∈ ls, Accepts (shown l))
    (tells : Tells (is.map (spoken shown).text) s) :
    Tells (is.map (spoken id).text) (substitute d s) := by
  have solid : ∀ e ∈ d.entries, isBlankText e.2 = false :=
    fun e mem => (phrases e mem).not_isBlankText
  rw [substitute_eq]
  apply tells_foldl_putLabel chain known
  · exact fun l mem => labels _ (entries l mem)
  · exact fun e mem => ((mem_turns_iff solid).1 mem).imp_left (phrases e)
  · exact turns_sorted d
  · exact turns_distinct solid distinct
  · exact fun l mem => .inr ((mem_turns_iff solid).2 ⟨entries l mem, accepts l mem⟩)
  · exact tells

/-- So the normal form of a reading tells the items of the formula with the labels of its atoms. -/
lemma tells_labels [Engine] (speakable : d.IsSpeakable) (known : ∀ l ∈ f.leaves, l ∈ d.labels)
    (accepts : ∀ entry ∈ d.entries, entry.1 ∈ f.leaves → Accepts entry.2) :
    Tells ((items f).map (spoken id).text) (substitute d (normal (f.reading d.phrase?))) := by
  have entries := fun l leaf => mem_entries_of_mem_labels speakable (known l leaf)
  have clear : ∀ l ∈ f.leaves, IsSpoken ((d.phrase? l).getD l) :=
    fun l leaf => speakable.phrases _ (entries l leaf)
  exact tells_substitute_of_entries (fun e mem => (speakable.labels e mem).1) speakable.phrases
    speakable.distinct (placed_items f).chain (fun _ => mem_items) entries
    (fun l leaf => accepts _ (entries l leaf) leaf) (tells_normal_reading clear)

end

end Sentence

end Sentential
