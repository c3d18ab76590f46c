import Mathlib.Tactic.Lemma
import Sentential.Proofs.Symbolic.Naming
import Sentential.Proofs.Text.Literal
import Sentential.Proofs.Text.Sides

/-!
# The main spelling

The steps towards the main spelling act on each word between blanks apart, and none of them writes a
blank, so the main spelling is made of the words one by one (`mainSpelling_eq`): the blanks between
and around them do not matter. Behind the steps no word has a spelling left that one of them
replaces. An arrow is gone once it has been replaced, for later steps only write signs that are in
no arrow, and the words that follow are no names of connectives. So they change nothing any more
(`respelled_respelled`), and neither does the main spelling of a main spelling.
-/

namespace Sentential.Symbolic

open Text

/-- A text behind the steps towards the main spelling, with its blanks as they were. -/
def respelled (s : Text) : Text :=
  aliases.foldl (fun s p => p.rewrite s) s

/-- The main spelling is tidied at the end. -/
lemma mainSpelling_eq_tidy (s : Text) : mainSpelling s = tidy (respelled s) := rfl

/-! ## The words of the main spelling -/

/-- Every step acts apart on the two sides of a character that is in no word and no arrow. -/
lemma partedAt_of_mem_aliases {d : Char} (other : isWordChar d = false)
    (plain : d ∉ "<->=".toList) {p : Pattern} (mem : p ∈ aliases) : p.PartedAt d := by
  have arrow : ∀ phrase glyph, phrase ≠ [] → (∀ c ∈ phrase, c ∈ "<->=".toList) →
      (Pattern.literal phrase [glyph]).PartedAt d :=
    fun _ _ ne all => Pattern.partedAt_literal ne fun mem => plain (all d mem)
  have word : ∀ word glyph, word ≠ [] → (∀ c ∈ word, c ∈ smallLetters) →
      (wordAlias word glyph).PartedAt d := by
    refine fun _ _ ne small => Pattern.partedAt_wholeBy ne (fun mem => ?_) other
    rw [isWordChar_of_foldLetter (small _ mem)] at other
    cases other
  simp only [aliases, List.mem_cons, List.not_mem_nil, or_false] at mem
  rcases mem with rfl | rfl | rfl | rfl | rfl
  · exact (arrow _ _ (by decide) (by decide)).or (arrow _ _ (by decide) (by decide))
  · exact arrow _ _ (by decide) (by decide)
  · exact word _ _ (by decide) (by decide)
  · exact word _ _ (by decide) (by decide)
  · exact word _ _ (by decide) (by decide)

/-- The other spellings of connectives are replaced apart on both sides of a blank. -/
lemma partedAt_of_isBlank {d : Char} (blank : isBlank d = true) {p : Pattern}
    (mem : p ∈ aliases) : p.PartedAt d := by
  have table : ∀ c ∈ "<->=".toList, isBlank c = false := by decide
  refine partedAt_of_mem_aliases (isWordChar_of_isBlank blank) (fun mem => ?_) mem
  rw [table d mem] at blank
  cases blank

/-- The texts on both sides of a blank are respelled apart. -/
lemma respelled_append_cons {d : Char} (blank : isBlank d = true) (s t : Text) :
    respelled (s ++ d :: t) = respelled s ++ d :: respelled t :=
  Pattern.foldl_rewrite_append (fun _ mem => partedAt_of_isBlank blank mem) s t

/-- What every step writes is a sign. -/
lemma writes_of_mem_aliases {p : Pattern} (mem : p ∈ aliases) :
    ∃ g, isBlank g = false ∧ p.Writes g := by
  simp only [aliases, List.mem_cons, List.not_mem_nil, or_false] at mem
  rcases mem with rfl | rfl | rfl | rfl | rfl
  · exact ⟨'↔', by decide, (Pattern.writes_literal _ _).or (Pattern.writes_literal _ _)⟩
  · exact ⟨'→', by decide, Pattern.writes_literal _ _⟩
  · exact ⟨'⊕', by decide, Pattern.writes_wholeBy _ _ _⟩
  · exact ⟨'↔', by decide, Pattern.writes_wholeBy _ _ _⟩
  · exact ⟨'→', by decide, Pattern.writes_wholeBy _ _ _⟩

/-- A word between blanks stays one. -/
lemma respelled_word {w : Text} (ne : w ≠ []) (solid : ∀ c ∈ w, isBlank c = false) :
    respelled w ≠ [] ∧ ∀ c ∈ respelled w, isBlank c = false := by
  refine List.foldlRecOn (motive := fun w => w ≠ [] ∧ ∀ c ∈ w, isBlank c = false) aliases _
    ⟨ne, solid⟩ ?_
  rintro w ⟨ne, solid⟩ p mem
  obtain ⟨g, sign, writes⟩ := writes_of_mem_aliases mem
  refine ⟨?_, fun c mem => ?_⟩
  · obtain ⟨c, w, rfl⟩ := List.exists_cons_of_ne_nil ne
    rw [Pattern.rewrite]
    cases found : p none (c :: w) with
    | none =>
      rw [Pattern.rewriteFrom_miss found]
      exact List.cons_ne_nil _ _
    | some hit =>
      rw [writes.rewriteFrom_hit found]
      exact List.cons_ne_nil _ _
  · rcases Pattern.mem_rewriteFrom mem with mem | ⟨before, s, hit, found, mem⟩
    · exact solid c mem
    · rw [writes before s hit found, List.mem_singleton] at mem
      rw [mem, sign]

/-- The steps keep the blanks and act on the words between them. -/
lemma words_respelled (s : Text) : words (respelled s) = (words s).map respelled := by
  induction hn : s.length using Nat.strongRecOn generalizing s with
  | ind n ih =>
    by_cases solid : ∀ c ∈ s, isBlank c = false
    · by_cases ne : s = []
      · subst ne
        rfl
      · obtain ⟨ne', solid'⟩ := respelled_word ne solid
        rw [words_of_no_blank ne solid, words_of_no_blank ne' solid', List.map_singleton]
    · push Not at solid
      obtain ⟨c, mem, blank⟩ := solid
      obtain ⟨u, v, rfl⟩ := List.append_of_mem mem
      have blank : isBlank c = true := by simpa using blank
      have shorter : u.length < n ∧ v.length < n := by
        rw [List.length_append, List.length_cons] at hn
        omega
      rw [respelled_append_cons blank, words_append_cons _ _ blank, words_append_cons _ _ blank,
        List.map_append, ih _ shorter.1 u rfl, ih _ shorter.2 v rfl]

/-- The main spelling of a text consists of its words, each behind all steps. -/
lemma mainSpelling_eq (s : Text) : mainSpelling s = unwords ((words s).map respelled) := by
  rw [mainSpelling_eq_tidy, tidy, words_respelled]

/-! ## Nothing is left to replace -/

/-- A step that replaces a word brings up no arrow. -/
lemma not_infix_wordAlias {q s word : Text} {glyph : Char} (new : glyph ∉ q) (ne : q ≠ [])
    (absent : ¬ q <:+: s) : ¬ q <:+: (wordAlias word glyph).rewrite s :=
  fun inside => absent ((Pattern.writes_wholeBy _ _ _).old_place new ne inside)

/-- No arrow is left behind the steps. -/
lemma not_infix_respelled (s : Text) :
    ¬ "->".toList <:+: respelled s ∧ ¬ "<=>".toList <:+: respelled s := by
  simp only [respelled, aliases, List.foldl_cons, List.foldl_nil]
  refine ⟨?_, ?_⟩
  · iterate 3 refine not_infix_wordAlias (by decide) (by decide) ?_
    exact (Pattern.writes_literal _ _).gone (by decide) (by decide)
      fun before v => Pattern.literal_append _ _ v before
  · iterate 3 refine not_infix_wordAlias (by decide) (by decide) ?_
    intro inside
    have inside := (Pattern.writes_literal _ _).old_place (by decide) (by decide) inside
    have writes := (Pattern.writes_literal "<->".toList '↔').or
      (Pattern.writes_literal "<=>".toList '↔')
    refine writes.gone (by decide) (by decide) (fun before v none => ?_) inside
    exact Pattern.literal_append _ _ v before (Option.or_eq_none_iff.1 none).2

/-- What the steps have left is left by each of them. -/
lemma rewrite_respelled {s : Text} {p : Pattern} (mem : p ∈ aliases) :
    p.rewrite (respelled s) = respelled s := by
  obtain ⟨single, double⟩ := not_infix_respelled s
  have inner : "->".toList <:+: "<->".toList := by decide
  have words : ∀ r ∈ wordRuns (respelled s), r.map foldLetter ∉ connectiveWords := by
    intro r mem
    rw [← wordRuns_tidy] at mem
    exact mem_wordRuns_mainSpelling mem
  have word : ∀ word ∈ connectiveWords, ∀ glyph,
      (wordAlias word glyph).rewrite (respelled s) = respelled s := by
    intro word mem glyph
    have table : ∀ word ∈ connectiveWords, word ≠ [] ∧ ∀ c ∈ word, c ∈ smallLetters := by decide
    obtain ⟨ne, small⟩ := table word mem
    refine Pattern.rewrite_wholeBy_eq_self ne
      (fun c mem => isWordChar_of_foldLetter (small _ mem)) fun r run e => ?_
    exact words r run (e ▸ mem)
  simp only [aliases, List.mem_cons, List.not_mem_nil, or_false] at mem
  rcases mem with rfl | rfl | rfl | rfl | rfl
  · have left : (Pattern.literal "<->".toList ['↔']).Passes (respelled s) :=
      Pattern.passes_literal fun inside => single (inner.trans inside)
    exact (left.or (Pattern.passes_literal double)).rewrite_eq
  · exact (Pattern.passes_literal single).rewrite_eq
  · exact word _ (by decide) _
  · exact word _ (by decide) _
  · exact word _ (by decide) _

/-- What is respelled stays as it is. -/
lemma respelled_respelled (s : Text) : respelled (respelled s) = respelled s :=
  List.foldlRecOn (motive := fun t => t = respelled s) aliases _ rfl
    fun t same p mem => by rw [same, rewrite_respelled mem]

/-- The main spelling is its own main spelling. -/
lemma mainSpelling_mainSpelling (s : Text) : mainSpelling (mainSpelling s) = mainSpelling s := by
  have twice : respelled ∘ respelled = respelled := by
    funext w
    rw [Function.comp_apply, respelled_respelled]
  calc mainSpelling (mainSpelling s)
      = unwords ((words (tidy (respelled s))).map respelled) := mainSpelling_eq _
    _ = unwords ((words s).map respelled) := by
      rw [words_tidy, words_respelled, List.map_map, twice]
    _ = mainSpelling s := (mainSpelling_eq s).symm

/-! ## Texts with other blanks -/

/-- Texts that differ in their blanks: stretches of blanks are replaced by others, and blanks are
put around the text. -/
inductive Respaced : Text → Text → Prop where
  | between {front back v w} :
    v ≠ [] → isBlankText v = true →
    w ≠ [] → isBlankText w = true →
    Respaced (front ++ v ++ back) (front ++ w ++ back)
  | around {s v w} :
    isBlankText v = true → isBlankText w = true →
    Respaced s (v ++ s ++ w)
  | trans {s t u} :
    Respaced s t → Respaced t u →
    Respaced s u

/-- Blanks in front of a text are none of its words. -/
lemma words_blanks_append {v : Text} (blank : isBlankText v = true) (t : Text) :
    words (v ++ t) = words t := by
  induction v with
  | nil => rfl
  | cons c v ih =>
    obtain ⟨first, rest⟩ := Bool.and_eq_true_iff.1 blank
    rw [List.cons_append, words_cons_blank _ first, ih rest]

/-- Blanks part the words on their two sides. -/
lemma words_append_blanks {v : Text} (ne : v ≠ []) (blank : isBlankText v = true) (s t : Text) :
    words (s ++ v ++ t) = words s ++ words t := by
  obtain ⟨c, v, rfl⟩ := List.exists_cons_of_ne_nil ne
  obtain ⟨first, rest⟩ := Bool.and_eq_true_iff.1 blank
  rw [List.append_assoc, List.cons_append, words_append_cons _ _ first,
    words_blanks_append rest]

/-- The words between the blanks stay the same. -/
lemma Respaced.words_eq {s t : Text} (spaced : Respaced s t) : words t = words s := by
  induction spaced with
  | between nev blankV new blankW =>
    rw [words_append_blanks nev blankV, words_append_blanks new blankW]
  | @around s v w blankV blankW =>
    rw [List.append_assoc, words_blanks_append blankV]
    by_cases new : w = []
    · rw [new, List.append_nil]
    · have behind := words_append_blanks new blankW s []
      have none : words [] = [] := rfl
      rwa [List.append_nil, none, List.append_nil] at behind
  | trans _ _ ihs iht => exact iht.trans ihs

/-- Whether two texts have the same main spelling and tokens and read alike, errors and their places
included. -/
def ReadsAlike (s t : Text) : Prop :=
  mainSpelling t = mainSpelling s ∧ tokenize t = tokenize s ∧ read t = read s

/-- Texts with the same main spelling read alike. -/
lemma readsAlike_of_eq {s t : Text} (same : mainSpelling t = mainSpelling s) : ReadsAlike s t := by
  have tokens : tokenize t = tokenize s := by rw [tokenize, same, tokenize]
  exact ⟨same, tokens, by rw [read, tokens, read]⟩

/-- A text reads like its main spelling, which is its own main spelling, and like every text with
other blanks. -/
theorem readsAlike_respaced (s : Text) :
    ReadsAlike s (mainSpelling s) ∧ ∀ t, Respaced s t → ReadsAlike s t := by
  refine ⟨readsAlike_of_eq (mainSpelling_mainSpelling s), fun t spaced => readsAlike_of_eq ?_⟩
  rw [mainSpelling_eq, mainSpelling_eq, spaced.words_eq]

/-- An arrow inside of another, a word behind an arrow and a character that no token has, whose
place is counted in the main spelling. -/
theorem readsAlike_respaced_of_invalid_symbol :
    let s : Text := "p<=>q  Implies\t(r<->s ?".toList
    let t : Text := "\u2003p<=>q\u00a0Implies\n (r<->s ? ".toList
    Respaced s t ∧ mainSpelling s = "p↔q → (r↔s ?".toList ∧
      read s = .error (.invalidSymbol '?' 11) ∧ ReadsAlike s (mainSpelling s) ∧
      ReadsAlike s t := by
  intro s t
  have first : Respaced ("p<=>q".toList ++ "  ".toList ++ "Implies\t(r<->s ?".toList)
      ("p<=>q".toList ++ "\u00a0".toList ++ "Implies\t(r<->s ?".toList) :=
    .between (by decide) (by decide) (by decide) (by decide)
  have second : Respaced ("p<=>q\u00a0Implies".toList ++ "\t".toList ++ "(r<->s ?".toList)
      ("p<=>q\u00a0Implies".toList ++ "\n ".toList ++ "(r<->s ?".toList) :=
    .between (by decide) (by decide) (by decide) (by decide)
  have third : Respaced ("p<=>q\u00a0Implies".toList ++ "\n ".toList ++ "(r<->s ?".toList)
      ("\u2003".toList ++ ("p<=>q\u00a0Implies".toList ++ "\n ".toList ++ "(r<->s ?".toList)
        ++ " ".toList) :=
    .around (by decide) (by decide)
  -- the same text is cut at one stretch of blanks and then at the other
  have next : "p<=>q".toList ++ "\u00a0".toList ++ "Implies\t(r<->s ?".toList
      = "p<=>q\u00a0Implies".toList ++ "\t".toList ++ "(r<->s ?".toList := by
    decide +kernel
  have start : "p<=>q".toList ++ "  ".toList ++ "Implies\t(r<->s ?".toList = s := by
    decide +kernel
  have stop : "\u2003".toList ++ ("p<=>q\u00a0Implies".toList ++ "\n ".toList
      ++ "(r<->s ?".toList) ++ " ".toList = t := by
    decide +kernel
  have spaced : Respaced s t := by
    rw [start, next] at first
    rw [stop] at third
    exact first.trans (second.trans third)
  obtain ⟨main, others⟩ := readsAlike_respaced s
  exact ⟨spaced, by decide +kernel, by decide +kernel, main, others t spaced⟩

end Sentential.Symbolic
