import Mathlib.Tactic.Lemma
import Sentential.Proofs.Text.Words
import Sentential.Symbolic.Alias
import Sentential.Symbolic.Token

/-!
# Labels and names

A label is a capital letter followed by capital letters, digits and underscores. A label that is no
other spelling of a connective names an atom (`IsAtomName`). A written name may have small letters
too; in capitals it is a label (`isLabel_map_toUpper`). What the characters of names have in common
is told here once for each of the ways in which the library sorts characters.
-/

namespace Sentential.Symbolic

open Text

/-- The letters with which a label can begin. -/
def capitals : Text :=
  "ABCDEFGHIJKLMNOPQRSTUVWXYZ".toList

/-- The characters with which a label can go on. -/
def labelChars : Text :=
  capitals ++ "0123456789_".toList

/-- The letters of written names that are not in labels. -/
def smallLetters : Text :=
  "abcdefghijklmnopqrstuvwxyz".toList

/-- The characters with which a written name can go on. -/
def nameChars : Text :=
  labelChars ++ smallLetters

/-- The characters that spell a token on their own. -/
def signs : Text :=
  "¬!~∧&^∨|⊕→↔()".toList

/-- A label begins with a capital letter and goes on with label characters. -/
def IsLabel : Text → Prop
  | [] => False
  | c :: rest => c ∈ capitals ∧ ∀ d ∈ rest, d ∈ labelChars

instance : DecidablePred IsLabel
  | [] => isFalse id
  | c :: rest => inferInstanceAs (Decidable (c ∈ capitals ∧ ∀ d ∈ rest, d ∈ labelChars))

/-- The labels that are other spellings of connectives. -/
def aliasWords : List Text :=
  ["XOR".toList, "IFF".toList, "IMPLIES".toList]

/-- A label that can name an atom. -/
def IsAtomName (name : Text) : Prop :=
  IsLabel name ∧ name ∉ aliasWords

instance : DecidablePred IsAtomName := fun name =>
  inferInstanceAs (Decidable (IsLabel name ∧ name ∉ aliasWords))

/-! ## The characters of names -/

/-- The name characters are those that are listed. -/
lemma mem_nameChars {c : Char} (h : isNameChar c = true) : c ∈ nameChars := by
  have table : ∀ n : Fin 128, isNameChar (Char.ofNat n) = true → Char.ofNat n ∈ nameChars := by
    decide
  have small : c.toNat < 128 := by
    simp only [isNameChar, isLetter, Bool.or_eq_true, Bool.and_eq_true, decide_eq_true_eq,
      beq_iff_eq, Char.le_def, UInt32.le_iff_toNat_le] at h
    rcases h with ((⟨_, le⟩ | ⟨_, le⟩) | ⟨_, le⟩) | rfl
    · exact Nat.lt_of_le_of_lt le (by decide)
    · exact Nat.lt_of_le_of_lt le (by decide)
    · exact Nat.lt_of_le_of_lt le (by decide)
    · decide
  have e : Char.ofNat c.toNat = c := Char.ofNat_toNat c
  have mem := table ⟨c.toNat, small⟩
  simp only [e] at mem
  exact mem h

/-- A letter is a name character. -/
lemma isNameChar_of_isLetter {c : Char} (h : isLetter c = true) : isNameChar c = true := by
  simp [isNameChar, h]

set_option maxRecDepth 4000 in
/-- Name characters are word characters. -/
lemma isWordChar_of_nameChar : ∀ c ∈ nameChars, isWordChar c = true := by
  decide

/-- Name characters are no blanks. -/
lemma isBlank_of_nameChar : ∀ c ∈ nameChars, isBlank c = false := by
  decide

/-- Letters without their case have the same capitals as before. -/
lemma toUpper_foldLetter : ∀ c ∈ nameChars, (foldLetter c).toUpper = c.toUpper := by
  decide

/-- Name characters are folded whatever their case is. -/
lemma foldLetter_toUpper : ∀ c ∈ nameChars, foldLetter c.toUpper = foldLetter c := by
  decide

/-- The characters that are listed are name characters. -/
lemma isNameChar_of_nameChar : ∀ c ∈ nameChars, isNameChar c = true := by
  decide

/-- The characters of labels are in capitals. -/
lemma toUpper_of_labelChar : ∀ c ∈ labelChars, c.toUpper = c := by
  decide

/-- Capital letters are letters. -/
lemma isLetter_of_capital : ∀ c ∈ capitals, isLetter c = true := by
  decide

/-- Only small letters have other capitals than themselves. -/
lemma toUpper_eq (c : Char) : c ∈ smallLetters ∨ c.toUpper = c := by
  by_cases small : c.val ≥ 'a'.val ∧ c.val ≤ 'z'.val
  · left
    have letter : isNameChar c = true := by
      have between : ('a' ≤ c && c ≤ 'z') = true := by
        rw [Bool.and_eq_true, decide_eq_true_eq, decide_eq_true_eq]
        exact small
      exact isNameChar_of_isLetter (by rw [isLetter, between, Bool.or_true])
    rcases List.mem_append.1 (mem_nameChars letter) with label | mem
    · have low : ∀ d ∈ labelChars, ¬ d.val ≥ 'a'.val := by decide
      exact absurd small.1 (low c label)
    · exact mem
  · right
    exact dif_neg small

/-- In capitals a letter is a capital letter, and nothing else is. -/
lemma toUpper_mem_capitals {c : Char} : c.toUpper ∈ capitals ↔ isLetter c = true := by
  constructor
  · intro mem
    rcases toUpper_eq c with small | e
    · have letters : ∀ d ∈ smallLetters, isLetter d = true := by decide
      exact letters c small
    · rw [e] at mem
      exact isLetter_of_capital c mem
  · intro letter
    have table : ∀ d ∈ nameChars, isLetter d = true → d.toUpper ∈ capitals := by decide
    exact table c (mem_nameChars (isNameChar_of_isLetter letter)) letter

/-- In capitals a name character can stand in a label, and nothing else can. -/
lemma toUpper_mem_labelChars {c : Char} : c.toUpper ∈ labelChars ↔ isNameChar c = true := by
  constructor
  · intro mem
    rcases toUpper_eq c with small | e
    · exact isNameChar_of_nameChar c (List.mem_append_right _ small)
    · rw [e] at mem
      exact isNameChar_of_nameChar c (List.mem_append_left _ mem)
  · intro name
    have table : ∀ d ∈ nameChars, d.toUpper ∈ labelChars := by decide
    exact table c (mem_nameChars name)

/-! ## Letters without their case -/

/-- Only capitals and the long s become other letters without their case. -/
lemma foldLetter_eq (c : Char) : c ∈ nameChars ∨ c = 'ſ' ∨ foldLetter c = c := by
  by_cases long : c = 'ſ'
  · exact .inr (.inl long)
  · by_cases name : isNameChar c = true
    · exact .inl (mem_nameChars name)
    · refine .inr (.inr ?_)
      have small : ¬ (c.val ≥ 'A'.val ∧ c.val ≤ 'Z'.val) := by
        rintro ⟨low, high⟩
        have capital : ('A' ≤ c && c ≤ 'Z') = true := by
          rw [Bool.and_eq_true, decide_eq_true_eq, decide_eq_true_eq]
          exact ⟨low, high⟩
        exact name (isNameChar_of_isLetter (by rw [isLetter, capital, Bool.true_or]))
      rw [foldLetter, if_neg long]
      exact dif_neg small

/-- A letter of a word in small letters is a word character. -/
lemma isWordChar_of_foldLetter {c : Char} (h : foldLetter c ∈ smallLetters) :
    isWordChar c = true := by
  rcases foldLetter_eq c with name | rfl | e
  · exact isWordChar_of_nameChar c name
  · decide
  · rw [e] at h
    exact isWordChar_of_nameChar c (List.mem_append_right _ h)

/-! ## The characters of signs -/

/-- What spells a token on its own is a sign. -/
lemma mem_signs {c : Char} {token : Token} (h : Token.ofChar? c = some token) : c ∈ signs := by
  simp only [Token.ofChar?] at h
  repeat' split at h
  case isFalse => cases h
  all_goals
    rename_i spelled
    rcases spelled with rfl | rfl | rfl
  all_goals decide

set_option maxRecDepth 4000 in
/-- No sign is a word character. -/
lemma isWordChar_of_sign : ∀ c ∈ signs, isWordChar c = false := by
  decide

/-- No sign is a blank. -/
lemma isBlank_of_sign : ∀ c ∈ signs, isBlank c = false := by
  decide

/-! ## Labels -/

section
variable {name : Text}

/-- A label is not empty. -/
lemma IsLabel.ne_nil (label : IsLabel name) : name ≠ [] := by
  rintro rfl
  exact label

/-- A label has characters of labels. -/
lemma IsLabel.mem (label : IsLabel name) {c : Char} (mem : c ∈ name) : c ∈ labelChars := by
  cases name with
  | nil => cases mem
  | cons d rest =>
    rcases List.mem_cons.1 mem with rfl | mem
    · exact List.mem_append_left _ label.1
    · exact label.2 c mem

/-- A label has word characters. -/
lemma IsLabel.isWordChar (label : IsLabel name) : ∀ c ∈ name, isWordChar c = true :=
  fun c mem => isWordChar_of_nameChar c (List.mem_append_left _ (label.mem mem))

/-- A label is a word. -/
lemma IsLabel.isWord (label : IsLabel name) : IsWord name :=
  ⟨label.ne_nil, label.isWordChar⟩

/-- A label has no blanks. -/
lemma IsLabel.isBlank (label : IsLabel name) : ∀ c ∈ name, isBlank c = false :=
  fun c mem => isBlank_of_nameChar c (List.mem_append_left _ (label.mem mem))

/-- No label is a word with other characters. -/
lemma IsLabel.not_mem_wordRuns (label : IsLabel name) {r : Text} (other : ∃ c ∈ r, c ∉ labelChars) :
    r ∉ wordRuns name := by
  obtain ⟨c, mem, other⟩ := other
  rw [label.isWord.wordRuns, List.mem_singleton]
  rintro rfl
  exact other (label.mem mem)

/-- A label is in capitals. -/
lemma IsLabel.map_toUpper (label : IsLabel name) : name.map Char.toUpper = name := by
  have same : ∀ c ∈ name, c.toUpper = id c := fun c mem => toUpper_of_labelChar c (label.mem mem)
  rw [List.map_congr_left same, List.map_id]

end

/-! ## Written names -/

/-- A written name begins with a letter and goes on with name characters. -/
def IsName : Text → Prop
  | [] => False
  | c :: rest => isLetter c = true ∧ ∀ d ∈ rest, isNameChar d = true

section
variable {name word : Text}

/-- A name is not empty. -/
lemma IsName.ne_nil (written : IsName name) : name ≠ [] := by
  rintro rfl
  exact written

/-- A name begins with a letter. -/
lemma IsName.head (written : IsName name) : name.head?.any isLetter = true := by
  cases name with
  | nil => exact absurd written id
  | cons c rest => exact written.1

/-- A name has name characters. -/
lemma IsName.isNameChar (written : IsName name) : ∀ c ∈ name, isNameChar c = true := by
  intro c mem
  cases name with
  | nil => cases mem
  | cons d rest =>
    rcases List.mem_cons.1 mem with rfl | mem
    · exact isNameChar_of_isLetter written.1
    · exact written.2 c mem

/-- A name is a word. -/
lemma IsName.isWord (written : IsName name) : IsWord name :=
  ⟨written.ne_nil, fun c mem => isWordChar_of_nameChar c (mem_nameChars (written.isNameChar c mem))⟩

/-- A name has no blanks. -/
lemma IsName.isBlank (written : IsName name) : ∀ c ∈ name, isBlank c = false :=
  fun c mem => isBlank_of_nameChar c (mem_nameChars (written.isNameChar c mem))

/-- In capitals a written name is a label, and nothing else is. -/
lemma isLabel_map_toUpper : IsLabel (name.map Char.toUpper) ↔ IsName name := by
  cases name with
  | nil => rfl
  | cons c rest =>
    simp only [List.map_cons, IsLabel, IsName, toUpper_mem_capitals, List.forall_mem_map,
      toUpper_mem_labelChars]

/-- A name with the letters of a word, in whatever case, is the word in capitals. -/
lemma map_toUpper_of_foldLetter (h : ∀ c ∈ name, isNameChar c = true)
    (e : name.map foldLetter = word) : name.map Char.toUpper = word.map Char.toUpper := by
  have same : ∀ c ∈ name, (Char.toUpper ∘ foldLetter) c = c.toUpper :=
    fun c mem => toUpper_foldLetter c (mem_nameChars (h c mem))
  rw [← e, List.map_map, List.map_congr_left same]

/-- A name is folded whatever its case is. -/
lemma map_foldLetter_map_toUpper (h : ∀ c ∈ name, isNameChar c = true) :
    (name.map Char.toUpper).map foldLetter = name.map foldLetter := by
  have same : ∀ c ∈ name, (foldLetter ∘ Char.toUpper) c = foldLetter c :=
    fun c mem => foldLetter_toUpper c (mem_nameChars (h c mem))
  rw [List.map_map, List.map_congr_left same]

end

end Sentential.Symbolic
