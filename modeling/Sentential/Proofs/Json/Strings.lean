import Mathlib.Data.List.Basic
import Mathlib.Tactic.Lemma
import Sentential.Json.Reader

/-!
# The texts of a JSON string

A character of a string stands as it is, unless it is a control, the quote or the backslash, or as a
letter behind a backslash, or by its number in four hexadecimal digits behind `\u`, in two halves
where the number is larger than that. Whatever text a string has, it is read back
(`SpellsString.reads`), and what is written for it is one of its texts (`spellsString_escaped`).
-/

namespace Sentential.Json

open Text

/-- Whether a reader takes a value from the front of a text and leaves a rest. -/
def Reads {α : Type} (reader : Reader α) (s : Text) (value : α) (rest : Text) : Prop :=
  ∃ shorter, reader s = .ok ⟨value, rest, shorter⟩

/-! ## Characters -/

/-- The letters behind a backslash, each with the character it stands for. -/
def letterEscapes : List (Char × Char) :=
  [ ('\x22', '\x22'), ('\\', '\\'), ('/', '/'), ('b', '\x08'), ('f', '\x0c'), ('n', '\n'),
    ('r', '\r'), ('t', '\t') ]

/-- The texts of a number in four hexadecimal digits. -/
inductive SpellsCode : Nat → Text → Prop where
  | digits {a b c d : Char} {w x y z : Nat} :
    hexValue? a = some w →
    hexValue? b = some x →
    hexValue? c = some y →
    hexValue? d = some z →
    SpellsCode (((w * 16 + x) * 16 + y) * 16 + z) [a, b, c, d]

/-- The texts of a character inside a string. -/
inductive SpellsChar (c : Char) : Text → Prop where
  | plain :
    0x20 ≤ c.toNat →
    c ≠ '\x22' →
    c ≠ '\\' →
    SpellsChar c [c]
  | letter {d : Char} :
    (d, c) ∈ letterEscapes →
    SpellsChar c ['\\', d]
  | code {s : Text} :
    SpellsCode c.toNat s →
    SpellsChar c ('\\' :: 'u' :: s)
  | halves {high low : Nat} {s t : Text} :
    SpellsCode (0xD800 + high) s →
    SpellsCode (0xDC00 + low) t →
    high < 0x400 →
    low < 0x400 →
    c.toNat = 0x10000 + high * 0x400 + low →
    SpellsChar c ('\\' :: 'u' :: (s ++ '\\' :: 'u' :: t))

/-- The texts of a string behind its opening quote. -/
inductive SpellsString : Text → Text → Prop where
  | close : SpellsString [] ['\x22']
  | char {c : Char} {s text t : Text} :
    SpellsChar c s →
    SpellsString text t →
    SpellsString (c :: text) (s ++ t)

section
variable {c : Char} {s text rest : Text} {n : Nat}

/-- The letters behind a backslash stand for their characters. -/
lemma shortEscape?_eq : ∀ escape ∈ letterEscapes, shortEscape? escape.1 = some escape.2 := by
  decide

/-- Four digits are read as the number that they spell. -/
lemma SpellsCode.reads (h : SpellsCode n s) : Reads readHex (s ++ rest) n rest := by
  cases h with
  | digits ha hb hc hd =>
    refine ⟨by simp only [List.length_append, List.length_cons]; omega, ?_⟩
    simp only [List.cons_append, List.nil_append, readHex, ha, hb, hc, hd]

/-- The number of a character is no half of one. -/
lemma not_half (c : Char) : isLowHalf c.toNat = false ∧ isHighHalf c.toNat = false := by
  have valid : c.toNat < 0xD800 ∨ 0xDFFF < c.toNat ∧ c.toNat < 0x110000 := c.valid
  constructor
  · rw [isLowHalf, Bool.and_eq_false_iff, decide_eq_false_iff_not, decide_eq_false_iff_not]
    omega
  · rw [isHighHalf, Bool.and_eq_false_iff, decide_eq_false_iff_not, decide_eq_false_iff_not]
    omega

/-- Four digits are read as the character of their number. -/
lemma SpellsCode.readsCode (h : SpellsCode c.toNat s) : Reads readCode (s ++ rest) c rest := by
  obtain ⟨shorter, e⟩ : Reads readHex (s ++ rest) c.toNat rest := h.reads
  obtain ⟨low, high⟩ := not_half c
  refine ⟨shorter, ?_⟩
  simp only [readCode, e, low, high, Bool.false_eq_true, if_false, Scanned.map, Char.ofNat_toNat]

/-- Two halves are read as the character of both. -/
lemma readsCode_halves {high low : Nat} {t : Text} (first : SpellsCode (0xD800 + high) s)
    (second : SpellsCode (0xDC00 + low) t) (smallHigh : high < 0x400) (smallLow : low < 0x400)
    (same : c.toNat = 0x10000 + high * 0x400 + low) :
    Reads readCode (s ++ '\\' :: 'u' :: (t ++ rest)) c rest := by
  obtain ⟨shorter, e⟩ : Reads readHex (s ++ '\\' :: 'u' :: (t ++ rest)) (0xD800 + high)
    ('\\' :: 'u' :: (t ++ rest)) := first.reads
  obtain ⟨shorter', e'⟩ : Reads readHex (t ++ rest) (0xDC00 + low) rest := second.reads
  have isHigh : isHighHalf (0xD800 + high) = true := by
    simp only [isHighHalf, Bool.and_eq_true, decide_eq_true_eq]
    omega
  have notLow : isLowHalf (0xD800 + high) = false := by
    rw [isLowHalf, Bool.and_eq_false_iff, decide_eq_false_iff_not, decide_eq_false_iff_not]
    omega
  have isLow : isLowHalf (0xDC00 + low) = true := by
    simp only [isLowHalf, Bool.and_eq_true, decide_eq_true_eq]
    omega
  have code : Char.ofNat (0x10000 + high * 0x400 + low) = c := by
    rw [← same, Char.ofNat_toNat]
  refine ⟨by simp only [List.length_append, List.length_cons] at shorter shorter' ⊢; omega, ?_⟩
  simp only [readCode, e, notLow, isHigh, readLowHalf, e', isLow, Scanned.map, Scanned.behind,
    Scanned.followedBy, Nat.add_sub_cancel_left, code, if_true, Bool.false_eq_true, if_false]

/-! ## Strings -/

/-- An escape in a string is read as its character. -/
lemma readString_escape (h : Reads readEscape s c text) {value : Text}
    (h' : Reads readString text value rest) :
    Reads readString ('\\' :: s) (c :: value) rest := by
  obtain ⟨shorter, e⟩ := h
  obtain ⟨shorter', e'⟩ := h'
  refine ⟨by simp only [List.length_cons]; omega, ?_⟩
  have quote : ¬ '\\' = '\x22' := by decide
  rw [readString]
  simp only [if_neg quote, if_true, e, e']
  rfl

/-- An escape with a code is read as the character of the code. -/
lemma readEscape_code (h : Reads readCode s c rest) : Reads readEscape ('u' :: s) c rest := by
  obtain ⟨shorter, e⟩ := h
  have none : shortEscape? 'u' = Option.none := by decide
  refine ⟨by simp only [List.length_cons]; omega, ?_⟩
  simp only [readEscape, none, if_true, e]
  rfl

/-- A character in front of a string is read with it. -/
lemma SpellsChar.reads (h : SpellsChar c s) {t : Text} (h' : Reads readString t text rest) :
    Reads readString (s ++ t) (c :: text) rest := by
  cases h with
  | plain large noQuote noSlash =>
    obtain ⟨shorter, e⟩ := h'
    rw [List.singleton_append]
    refine ⟨by simp only [List.length_cons]; omega, ?_⟩
    rw [readString]
    simp only [if_neg noQuote, if_neg noSlash, if_neg (Nat.not_lt.2 large), e]
    rfl
  | @letter d mem =>
    have short : shortEscape? d = some c := shortEscape?_eq (d, c) mem
    refine readString_escape (s := d :: t) ⟨Nat.lt_succ_self _, ?_⟩ h'
    simp only [readEscape, short]
    rfl
  | code spells =>
    exact readString_escape (readEscape_code spells.readsCode) h'
  | halves first second smallHigh smallLow same =>
    rw [List.cons_append, List.cons_append, List.append_assoc, List.cons_append, List.cons_append]
    exact readString_escape
      (readEscape_code (readsCode_halves first second smallHigh smallLow same)) h'

/-- Every text of a string is read as the string. -/
lemma SpellsString.reads (h : SpellsString text s) : Reads readString (s ++ rest) text rest := by
  induction h with
  | close =>
    rw [List.singleton_append]
    refine ⟨Nat.lt_succ_self _, ?_⟩
    rw [readString, if_pos rfl]
    rfl
  | char spells _ ih =>
    rw [List.append_assoc]
    exact spells.reads ih

/-! ## The written text -/

/-- The value of a digit is the number that it spells. -/
lemma hexValue?_digitChar : ∀ k < 16, hexValue? (Nat.digitChar k) = some k := by decide

/-- What is written for a character is one of its texts. -/
lemma spellsChar_escapeChar (c : Char) : SpellsChar c (escapeChar c) := by
  have letters : ∀ escape ∈ letterEscapes, escape.1 ≠ '/' →
      escapeChar escape.2 = ['\\', escape.1] := by decide
  by_cases short : ∃ d, (d, c) ∈ letterEscapes ∧ d ≠ '/'
  · obtain ⟨d, mem, other⟩ := short
    have e : escapeChar c = ['\\', d] := letters (d, c) mem other
    rw [e]
    exact .letter mem
  · have others : ∀ escape ∈ letterEscapes, escape.1 ≠ '/' → c ≠ escape.2 := by
      rintro ⟨d, b⟩ mem other rfl
      exact short ⟨d, mem, other⟩
    simp only [letterEscapes, List.forall_mem_cons, ne_eq, Char.reduceEq, not_false_eq_true,
      forall_const, not_true_eq_false, IsEmpty.forall_iff, List.not_mem_nil, and_true,
      true_and] at others
    obtain ⟨quote, slash, back, form, line, ret, tab⟩ := others
    rw [escapeChar, if_neg quote, if_neg slash, if_neg back, if_neg form, if_neg line, if_neg ret,
      if_neg tab]
    split
    · rename_i control
      have zero : hexValue? '0' = some 0 := by decide
      have code := SpellsCode.digits zero zero
        (hexValue?_digitChar (c.toNat / 16) (by omega))
        (hexValue?_digitChar (c.toNat % 16) (by omega))
      have same : ((0 * 16 + 0) * 16 + c.toNat / 16) * 16 + c.toNat % 16 = c.toNat := by omega
      rw [same] at code
      exact .code code
    · rename_i large
      exact .plain (Nat.not_lt.1 large) quote slash

/-- What is written for a string is one of its texts. -/
lemma spellsString_escaped (text : Text) :
    SpellsString text (text.flatMap escapeChar ++ ['\x22']) := by
  induction text with
  | nil => exact .close
  | cons c text ih =>
    rw [List.flatMap_cons, List.append_assoc]
    exact .char (spellsChar_escapeChar c) ih

end

end Sentential.Json
