import Mathlib.Tactic.Lemma
import Sentential.Proofs.Symbolic.MainSpelling

/-!
# Texts put together in parentheses

A sign of the text notation stands in no other spelling and in no name, so every step towards the
main spelling acts on the two sides of it apart (`partedAt_of_mem_aliases`), and so does what cuts
the main spelling into tokens (`spells_append`). Hence a text that is read can be put in parentheses
as it stands, with its own spellings and blanks: behind a negation, or with another such text around
a connective, it stands for the formula that is read from it (`read_grouped`).
-/

namespace Sentential.Symbolic

open Text

/-! ## The two sides of a sign -/

/-- No sign is a name character. -/
lemma isNameChar_of_sign : ∀ c ∈ signs, isNameChar c = false := by
  decide

/-- A sign parts the tokens of a text: the main spelling of the whole spells those of the two sides
with the token of the sign between them. -/
lemma spells_append {ts us : List Token} {token : Token} {c : Char} {s t : Text}
    (sign : Token.ofChar? c = some token) (left : Spells ts (mainSpelling s))
    (right : Spells us (mainSpelling t)) :
    Spells (ts ++ token :: us) (mainSpelling (s ++ c :: t)) := by
  have mem := mem_signs sign
  have parted : ∀ p ∈ aliases, p.PartedAt c := by
    have plain : ∀ c ∈ signs, c ∉ "<->=".toList := by decide
    exact fun p => partedAt_of_mem_aliases (isWordChar_of_sign c mem) (plain c mem)
  rw [mainSpelling] at left right
  rw [mainSpelling, Pattern.foldl_rewrite_append parted]
  generalize aliases.foldl (fun s p => p.rewrite s) s = s at left ⊢
  generalize aliases.foldl (fun s p => p.rewrite s) t = t at right ⊢
  obtain ⟨k, e⟩ := tidy_append_solid (isBlank_of_sign c mem) s t
  rw [e]
  refine left.append_of_head ((Spells.sign sign (right.behind_gap t)).spaces k) ?_
  cases k with
  | zero => exact isNameChar_of_sign c mem
  | succ k => rfl

/-! ## Formulas in parentheses -/

/-- Two texts in parentheses around the sign of a connective. -/
def groupedBy (op : Connective) (s t : Text) : Text :=
  s.wrap ++ [' ', op.glyph, ' '] ++ t.wrap

/-- Whether the main spelling of a text renders a formula. -/
def Means (level : Level) (n : Nat) (s : Text) (f : Formula) : Prop :=
  Renders level n (mainSpelling s) f

section
variable {level : Level} {m n : Nat} {s t : Text} {f g : Formula}

/-- Around the parentheses there may be blanks. -/
lemma Means.group {before after : Text} (front : Spells [] (mainSpelling before))
    (back : Spells [] (mainSpelling after)) (h : Means .equivalence n s f) :
    Means .operand (n + 1) (before ++ s.wrap ++ after) f := by
  obtain ⟨ts, spells, d⟩ := h
  have closed := spells_append (c := ')') rfl spells back
  have whole := spells_append (c := '(') rfl front closed
  have e : before ++ '(' :: (s ++ ')' :: after) = before ++ s.wrap ++ after := by simp [Text.wrap]
  rw [e] at whole
  exact ⟨_, whole, .group d⟩

/-- A text in parentheses means what it means without them. -/
lemma Means.wrap (h : Means .equivalence n s f) : Means .operand (n + 1) s.wrap f := by
  have group : Means .operand (n + 1) ([] ++ s.wrap ++ []) f := h.group .nil .nil
  rwa [List.nil_append, List.append_nil] at group

/-- The sign of a negation in front of an operand means its negation. -/
lemma Means.not (h : Means .operand n s f) : Means .operand (n + 1) ('¬' :: s) (.not f) := by
  obtain ⟨ts, spells, d⟩ := h
  exact ⟨_, spells_append (s := []) (c := '¬') rfl .nil spells, .not d⟩

/-- The sign of a connective between texts of its level means their formula. -/
lemma Means.binary {op : Connective} (own : op ∈ level.connectives) (hl : Means level m s f)
    (hr : Means level.tighter n t g) :
    Means level (max m n) (s ++ op.glyph :: t) (.binary op f g) := by
  obtain ⟨ts, left, dl⟩ := hl
  obtain ⟨us, right, dr⟩ := hr
  have sign : Token.ofChar? op.glyph = some (.connective op) := by cases op <;> rfl
  exact ⟨_, spells_append sign left right, .chain own dl dr⟩

/-- What means a formula at a level does so at the looser ones. -/
lemma Means.loosen {tight : Level} (le : level.rank ≤ tight.rank) (h : Means tight n s f) :
    Means level n s f :=
  Renders.loosen le h

/-- Two texts in parentheses with a sign between them mean their formula. -/
lemma Means.groupedBy (op : Connective) (hl : Means .equivalence m s f)
    (hr : Means .equivalence n t g) :
    Means .equivalence (max (m + 1) (n + 1)) (groupedBy op s t) (.binary op f g) := by
  have level : (Level.ofConnective op).rank ≤ Level.rank .operand := Level.rank_le _
  have tight : (Level.ofConnective op).tighter.rank ≤ Level.rank .operand := Level.rank_le _
  have empty : Spells [] (mainSpelling []) := .nil
  have blank : Spells [] (mainSpelling [' ']) := .nil
  have joined := ((hl.group empty blank).loosen level).binary
    (Level.mem_connectives_ofConnective op) ((hr.group blank empty).loosen tight)
  have e : [] ++ s.wrap ++ [' '] ++ op.glyph :: ([' '] ++ t.wrap ++ [])
      = Symbolic.groupedBy op s t := by
    simp [Symbolic.groupedBy]
  rw [e] at joined
  exact joined.loosen (Level.rank_pos _)

/-- A text reads as the formula that it stands for, unless a limit is exceeded. -/
lemma Means.read_eq (h : Means .equivalence n s f) :
    (read s = .ok f ∨ ∃ index, read s = .error (.tooDeep index)) ∧
      (read s = .ok f ↔ Fits maxDepth 0 n f) := by
  obtain ⟨ts, spells, d⟩ := h
  obtain ⟨lexemes, out, rfl⟩ := spells.lexFrom 0 0
  have e : read s = parse (lexemes.map Lexeme.token) := by rw [read, tokenize, lex, out]
  rw [e]
  by_cases fits : Fits maxDepth 0 n f
  · have accepted := d.parseWithin_eq_ok (by decide) fits
    exact ⟨.inl accepted, fun _ => fits, fun _ => accepted⟩
  · obtain ⟨index, refused⟩ := d.parseWithin_eq_tooDeep (by decide) fits
    refine ⟨.inr ⟨index, refused⟩, fun accepted => ?_, fun fits' => absurd fits' fits⟩
    rw [parse, refused] at accepted
    cases accepted

/-- A text that is read stands for the formula, and what it opens at once is counted in its main
spelling. -/
lemma means_of_read (accepted : read s = .ok f) :
    Means .equivalence (openAtOnce (mainSpelling s)) s f := by
  obtain ⟨lexemes, n, out, d, -⟩ := derives_of_read accepted
  have h : Renders .equivalence n (mainSpelling s) f := ⟨_, spells_of_lexFrom out, d⟩
  rwa [Means, h.openAtOnce_eq]

/-- Texts that are read are put in parentheses as they stand. Around the sign of a connective they
read as that connective of their formulas, and behind a negation as its negation, or a limit is
exceeded. None is if the formulas are less deep than the limit, and the groups and negations that
are open at once in the texts leave room for one more around a connective and for two behind a
negation. -/
theorem read_grouped (left : read s = .ok f) (right : read t = .ok g) :
    (∀ op,
      (read (groupedBy op s t) = .ok (.binary op f g) ∨
          ∃ index, read (groupedBy op s t) = .error (.tooDeep index)) ∧
        (read (groupedBy op s t) = .ok (.binary op f g)
          ↔ (f.depth + 1 ≤ maxDepth ∧ g.depth + 1 ≤ maxDepth) ∧
            openAtOnce (mainSpelling s) + 1 ≤ maxDepth ∧
            openAtOnce (mainSpelling t) + 1 ≤ maxDepth)) ∧
    (read ('¬' :: s.wrap) = .ok (.not f) ∨
        ∃ index, read ('¬' :: s.wrap) = .error (.tooDeep index)) ∧
      (read ('¬' :: s.wrap) = .ok (.not f)
        ↔ f.depth + 1 ≤ maxDepth ∧ openAtOnce (mainSpelling s) + 2 ≤ maxDepth) := by
  have first := means_of_read left
  have second := means_of_read right
  refine ⟨fun op => ?_, ?_⟩
  · obtain ⟨either, fits⟩ := (first.groupedBy op second).read_eq
    refine ⟨either, fits.trans ?_⟩
    rw [fits_binary, Fits, Fits]
    omega
  · have whole : Means .equivalence _ ('¬' :: s.wrap) (.not f) :=
      first.wrap.not.loosen (Level.rank_pos _)
    obtain ⟨either, fits⟩ := whole.read_eq
    refine ⟨either, fits.trans ?_⟩
    rw [fits_not, Fits]
    omega

end

/-- The texts may have arrows, connectives as words, blanks and parentheses of their own. -/
theorem read_grouped_of_mixed_spellings :
    let s : Text := "p<->q Implies r".toList
    let t : Text := "\t~ (p_1 xor ~q) ".toList
    let f : Formula := .binary .iff (.atom "P".toList)
      (.binary .imp (.atom "Q".toList) (.atom "R".toList))
    let g : Formula := .not (.binary .xor (.atom "P_1".toList) (.not (.atom "Q".toList)))
    read s = .ok f ∧ read t = .ok g ∧
      groupedBy .imp s t = "(p<->q Implies r) → (\t~ (p_1 xor ~q) )".toList ∧
      read (groupedBy .imp s t) = .ok (.binary .imp f g) ∧ read ('¬' :: t.wrap) = .ok (.not g) := by
  intro s t f g
  have left : read s = .ok f := by decide +kernel
  have right : read t = .ok g := by decide +kernel
  have flatS : openAtOnce (mainSpelling s) = 0 := by decide +kernel
  have flatT : openAtOnce (mainSpelling t) = 3 := by decide +kernel
  have deep : (f.depth + 1 ≤ maxDepth ∧ g.depth + 1 ≤ maxDepth) ∧
      openAtOnce (mainSpelling s) + 1 ≤ maxDepth ∧ openAtOnce (mainSpelling t) + 1 ≤ maxDepth := by
    rw [flatS, flatT]
    decide
  have deeper : g.depth + 1 ≤ maxDepth ∧ openAtOnce (mainSpelling t) + 2 ≤ maxDepth := by
    rw [flatT]
    decide
  obtain ⟨binary, -⟩ := read_grouped left right
  obtain ⟨-, -, negation⟩ := read_grouped right left
  exact ⟨left, right, by decide, (binary .imp).2.2 deep, negation.2 deeper⟩

end Sentential.Symbolic
