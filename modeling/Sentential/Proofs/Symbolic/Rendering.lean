import Mathlib.Tactic.Lemma
import Sentential.Formula.Canonical
import Sentential.Proofs.Symbolic.Nesting
import Sentential.Proofs.Symbolic.Precedence
import Sentential.Proofs.Symbolic.Writing

/-!
# Texts that spell formulas

A text renders a formula at a level if it spells tokens from which the grammar derives the formula
there (`Renders`). Renderings are put together as formulas are, so a writer is understood by showing
one closure lemma for each thing it writes. What is rendered reads back, unless a limit is exceeded
(`Renders.read_eq_ok`, `Renders.read_eq_tooDeep`).
-/

namespace Sentential.Symbolic

open Text

/-- Whether a text spells a formula at a level, where the number tells how many groups and negations
are open at once. -/
def Renders (level : Level) (n : Nat) (s : Text) (f : Formula) : Prop :=
  ∃ ts, Spells ts s ∧ Derives level n ts f

section
variable {ts us : List Token} {s t : Text}

/-- Tokens in parentheses are spelt in parentheses. -/
lemma Spells.wrap (spells : Spells ts s) :
    Spells (.leftParen :: ts ++ [.rightParen]) s.wrap := by
  have closed : Spells (ts ++ [.rightParen]) (s ++ [')']) :=
    spells.append_of_head (.sign rfl .nil) rfl
  exact .sign rfl closed

/-- A connective between tokens is spelt as its sign with spaces. -/
lemma Spells.binary {op : Connective} (left : Spells ts s) (right : Spells us t) :
    Spells (ts ++ .connective op :: us) (s ++ [' ', op.glyph, ' '] ++ t) := by
  have sign : Token.ofChar? op.glyph = some (.connective op) := by cases op <;> rfl
  rw [List.append_assoc]
  exact left.append_of_head (.space (.sign sign (.space right))) rfl

end

section
variable {level : Level} {m n : Nat} {s t : Text} {f g : Formula}

/-- A label renders its atom. -/
lemma renders_label {name : Text} (label : IsLabel name) :
    Renders .operand 0 name (.atom name) :=
  ⟨_, spells_label label, .identifier name⟩

/-- The sign of a negation in front of an operand renders its negation. -/
lemma Renders.not (h : Renders .operand n s f) : Renders .operand (n + 1) ('¬' :: s) (.not f) := by
  obtain ⟨ts, spells, d⟩ := h
  exact ⟨_, .sign rfl spells, .not d⟩

/-- A text in parentheses renders what it renders without them. -/
lemma Renders.wrap (h : Renders .equivalence n s f) : Renders .operand (n + 1) s.wrap f := by
  obtain ⟨ts, spells, d⟩ := h
  exact ⟨_, spells.wrap, .group d⟩

/-- What renders a formula at a level does so at the looser ones. -/
lemma Renders.loosen {tight : Level} (le : level.rank ≤ tight.rank) (h : Renders tight n s f) :
    Renders level n s f := by
  obtain ⟨ts, spells, d⟩ := h
  exact ⟨ts, spells, d.loosen le⟩

/-- The sign of a connective between texts of its level renders their formula. -/
lemma Renders.binary {op : Connective} (own : op ∈ level.connectives) (hl : Renders level m s f)
    (hr : Renders level.tighter n t g) :
    Renders level (max m n) (s ++ [' ', op.glyph, ' '] ++ t) (.binary op f g) := by
  obtain ⟨ts, left, dl⟩ := hl
  obtain ⟨us, right, dr⟩ := hr
  exact ⟨_, left.binary right, .chain own dl dr⟩

/-- A text renders one formula at most, however deep the renderings are. -/
lemma Renders.unique (first : Renders .equivalence m s f) (second : Renders .equivalence n s g) :
    f = g := by
  obtain ⟨ts, spells, d⟩ := first
  obtain ⟨us, spells', d'⟩ := second
  cases spells.unique spells'
  exact d.unique d'

end

/-! ## Leaves -/

/-- The name that a token stands for. -/
def Token.name? : Token → Option Text
  | .identifier name => some name
  | _ => none

/-- The leaves of a formula are the names from which it is derived. -/
lemma Derives.leaves_eq {level : Level} {n : Nat} {ts : List Token} {f : Formula}
    (d : Derives level n ts f) : ts.filterMap Token.name? = f.leaves := by
  induction d with
  | identifier name => rfl
  | not _ ih => exact ih
  | group _ ih =>
    rw [List.filterMap_append, List.filterMap_cons_none rfl, ih]
    exact List.append_nil _
  | single _ ih => exact ih
  | chain _ _ _ ihl ihr =>
    rw [List.filterMap_append, List.filterMap_cons_none rfl, ihl, ihr]
    rfl

/-! ## Reading a rendering -/

section
variable {n : Nat} {s : Text} {f : Formula}

/-- A text that spells a formula reads as its tokens do. -/
lemma Renders.read_eq (h : Renders .equivalence n s f)
    (names : ∀ name ∈ f.leaves, name ∉ aliasWords) :
    ∃ ts, read s = parse ts ∧ Derives .equivalence n ts f := by
  obtain ⟨ts, spells, d⟩ := h
  have names' : ∀ name, .identifier name ∈ ts → name ∉ aliasWords := by
    intro name mem
    apply names
    rw [← d.leaves_eq]
    exact List.mem_filterMap.2 ⟨_, mem, rfl⟩
  obtain ⟨lexemes, out, rfl⟩ := spells.tokenize names'
  exact ⟨_, by rw [read, out], d⟩

/-- What renders a formula is read as it within the limits. -/
lemma Renders.read_eq_ok (h : Renders .equivalence n s f)
    (names : ∀ name ∈ f.leaves, name ∉ aliasWords) (fits : Fits maxDepth 0 n f) :
    read s = .ok f := by
  obtain ⟨ts, e, d⟩ := h.read_eq names
  rw [e]
  exact d.parseWithin_eq_ok (by decide) fits

/-- What renders a formula is too deep beyond the limits. -/
lemma Renders.read_eq_tooDeep (h : Renders .equivalence n s f)
    (names : ∀ name ∈ f.leaves, name ∉ aliasWords) (exceeds : ¬ Fits maxDepth 0 n f) :
    ∃ index, read s = .error (.tooDeep index) := by
  obtain ⟨ts, e, d⟩ := h.read_eq names
  rw [e]
  exact d.parseWithin_eq_tooDeep (by decide) exceeds

/-- A rendering opens as much at once as it is said to. -/
lemma Renders.openAtOnce_eq {level : Level} (h : Renders level n s f) : openAtOnce s = n := by
  obtain ⟨ts, spells, d⟩ := h
  exact spells.openAtOnce_eq d

end

end Sentential.Symbolic
