import Mathlib.Data.List.Forall2
import Mathlib.Data.List.Infix
import Mathlib.Tactic.Lemma
import Sentential.Dictionary.Basic
import Sentential.Formula.Outline
import Sentential.Proofs.Formula.Nodes
import Sentential.Proofs.Symbolic.Label
import Sentential.Proofs.Text.Lines

/-!
# Outlines show the nodes

The columns of an outline are handed down from a node to its operands; seen from the whole, they are
told by the way to the node: two columns for each node above it (`margin`). So an outline is written
node by node in pre-order (`outline_eq`), and a node fills one line unless its phrase brings line
feeds of its own (`hasLines_outline`). Without phrases the lines tell the formula, for the sign of a
node tells how many operands follow it (`outlineLines_inj`).
-/

namespace Sentential.Formula

open Symbolic Text

/-- Whether a way leads to the last operand of a node. The topmost node counts as one. -/
def endsLast (way : List Turn) : Bool :=
  way.getLast? ≠ some .left

/-- The columns in front of a node: two for each node above it. -/
def margin (way : List Turn) : Text :=
  way.inits.dropLast.flatMap fun upper => column (endsLast upper)

/-- The line of a node. -/
def line (phrase? : Text → Option Text) (node : Node) : Text :=
  margin node.way ++ (branch (endsLast node.way) ++ [icon node.formula, ' ']
    ++ caption phrase? node.formula)

/-- The part of the phrase of a name that an outline shows. -/
def shownPart (phrase? : Text → Option Text) (name : Text) : Text :=
  ((phrase? name).getD []).take phraseWidth

/-- Whether a line shows a node: there are two columns for each node above it, with a bar for each
that is a left operand, and then its branch, its sign and its name. -/
structure Shows (phrase? : Text → Option Text) (node : Node) (line : Text) : Prop where
  columns : ∀ k < node.way.length, (line.drop (2 * k)).take 2
    = if (node.way.take k).getLast? = some .left then "│ ".toList else "  ".toList
  rest : line.drop (2 * node.way.length)
    = branch (node.way.getLast? ≠ some .left) ++ [icon node.formula, ' ']
      ++ caption phrase? node.formula

/-! ## Columns -/

section
variable {phrase? : Text → Option Text} {turn : Turn} {way : List Turn}

/-- A node is the last one of its parent unless the last turn is to the left. -/
lemma endsLast_concat (way : List Turn) (turn : Turn) :
    endsLast (way ++ [turn]) = decide (turn ≠ .left) := by
  rw [endsLast, List.getLast?_concat]
  simp

/-- The margin of an operand is that of its parent with one column more. -/
lemma margin_concat (way : List Turn) (turn : Turn) :
    margin (way ++ [turn]) = margin way ++ column (endsLast way) := by
  have upper : way.inits = way.inits.dropLast ++ [way] := by
    rcases way.eq_nil_or_concat' with rfl | ⟨front, last, rfl⟩
    · rfl
    · simp
  have longer : (way ++ [turn]).inits.dropLast = way.inits := by simp
  rw [margin, longer, upper, List.flatMap_append, List.flatMap_singleton, margin]

/-- A column is two characters wide. -/
lemma length_column (last : Bool) : (column last).length = 2 := by
  cases last <;> rfl

/-- The margin has one column for each turn of the way. -/
lemma length_margin (way : List Turn) : (margin way).length = 2 * way.length := by
  induction way using List.reverseRecOn with
  | nil => rfl
  | append_singleton way turn ih =>
    rw [margin_concat, List.length_append, ih, length_column, List.length_append,
      List.length_singleton, Nat.mul_add]

/-- A column is a line where the last turn is to the left, and blank otherwise. -/
lemma column_endsLast (way : List Turn) :
    column (endsLast way) = if way.getLast? = some .left then "│ ".toList else "  ".toList := by
  rw [column, endsLast]
  by_cases left : way.getLast? = some .left <;> simp [left]

/-- The columns of a node stand in the order of the nodes above it. -/
lemma take_drop_margin {k : Nat} (rest : Text) (upper : k < way.length) :
    ((margin way ++ rest).drop (2 * k)).take 2 = column (endsLast (way.take k)) := by
  induction way using List.reverseRecOn generalizing rest with
  | nil => cases upper
  | append_singleton way turn ih =>
    rw [List.length_append, List.length_singleton] at upper
    rw [margin_concat, List.append_assoc]
    by_cases before : k < way.length
    · rw [ih _ before, List.take_append_of_le_length before.le]
    · obtain rfl : k = way.length := by omega
      rw [← length_margin, List.drop_left, List.take_left' (length_column _), List.take_left]

/-- The line of a node shows it. -/
lemma shows_line (phrase? : Text → Option Text) (node : Node) :
    Shows phrase? node (line phrase? node) where
  columns k upper := by rw [line, take_drop_margin _ upper, column_endsLast]
  rest := by rw [line, ← length_margin, List.drop_left, endsLast]

end

/-! ## Lines -/

section
variable {phrase? : Text → Option Text} {way : List Turn} {f g : Formula}

/-- The lines of an operand go on with the columns of its way. -/
lemma outlineLines_operand {operand : Formula} (turn : Turn) (last : Bool)
    (turned : last = decide (turn ≠ .left))
    (ih : ∀ way, outlineLines phrase? (margin way) (endsLast way) operand
      = operand.nodes.map fun node => line phrase? (node.under way)) :
    outlineLines phrase? (margin way ++ column (endsLast way)) last operand
      = (operand.nodes.map (Node.below turn)).map fun node => line phrase? (node.under way) := by
  rw [turned, ← margin_concat way turn, ← endsLast_concat way, ih, List.map_map]
  exact List.map_congr_left fun node _ => congrArg (line phrase?) node.under_below.symm

/-- The line of the topmost node. -/
lemma line_top (f : Formula) (way : List Turn) :
    margin way ++ branch (endsLast way) ++ [icon f, ' '] ++ caption phrase? f
      = line phrase? (Node.under way ⟨[], f⟩) := by
  simp only [line, Node.under, List.append_nil, List.append_assoc]

/-- Below the columns of a way an outline has the lines of the nodes, told with that way. -/
lemma outlineLines_eq (f : Formula) (way : List Turn) :
    outlineLines phrase? (margin way) (endsLast way) f
      = f.nodes.map fun node => line phrase? (node.under way) := by
  induction f generalizing way with
  | atom name => rw [outlineLines, line_top, nodes, List.map_singleton]
  | not operand ih =>
    rw [outlineLines, line_top, nodes, List.map_cons, outlineLines_operand .only true rfl ih]
  | binary op left right ihl ihr =>
    rw [outlineLines, line_top, nodes, List.map_cons, List.map_append,
      outlineLines_operand .left false rfl ihl, outlineLines_operand .right true rfl ihr]

/-- From the root on, the lines are those of the nodes, in pre-order. -/
lemma outlineLines_nil (f : Formula) :
    outlineLines phrase? [] true f = f.nodes.map (line phrase?) :=
  f.outlineLines_eq []

/-- An outline is written node by node. -/
lemma outline_eq (f : Formula) :
    f.outline phrase? = (f.nodes.map (line phrase?)).flatMap (· ++ ['\n']) := by
  rw [outline, outlineLines_nil]

/-! ## Line feeds -/

/-- A text is cut before its line feeds are counted. -/
lemma count_shorten (width : Nat) (s : Text) :
    (shorten width s).count '\n' = (s.take width).count '\n' := by
  rw [shorten]
  split
  · rw [List.count_append]
    rfl
  · rename_i short
    rw [List.take_of_length_le (Nat.le_of_not_lt short)]

/-- The line feeds in the caption of an atom are those in the part of its phrase. -/
lemma count_caption_atom {name : Text} (label : IsLabel name) :
    (caption phrase? (.atom name)).count '\n' = (shownPart phrase? name).count '\n' := by
  have own : name.count '\n' = 0 :=
    List.count_eq_zero.2 fun mem => absurd (label.mem mem) (by decide)
  rw [caption, shownPart]
  split
  · rename_i phrase found
    rw [found, List.count_append, List.count_append, own, count_shorten]
    exact Nat.zero_add _
  · rename_i missing
    rw [missing, own]
    rfl

/-- No line feed is in a margin. -/
lemma not_mem_margin (way : List Turn) : '\n' ∉ margin way := by
  have columns : ∀ last, '\n' ∉ column last := by decide
  intro mem
  obtain ⟨upper, -, mem⟩ := List.mem_flatMap.1 mem
  exact columns _ mem

/-- No icon is a line feed. -/
lemma icon_ne_lineFeed (f : Formula) : icon f ≠ '\n' := by
  have signs : '◦' ≠ '\n' ∧ '¬' ≠ '\n' := by decide
  cases f with
  | atom name => exact signs.1
  | not operand => exact signs.2
  | binary op left right =>
    rw [icon]
    cases op <;> decide

/-- The line feeds of a line are those of the name of its node. -/
lemma count_line (node : Node) :
    (line phrase? node).count '\n' = (caption phrase? node.formula).count '\n' := by
  have branches : ∀ last, '\n' ∉ branch last := by decide
  have signs : '\n' ∉ [icon node.formula, ' '] := by
    simp [(icon_ne_lineFeed node.formula).symm]
  rw [line, List.count_append, List.count_append, List.count_append,
    List.count_eq_zero.2 (not_mem_margin _), List.count_eq_zero.2 (branches _),
    List.count_eq_zero.2 signs, Nat.zero_add, Nat.zero_add]

/-- Line feeds come with the phrases of atoms only. -/
lemma sum_count_caption (labels : ∀ name ∈ f.leaves, IsLabel name) :
    (f.nodes.map fun node => (caption phrase? node.formula).count '\n').sum
      = (f.leaves.map fun name => (shownPart phrase? name).count '\n').sum := by
  induction f with
  | atom name =>
    rw [nodes, leaves, List.map_singleton, List.map_singleton, List.sum_singleton,
      List.sum_singleton, count_caption_atom (labels name List.mem_cons_self)]
  | not operand ih =>
    rw [nodes, leaves, List.map_cons, List.map_map, List.sum_cons, ← ih labels]
    exact Nat.zero_add _
  | binary op left right ihl ihr =>
    have own : (caption phrase? (.binary op left right)).count '\n' = 0 := by
      cases op <;> rfl
    rw [nodes, leaves, List.map_cons, List.map_append, List.map_map, List.map_map, List.sum_cons,
      own, List.map_append, List.sum_append, List.sum_append,
      ← ihl fun name mem => labels name (List.mem_append_left _ mem),
      ← ihr fun name mem => labels name (List.mem_append_right _ mem)]
    exact Nat.zero_add _

/-- An outline has a line feed for each node, and those that phrases bring. -/
lemma count_outline (labels : ∀ name ∈ f.leaves, IsLabel name) :
    (f.outline phrase?).count '\n'
      = f.nodes.length + (f.leaves.map fun name => (shownPart phrase? name).count '\n').sum := by
  rw [outline_eq, count_flatMap_lineFeed, List.length_map, List.map_map, ← sum_count_caption labels]
  simp only [Function.comp_def, count_line]

/-- Where phrases bring no line feeds, each node has a line of its own. -/
lemma hasLines_outline (labels : ∀ name ∈ f.leaves, IsLabel name)
    (plain : ∀ name ∈ f.leaves, '\n' ∉ shownPart phrase? name) :
    HasLines (f.outline phrase?) (f.nodes.map (line phrase?)) where
  joined := f.outline_eq
  whole := by
    have none := sum_count_eq_zero_iff.2 plain
    rw [← sum_count_caption labels, sum_count_eq_zero_iff] at none
    intro l mem
    obtain ⟨node, listed, rfl⟩ := List.mem_map.1 mem
    rw [← List.count_eq_zero, count_line, List.count_eq_zero]
    exact none node listed

/-- Each line shows the node in its place. -/
lemma forall₂_shows (f : Formula) :
    List.Forall₂ (Shows phrase?) f.nodes (f.nodes.map (line phrase?)) := by
  rw [List.forall₂_map_right_iff, List.forall₂_same]
  exact fun node _ => shows_line phrase? node

/-- Whatever phrases it shows, an outline consists of lines. -/
lemma exists_hasLines_outline (phrase? : Text → Option Text) (f : Formula) :
    ∃ lines, HasLines (f.outline phrase?) lines := by
  rw [outline_eq]
  induction f.nodes with
  | nil => exact ⟨[], hasLines_nil⟩
  | cons node listed ih =>
    obtain ⟨first, hasFirst⟩ := exists_hasLines (line phrase? node)
    obtain ⟨rest, hasRest⟩ := ih
    exact ⟨first ++ rest, hasFirst.append hasRest⟩

end

/-! ## The formula of an outline -/

/-- The sign of a connective is not the icon of an atom or of a negation. -/
lemma glyph_ne (op : Connective) : op.glyph ≠ '◦' ∧ op.glyph ≠ '¬' := by
  cases op <;> decide

/-- A connective is told by its sign. -/
lemma glyph_inj {op op' : Connective} (e : op.glyph = op'.glyph) : op = op' := by
  cases op <;> cases op' <;> first | rfl | exact absurd e (by decide)

/-- The lines of the operands under the columns of their node. -/
def operandLines (phrase? : Text → Option Text) (columns : Text) : Formula → List Text
  | .atom _ => []
  | .not operand => outlineLines phrase? columns true operand
  | .binary _ left right =>
    outlineLines phrase? columns false left ++ outlineLines phrase? columns true right

section
variable {phrase? : Text → Option Text} {columns : Text} {last : Bool} {f g : Formula}
  {ls ms : List Text}

/-- The first line is that of the root, and the others are those of the operands. -/
lemma outlineLines_eq_cons (f : Formula) :
    outlineLines phrase? columns last f
      = (columns ++ branch last ++ [icon f, ' '] ++ caption phrase? f)
        :: operandLines phrase? (columns ++ column last) f := by
  cases f <;> rfl

/-- The first line tells the sign and the name of the topmost node. -/
lemma top_inj
    (e : outlineLines phrase? columns last f ++ ls = outlineLines phrase? columns last g ++ ms) :
    icon f = icon g ∧ caption phrase? f = caption phrase? g ∧
      operandLines phrase? (columns ++ column last) f ++ ls
        = operandLines phrase? (columns ++ column last) g ++ ms := by
  rw [outlineLines_eq_cons, outlineLines_eq_cons, List.cons_append, List.cons_append] at e
  obtain ⟨top, rest⟩ := List.cons.inj e
  rw [List.append_assoc, List.append_assoc _ _ (caption phrase? g)] at top
  obtain ⟨sign, named⟩ := List.cons.inj (List.append_cancel_left top)
  exact ⟨sign, (List.cons.inj named).2, rest⟩

/-- Lines without phrases tell the formula, whatever follows: the sign of its topmost node tells
whether one operand follows, or two, or none. -/
lemma outlineLines_inj
    (e : outlineLines (fun _ => none) columns last f ++ ls
      = outlineLines (fun _ => none) columns last g ++ ms) : f = g ∧ ls = ms := by
  induction f generalizing columns last g ls ms with
  | atom name =>
    obtain ⟨sign, own, rest⟩ := top_inj e
    cases g with
    | atom name' => exact ⟨congrArg atom own, rest⟩
    | not operand' => exact absurd sign (show '◦' ≠ '¬' by decide)
    | binary op left right => exact absurd sign.symm (glyph_ne op).1
  | not operand ih =>
    obtain ⟨sign, -, rest⟩ := top_inj e
    cases g with
    | atom name' => exact absurd sign (show '¬' ≠ '◦' by decide)
    | not operand' =>
      obtain ⟨rfl, rfl⟩ := ih rest
      exact ⟨rfl, rfl⟩
    | binary op left right => exact absurd sign.symm (glyph_ne op).2
  | binary op left right ihl ihr =>
    obtain ⟨sign, -, rest⟩ := top_inj e
    cases g with
    | atom name' => exact absurd sign (glyph_ne op).1
    | not operand' => exact absurd sign (glyph_ne op).2
    | binary op' left' right' =>
      obtain rfl := glyph_inj sign
      rw [operandLines, operandLines, List.append_assoc, List.append_assoc] at rest
      obtain ⟨rfl, behind⟩ := ihl rest
      obtain ⟨rfl, rfl⟩ := ihr behind
      exact ⟨rfl, rfl⟩

end

/-! ## Main statements -/

section
variable {f : Formula}

/-- Without phrases nothing is shown of one. -/
lemma plain_of_none : ∀ name ∈ f.leaves, '\n' ∉ shownPart (fun _ => none) name :=
  fun _ _ => List.not_mem_nil

/-- An outline without phrases tells its formula, and it has one line for each node, in pre-order.
The line of a node begins with two columns for each node above it, with a bar for each of these that
is a left operand. -/
theorem outline_shows_nodes (labels : ∀ name ∈ f.leaves, IsLabel name) :
    (∀ g : Formula, (∀ name ∈ g.leaves, IsLabel name) →
      f.outline (fun _ => none) = g.outline (fun _ => none) → f = g) ∧
    ∃ listed lines, Preorder f listed ∧ HasLines (f.outline fun _ => none) lines ∧
      List.Forall₂ (Shows fun _ => none) listed lines := by
  have own := hasLines_outline labels plain_of_none
  refine ⟨fun g labels' e => ?_, f.nodes, _, f.preorder_nodes, own, f.forall₂_shows⟩
  have other := hasLines_outline labels' plain_of_none
  rw [← e, ← outlineLines_nil] at other
  rw [← outlineLines_nil] at own
  exact (outlineLines_inj (congrArg (· ++ []) (own.unique other))).1

/-- The bar of a left operand stands in front of its own operands only. -/
theorem outline_shows_nodes_of_left_disjunction :
    let f : Formula := .binary .and (.binary .or (.atom "A".toList) (.atom "B".toList))
      (.not (.atom "C".toList))
    (∀ name ∈ f.leaves, IsLabel name) ∧
    f.outline (fun _ => none)
      = "└─ ∧ AND\n  ├─ ∨ OR\n  │ ├─ ◦ A\n  │ └─ ◦ B\n  └─ ¬ NOT\n    └─ ◦ C\n".toList ∧
    (∀ g : Formula, (∀ name ∈ g.leaves, IsLabel name) →
      f.outline (fun _ => none) = g.outline (fun _ => none) → f = g) ∧
    ∃ listed lines, Preorder f listed ∧ HasLines (f.outline fun _ => none) lines ∧
      List.Forall₂ (Shows fun _ => none) listed lines := by
  intro f
  have labels : ∀ name ∈ f.leaves, IsLabel name := by decide
  exact ⟨labels, by decide, outline_shows_nodes labels⟩

/-- The lines of an outline with the phrases of a dictionary: one for each node, and one more for
each line feed in what is shown of a phrase. So each node has a line of its own iff no phrase shows
a line feed. -/
theorem length_lines_outline (labels : ∀ name ∈ f.leaves, IsLabel name) (d : Dictionary) :
    ∃ lines, HasLines (f.outline d.phrase?) lines ∧
      lines.length = f.nodes.length
        + (f.leaves.map fun name => (shownPart d.phrase? name).count '\n').sum ∧
      (lines.length = f.nodes.length ↔ ∀ name ∈ f.leaves, '\n' ∉ shownPart d.phrase? name) ∧
      ((∀ name ∈ f.leaves, '\n' ∉ shownPart d.phrase? name) →
        List.Forall₂ (Shows d.phrase?) f.nodes lines) := by
  obtain ⟨lines, has⟩ := exists_hasLines_outline d.phrase? f
  have length := has.length_eq.trans (count_outline labels)
  refine ⟨lines, has, length, ?_, fun plain => ?_⟩
  · rw [length, Nat.add_eq_left, sum_count_eq_zero_iff]
  · rw [has.unique (hasLines_outline labels plain)]
    exact f.forall₂_shows

/-- A phrase with a line feed fills two lines. -/
theorem length_lines_outline_of_broken_phrase :
    let f : Formula := .binary .and (.atom "A".toList) (.not (.atom "B".toList))
    let d : Dictionary :=
      .ofList [("A".toList, "chove\nmuito".toList), ("B".toList, "venta".toList)]
    (∀ name ∈ f.leaves, IsLabel name) ∧ f.nodes.length = 4 ∧
    f.outline d.phrase?
      = "└─ ∧ AND\n  ├─ ◦ A: chove\nmuito\n  └─ ¬ NOT\n    └─ ◦ B: venta\n".toList ∧
    ∃ lines, HasLines (f.outline d.phrase?) lines ∧ lines.length = 5 := by
  intro f d
  have labels : ∀ name ∈ f.leaves, IsLabel name := by decide
  obtain ⟨lines, has, length, -⟩ := length_lines_outline labels d
  exact ⟨labels, by decide, by decide, lines, has, length.trans (by decide)⟩

end

end Sentential.Formula
