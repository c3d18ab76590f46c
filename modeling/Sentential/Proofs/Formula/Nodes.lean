import Mathlib.Data.List.Basic
import Mathlib.Tactic.Lemma
import Sentential.Formula.Basic

/-!
# The nodes of a formula

A node of a formula is told by the way that leads to it from the topmost one: at each node on the
way, to which of its operands the way turns (`at?`). `nodes` lists the nodes in pre-order, a node
before its operands and the left operand before the right one. It lists each node once, and one that
stands above another or on its left goes before it (`preorder_nodes`).
-/

namespace Sentential.Formula

/-- To which operand of a node a way turns. -/
inductive Turn where
  | only
  | left
  | right
deriving DecidableEq, Repr

/-- The operand of the topmost node to which a way turns. -/
def operand? : Formula → Turn → Option Formula
  | .not operand, .only => some operand
  | .binary _ left _, .left => some left
  | .binary _ _ right, .right => some right
  | _, _ => none

/-- The formula to which a way leads, if it leads to a node. -/
def at? (f : Formula) : List Turn → Option Formula
  | [] => some f
  | turn :: way => (f.operand? turn).bind fun operand => operand.at? way

/-- A node: the way to it and the formula of which it is the topmost node. -/
structure Node where
  way : List Turn
  formula : Formula
deriving DecidableEq, Repr

/-- A node as it is told from the node above, where the way turns to it. -/
def Node.below (turn : Turn) (node : Node) : Node :=
  { node with way := turn :: node.way }

/-- A node as it is told from further above, from where a way leads to the formula. -/
def Node.under (way : List Turn) (node : Node) : Node :=
  { node with way := way ++ node.way }

/-- The nodes of a formula in pre-order. -/
def nodes : Formula → List Node
  | f@(.atom _) => [⟨[], f⟩]
  | f@(.not operand) => ⟨[], f⟩ :: operand.nodes.map (Node.below .only)
  | f@(.binary _ left right) =>
    ⟨[], f⟩ :: (left.nodes.map (Node.below .left) ++ right.nodes.map (Node.below .right))

/-- Whether the first of two ways leads to a node above the other, or to one on its left. -/
def Precedes (way way' : List Turn) : Prop :=
  (∃ turn rest, way' = way ++ turn :: rest) ∨
    ∃ common rest rest', way = common ++ .left :: rest ∧ way' = common ++ .right :: rest'

/-- Whether a list has all nodes of a formula, in pre-order. -/
structure Preorder (f : Formula) (listed : List Node) : Prop where
  mem_iff : ∀ node, node ∈ listed ↔ f.at? node.way = some node.formula
  ordered : listed.Pairwise fun node node' => Precedes node.way node'.way

section
variable {turn : Turn} {way way' : List Turn} {listed : List Node} {f : Formula}

/-- The root comes before all nodes below it. -/
lemma precedes_root (turn : Turn) (way : List Turn) : Precedes [] (turn :: way) :=
  .inl ⟨turn, way, rfl⟩

/-- All that is on the left comes before all that is on the right. -/
lemma precedes_beside (way way' : List Turn) : Precedes (.left :: way) (.right :: way') :=
  .inr ⟨[], way, way', rfl, rfl⟩

/-- One turn in front of two ways leaves their order. -/
lemma Precedes.below (before : Precedes way way') : Precedes (turn :: way) (turn :: way') := by
  rcases before with ⟨next, rest, rfl⟩ | ⟨common, rest, rest', rfl, rfl⟩
  · exact .inl ⟨next, rest, rfl⟩
  · exact .inr ⟨turn :: common, rest, rest', rfl, rfl⟩

/-- No way precedes itself. -/
lemma not_precedes_self (way : List Turn) : ¬ Precedes way way := by
  rintro (⟨turn, rest, e⟩ | ⟨common, rest, rest', e, e'⟩)
  · simp at e
  · rw [e] at e'
    cases List.append_cancel_left e'

/-- A list in pre-order has each node once. -/
lemma Preorder.nodup (pre : Preorder f listed) : listed.Nodup :=
  pre.ordered.imp fun before same => by
    subst same
    exact not_precedes_self _ before

/-- A turn can be put in front before the rest or after it. -/
lemma Node.under_below (node : Node) :
    (node.below turn).under way = node.under (way ++ [turn]) := by
  rw [under, under, below, List.append_assoc, List.singleton_append]

/-- The nodes below a turn are those of the operand, each with the turn in front. -/
lemma mem_map_below {node : Node} :
    node ∈ listed.map (Node.below turn)
      ↔ ∃ way, node.way = turn :: way ∧ ⟨way, node.formula⟩ ∈ listed := by
  rw [List.mem_map]
  constructor
  · rintro ⟨inner, mem, rfl⟩
    exact ⟨inner.way, rfl, mem⟩
  · rintro ⟨way, e, mem⟩
    refine ⟨_, mem, ?_⟩
    rw [Node.below, ← e]

/-- The nodes of a formula are its subformulas at their ways. -/
lemma mem_nodes_iff {node : Node} : node ∈ f.nodes ↔ f.at? node.way = some node.formula := by
  obtain ⟨way, g⟩ := node
  induction f generalizing way with
  | atom name =>
    rcases way with _ | ⟨turn, way⟩
    · simp [nodes, at?, eq_comm]
    · simp [nodes, at?, operand?]
  | not operand ih =>
    rw [nodes, List.mem_cons, mem_map_below]
    rcases way with _ | ⟨_ | _ | _, way⟩
    · simp [at?, eq_comm]
    · simp [at?, operand?, ih]
    · simp [at?, operand?]
    · simp [at?, operand?]
  | binary op left right ihl ihr =>
    rw [nodes, List.mem_cons, List.mem_append, mem_map_below, mem_map_below]
    rcases way with _ | ⟨_ | _ | _, way⟩
    · simp [at?, eq_comm]
    · simp [at?, operand?]
    · simp [at?, operand?, ihl]
    · simp [at?, operand?, ihr]

/-- Below a node that comes first, nodes keep their order. -/
lemma pairwise_below (ordered : listed.Pairwise fun node node' => Precedes node.way node'.way) :
    (listed.map (Node.below turn)).Pairwise fun node node' => Precedes node.way node'.way :=
  List.pairwise_map.2 (ordered.imp Precedes.below)

/-- The root comes before the nodes of an operand. -/
lemma precedes_of_mem_map_below {node : Node} (mem : node ∈ listed.map (Node.below turn)) :
    Precedes [] node.way := by
  obtain ⟨way, e, -⟩ := mem_map_below.1 mem
  rw [e]
  exact precedes_root turn way

/-- The nodes of a formula are listed in pre-order. -/
lemma pairwise_nodes (f : Formula) :
    f.nodes.Pairwise fun node node' => Precedes node.way node'.way := by
  induction f with
  | atom name => exact List.pairwise_singleton _ _
  | not operand ih =>
    exact List.pairwise_cons.2 ⟨fun _ => precedes_of_mem_map_below, pairwise_below ih⟩
  | binary op left right ihl ihr =>
    refine List.pairwise_cons.2 ⟨fun node mem => ?_, List.pairwise_append.2
      ⟨pairwise_below ihl, pairwise_below ihr, fun node mem node' mem' => ?_⟩⟩
    · exact (List.mem_append.1 mem).elim precedes_of_mem_map_below precedes_of_mem_map_below
    · obtain ⟨way, e, -⟩ := mem_map_below.1 mem
      obtain ⟨way', e', -⟩ := mem_map_below.1 mem'
      rw [e, e']
      exact precedes_beside way way'

/-- The nodes are listed in pre-order. -/
lemma preorder_nodes (f : Formula) : Preorder f f.nodes :=
  ⟨fun _ => mem_nodes_iff, f.pairwise_nodes⟩

end

end Sentential.Formula
