import Sentential.Symbolic.Lexer

/-!
# From tokens to formulas

Reading climbs the ranks of the connectives. An operand is an identifier, a negated operand or a
formula in parentheses. A formula at a minimal rank is an operand and, for as long as a connective
of at least that rank follows, that connective and a formula of the next higher rank on its right;
so chains of equal rank group to the left.

Both the groups and negations that are open at a token and the depth of the tree are held to a
limit, which is `maxDepth` for `parse`. Every reading step returns the cursor behind what it has
read, and a successful one with the proof that it has passed a token, which is why reading ends.
-/

namespace Sentential.Symbolic

/-- A place in a list of tokens. -/
structure Cursor where
  /-- The tokens from here on. -/
  rest : List Token
  /-- The number of tokens passed. -/
  index : Nat
  /-- The number of groups and negations open here. -/
  nesting : Nat
deriving DecidableEq, Repr

namespace Cursor

/-- The cursor behind the next token, the tokens after which are given. -/
def pass (c : Cursor) (rest : List Token) : Cursor :=
  { c with rest := rest, index := c.index + 1 }

/-- One more group or negation is open. -/
def enter (c : Cursor) : Cursor :=
  { c with nesting := c.nesting + 1 }

/-- One group or negation less is open. -/
def leave (c : Cursor) : Cursor :=
  { c with nesting := c.nesting - 1 }

end Cursor

/-- The outcome of a reading step: a value and the cursor behind it, which has fewer than `room`
tokens left, or an error and the cursor where the step stopped. -/
inductive Step (α : Type) (room : Nat) where
  | done (value : α) (next : Cursor) (fits : next.rest.length < room)
  | fail (cause : ReadError) (stop : Cursor)

mutual

/-- Reads an operand and tells its depth. -/
def readOperand (limit : Nat) (c : Cursor) : Step (Formula × Nat) c.rest.length :=
  match tokens : c.rest with
  | [] => .fail .unexpectedEnd c
  | .leftParen :: rest =>
    if c.nesting < limit then
      match readFormula limit 0 (c.pass rest).enter with
      | .done inner next fits =>
        match closing : next.rest with
        | .rightParen :: after =>
          .done inner (next.pass after).leave (by
            simp only [Cursor.pass, Cursor.enter, Cursor.leave, List.length_cons] at *
            rw [closing, List.length_cons] at fits
            omega)
        | _ => .fail (.unclosedParen next.index) next.leave
      | .fail cause stop => .fail cause stop.leave
    else .fail (.tooDeep c.index) (c.pass rest)
  | .not :: rest =>
    if c.nesting < limit then
      match readOperand limit (c.pass rest).enter with
      | .done (operand, depth) next fits =>
        if depth + 1 ≤ limit then
          .done (.not operand, depth + 1) next.leave (by
            simp only [Cursor.pass, Cursor.enter, Cursor.leave, List.length_cons] at *
            omega)
        else .fail (.tooDeep c.index) next.leave
      | .fail cause stop => .fail cause stop.leave
    else .fail (.tooDeep c.index) (c.pass rest)
  | .identifier name :: rest =>
    .done (.atom name, 1) (c.pass rest) (by simp [Cursor.pass])
  | token :: rest => .fail (.unexpectedToken token c.index) (c.pass rest)
termination_by 2 * c.rest.length
decreasing_by
  all_goals
    simp only [tokens, Cursor.pass, Cursor.enter, List.length_cons]
    omega

/-- Reads a formula whose outermost connectives have at least the given rank. -/
def readFormula (limit rank : Nat) (c : Cursor) : Step (Formula × Nat) c.rest.length :=
  match readOperand limit c with
  | .done (left, depth) next fits =>
    match readChain limit rank left depth next with
    | .done whole last fits' => .done whole last (by omega)
    | .fail cause stop => .fail cause stop
  | .fail cause stop => .fail cause stop
termination_by 2 * c.rest.length + 1
decreasing_by
  · omega
  · omega

/-- Goes on reading connectives of at least the given rank and what stands on their right, where
`left` of the given depth has been read before. -/
def readChain (limit rank : Nat) (left : Formula) (depth : Nat) (c : Cursor) :
    Step (Formula × Nat) (c.rest.length + 1) :=
  match tokens : c.rest with
  | .connective op :: rest =>
    if rank ≤ op.precedence then
      match readFormula limit (op.precedence + 1) (c.pass rest) with
      | .done (right, rightDepth) next fits =>
        if 1 + max depth rightDepth ≤ limit then
          match readChain limit rank (.binary op left right) (1 + max depth rightDepth) next with
          | .done whole last fits' =>
            .done whole last (by
              simp only [Cursor.pass, List.length_cons] at *
              omega)
          | .fail cause stop => .fail cause stop
        else .fail (.tooDeep c.index) next
      | .fail cause stop => .fail cause stop
    else .done (left, depth) c (by simp [tokens])
  | _ => .done (left, depth) c (by simp_all)
termination_by 2 * c.rest.length
decreasing_by
  all_goals
    simp only [tokens, Cursor.pass, List.length_cons] at *
    omega

end

/-- The formula that a list of tokens spells, if it nests no deeper than a limit. -/
def parseWithin (limit : Nat) (tokens : List Token) : Except ReadError Formula :=
  match readFormula limit 0 ⟨tokens, 0, 0⟩ with
  | .done (f, _) next _ =>
    match next.rest with
    | [] => .ok f
    | _ :: _ => .error (.trailingTokens next.index)
  | .fail cause _ => .error cause

/-- The formula that a list of tokens spells. -/
def parse (tokens : List Token) : Except ReadError Formula :=
  parseWithin maxDepth tokens

/-- The formula that a text spells. -/
def read (s : Text) : Except ReadError Formula :=
  match tokenize s with
  | .ok lexemes => parse (lexemes.map Lexeme.token)
  | .error cause => .error cause

end Sentential.Symbolic
