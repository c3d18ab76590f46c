import Sentential.Text.Basic

/-!
# Pieces read from the front of a text

A reader hands out what it has read and the rest of the text. That the rest is shorter goes with it,
so that a reader which goes on with the rest comes to an end.
-/

namespace Sentential.Text

/-- What was read from the front of a text, and the rest of the text. -/
structure Scanned (α : Type) (s : Text) where
  value : α
  rest : Text
  shorter : rest.length < s.length

/-- A rest that is no longer than what was there before. -/
abbrev Remainder (s : Text) := { rest : Text // rest.length ≤ s.length }

namespace Scanned

variable {α β : Type} {s : Text}

/-- A piece of one character. -/
def one {c : Char} (value : α) : Scanned α (c :: s) :=
  ⟨value, s, Nat.lt_succ_self _⟩

/-- A piece with another value. -/
def map (f : α → β) (piece : Scanned α s) : Scanned β s :=
  ⟨f piece.value, piece.rest, piece.shorter⟩

/-- A piece with one more character in front of it. -/
def behind (piece : Scanned α s) (c : Char) : Scanned α (c :: s) :=
  ⟨piece.value, piece.rest, Nat.lt_succ_of_lt piece.shorter⟩

/-- A piece and the piece behind it, with the value of the latter. -/
def followedBy (first : Scanned α s) (second : Scanned β first.rest) : Scanned β s :=
  ⟨second.value, second.rest, Nat.lt_trans second.shorter first.shorter⟩

/-- A piece that goes on up to a later rest. -/
def upTo (piece : Scanned α s) (rest : Remainder piece.rest) : Scanned α s :=
  ⟨piece.value, rest.val, Nat.lt_of_le_of_lt rest.property piece.shorter⟩

/-- The rest of a piece. -/
def remainder (piece : Scanned α s) : Remainder s :=
  ⟨piece.rest, Nat.le_of_lt piece.shorter⟩

/-- The rest is shorter than the text with one more character in front. -/
theorem rest_lt_cons (piece : Scanned α s) (c : Char) : piece.rest.length < (c :: s).length :=
  Nat.lt_succ_of_lt piece.shorter

end Scanned

namespace Remainder

variable {s : Text}

/-- The whole text. -/
def all (s : Text) : Remainder s :=
  ⟨s, Nat.le_refl _⟩

/-- The text behind the leading characters with a property. -/
def dropWhile (p : Char → Bool) (s : Text) : Remainder s :=
  ⟨s.dropWhile p, (List.dropWhile_suffix p).length_le⟩

/-- The text behind a number of characters. -/
def drop (n : Nat) (s : Text) : Remainder s :=
  ⟨s.drop n, (List.drop_suffix n s).length_le⟩

/-- A rest of a text with one more character in front of it. -/
def behind (rest : Remainder s) (c : Char) : Remainder (c :: s) :=
  ⟨rest.val, Nat.le_succ_of_le rest.property⟩

/-- A rest of a rest. -/
def followedBy (first : Remainder s) (second : Remainder first.val) : Remainder s :=
  ⟨second.val, Nat.le_trans second.property first.property⟩

/-- The piece from a character on up to a rest of the text behind it. -/
def piece {α : Type} (rest : Remainder s) (c : Char) (value : α) : Scanned α (c :: s) :=
  ⟨value, rest.val, Nat.lt_succ_of_le rest.property⟩

/-- A piece that begins at a rest. -/
def scanned {α : Type} (rest : Remainder s) (next : Scanned α rest.val) : Scanned α s :=
  ⟨next.value, next.rest, Nat.lt_of_lt_of_le next.shorter rest.property⟩

/-- A rest is shorter than the text with one more character in front. -/
theorem lt_cons (rest : Remainder s) (c : Char) : rest.val.length < (c :: s).length :=
  Nat.lt_succ_of_le rest.property

end Remainder

end Sentential.Text
