import Sentential.Text.Scanned

/-!
# Space between the parts of a document

Spaces and tabs part what stands on a line. A line ends with a line feed, which a carriage return
may precede, or with the text; a comment may stand before its end.
-/

namespace Sentential.Toml

open Text

/-- Whether a character is a space or a tab. -/
def isSpace (c : Char) : Bool :=
  c == ' ' || c == '\t'

/-- Whether a character can stand in comments and quoted texts. Of the controls only the tab
can. -/
def isPlain (c : Char) : Bool :=
  c == '\t' || (0x20 ≤ c.toNat && c.toNat != 0x7f)

/-- The text behind spaces and tabs. -/
def skipSpace (s : Text) : Remainder s :=
  .dropWhile isSpace s

/-- A character that has to stand at the front of a text. -/
def mark? (c : Char) (s : Text) : Option (Scanned Unit s) :=
  match s with
  | [] => none
  | d :: _ => if d = c then some (.one ()) else none

/-- A line break at the front of a text. -/
def lineBreak? (s : Text) : Option (Scanned Unit s) :=
  match s with
  | '\n' :: _ => some (.one ())
  | '\r' :: '\n' :: _ => some ((Scanned.one ()).behind '\r')
  | _ => none

/-- The text behind a comment, if one stands at its front. -/
def skipComment (s : Text) : Remainder s :=
  match s with
  | '#' :: rest => (Remainder.dropWhile isPlain rest).behind '#'
  | s => .all s

/-- The text behind the space and the comment at the end of a line. -/
def skipToBreak (s : Text) : Remainder s :=
  (skipSpace s).followedBy (skipComment _)

/-- The text behind space, comments and line breaks. A comment ends with its line. -/
def skipLines (s : Text) : Remainder s :=
  match lineBreak? (skipToBreak s).val with
  | none => skipSpace s
  | some ending =>
    let line := (skipToBreak s).scanned ending
    (line.upTo (skipLines line.rest)).remainder
termination_by s.length
decreasing_by exact line.shorter

/-- The text behind space and line breaks. -/
def skipBlankLines (s : Text) : Remainder s :=
  match lineBreak? (skipSpace s).val with
  | none => skipSpace s
  | some ending =>
    let line := (skipSpace s).scanned ending
    (line.upTo (skipBlankLines line.rest)).remainder
termination_by s.length
decreasing_by exact line.shorter

/-- How a line ends. -/
inductive LineEnd (s : Text) where
  /-- The text ends with it. -/
  | last
  /-- A line break ends it, behind which another line begins. -/
  | next (line : Scanned Unit s)

/-- The end of a line that begins with a certain piece. -/
def LineEnd.behind {α : Type} {s : Text} (piece : Scanned α s) : LineEnd piece.rest → LineEnd s
  | .last => .last
  | .next line => .next (piece.followedBy line)

/-- The end of a line, which nothing but space and a comment precedes. -/
def lineEnd? (s : Text) : Option (LineEnd s) :=
  let rest := skipToBreak s
  if rest.val.isEmpty then some .last
  else (lineBreak? rest.val).map fun ending => .next (rest.scanned ending)

end Sentential.Toml
