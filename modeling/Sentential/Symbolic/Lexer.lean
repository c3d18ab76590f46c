import Sentential.Symbolic.Alias
import Sentential.Symbolic.Error

/-!
# From text to tokens

`lex` cuts a text into tokens. Only the space stands between tokens; an identifier takes all the
name characters that follow its first letter. The first character with which no token begins ends
the work with an error, and no tokens are handed out then.
-/

namespace Sentential.Symbolic

/-- A token with the bytes of the text that spell it: from `start` up to `stop`. -/
structure Lexeme where
  token : Token
  start : Nat
  stop : Nat
deriving DecidableEq, Repr

/-- Puts a token in front of those that follow it, unless there is an error. -/
def pushLexeme (lexeme : Lexeme) : Except ReadError (List Lexeme) → Except ReadError (List Lexeme)
  | .ok more => .ok (lexeme :: more)
  | .error cause => .error cause

/-- The tokens of a text that begins at the given byte and character. -/
def lexFrom (byte offset : Nat) : Text → Except ReadError (List Lexeme)
  | [] => .ok []
  | c :: rest =>
    if c = ' ' then lexFrom (byte + 1) (offset + 1) rest
    else if isLetter c then
      let name : Text := c :: rest.takeWhile isNameChar
      pushLexeme ⟨.identifier (name.map Char.toUpper), byte, byte + name.byteLength⟩
        (lexFrom (byte + name.byteLength) (offset + name.length) (rest.dropWhile isNameChar))
    else
      match Token.ofChar? c with
      | some token =>
        pushLexeme ⟨token, byte, byte + c.utf8Size⟩ (lexFrom (byte + c.utf8Size) (offset + 1) rest)
      | none => .error (.invalidSymbol c offset)
termination_by s => s.length
decreasing_by
  · simp
  · have := (List.dropWhile_suffix isNameChar (l := rest)).length_le
    simp only [List.length_cons]
    omega
  · simp

/-- The tokens of a text in which every connective has its main spelling. -/
def lex (s : Text) : Except ReadError (List Lexeme) :=
  lexFrom 0 0 s

/-- The tokens of any text. Their places are those in its main spelling. -/
def tokenize (s : Text) : Except ReadError (List Lexeme) :=
  lex (mainSpelling s)

end Sentential.Symbolic
