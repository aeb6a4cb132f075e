-- SUMMARY: Splitting a line of a model into tokens and a comment.
import WitnessLift.Text.Utf8

/-!
# Tokens of a line

Spaces, tabs and carriage returns separate tokens, and the first `;` begins a comment. A token
knows the byte offset at which it starts, so that an error can point at it.
-/

namespace WitnessLift

/-- A maximal run of characters between separators. -/
structure Token where
  start : Nat
  text : List Char
  deriving DecidableEq, Repr

/-- The byte offset behind a token. -/
def Token.stop (t : Token) : Nat := t.start + Text.byteSize t.text

/-- A line taken apart: its tokens, and what follows its first `;`. -/
structure LineTokens where
  tokens : List Token
  comment : Option (List Char)
  deriving DecidableEq, Repr

/-- Whether a character separates tokens. -/
def Token.isSeparator (c : Char) : Bool :=
  c == ' ' || c == '\t' || c == '\r'

/-- The token made of the characters read since the last separator, if there are any. `run` holds
them latest first, and `stop` is the offset behind them. -/
def Token.ofRun (run : List Char) (stop : Nat) : List Token :=
  if run.isEmpty then [] else [⟨stop - Text.byteSize run, run.reverse⟩]

/-- Takes apart what is left of a line at byte `offset`, after the characters `run`. -/
def LineTokens.scan (offset : Nat) (run : List Char) : List Char → LineTokens
  | [] => ⟨Token.ofRun run offset, none⟩
  | c :: rest =>
    if c = ';' then ⟨Token.ofRun run offset, some rest⟩
    else if Token.isSeparator c then
      let after := scan (offset + c.utf8Size) [] rest
      { after with tokens := Token.ofRun run offset ++ after.tokens }
    else scan (offset + c.utf8Size) (c :: run) rest

/-- Takes a line apart. -/
def LineTokens.ofLine (line : List Char) : LineTokens :=
  scan 0 [] line

end WitnessLift
