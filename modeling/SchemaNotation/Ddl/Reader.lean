import SchemaNotation.Ddl.Token

/-!
# Readers

A reader uses up tokens from the front.  Reading a token puts its comments up for the
next value that is read to claim; those that are not claimed before the next token is
read are lost.  A reader that finds nothing returns `none`.
-/

namespace SchemaNotation.Ddl

/-- The tokens that are left to read, and the comments of the last token read, as far as
no value has claimed them. -/
structure Input where
  tokens : List Token
  comments : List Text := []
  deriving BEq, DecidableEq, Repr

/-- A reader of tokens. -/
abbrev Reader := StateM Input

namespace Reader

variable {α : Type}

/-- The next token, which is left to read. -/
def peek? : Reader (Option Token) := do
  return (← get).tokens.head?

/-- The token after the next one, which is left to read. -/
def peekSecond? : Reader (Option Token) := do
  return (← get).tokens[1]?

/-- Whether the next token passes a test. -/
def sees (test : Token → Bool) : Reader Bool := do
  return (← peek?).any test

/-- The number of tokens left, which bounds how often a reader can use one up. -/
def remaining : Reader Nat := do
  return (← get).tokens.length

/-- Read the next token if it passes a test. -/
def readIf? (test : Token → Bool) : Reader (Option Token) := do
  match (← get).tokens with
  | [] => return none
  | token :: tokens =>
      if test token then
        set { tokens, comments := token.comments : Input }
        return some token
      else return none

/-- Skip the next token if it passes a test. -/
def skip (test : Token → Bool) : Reader Bool := do
  return (← readIf? test).isSome

/-- Skip one of several words. -/
def skipWord (words : List String) : Reader Bool :=
  skip (·.isWord words)

/-- Skip one of several symbols. -/
def skipSymbol (symbols : List String) : Reader Bool :=
  skip (·.isSymbol symbols)

/-- Skip a token that reads like one of several texts. -/
def skipText (texts : List String) : Reader Bool :=
  skip (·.reads texts)

/-- Skip tokens that pass the given tests one after the other, or none at all. -/
def skipAll (tests : List (Token → Bool)) : Reader Bool := do
  let input ← get
  let found ← tests.foldlM (fun found test => if found then skip test else pure false) true
  unless found do set input
  return found

/-- Skip tokens that read like the given texts one after the other, or none at all. -/
def skipPhrase (texts : List String) : Reader Bool :=
  skipAll (texts.map fun text token => token.reads [text])

/-- Skip only under a condition. -/
def skipWhen (condition : Bool) (skipOne : Reader Bool) : Reader Bool :=
  if condition then skipOne else pure false

/-- Skip the first of several phrases that comes next. -/
def skipAnyPhrase : List (List String) → Reader Bool
  | [] => pure false
  | phrase :: phrases => do
      if ← skipPhrase phrase then return true
      skipAnyPhrase phrases

/-- Skip again and again, in a bounded number of steps, until nothing is skipped. -/
def skipMany (skipOne : Reader Bool) : (steps : Nat) → Reader Unit
  | 0 => pure ()
  | steps + 1 => do
      if ← skipOne then skipMany skipOne steps

/-- Claim the comments of the last token. -/
def claimComments : Reader (List Text) := do
  let input ← get
  set { input with comments := [] }
  return input.comments

/-- Read, or go back to where the reading began. -/
def attempt (read : Reader (Option α)) : Reader (Option α) := do
  let input ← get
  match ← read with
  | some value => return some value
  | none =>
      set input
      return none

/-- Try readers one after the other until one finds something. -/
def firstOf : List (Reader (Option α)) → Reader (Option α)
  | [] => pure none
  | read :: readers => do
      match ← read with
      | some value => return some value
      | none => firstOf readers

/-- Read again and again, in a bounded number of steps, until nothing is found. -/
def readMany (read : Reader (Option α)) : (steps : Nat) → Reader (List α)
  | 0 => pure []
  | steps + 1 => do
      match ← read with
      | none => return []
      | some value => return value :: (← readMany read steps)

/-- Read items after the first one, each after a comma, in a bounded number of steps.
What is read may be missing, and the comments of a comma go to the item before it. -/
def readAfterCommas (annotate : List Text → α → α) (read : Reader (Option α)) :
    (steps : Nat) → (item : Option α) → Reader (List α)
  | 0, item => pure item.toList
  | steps + 1, item => do
      if ← skipSymbol [","] then
        let comments ← if item.isSome then claimComments else pure []
        return (item.map (annotate comments)).toList ++
          (← readAfterCommas annotate read steps (← read))
      else return item.toList

/-- Read items between commas, whose comments go to the item before them. -/
def readAnnotated (annotate : List Text → α → α) (read : Reader (Option α)) :
    Reader (List α) := do
  let steps ← remaining
  readAfterCommas annotate read steps (← read)

/-- Read items between commas. -/
def readSeparated (read : Reader (Option α)) : Reader (List α) :=
  readAnnotated (fun _ item => item) read

/-- Read between parentheses, which may both be missing. -/
def readWrapped (read : Reader α) : Reader α := do
  let opened ← skipSymbol ["("]
  let value ← read
  if opened then let _ ← skipSymbol [")"]
  return value

/-- Skip the rest of a parenthesized list, with the lists inside it. -/
def skipToClosing : (steps depth : Nat) → Reader Unit
  | 0, _ => pure ()
  | steps + 1, depth => do
      match ← readIf? fun _ => true with
      | none => return
      | some token =>
          if token.isSymbol ["("] then skipToClosing steps (depth + 1)
          else if token.isSymbol [")"] then
            match depth with
            | 0 => return
            | depth + 1 => skipToClosing steps depth
          else skipToClosing steps depth

end Reader

end SchemaNotation.Ddl
