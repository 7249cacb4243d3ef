import SchemaNotation.Text.Letter
import SchemaNotation.Text.Word

/-!
# Scanning

The notation finds its facts inside free comment text.  This module has the scans
for that: the leftmost position at which a reader succeeds, a run of blanks that
gives characters back when what follows needs them, and the shortest run of
characters that ends at an acceptable place.
-/

namespace SchemaNotation.Text

variable {α : Type}

/-- Try a reader at every position from left to right and keep the first success.
The reader is told the character before its position. -/
def firstMatch (read : Option Char → Text → Option α) : Option Char → Text → Option α
  | previous, [] => read previous []
  | previous, c :: text =>
      match read previous (c :: text) with
      | some found => some found
      | none => firstMatch read (some c) text

/-- Skip as many blanks as possible such that the reader succeeds after them. -/
def afterBlanks (read : Text → Option α) : Text → Option α
  | [] => read []
  | c :: text =>
      if isBlank c then
        match afterBlanks read text with
        | some found => some found
        | none => read (c :: text)
      else read (c :: text)

/-- Skip one blank, and then as many more as possible such that the reader
succeeds after them. -/
def afterSomeBlanks (read : Text → Option α) : Text → Option α
  | [] => none
  | c :: text => if isBlank c then afterBlanks read text else none

/-- Skip a run of blanks, which must not be empty. -/
def blanks? : Text → Option Text
  | [] => none
  | c :: text => if isBlank c then some (trimLeft text) else none

/-- Read the shortest run of one or more characters of a line whose rest is an
acceptable end.  Returns the run and the rest. -/
def shortestUntil (ends : Text → Bool) : Text → Option (Text × Text)
  | [] => none
  | c :: text =>
      if c = '\n' then none
      else if ends text then some ([c], text)
      else (shortestUntil ends text).map fun (run, rest) => (c :: run, rest)

/-- What follows a phrase: keywords in any case with blanks between them. -/
def afterPhrase? : List Text → Text → Option Text
  | [], text => some text
  | [keyword], text => afterKeyword? keyword text
  | keyword :: next :: phrase, text => do
      let rest ← afterKeyword? keyword text
      afterPhrase? (next :: phrase) (← blanks? rest)

theorem length_of_blanks? {text rest : Text} (found : blanks? text = some rest) :
    rest.length < text.length := by
  cases text with
  | nil => simp [blanks?] at found
  | cons c text =>
      simp only [blanks?] at found
      split at found
      · simp only [Option.some.injEq] at found
        subst found
        simpa [Nat.lt_succ_iff] using length_trimLeft_le text
      · simp at found

/-- A phrase takes up at least its first keyword. -/
theorem length_of_afterPhrase? {keyword : Text} {phrase : List Text} {text rest : Text}
    (found : afterPhrase? (keyword :: phrase) text = some rest) :
    rest.length + keyword.length ≤ text.length := by
  induction phrase generalizing keyword text with
  | nil => exact Nat.le_of_eq (length_of_afterKeyword? found)
  | cons next phrase ih =>
      simp only [afterPhrase?, Option.bind_eq_bind, Option.bind_eq_some_iff] at found
      obtain ⟨middle, hmiddle, trimmed, htrimmed, found⟩ := found
      have first := length_of_afterKeyword? hmiddle
      have second := length_of_blanks? htrimmed
      have third := ih found
      omega

theorem length_of_shortestUntil {ends : Text → Bool} {text run rest : Text}
    (found : shortestUntil ends text = some (run, rest)) : rest.length < text.length := by
  induction text generalizing run with
  | nil => simp [shortestUntil] at found
  | cons c text ih =>
      simp only [shortestUntil] at found
      split at found
      · simp at found
      · split at found
        · simp only [Option.some.injEq, Prod.mk.injEq] at found
          simp [found.2]
        · simp only [Option.map_eq_some_iff, Prod.mk.injEq] at found
          obtain ⟨⟨shorter, tail⟩, found, _, rfl⟩ := found
          exact Nat.lt_succ_of_lt (ih found)

/-- A reader that uses up characters still does so after skipped blanks. -/
theorem length_of_afterBlanks {β : Type} {read : Text → Option (β × Text)}
    (shrinks : ∀ {text value rest}, read text = some (value, rest) → rest.length < text.length)
    {text rest : Text} {value : β} (found : afterBlanks read text = some (value, rest)) :
    rest.length < text.length := by
  induction text with
  | nil => exact shrinks found
  | cons c text ih =>
      simp only [afterBlanks] at found
      split at found
      · split at found
        · next equal =>
            simp only [Option.some.injEq] at found
            exact Nat.lt_succ_of_lt (ih (found ▸ equal))
        · exact shrinks found
      · exact shrinks found

/-- What follows a phrase that stands as whole words after the given character. -/
def afterWholePhrase? (phrase : List Text) (previous : Option Char) (text : Text) :
    Option Text := do
  guard (atWordStart previous)
  let rest ← afterPhrase? phrase text
  guard (atWordEnd rest)
  return rest

/-- Whether a phrase occurs as whole words somewhere in the text. -/
def mentions (phrase : List Text) (text : Text) : Bool :=
  (firstMatch (afterWholePhrase? phrase) none text).isSome

/-- Read the characters up to a closing character.  There must be at least one, and
the closing character must follow. -/
def upTo? (closing : Char) (text : Text) : Option (Text × Text) :=
  match text.takeWhile (· != closing), text.dropWhile (· != closing) with
  | [], _ => none
  | _, [] => none
  | run, _ :: rest => some (run, rest)

end SchemaNotation.Text
