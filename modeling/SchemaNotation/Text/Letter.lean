import SchemaNotation.Text.Basic

/-!
# Letter case

Keywords are compared without regard to case under simple case folding, and names
are looked up in lower case.  Only the part of either mapping that meets an ASCII
letter is needed, because every keyword and every name looked up is ASCII.
-/

namespace SchemaNotation

/-- KELVIN SIGN, a capital form of the letter k. -/
abbrev kelvinSign : Char := '\u212a'

/-- LATIN SMALL LETTER LONG S, a variant of the letter s. -/
abbrev longS : Char := '\u017f'

/-- LATIN CAPITAL LETTER I WITH DOT ABOVE. -/
abbrev dottedCapitalI : Char := '\u0130'

/-- LATIN SMALL LETTER DOTLESS I. -/
abbrev dotlessI : Char := '\u0131'

/-- COMBINING DOT ABOVE, which remains when the dotted capital I is written in
lower case. -/
abbrev dotAbove : Char := '\u0307'

/-- The representative of a letter's case variants: its ASCII lower case form,
where it has one. -/
def foldLetter (c : Char) : Char :=
  if c = kelvinSign then 'k'
  else if c = longS then 's'
  else if c = dottedCapitalI ∨ c = dotlessI then 'i'
  else c.toLower

/-- Two characters that differ in case only. -/
def sameLetter (a b : Char) : Bool :=
  foldLetter a == foldLetter b

/-- The lower case form of a character.  Letters whose lower case form has no
ASCII character are left as they are. -/
def lowerLetter (c : Char) : Text :=
  if c = kelvinSign then ['k']
  else if c = dottedCapitalI then ['i', dotAbove]
  else [c.toLower]

namespace Text

/-- The lower case form of a text, as far as a comparison with an ASCII text can
tell. -/
def lower (text : Text) : Text :=
  text.flatMap lowerLetter

/-- What follows a keyword at the start of the text, in any case. -/
def afterKeyword? : (keyword text : Text) → Option Text
  | [], text => some text
  | _ :: _, [] => none
  | letter :: keyword, c :: text =>
      if sameLetter letter c then afterKeyword? keyword text else none

theorem length_of_afterKeyword? {keyword text rest : Text}
    (found : afterKeyword? keyword text = some rest) :
    rest.length + keyword.length = text.length := by
  induction keyword generalizing text with
  | nil =>
      simp only [afterKeyword?, Option.some.injEq] at found
      simp [found]
  | cons letter keyword ih =>
      cases text with
      | nil => simp [afterKeyword?] at found
      | cons c text =>
          simp only [afterKeyword?] at found
          split at found
          · have shorter := ih found
            simp only [List.length_cons]
            omega
          · simp at found

end Text

end SchemaNotation
