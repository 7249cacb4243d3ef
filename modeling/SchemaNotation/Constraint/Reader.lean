import SchemaNotation.Constraint
import SchemaNotation.Text.Scan

/-!
# Constraints stated in a comment

A column comment is free text.  Each kind of constraint is looked for on its own, and
a comment states at most one constraint of each kind: the one that stands leftmost.
-/

namespace SchemaNotation

namespace ForeignKey

/-- The phrases of the actions on a changed or deleted target. -/
def actionPhrases : List (List Text) :=
  ["DELETE", "UPDATE"].flatMap fun event =>
    [["CASCADE"], ["RESTRICT"], ["NO", "ACTION"], ["SET", "NULL"], ["SET", "DEFAULT"]].map
      fun effect => ("ON" :: event :: effect).map String.toList

/-- What follows one action. -/
def afterAction? (text : Text) : Option Text :=
  actionPhrases.findSome? fun phrase => Text.afterPhrase? phrase text

/-- Skip blanks with at most one comma among them. -/
def afterSeparator (text : Text) : Text :=
  match Text.trimLeft text with
  | ',' :: rest => Text.trimLeft rest
  | rest => rest

theorem length_afterSeparator_le (text : Text) :
    (afterSeparator text).length ≤ text.length := by
  have first := Text.length_trimLeft_le text
  unfold afterSeparator
  split
  · next rest equal =>
      have second := Text.length_trimLeft_le rest
      rw [equal, List.length_cons] at first
      omega
  · exact first

theorem length_of_afterAction? {text rest : Text} (found : afterAction? text = some rest) :
    rest.length < text.length := by
  obtain ⟨phrase, member, found⟩ := List.exists_of_findSome?_eq_some found
  have starts : ∃ phrase', phrase = "ON".toList :: phrase' := by
    simp only [actionPhrases, List.mem_flatMap, List.mem_map] at member
    obtain ⟨event, _, effect, _, rfl⟩ := member
    exact ⟨_, rfl⟩
  obtain ⟨phrase', rfl⟩ := starts
  have used := Text.length_of_afterPhrase? found
  have two : "ON".toList.length = 2 := rfl
  omega

/-- What follows the longest sequence of further actions. -/
def afterActions (text : Text) : Text :=
  match found : afterAction? (afterSeparator text) with
  | none => text
  | some rest =>
      have _shorter : rest.length < text.length :=
        Nat.lt_of_lt_of_le (length_of_afterAction? found) (length_afterSeparator_le text)
      afterActions rest
termination_by text.length
decreasing_by exact _shorter

/-- Read the actions after a reference: one or more, with a separator before each. -/
def readAction? (text : Text) : Option Text :=
  let text := afterSeparator text
  (afterAction? text).map fun rest =>
    Text.trim (text.take (text.length - (afterActions rest).length))

/-- Read a name of a reference: a quoted name or a run of word characters. -/
def readName? (text : Text) : Option (Text × Text) :=
  match Identifier.readQuoted? text with
  | some found => some found
  | none => Text.word? text

/-- Read the column in parentheses and the optional actions after it. -/
def readColumn? (schema : Option Text) (table : Text) : Text → Option ForeignKey
  | '(' :: text =>
      match readName? text with
      | some (column, ')' :: rest) => some { table, column, schema, action := readAction? rest }
      | _ => none
  | _ => none

/-- Read the target of a reference: an optional schema, a table and a column. -/
def readTarget? (text : Text) : Option ForeignKey := do
  let (first, rest) ← readName? text
  match rest with
  | '.' :: rest =>
      let (table, rest) ← readName? rest
      readColumn? (some first) table rest
  | rest => readColumn? none first rest

/-- Read a reference that starts right here: its keyword, an arrow and its target. -/
def readHere? (previous : Option Char) (text : Text) : Option ForeignKey := do
  let rest ← match Text.afterWholePhrase? ["FK".toList] previous text with
    | some rest => some rest
    | none => Text.afterWholePhrase? ["FOREIGN".toList, "KEY".toList] previous text
  let rest ← Text.after? "->".toList (Text.trimLeft rest)
  readTarget? (Text.trimLeft rest)

/-- The leftmost reference in a comment. -/
def read? (comment : Text) : Option ForeignKey :=
  Text.firstMatch readHere? none comment

end ForeignKey

namespace Constraint

/-- A default value ends at a comma or at the end of the text, where one last line
feed does not count. -/
def endsDefault : Text → Bool
  | [] => true
  | c :: text => c == ',' || (c == '\n' && text.isEmpty)

/-- Read a default value that starts right here. -/
def readDefaultHere? (previous : Option Char) (text : Text) : Option Text := do
  guard (Text.atWordStart previous)
  let rest ← Text.afterKeyword? "DEFAULT".toList text
  let (value, _) ← Text.afterSomeBlanks (Text.shortestUntil endsDefault) rest
  return Text.trim value

/-- Read a check that starts right here: the text between its parentheses. -/
def readCheckHere? (previous : Option Char) (text : Text) : Option Text := do
  guard (Text.atWordStart previous)
  let rest ← Text.afterPhrase? ["CHECK".toList, "IN".toList] text
  let rest ← Text.after? "(".toList (Text.trimLeft rest)
  let (expression, _) ← Text.upTo? ')' rest
  return Text.trim expression

/-- Whether a comment states a primary key. -/
def mentionsPrimaryKey (comment : Text) : Bool :=
  comment.mentions ["PRIMARY".toList, "KEY".toList] || comment.mentions ["PK".toList]

/-- Whether a comment states a generated value. -/
def mentionsAutoIncrement (comment : Text) : Bool :=
  comment.mentions ["AUTO_INCREMENT".toList] || comment.mentions ["IDENTITY".toList]

/-- The constraint, when the condition holds. -/
def onlyIf (condition : Bool) (constraint : Constraint) : List Constraint :=
  if condition then [constraint] else []

/-- The constraints a comment states, in a fixed order of their kinds. -/
def readAll (comment : Text) : List Constraint :=
  onlyIf (mentionsPrimaryKey comment) .primaryKey ++
    onlyIf (comment.mentions ["UNIQUE".toList]) .unique ++
    onlyIf (comment.mentions ["INDEX".toList]) .index ++
    onlyIf (mentionsAutoIncrement comment) .autoIncrement ++
    ((ForeignKey.read? comment).map .foreignKey).toList ++
    ((Text.firstMatch readDefaultHere? none comment).map .defaultValue).toList ++
    ((Text.firstMatch readCheckHere? none comment).map .checkIn).toList

end Constraint

end SchemaNotation
