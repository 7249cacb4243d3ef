import SchemaNotation.Document
import SchemaNotation.Render

/-!
# Round trips

Reading a document, writing its schema and reading the result again.
-/

namespace SchemaNotation

/-- What a round trip ends in: the written text is read again, or one of its lines is
malformed. -/
inductive RoundTrip where
  | reread (text : Text) (schema : Schema) (sameSchema sameText : Bool)
  | refused (text : Text) (error : LineError)
  deriving BEq, DecidableEq, Repr

/-- Write a schema; a failure counts as one of reading. -/
def RoundTrip.write (layout : Layout) (schema : Schema) : Except ReadError Text :=
  (schema.render layout).mapError .unknownKind

/-- Take a document through a round trip.  The schemas of both readings are compared, and
so are the texts written for them. -/
def RoundTrip.run (options : ReadOptions) (layout : Layout) (document : Text) :
    Except ReadError RoundTrip := do
  let first ← Schema.read options document
  let text ← write layout first
  match Schema.read options text with
  | .error (.malformed error) => return .refused text error
  | .error error => throw error
  | .ok second =>
      let again ← write layout second
      return .reread text second (first == second) (again == text)

end SchemaNotation
