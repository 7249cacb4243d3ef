/-!
# Options for reading

The constraints and annotations of a document are derived from its comments, and
either can be left out.
-/

namespace SchemaNotation

/-- What to leave out when a document is read. -/
structure ReadOptions where
  skipConstraints : Bool := false
  skipAnnotations : Bool := false
  deriving BEq, DecidableEq, Repr

end SchemaNotation
