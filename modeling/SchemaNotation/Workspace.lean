import SchemaNotation.Ddl.Script
import SchemaNotation.Document
import SchemaNotation.Environment
import SchemaNotation.Render

/-!
# Workspaces

A workspace holds a current schema and a current text between operations, and the
environment that settings are read from.  An operation that fails changes nothing.
-/

namespace SchemaNotation

/-- The current schema, the current text, and the environment. -/
structure Workspace where
  schema : Schema := {}
  text : Text := []
  environment : Environment := []
  deriving Inhabited

namespace Workspace

/-- Read a document, or the current text, and make its schema the current one. -/
def read (workspace : Workspace) (options : ReadOptions) (document : Option Text) :
    Except ReadError (Schema × Workspace) := do
  let schema ← Schema.read options (document.getD workspace.text)
  return (schema, { workspace with schema })

/-- Import a script and make its schema the current one. -/
def importScript (workspace : Workspace) (dialect : Dialect) (script : Text) :
    Except Ddl.ImportError (Schema × List Ddl.Warning × Workspace) := do
  let (schema, warnings) ← Ddl.importScript dialect script
  return (schema, warnings, { workspace with schema })

/-- Write a schema, or the current one, and make its text the current one. -/
def write (workspace : Workspace) (layout : Layout) (schema : Option Schema) :
    Except TableConstraint.UnknownKind (Text × Workspace) := do
  let text ← (schema.getD workspace.schema).render layout
  return (text, { workspace with text })

/-- Write a table of the current schema, if there is one of that name. -/
def writeTable (workspace : Workspace) (layout : Layout) (name : Text) :
    Except TableConstraint.UnknownKind (Option Text) :=
  match workspace.schema.table? name with
  | none => .ok none
  | some table => (table.render layout).map some

/-- Set a variable, or unset it. -/
def setVariable (workspace : Workspace) (name : Text) (value : Option Text) : Workspace :=
  let environment := match value with
    | some value => workspace.environment.set name value
    | none => workspace.environment.unset name
  { workspace with environment }

end Workspace

end SchemaNotation
