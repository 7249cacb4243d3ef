import SchemaNotation.Proofs.Document

/-!
# The outline of a document

The lines of a document that is read are blank lines, comment lines, and blocks of lines
that tables stand on.  They are cut in this way at exactly one set of places, and each
line counts once: a comment line for the table right below it or else for the schema, a
line of a block for one column, one constraint or one remark.
-/

namespace SchemaNotation

/-! ## Parts -/

/-- The lines that a table stands on.  Either the line that opens it closes it too, or a
later line does. -/
inductive Block where
  | oneLine (header : Text)
  | manyLines (header : Text) (inner : List Text) (last : Text)
  deriving DecidableEq, Repr

namespace Block

/-- The line that opens the table. -/
def header : Block → Text
  | oneLine header => header
  | manyLines header _ _ => header

/-- The lines between the one that opens the table and the one that closes it. -/
def inner : Block → List Text
  | oneLine _ => []
  | manyLines _ inner _ => inner

/-- All lines of the block. -/
def lines : Block → List Text
  | oneLine header => [header]
  | manyLines header inner last => header :: (inner ++ [last])

/-- The first line opens a table, and the last one is the first that closes it. -/
def Sound : Block → Prop
  | oneLine header => ∃ opening, Interface.opening? header = some opening ∧ opening.closes = true
  | manyLines header inner last =>
      (∃ opening, Interface.opening? header = some opening ∧ opening.closes = false) ∧
        (∀ line ∈ inner, Text.trim line ≠ ['\x7d']) ∧ Text.trim last = ['\x7d']

/-- Lines without their outer blanks, the empty ones left out. -/
def filled (lines : List Text) : List Text :=
  (lines.map Text.trim).filter fun line => !line.isEmpty

/-- What stands in the table: the segments behind its brace, and its other lines. -/
def contents (block : Block) : List Text :=
  (Interface.opening? block.header).elim [] Interface.Opening.segments ++ filled block.inner

end Block

/-- A part of a document: a line of its own between the tables, or a table. -/
inductive Part where
  | blank (line : Text)
  | comment (line : Text)
  | table (block : Block)
  deriving DecidableEq, Repr

namespace Part

/-- The lines of a part. -/
def lines : Part → List Text
  | blank line => [line]
  | comment line => [line]
  | table block => block.lines

/-- The lines of a part are of its kind. -/
def Sound : Part → Prop
  | blank line => Text.trim line = []
  | comment line => Comment.startsHere (Text.trimLeft line) = true
  | table block => block.Sound

/-- Whether a part is a comment line. -/
def isComment : Part → Bool
  | comment _ => true
  | _ => false

/-- The text of a comment line. -/
def text? : Part → Option Text
  | comment line => some (Comment.content line)
  | _ => none

/-- The texts of the comment lines at the end, with no other part between or behind
them. -/
def lastTexts (parts : List Part) : List Text :=
  (parts.rtakeWhile isComment).filterMap text?

/-- The tables among the parts that stand behind some others, each with the texts of the
comment lines right above it. -/
def tables (before : List Part) : List Part → List (List Text × Block)
  | [] => []
  | table block :: parts =>
      (lastTexts before, block) :: tables (before ++ [table block]) parts
  | part :: parts => tables (before ++ [part]) parts

/-- Whether nothing but comment lines stands before the next table. -/
def leadsToTable : List Part → Bool
  | comment _ :: parts => leadsToTable parts
  | table _ :: _ => true
  | _ => false

/-- The texts of the comment lines that stand right above no table. -/
def freeTexts : List Part → List Text
  | [] => []
  | comment line :: parts =>
      if leadsToTable parts then freeTexts parts else Comment.content line :: freeTexts parts
  | _ :: parts => freeTexts parts

end Part

/-- The parts are those that the lines are cut into. -/
structure Outlines (parts : List Part) (lines : List Text) : Prop where
  sound : ∀ part ∈ parts, part.Sound
  whole : parts.flatMap Part.lines = lines

/-! ## What a block stands for -/

/-- What a line of a table states.  A comment line states a constraint or is a remark,
any other line is a column. -/
inductive BodyEntry.StatedBy (line : Text) : BodyEntry → Prop where
  | column {definition : Column} {number : Int} (plain : Comment.startsHere line = false)
      (read : Column.read {} number line = .ok definition) : StatedBy line (.column definition)
  | constraint {stated : TableConstraint} (comment : Comment.startsHere line = true)
      (read : TableConstraint.read (Comment.content line) = .ok (some stated)) :
      StatedBy line (.constraint stated)
  | remark (comment : Comment.startsHere line = true)
      (read : TableConstraint.read (Comment.content line) = .ok none) :
      StatedBy line (.remark (Comment.content line))

/-- The table stands on the block, below comment lines with the texts.  Every line in the
block states one entry, and the entries are the columns, the constraints and the remarks
of the table, apart from the constraints that the texts state. -/
structure Table.StandsOn (texts : List Text) (block : Block) (table : Table) : Prop where
  name : (Interface.opening? block.header).map Interface.Opening.name = some table.name
  metadata : table.metadata = texts
  entries : ∃ stated entries, texts.mapM TableConstraint.read = .ok stated ∧
    List.Forall₂ BodyEntry.StatedBy block.contents entries ∧
    table.columns = entries.filterMap BodyEntry.column? ∧
    table.constraints = stated.filterMap id ++ entries.filterMap BodyEntry.constraint? ∧
    table.remarks = entries.filterMap BodyEntry.remark?

namespace Block

theorem filled_cons_of_blank {line : Text} (empty : Text.trim line = []) (lines : List Text) :
    filled (line :: lines) = filled lines := by
  simp [filled, empty]

theorem filled_cons {line : Text} (nonempty : Text.trim line ≠ []) (lines : List Text) :
    filled (line :: lines) = Text.trim line :: filled lines := by
  simp [filled, nonempty]

end Block

namespace BodyEntry

theorem statedBy_of_read {number : Int} {line : Text} {entry : BodyEntry}
    (found : read {} number line = .ok entry) : StatedBy line entry := by
  unfold read at found
  split at found
  · next comment =>
      obtain ⟨stated?, constraint, found⟩ := exists_of_bind_eq_ok found
      have known := eq_ok_of_mapError_eq_ok constraint
      cases stated? with
      | some stated =>
          cases found
          exact .constraint comment known
      | none =>
          cases found
          exact .remark comment known
  · next plain =>
      split at found
      · obtain ⟨column, read, found⟩ := exists_of_bind_eq_ok found
        cases found
        exact .column (by simpa using plain) read
      · cases found

theorem statedBy_of_mapM {number : Int} {lines : List Text} {entries : List BodyEntry}
    (found : lines.mapM (read {} number) = .ok entries) : List.Forall₂ StatedBy lines entries :=
  (mapM_eq_ok_iff.mp found).imp fun _ _ => statedBy_of_read

end BodyEntry

/-- A table that is closed has what its lines state. -/
theorem Table.standsOn_of_close (block : Block) {opening : Interface.Opening} {number : Int}
    {texts : List Text} {entries : List BodyEntry} {closed : Table}
    (opens : Interface.opening? block.header = some opening)
    (stated : List.Forall₂ BodyEntry.StatedBy block.contents entries)
    (close : (Progress.opened number block.header texts opening entries).close {} = .ok closed) :
    closed.StandsOn texts block := by
  obtain ⟨above, read, result⟩ := exists_of_bind_eq_ok close
  cases result
  refine ⟨by rw [opens]; rfl, rfl, above, entries, ?_, stated, rfl, rfl, rfl⟩
  rw [mapM_eq_ok_iff] at read ⊢
  exact read.imp fun _ _ => eq_ok_of_mapError_eq_ok

/-! ## There is only one outline -/

namespace Block

/-- The first line that closes a table is where it is. -/
theorem eq_of_first_closing {inner others rest more : List Text} {last final : Text}
    (stays : ∀ line ∈ inner, Text.trim line ≠ ['\x7d']) (closes : Text.trim last = ['\x7d'])
    (stays' : ∀ line ∈ others, Text.trim line ≠ ['\x7d']) (closes' : Text.trim final = ['\x7d'])
    (same : inner ++ last :: rest = others ++ final :: more) :
    inner = others ∧ last = final ∧ rest = more := by
  induction inner generalizing others with
  | nil =>
      cases others with
      | nil =>
          cases same
          exact ⟨rfl, rfl, rfl⟩
      | cons other others =>
          cases same
          exact (stays' last (by simp) closes).elim
  | cons line inner ih =>
      cases others with
      | nil =>
          cases same
          exact (stays final (by simp) closes').elim
      | cons other others =>
          rw [List.cons_append, List.cons_append, List.cons.injEq] at same
          obtain ⟨rfl, rfl, rfl⟩ := ih (fun text member => stays text (by simp [member]))
            (fun text member => stays' text (by simp [member])) same.2
          exact ⟨by rw [same.1], rfl, rfl⟩

/-- A block ends where the first line that closes its table ends it. -/
theorem eq_of_lines_append {first second : Block} {rest more : List Text} (sound : first.Sound)
    (sound' : second.Sound) (same : first.lines ++ rest = second.lines ++ more) :
    first = second ∧ rest = more := by
  cases first with
  | oneLine header =>
      obtain ⟨opening, opens, closes⟩ := sound
      cases second with
      | oneLine other =>
          cases same
          exact ⟨rfl, rfl⟩
      | manyLines other inner last =>
          obtain ⟨⟨opening', opens', stays⟩, _⟩ := sound'
          cases same
          rw [opens] at opens'
          cases opens'
          rw [closes] at stays
          cases stays
  | manyLines header inner last =>
      obtain ⟨⟨opening, opens, stays⟩, open_, closes⟩ := sound
      cases second with
      | oneLine other =>
          obtain ⟨opening', opens', closes'⟩ := sound'
          cases same
          rw [opens] at opens'
          cases opens'
          rw [stays] at closes'
          cases closes'
      | manyLines other others final =>
          obtain ⟨_, open', closes'⟩ := sound'
          simp only [lines, List.cons_append, List.append_assoc, List.nil_append,
            List.cons.injEq] at same
          obtain ⟨rfl, rfl, rfl⟩ := eq_of_first_closing open_ closes open' closes' same.2
          exact ⟨by rw [same.1], rfl⟩

end Block

namespace Part

/-- The first character that tells the kind of a part. -/
def mark : Part → Option Char
  | blank _ => none
  | comment _ => some '/'
  | table _ => some 'i'

/-- The first line of a part tells its kind. -/
theorem mark_of_lines {part : Part} (sound : part.Sound) :
    ∃ line tail, part.lines = line :: tail ∧ (Text.trimLeft line).head? = part.mark := by
  cases part with
  | blank line =>
      refine ⟨line, [], rfl, ?_⟩
      rw [Text.trim_eq_nil_iff.mp sound]
      rfl
  | comment line =>
      obtain ⟨rest, starts⟩ := Comment.startsHere_iff.mp sound
      refine ⟨line, [], rfl, ?_⟩
      rw [starts]
      rfl
  | table block =>
      cases block with
      | oneLine header =>
          obtain ⟨opening, opens, _⟩ := sound
          obtain ⟨rest, starts⟩ := Interface.head_of_opening? opens
          refine ⟨header, [], rfl, ?_⟩
          rw [starts]
          rfl
      | manyLines header inner last =>
          obtain ⟨⟨opening, opens, _⟩, _⟩ := sound
          obtain ⟨rest, starts⟩ := Interface.head_of_opening? opens
          refine ⟨header, inner ++ [last], rfl, ?_⟩
          rw [starts]
          rfl

theorem eq_of_lines_append {first second : Part} {rest more : List Text} (sound : first.Sound)
    (sound' : second.Sound) (same : first.lines ++ rest = second.lines ++ more) :
    first = second ∧ rest = more := by
  have kind : first.mark = second.mark := by
    obtain ⟨line, tail, shape, marked⟩ := mark_of_lines sound
    obtain ⟨line', tail', shape', marked'⟩ := mark_of_lines sound'
    rw [shape, shape', List.cons_append, List.cons_append, List.cons.injEq] at same
    rw [← marked, ← marked', same.1]
  cases first with
  | blank line =>
      cases second with
      | blank other =>
          cases same
          exact ⟨rfl, rfl⟩
      | comment other => cases kind
      | table block => cases kind
  | comment line =>
      cases second with
      | blank other => cases kind
      | comment other =>
          cases same
          exact ⟨rfl, rfl⟩
      | table block => cases kind
  | table block =>
      cases second with
      | blank other => cases kind
      | comment other => cases kind
      | table other =>
          obtain ⟨rfl, rfl⟩ := Block.eq_of_lines_append sound sound' same
          exact ⟨rfl, rfl⟩

theorem lines_ne_nil (part : Part) : part.lines ≠ [] := by
  cases part with
  | blank line => simp [lines]
  | comment line => simp [lines]
  | table block => cases block <;> simp [lines, Block.lines]

end Part

/-- Lines are cut into parts in at most one way. -/
theorem Outlines.unique {first second : List Part} {lines : List Text}
    (outlines : Outlines first lines) (outlines' : Outlines second lines) : first = second := by
  obtain ⟨sound, whole⟩ := outlines
  obtain ⟨sound', rfl⟩ := outlines'
  induction first generalizing second with
  | nil =>
      cases second with
      | nil => rfl
      | cons part parts => simp [Part.lines_ne_nil part] at whole
  | cons part parts ih =>
      cases second with
      | nil => simp [Part.lines_ne_nil part] at whole
      | cons other others =>
          rw [List.flatMap_cons, List.flatMap_cons] at whole
          obtain ⟨same, whole⟩ := Part.eq_of_lines_append (sound part (by simp))
            (sound' other (by simp)) whole
          rw [same, ih (fun text member => sound text (by simp [member]))
            (fun text member => sound' text (by simp [member])) whole]

/-! ## The outline that the reader follows -/

namespace Part

theorem lastTexts_nil : lastTexts [] = [] := rfl

theorem lastTexts_comment (parts : List Part) (line : Text) :
    lastTexts (parts ++ [comment line]) = lastTexts parts ++ [Comment.content line] := by
  rw [lastTexts, List.rtakeWhile_concat_pos _ _ _ (by rfl), List.filterMap_append]
  rfl

theorem lastTexts_other (parts : List Part) {part : Part} (other : part.isComment = false) :
    lastTexts (parts ++ [part]) = [] := by
  rw [lastTexts, List.rtakeWhile_concat_neg _ _ _ (by simp [other])]
  rfl

end Part

/-- Lines behind some other parts are accounted for.  They have an outline, the tables
stand on its blocks, and the texts are those of the comment lines that stand above no
table, among them the last ones before. -/
structure Accounted (before parts : List Part) (lines : List Text) (read : List Table)
    (texts : List Text) : Prop where
  outlines : Outlines parts lines
  stand : List.Forall₂ (fun placed table => Table.StandsOn placed.1 placed.2 table)
    (Part.tables before parts) read
  free : texts =
    (if Part.leadsToTable parts then [] else Part.lastTexts before) ++ Part.freeTexts parts

namespace Accounted

variable {before parts : List Part} {lines : List Text} {read : List Table} {texts : List Text}

theorem nil (before : List Part) : Accounted before [] [] [] (Part.lastTexts before) :=
  ⟨⟨List.forall_mem_nil _, rfl⟩, List.Forall₂.nil, by simp [Part.leadsToTable, Part.freeTexts]⟩

theorem blank {line : Text} (empty : Text.trim line = [])
    (rest : Accounted (before ++ [.blank line]) parts lines read texts) :
    Accounted before (.blank line :: parts) (line :: lines) read
      (Part.lastTexts before ++ texts) := by
  refine ⟨⟨List.forall_mem_cons.mpr ⟨empty, rest.outlines.sound⟩, ?_⟩, rest.stand, ?_⟩
  · rw [List.flatMap_cons, rest.outlines.whole]
    rfl
  · rw [rest.free, Part.lastTexts_other before (by rfl)]
    simp [Part.leadsToTable, Part.freeTexts]

theorem comment {line : Text} (starts : Comment.startsHere (Text.trimLeft line) = true)
    (rest : Accounted (before ++ [.comment line]) parts lines read texts) :
    Accounted before (.comment line :: parts) (line :: lines) read texts := by
  refine ⟨⟨List.forall_mem_cons.mpr ⟨starts, rest.outlines.sound⟩, ?_⟩, rest.stand, ?_⟩
  · rw [List.flatMap_cons, rest.outlines.whole]
    rfl
  · rw [rest.free, Part.lastTexts_comment, Part.leadsToTable, Part.freeTexts]
    split <;> simp

theorem table {block : Block} {table : Table} (sound : block.Sound)
    (stands : table.StandsOn (Part.lastTexts before) block)
    (rest : Accounted (before ++ [.table block]) parts lines read texts) :
    Accounted before (.table block :: parts) (block.lines ++ lines) (table :: read) texts := by
  refine ⟨⟨List.forall_mem_cons.mpr ⟨sound, rest.outlines.sound⟩, ?_⟩,
    List.Forall₂.cons stands rest.stand, ?_⟩
  · rw [List.flatMap_cons, rest.outlines.whole]
    rfl
  · rw [rest.free, Part.lastTexts_other before (by rfl)]
    simp [Part.leadsToTable, Part.freeTexts]

end Accounted

/-- What there is in the end is what there was before the lines, and behind it the tables and
the texts that the lines account for. -/
def AccountedBehind (before : List Part) (tables : List Table) (metadata : List Text)
    (lines : List Text) (allTables : List Table) (allTexts : List Text) : Prop :=
  ∃ parts read texts, Accounted before parts lines read texts ∧
    allTables = tables ++ read ∧ allTexts = metadata ++ texts

namespace AccountedBehind

variable {before : List Part} {tables allTables : List Table}
  {metadata lines allTexts : List Text}

theorem nil (before : List Part) (tables : List Table) (metadata : List Text) :
    AccountedBehind before tables metadata [] tables (metadata ++ Part.lastTexts before) :=
  ⟨[], [], _, Accounted.nil before, (List.append_nil _).symm, rfl⟩

theorem blank {line : Text} (empty : Text.trim line = [])
    (rest : AccountedBehind (before ++ [.blank line]) tables (metadata ++ Part.lastTexts before)
      lines allTables allTexts) :
    AccountedBehind before tables metadata (line :: lines) allTables allTexts := by
  obtain ⟨parts, read, texts, accounted, rfl, rfl⟩ := rest
  exact ⟨_, _, _, accounted.blank empty, rfl, List.append_assoc ..⟩

theorem comment {line : Text} (starts : Comment.startsHere (Text.trimLeft line) = true)
    (rest : AccountedBehind (before ++ [.comment line]) tables metadata lines allTables allTexts) :
    AccountedBehind before tables metadata (line :: lines) allTables allTexts := by
  obtain ⟨parts, read, texts, accounted, rfl, rfl⟩ := rest
  exact ⟨_, _, _, accounted.comment starts, rfl, rfl⟩

theorem table {block : Block} {table : Table} (sound : block.Sound)
    (stands : table.StandsOn (Part.lastTexts before) block)
    (rest : AccountedBehind (before ++ [.table block]) (tables ++ [table]) metadata lines
      allTables allTexts) :
    AccountedBehind before tables metadata (block.lines ++ lines) allTables allTexts := by
  obtain ⟨parts, read, texts, accounted, rfl, rfl⟩ := rest
  refine ⟨_, _, _, accounted.table sound stands, ?_, rfl⟩
  rw [List.append_assoc, List.singleton_append]

end AccountedBehind

namespace Progress

/-- Inside a table the reader goes on to the line that closes it. -/
theorem exists_inner {tables : List Table} {metadata : List Text} {table : OpenTable}
    {number : Int} {lines pending : List Text} {final : Progress}
    (run : readLines {} { tables, metadata, place := .inside table } number lines = .ok final)
    (ended : final.place = .between pending) :
    ∃ inner last rest entries closed number', lines = inner ++ last :: rest ∧
      (∀ line ∈ inner, Text.trim line ≠ ['\x7d']) ∧ Text.trim last = ['\x7d'] ∧
      List.Forall₂ BodyEntry.StatedBy (Block.filled inner) entries ∧
      OpenTable.close {} { table with entries := table.entries ++ entries } = .ok closed ∧
      readLines {} { tables := tables ++ [closed], metadata, place := .between [] } number' rest =
        .ok final := by
  induction lines generalizing table number with
  | nil =>
      cases run
      cases ended
  | cons line lines ih =>
      obtain ⟨next, step, run⟩ := exists_of_bind_eq_ok run
      cases step_of_readLine step with
      | closes brace close =>
          refine ⟨[], line, lines, [], _, number + 1, rfl, List.forall_mem_nil _, brace,
            List.Forall₂.nil, ?_, run⟩
          rw [List.append_nil]
          exact close
      | skips empty =>
          obtain ⟨inner, last, rest, entries, closed, number', rfl, stays, brace, stated, close,
            run⟩ := ih run
          refine ⟨line :: inner, last, rest, entries, closed, number', rfl, ?_, brace, ?_, close, run⟩
          · rw [List.forall_mem_cons, empty]
            exact ⟨by simp, stays⟩
          · rw [Block.filled_cons_of_blank empty]
            exact stated
      | @entry _ _ _ entry stays filled read =>
          obtain ⟨inner, last, rest, entries, closed, number', rfl, others, brace, stated, close,
            run⟩ := ih run
          refine ⟨line :: inner, last, rest, entry :: entries, closed, number', rfl,
            List.forall_mem_cons.mpr ⟨stays, others⟩, brace, ?_, ?_, run⟩
          · rw [Block.filled_cons filled]
            exact List.Forall₂.cons (BodyEntry.statedBy_of_read read) stated
          · rw [← close, List.append_assoc, List.singleton_append]

/-- What the reader makes of lines between tables: it accounts for them, when the comment
texts it has gathered are those right before them. -/
theorem accountedBehind_of_readLines (before : List Part) {tables : List Table}
    {metadata rest : List Text}
    {number : Int} {lines : List Text} {final : Progress}
    (run : readLines {} { tables, metadata, place := .between (Part.lastTexts before) } number
      lines = .ok final)
    (ended : final.place = .between rest) :
    AccountedBehind before tables metadata lines final.tables (final.metadata ++ rest) := by
  induction count : lines.length using Nat.strong_induction_on
    generalizing before tables metadata number lines with
  | _ count ih =>
    subst count
    cases lines with
    | nil =>
        cases run
        cases ended
        exact .nil before tables metadata
    | cons line lines =>
        obtain ⟨next, step, run⟩ := exists_of_bind_eq_ok run
        cases step_of_readLine step with
        | blank empty =>
            rw [← Part.lastTexts_other before (show (Part.blank line).isComment = false from rfl)] at run
            exact (ih _ (by simp) _ run rfl).blank empty
        | comment starts =>
            rw [← Part.lastTexts_comment] at run
            exact (ih _ (by simp) _ run rfl).comment starts
        | @oneLine _ _ _ opening entries closed opens closes entered close =>
            have stated : List.Forall₂ BodyEntry.StatedBy (Block.oneLine line).contents entries := by
              rw [Block.contents, Block.header, opens]
              simpa [Block.filled, Block.inner] using BodyEntry.statedBy_of_mapM entered
            have stands := Table.standsOn_of_close (.oneLine line) opens stated close
            have sound : (Block.oneLine line).Sound := ⟨opening, opens, closes⟩
            rw [← Part.lastTexts_other before
              (show (Part.table (.oneLine line)).isComment = false from rfl)] at run
            exact (ih _ (by simp) _ run rfl).table sound stands
        | @opens _ _ _ opening entries opens stays entered =>
            obtain ⟨inner, last, tail, more, closed, number', rfl, others, brace, inside, close,
              run⟩ := exists_inner run ended
            have stated : List.Forall₂ BodyEntry.StatedBy (Block.manyLines line inner last).contents
                (entries ++ more) := by
              rw [Block.contents, Block.header, opens]
              exact List.rel_append (BodyEntry.statedBy_of_mapM entered) inside
            have stands := Table.standsOn_of_close (.manyLines line inner last) opens stated close
            have sound : (Block.manyLines line inner last).Sound :=
              ⟨⟨opening, opens, stays⟩, others, brace⟩
            have shorter : tail.length < (line :: (inner ++ last :: tail)).length := by
              simp only [List.length_cons, List.length_append]
              omega
            rw [← Part.lastTexts_other before
              (show (Part.table (.manyLines line inner last)).isComment = false from rfl)] at run
            have whole := (ih _ shorter _ run rfl).table sound stands
            rw [Block.lines, List.cons_append, List.append_assoc, List.singleton_append] at whole
            exact whole

end Progress

/-- A document that is read has an outline that accounts for it. -/
theorem Schema.exists_accounted {text : Text} {schema : Schema}
    (found : Schema.read {} text = .ok schema) :
    ∃ parts, Accounted [] parts text.lines schema.tables schema.metadata := by
  obtain ⟨tables, metadata, pending, run, rfl⟩ := Schema.exists_of_read found
  obtain ⟨parts, read, texts, accounted, isRead, kept⟩ :=
    Progress.accountedBehind_of_readLines [] run rfl
  rw [List.nil_append] at isRead kept
  cases isRead
  cases kept
  exact ⟨parts, accounted⟩

/-- The lines of a document that is read are cut into blank lines, comment lines and
blocks in exactly one way.  The tables stand on the blocks in order, each with the texts
of the comment lines right above it, and the schema has the texts of the others. -/
theorem Schema.accounts_for_lines {text : Text} {schema : Schema}
    (found : Schema.read {} text = .ok schema) :
    (∃! parts, Outlines parts text.lines) ∧
      ∀ parts, Outlines parts text.lines →
        List.Forall₂ (fun placed table => Table.StandsOn placed.1 placed.2 table)
          (Part.tables [] parts) schema.tables ∧
        schema.metadata = Part.freeTexts parts := by
  obtain ⟨parts, outlines, stand, free⟩ := Schema.exists_accounted found
  constructor
  · exact ⟨parts, outlines, fun others outlines' => outlines'.unique outlines⟩
  · intro others outlines'
    rw [outlines'.unique outlines]
    refine ⟨stand, free.trans ?_⟩
    rw [Part.lastTexts_nil, ite_self, List.nil_append]

section Stock

/-- A document with lines of every kind. -/
def stockText : Text :=
  "// counted daily

// @owner: sales
// INDEX(code, place)
interface Item \x7b code: int; place: 'a;b' // PK; @unit: key\x7d
  // sorted by hand

// moved
interface Shelf \x7b // UNIQUE(a, b)
  // one row each

  a: int;
\x7d
".toList

/-- What the document is read as. -/
def stock : Schema where
  tables := [
    { name := "Item".toList
      columns := [
        { name := "code".toList, type := .simple "int".toList none false },
        { name := "place".toList
          type := .union [.string "a;b".toList]
          constraints := [.primaryKey]
          annotations := [⟨"unit".toList, "key".toList⟩]
          comment := some "PK; @unit: key".toList }]
      constraints := [⟨.index, ["code".toList, "place".toList]⟩]
      annotations := [⟨"owner".toList, "sales".toList⟩]
      metadata := ["@owner: sales".toList, "INDEX(code, place)".toList] },
    { name := "Shelf".toList
      columns := [{ name := "a".toList, type := .simple "int".toList none false }]
      constraints := [⟨.unique, ["a".toList, "b".toList]⟩]
      metadata := ["moved".toList]
      remarks := ["one row each".toList] }]
  metadata := ["counted daily".toList, "sorted by hand".toList]

set_option maxRecDepth 1000 in
theorem read_stockText : Schema.read {} stockText = .ok stock := by
  -- Decoding the literal takes the kernel longer than reading its characters.
  have chars : stockText = _ := String.toList_ofList
  rw [chars]
  decide +kernel

end Stock

theorem Schema.accounts_for_lines_stock :
    Schema.read {} stockText = .ok stock ∧ (∃! parts, Outlines parts stockText.lines) ∧
      ∀ parts, Outlines parts stockText.lines →
        List.Forall₂ (fun placed table => Table.StandsOn placed.1 placed.2 table)
          (Part.tables [] parts) stock.tables ∧
        stock.metadata = Part.freeTexts parts :=
  ⟨read_stockText, Schema.accounts_for_lines read_stockText⟩

end SchemaNotation
