import SchemaNotation.Proofs.Piece

/-!
# The lines of a body

The pieces of a one-line body, trimmed, are the lines that it stands for, and a comment goes
back to the piece before it.  So no comment starts in a line that another one follows.  Only
blanks and semicolons are lost, and the lines joined again are a body with the same lines.
-/

namespace SchemaNotation.Body

open Comment (startFrom? startsHere)

/-! ## From pieces to lines -/

/-- A body is cut into the same lines without the blanks around it. -/
theorem segments_trim (text : Text) : segments (Text.trim text) = segments text := by
  rw [segments, segments, map_trim_piecesFrom_trim text]

theorem trimmed_of_mem_parts {body part : Text} (member : part ∈ parts body) :
    part ≠ [] ∧ Text.Trimmed part := by
  obtain ⟨filled, piece, _, rfl⟩ := exists_of_mem_parts member
  exact ⟨filled, Text.trimmed_trim piece⟩

/-- The lines of a body are neither empty nor indented. -/
theorem trimmed_of_mem_segments {text segment : Text} (member : segment ∈ segments text) :
    segment ≠ [] ∧ Text.Trimmed segment := by
  refine of_mem_attachComments (fun segment => segment ≠ [] ∧ Text.Trimmed segment) ?_
    (fun _ => trimmed_of_mem_parts) member
  rintro first next ⟨firstFilled, firstTrimmed⟩ ⟨nextFilled, nextTrimmed⟩
  exact ⟨by simp, Text.trimmed_joined _ firstFilled firstTrimmed.first nextFilled nextTrimmed⟩

theorem whole_trim {text : Text} (whole : Whole false text) : Whole false (Text.trim text) := by
  have pieces := map_trim_piecesFrom_trim text
  rw [whole, List.map_singleton, eq_comm, List.map_eq_singleton_iff] at pieces
  obtain ⟨piece, shape, _⟩ := pieces
  have joined := intercalate_piecesFrom false (Text.trim text)
  rw [shape, List.intercalate_singleton] at joined
  rw [Whole, shape, joined]

theorem Closed.trim {text : Text} (closed : Closed false text) : Closed false (Text.trim text) :=
  ⟨Comment.quiet_trim closed.quiet, (Comment.endsInLiteral_trim false text).trans closed.outside⟩

theorem inOrder_parts (body : Text) : InOrder (parts body) := by
  have order := inOrder_piecesFrom body
  constructor
  · intro part member
    obtain ⟨_, piece, pieceMem, rfl⟩ := exists_of_mem_parts member
    exact whole_trim (order.whole piece pieceMem)
  · exact ((order.closed.imp Closed.trim).map Text.trim fun _ _ => id).filter _

/-- Only the last of the pieces can start with the slashes of a comment. -/
theorem InOrder.eq_nil_of_startsHere {piece : Text} {pieces : List Text}
    (order : InOrder (piece :: pieces)) (starts : startsHere piece = true) : pieces = [] := by
  cases pieces with
  | nil => rfl
  | cons next pieces =>
      obtain ⟨rest, rfl⟩ := Comment.startsHere_iff.mp starts
      have silent := (Comment.quiet_cons (by decide)).mp order.head.quiet
      rw [silent.1 rfl] at starts
      cases starts

/-- Pieces in order are lines as they stand, or the last of them is a comment that goes back to
the one before it. -/
theorem attachComments_cases {pieces : List Text} (order : InOrder pieces) :
    attachComments pieces = pieces ∨
      ∃ front column comment, pieces = front ++ [column, comment] ∧ startsHere comment = true ∧
        attachComments pieces = front ++ [column ++ "; ".toList ++ comment] := by
  fun_induction attachComments pieces with
  | case1 => exact Or.inl rfl
  | case2 => exact Or.inl rfl
  | case3 first next pieces attached _ =>
      rw [Bool.and_eq_true] at attached
      rw [order.tail.eq_nil_of_startsHere attached.1, attachComments]
      exact Or.inr ⟨[], first, next, rfl, attached.1, rfl⟩
  | case4 first next pieces _ ih =>
      rcases ih order.tail with same | ⟨front, column, comment, shape, starts, joined⟩
      · exact Or.inl (congrArg (List.cons first) same)
      · exact Or.inr ⟨first :: front, column, comment, congrArg (List.cons first) shape, starts,
          congrArg (List.cons first) joined⟩

/-- The lines of a body are its trimmed pieces that are not empty, but a comment at the end
stands behind the last column. -/
theorem segments_cases (body : Text) :
    segments body = parts body ∨
      ∃ front column comment, parts body = front ++ [column, comment] ∧
        startsHere comment = true ∧
        segments body = front ++ [column ++ "; ".toList ++ comment] :=
  attachComments_cases (inOrder_parts body)

theorem closed_segments (body : Text) :
    (segments body).Pairwise fun segment _ => Closed false segment := by
  have closed := (inOrder_parts body).closed
  rcases segments_cases body with same | ⟨front, column, comment, shape, _, joined⟩
  · rw [same]
    exact closed
  · rw [shape, List.pairwise_append] at closed
    obtain ⟨inFront, _, across⟩ := closed
    rw [joined, List.pairwise_append]
    refine ⟨inFront, List.pairwise_singleton _ _, ?_⟩
    intro segment member _ _
    exact across segment member column List.mem_cons_self

/-- No comment starts in a line that another one follows. -/
theorem quiet_of_mem_dropLast_segments {body segment : Text}
    (member : segment ∈ (segments body).dropLast) : Comment.Quiet false segment := by
  have filled : segments body ≠ [] := by
    intro empty
    rw [empty] at member
    cases member
  have closed := closed_segments body
  rw [← List.dropLast_append_getLast filled, List.pairwise_append] at closed
  exact (closed.2.2 segment member _ (List.mem_singleton_self _)).quiet

/-! ## Semicolons in lines -/

/-- A line whose semicolons outside of literals all stand in its comment or, with a blank
between, in front of it. -/
def Settled (line : Text) : Prop :=
  ∀ place, SeparatesAt line place →
    ∃ start, Comment.start? line = some start ∧ (start ≤ place ∨ start = place + 2)

theorem exists_start_of_whole {line : Text} (whole : Whole false line) {place : Nat}
    (separates : SeparatesAt line place) :
    ∃ start, Comment.start? line = some start ∧ start ≤ place := by
  have uncut : place ∉ cuts (piecesFrom false line) := by
    rw [whole]
    exact List.not_mem_nil
  rw [mem_cuts_piecesFrom, separatesFrom_false] at uncut
  by_contra behind
  refine uncut ⟨separates, ?_⟩
  intro start found
  by_contra later
  exact behind ⟨start, found, Nat.le_of_not_lt later⟩

/-- A comment behind a column is where the search for a comment finds it. -/
theorem start?_joined {first next : Text} (closed : Closed false first)
    (starts : startsHere next = true) :
    Comment.start? (first ++ "; ".toList ++ next) = some (first.length + 2) := by
  obtain ⟨rest, rfl⟩ := Comment.startsHere_iff.mp starts
  have stops : Text.Stops (· == '/') ("; ".toList ++ '/' :: '/' :: rest) :=
    Text.stops_cons.mpr (by decide)
  rw [List.append_assoc, Comment.start?, Comment.startFrom?_append closed.quiet stops,
    closed.outside]
  have found : startFrom? false (';' :: (List.replicate 1 ' ' ++ '/' :: '/' :: rest)) =
      some 2 := by
    rw [Comment.startFrom?_cons, Comment.startsHere_cons_of_ne (by decide), if_neg (by decide),
      if_neg (by decide), Comment.startFrom?_spaces]
    rfl
  rw [Nat.add_comm]
  exact congrArg (Option.map (· + first.length)) found

theorem settled_joined {first next : Text} (whole : Whole false first)
    (closed : Closed false first) (starts : startsHere next = true) :
    Settled (first ++ "; ".toList ++ next) := by
  intro place separates
  refine ⟨_, start?_joined closed starts, ?_⟩
  by_cases inside : place < first.length
  · rw [SeparatesAt, List.append_assoc, List.getElem?_append_left inside,
      List.take_append_of_le_length inside.le] at separates
    obtain ⟨start, found, _⟩ := exists_start_of_whole whole separates
    rw [Comment.start?, closed.quiet] at found
    cases found
  · obtain ⟨behind, rfl⟩ := Nat.exists_eq_add_of_le (Nat.le_of_not_lt inside)
    have separator := separates.1
    rw [List.append_assoc, List.getElem?_append_right (Nat.le_add_right ..),
      Nat.add_sub_cancel_left] at separator
    cases behind with
    | zero => exact Or.inr rfl
    | succ behind =>
        cases behind with
        | zero => cases separator
        | succ behind => exact Or.inl (by omega)

theorem settled_of_mem_segments {body line : Text} (member : line ∈ segments body) :
    Settled line := by
  have order := inOrder_parts body
  have settled : ∀ piece ∈ parts body, Settled piece := by
    intro piece pieceMem place separates
    obtain ⟨start, found, before⟩ :=
      exists_start_of_whole (order.whole piece pieceMem) separates
    exact ⟨start, found, Or.inl before⟩
  rcases segments_cases body with same | ⟨front, column, comment, shape, starts, joined⟩
  · exact settled line (same ▸ member)
  · rw [shape] at order settled
    rw [joined, List.mem_append, List.mem_singleton] at member
    rcases member with inFront | rfl
    · exact settled line (List.mem_append_left _ inFront)
    · have closed := (List.pairwise_append.mp order.closed).2.1
      exact settled_joined (order.whole column (by simp))
        (List.rel_of_pairwise_cons closed (List.mem_singleton_self comment)) starts

/-! ## Lines joined again -/

/-- A comment goes back to its column without a change of the text that the pieces make. -/
theorem intercalate_segments (body : Text) :
    List.intercalate "; ".toList (segments body) = List.intercalate "; ".toList (parts body) := by
  rcases segments_cases body with same | ⟨front, column, comment, shape, _, joined⟩
  · rw [same]
  · rw [joined, shape]
    cases front with
    | nil => simp
    | cons first front =>
        rw [Text.intercalate_append _ (by simp) (by simp),
          Text.intercalate_append _ (by simp) (by simp)]
        simp

/-- Joined by semicolons and blanks, pieces in order are cut where they were joined. -/
theorem map_trim_piecesFrom_intercalate {pieces : List Text} (filled : pieces ≠ [])
    (order : InOrder pieces) (trimmed : ∀ piece ∈ pieces, Text.Trimmed piece) :
    (piecesFrom false (List.intercalate "; ".toList pieces)).map Text.trim = pieces := by
  induction pieces with
  | nil => exact (filled rfl).elim
  | cons piece pieces ih =>
      have whole := order.whole piece List.mem_cons_self
      have pieceTrimmed := (trimmed piece List.mem_cons_self).trim_eq
      cases pieces with
      | nil => rw [List.intercalate_singleton, whole, List.map_singleton, pieceTrimmed]
      | cons next pieces =>
          have later := ih (List.cons_ne_nil next pieces) order.tail fun other member =>
            trimmed other (List.mem_cons_of_mem piece member)
          have cut := piecesFrom_append whole order.head
            (List.replicate 1 ' ' ++ List.intercalate "; ".toList (next :: pieces))
          rw [List.intercalate_cons_cons, List.append_assoc]
          change (piecesFrom false (piece ++ ';' :: (List.replicate 1 ' ' ++ _))).map _ = _
          rw [cut, List.map_cons, pieceTrimmed, map_trim_piecesFrom_blank (Text.blank_replicate 1),
            later]

/-- The lines of a body, joined by semicolons and blanks, are a body with the same lines. -/
theorem segments_intercalate_segments (body : Text) :
    segments (List.intercalate "; ".toList (segments body)) = segments body := by
  have again : parts (List.intercalate "; ".toList (parts body)) = parts body := by
    by_cases empty : parts body = []
    · rw [empty]
      rfl
    · rw [parts, map_trim_piecesFrom_intercalate empty (inOrder_parts body)
        fun part member => (trimmed_of_mem_parts member).2]
      refine List.filter_eq_self.mpr ?_
      intro part member
      simpa using (trimmed_of_mem_parts member).1
  rw [intercalate_segments, segments_eq, segments_eq, again]

/-! ## What is lost -/

/-- The characters of a text that are neither blank nor a semicolon. -/
def solid (text : Text) : Text :=
  text.filter fun c => !isBlank c && c != ';'

theorem solid_trim (text : Text) : solid (Text.trim text) = solid text := by
  obtain ⟨before, after, beforeBlank, afterBlank, shape⟩ := Text.trim_split text
  have gone {blanks : Text} (blank : Text.Blank blanks) : solid blanks = [] := by
    rw [solid, List.filter_eq_nil_iff]
    intro c member
    simp [blank c member]
  conv_rhs => rw [shape]
  simp only [solid, List.filter_append] at gone ⊢
  rw [gone beforeBlank, gone afterBlank, List.nil_append, List.append_nil]

theorem solid_intercalate {separator : Text} (lost : solid separator = []) (pieces : List Text) :
    solid (List.intercalate separator pieces) = solid pieces.flatten := by
  induction pieces with
  | nil => rfl
  | cons piece pieces ih =>
      cases pieces with
      | nil => simp
      | cons next pieces =>
          simp only [solid, List.filter_append, List.flatten_cons (l := piece),
            List.intercalate_cons_cons] at lost ih ⊢
          rw [lost, List.append_nil, ih]

theorem solid_parts (body : Text) :
    solid (parts body).flatten = solid (piecesFrom false body).flatten := by
  rw [parts, List.flatten_filter_not_isEmpty]
  unfold solid
  rw [List.filter_flatten, List.filter_flatten, List.map_map]
  exact congrArg List.flatten (List.map_congr_left fun piece _ => solid_trim piece)

/-- Cutting a body into lines loses blanks and semicolons only. -/
theorem solid_segments (body : Text) : solid (segments body).flatten = solid body :=
  calc solid (segments body).flatten
    _ = solid (List.intercalate "; ".toList (segments body)) :=
        (solid_intercalate (by decide) _).symm
    _ = solid (parts body).flatten := by
        rw [intercalate_segments, solid_intercalate (by decide)]
    _ = solid (List.intercalate [';'] (piecesFrom false body)) := by
        rw [solid_parts, solid_intercalate (by decide)]
    _ = solid body := by rw [intercalate_piecesFrom]

/-- The lines of a body are trimmed and not empty, and no comment starts in a line that another
one follows.  Every semicolon outside of literals that is left stands in a comment or in front
of it.  All other characters that are not blank are kept in their order, and the lines joined
again have the same lines. -/
theorem splits_without_loss (body : Text) :
    (∀ segment ∈ segments body, (segment ≠ [] ∧ Text.Trimmed segment) ∧ Settled segment) ∧
      solid (segments body).flatten = solid body ∧
      (∀ segment ∈ (segments body).dropLast, ∀ position, ¬Comment.OpensAt segment position) ∧
      segments (List.intercalate "; ".toList (segments body)) = segments body :=
  ⟨fun _ member => ⟨trimmed_of_mem_segments member,
      settled_of_mem_segments member⟩,
    solid_segments body,
    fun _ member => Comment.quiet_iff.mp (quiet_of_mem_dropLast_segments member),
    segments_intercalate_segments body⟩

theorem splits_without_loss_remarked :
    segments remarkedBody = ["mark: 'a;//'".toList, "when?: date; // it's;".toList] ∧
      Settled "when?: date; // it's;".toList ∧
      SeparatesAt "when?: date; // it's;".toList 11 ∧
      solid (segments remarkedBody).flatten = solid remarkedBody ∧
      (∀ position, ¬Comment.OpensAt "mark: 'a;//'".toList position) ∧
      segments "mark: 'a;//'; when?: date; // it's;".toList = segments remarkedBody := by
  obtain ⟨each, kept, quiet, again⟩ := splits_without_loss remarkedBody
  have lines : segments remarkedBody =
      ["mark: 'a;//'".toList, "when?: date; // it's;".toList] := by decide +kernel
  have joined : List.intercalate "; ".toList (segments remarkedBody) =
      "mark: 'a;//'; when?: date; // it's;".toList := by
    rw [lines]
    decide +kernel
  rw [joined] at again
  exact ⟨lines, (each _ (by simp [lines])).2, by decide +kernel, kept,
    quiet _ (by simp [lines]), again⟩

end SchemaNotation.Body
