import SchemaNotation.Proofs.CommentStart
import SchemaNotation.Proofs.Document

/-!
# The pieces of a body

The body of a table on one line is cut into pieces at its semicolons.  The search for these
places and the search for a comment agree on what is inside a literal: a body is cut at the
semicolons with an even number of apostrophes before them, up to its comment.  So the pieces
are in order: none of them is cut any further, and all of them but the last have no comment
and end outside of literals.
-/

namespace SchemaNotation.Body

open Comment (endsInLiteral startFrom? startsHere)

/-! ## Blanks around a body -/

theorem piecesFrom_ne_nil (inLiteral : Bool) (text : Text) : piecesFrom inLiteral text ≠ [] := by
  intro empty
  have cut := cut_piecesFrom inLiteral text
  rw [empty] at cut
  exact cut

theorem piecesFrom_blank {c : Char} (blank : isBlank c = true) (inLiteral : Bool) (text : Text) :
    piecesFrom inLiteral (c :: text) = Text.pushFront c (piecesFrom inLiteral text) := by
  have other : ∀ {d : Char}, isBlank d = false → c ≠ d := by
    rintro d clear rfl
    exact Bool.false_ne_true (clear.symm.trans blank)
  have silent := Comment.startsHere_cons_of_ne (other (d := '/') (by decide)) text
  have noCut : c ≠ ';' := other (by decide)
  rw [piecesFrom, if_neg (other (by decide))]
  simp [silent, noCut]

/-- Blanks in front of a body stand in front of its first piece. -/
theorem map_trim_piecesFrom_blank {blanks : Text} (blank : Text.Blank blanks) (inLiteral : Bool)
    (text : Text) :
    (piecesFrom inLiteral (blanks ++ text)).map Text.trim =
      (piecesFrom inLiteral text).map Text.trim := by
  induction blanks with
  | nil => rfl
  | cons c blanks ih =>
      obtain ⟨first, others⟩ := List.forall_mem_cons.mp blank
      have single : Text.Blank [c] := List.forall_mem_singleton.mpr first
      obtain ⟨piece, pieces, shape⟩ :=
        List.exists_cons_of_ne_nil (piecesFrom_ne_nil inLiteral (blanks ++ text))
      rw [← ih others, List.cons_append, piecesFrom_blank first, shape]
      exact congrArg (· :: pieces.map Text.trim) (Text.trim_of_blank_append single piece)

theorem piecesFrom_of_blank {blanks : Text} (blank : Text.Blank blanks) (inLiteral : Bool) :
    piecesFrom inLiteral blanks = [blanks] := by
  induction blanks with
  | nil => rfl
  | cons c blanks ih =>
      obtain ⟨first, others⟩ := List.forall_mem_cons.mp blank
      rw [piecesFrom_blank first, ih others]
      rfl

/-- Blanks behind a body stand behind its last piece. -/
theorem map_trimRight_piecesFrom_blank {blanks : Text} (blank : Text.Blank blanks)
    (inLiteral : Bool) (text : Text) :
    (piecesFrom inLiteral (text ++ blanks)).map Text.trimRight =
      (piecesFrom inLiteral text).map Text.trimRight := by
  have stops : Text.Stops (· == '/') blanks := by
    intro c first
    have isBlank := blank c (List.mem_of_head? first)
    rw [beq_eq_false_iff_ne]
    rintro rfl
    exact absurd isBlank (by decide)
  induction text generalizing inLiteral with
  | nil =>
      have gone := Text.trimRight_append_blank blank []
      rw [List.nil_append] at gone ⊢
      rw [piecesFrom_of_blank blank, List.map_singleton, gone]
      rfl
  | cons c text ih =>
      have starts : Comment.startsHere (c :: (text ++ blanks)) = Comment.startsHere (c :: text) :=
        Comment.startsHere_append stops
      rw [List.cons_append, piecesFrom, piecesFrom, starts]
      split
      · exact Text.map_trimRight_pushFront (ih _) c
      · split
        · rw [← List.cons_append, List.map_singleton, List.map_singleton,
            Text.trimRight_append_blank blank]
        · split
          · rw [List.map_cons, List.map_cons, ih]
          · exact Text.map_trimRight_pushFront (ih _) c

/-- A body has the same pieces without the blanks around it, up to the blanks around them. -/
theorem map_trim_piecesFrom_trim (text : Text) :
    (piecesFrom false text).map Text.trim =
      (piecesFrom false (Text.trim text)).map Text.trim := by
  obtain ⟨before, after, beforeBlank, afterBlank, equal⟩ := Text.trim_split text
  have trimmed : ∀ pieces : List Text,
      pieces.map Text.trim = (pieces.map Text.trimRight).map Text.trim := by
    intro pieces
    rw [List.map_map]
    exact List.map_congr_left fun piece _ => (Text.trim_trimRight piece).symm
  conv_lhs => rw [equal]
  rw [map_trim_piecesFrom_blank beforeBlank, trimmed,
    map_trimRight_piecesFrom_blank afterBlank, ← trimmed]

/-! ## Where a body is cut -/

/-- The places between pieces, in the text that they make with one character between any two
of them. -/
def cuts : List Text → List Nat
  | [] => []
  | [_] => []
  | piece :: next :: pieces =>
      piece.length :: (cuts (next :: pieces)).map (· + (piece.length + 1))

/-- A semicolon outside of literals, in a text that starts inside or outside a literal. -/
def SeparatesFrom (inLiteral : Bool) (text : Text) (place : Nat) : Prop :=
  text[place]? = some ';' ∧ endsInLiteral inLiteral (text.take place) = false

/-- A semicolon with an even number of apostrophes before it. -/
def SeparatesAt (text : Text) (place : Nat) : Prop :=
  text[place]? = some ';' ∧ Even ((text.take place).count apostrophe)

instance (text : Text) (place : Nat) : Decidable (SeparatesAt text place) :=
  inferInstanceAs (Decidable (_ ∧ _))

theorem separatesFrom_false {text : Text} {place : Nat} :
    SeparatesFrom false text place ↔ SeparatesAt text place := by
  rw [SeparatesFrom, SeparatesAt, Comment.endsInLiteral_eq_self_iff]

theorem separatesFrom_zero {inLiteral : Bool} {c : Char} {text : Text} :
    SeparatesFrom inLiteral (c :: text) 0 ↔ c = ';' ∧ inLiteral = false := by
  simp [SeparatesFrom, endsInLiteral]

theorem separatesFrom_succ {inLiteral : Bool} {c : Char} {text : Text} {place : Nat} :
    SeparatesFrom inLiteral (c :: text) (place + 1) ↔
      SeparatesFrom (if c = apostrophe then !inLiteral else inLiteral) text place :=
  Iff.rfl

theorem piecesFrom_cons (inLiteral : Bool) (c : Char) (text : Text) :
    piecesFrom inLiteral (c :: text) =
      if !inLiteral && startsHere (c :: text) then [c :: text]
      else if c = ';' ∧ inLiteral = false then [] :: piecesFrom false text
      else Text.pushFront c
        (piecesFrom (if c = apostrophe then !inLiteral else inLiteral) text) := by
  rw [piecesFrom]
  by_cases isMark : c = apostrophe
  · have silent := Comment.startsHere_cons_of_ne (c := apostrophe) (by decide) text
    have noCut : apostrophe ≠ ';' := by decide
    simp [isMark, silent, noCut]
  · cases inLiteral <;> simp [isMark]

theorem cuts_pushFront (c : Char) (pieces : List Text) :
    cuts (Text.pushFront c pieces) = (cuts pieces).map (· + 1) := by
  cases pieces with
  | nil => rfl
  | cons piece pieces =>
      cases pieces with
      | nil => rfl
      | cons next pieces =>
          simp only [Text.pushFront, cuts, List.length_cons, List.map_cons, List.map_map]
          rfl

theorem cuts_nil_cons {pieces : List Text} (filled : pieces ≠ []) :
    cuts ([] :: pieces) = 0 :: (cuts pieces).map (· + 1) := by
  obtain ⟨piece, others, rfl⟩ := List.exists_cons_of_ne_nil filled
  rfl

/-- A text is cut at the semicolons outside of literals that stand before the place where the
search finds a comment. -/
theorem mem_cuts_piecesFrom {inLiteral : Bool} {text : Text} {place : Nat} :
    place ∈ cuts (piecesFrom inLiteral text) ↔
      SeparatesFrom inLiteral text place ∧
        ∀ start, startFrom? inLiteral text = some start → place < start := by
  induction text generalizing inLiteral place with
  | nil => simp [piecesFrom, cuts, SeparatesFrom]
  | cons c text ih =>
      rw [piecesFrom_cons, Comment.startFrom?_cons]
      split
      · simp [cuts]
      · split
        · next isCut =>
            obtain ⟨rfl, rfl⟩ := isCut
            rw [cuts_nil_cons (piecesFrom_ne_nil false text)]
            cases place with
            | zero => simp [separatesFrom_zero]
            | succ place =>
                rw [separatesFrom_succ, if_neg (by decide)]
                simp [ih]
        · next noCut =>
            rw [cuts_pushFront]
            cases place with
            | zero => simp [separatesFrom_zero, noCut]
            | succ place =>
                rw [separatesFrom_succ]
                simp [ih]

/-- The pieces of a text are what stands between the semicolons where it is cut. -/
theorem intercalate_piecesFrom (inLiteral : Bool) (text : Text) :
    List.intercalate [';'] (piecesFrom inLiteral text) = text := by
  induction text generalizing inLiteral with
  | nil => rfl
  | cons c text ih =>
      rw [piecesFrom_cons]
      split
      · exact List.intercalate_singleton
      · split
        · next isCut =>
            rw [isCut.1, List.intercalate_cons_of_ne_nil (piecesFrom_ne_nil false text), ih]
            rfl
        · rw [Text.intercalate_pushFront _ c (piecesFrom_ne_nil _ text), ih]

/-- A comment starts at the first two slashes with an even number of apostrophes before them.
A body is cut into its pieces at the semicolons with an even number of apostrophes before them
that stand before its comment, or at all of these when it has none.  Its lines are these pieces,
trimmed and without the empty ones, where a comment goes back to the column before it. -/
theorem cuts_before_comment (body : Text) :
    (∀ start, Comment.start? body = some start ↔
        Comment.OpensAt body start ∧ ∀ earlier < start, ¬Comment.OpensAt body earlier) ∧
      (Comment.start? body = none ↔ ∀ position, ¬Comment.OpensAt body position) ∧
      List.intercalate [';'] (piecesFrom false body) = body ∧
      (∀ place, place ∈ cuts (piecesFrom false body) ↔
        SeparatesAt body place ∧ ∀ start, Comment.start? body = some start → place < start) ∧
      segments body = attachComments
        (((piecesFrom false body).map Text.trim).filter fun piece => !piece.isEmpty) := by
  refine ⟨fun start => Comment.start?_eq_some_iff, Comment.quiet_iff,
    intercalate_piecesFrom false body, ?_, rfl⟩
  intro place
  rw [mem_cuts_piecesFrom, separatesFrom_false, Comment.start?]

/-- A body with semicolons and slashes in a literal, and with semicolons and an apostrophe in
its comment. -/
def remarkedBody : Text :=
  "mark: 'a;//' ;; when?: date; // it's; ".toList

theorem cuts_before_comment_remarked :
    Comment.start? remarkedBody = some 29 ∧ Comment.OpensAt remarkedBody 29 ∧
      ¬Comment.OpensAt remarkedBody 9 ∧
      List.intercalate [';'] (piecesFrom false remarkedBody) = remarkedBody ∧
      (SeparatesAt remarkedBody 27 ∧ 27 ∈ cuts (piecesFrom false remarkedBody)) ∧
      (remarkedBody[8]? = some ';' ∧ 8 ∉ cuts (piecesFrom false remarkedBody)) ∧
      remarkedBody[36]? = some ';' ∧ 36 ∉ cuts (piecesFrom false remarkedBody) := by
  obtain ⟨starts, _, joined, places, _⟩ := cuts_before_comment remarkedBody
  have found : Comment.start? remarkedBody = some 29 := by decide +kernel
  obtain ⟨opens, first⟩ := (starts 29).mp found
  have separates : SeparatesAt remarkedBody 27 := by decide +kernel
  refine ⟨found, opens, first 9 (by decide), joined, ⟨separates, (places 27).mpr ⟨separates, ?_⟩⟩,
    ⟨by decide +kernel, fun cut => ?_⟩, by decide +kernel, fun cut => ?_⟩
  · intro start same
    rw [found, Option.some.injEq] at same
    omega
  · exact absurd ((places 8).mp cut).1 (by decide +kernel)
  · exact absurd (((places 36).mp cut).2 29 found) (by decide)

/-! ## Pieces -/

/-- A text that is cut nowhere. -/
def Whole (inLiteral : Bool) (text : Text) : Prop :=
  piecesFrom inLiteral text = [text]

/-- A text without a comment that ends outside of literals, so that a semicolon behind it
separates it from what follows. -/
structure Closed (inLiteral : Bool) (text : Text) : Prop where
  quiet : Comment.Quiet inLiteral text
  outside : endsInLiteral inLiteral text = false

/-- Pieces as a body is cut into them: none of them is cut any further, and a semicolon can
stand behind all of them but the last. -/
structure InOrder (pieces : List Text) : Prop where
  whole : ∀ piece ∈ pieces, Whole false piece
  closed : pieces.Pairwise fun piece _ => Closed false piece

theorem inOrder_nil : InOrder [] :=
  ⟨List.forall_mem_nil _, .nil⟩

theorem InOrder.cons {piece : Text} {pieces : List Text} (order : InOrder pieces)
    (whole : Whole false piece) (closed : pieces ≠ [] → Closed false piece) :
    InOrder (piece :: pieces) := by
  constructor
  · exact List.forall_mem_cons.mpr ⟨whole, order.whole⟩
  · refine List.pairwise_cons.mpr ⟨?_, order.closed⟩
    intro other member
    exact closed (List.ne_nil_of_mem member)

theorem InOrder.tail {piece : Text} {pieces : List Text} (order : InOrder (piece :: pieces)) :
    InOrder pieces :=
  ⟨fun other member => order.whole other (List.mem_cons_of_mem piece member),
    (List.pairwise_cons.mp order.closed).2⟩

theorem InOrder.head {piece next : Text} {pieces : List Text}
    (order : InOrder (piece :: next :: pieces)) : Closed false piece :=
  (List.pairwise_cons.mp order.closed).1 next List.mem_cons_self

theorem closed_nil : Closed false [] :=
  ⟨Comment.quiet_nil false, rfl⟩

section

variable {inLiteral : Bool} {c : Char} {text : Text}

theorem whole_cons (noStart : ¬(!inLiteral && startsHere (c :: text)) = true)
    (noCut : ¬(c = ';' ∧ inLiteral = false))
    (whole : Whole (if c = apostrophe then !inLiteral else inLiteral) text) :
    Whole inLiteral (c :: text) := by
  rw [Whole, piecesFrom_cons, if_neg noStart, if_neg noCut, whole]
  rfl

theorem closed_cons (noStart : ¬(!inLiteral && startsHere (c :: text)) = true)
    (closed : Closed (if c = apostrophe then !inLiteral else inLiteral) text) :
    Closed inLiteral (c :: text) := by
  refine ⟨?_, closed.outside⟩
  rw [Comment.Quiet, Comment.startFrom?_cons, if_neg noStart, Option.map_eq_none_iff]
  exact closed.quiet

end

/-- The first piece of a text continues what stands before the text, and the others are in
order. -/
theorem exists_piecesFrom (inLiteral : Bool) (text : Text) :
    ∃ first others, piecesFrom inLiteral text = first :: others ∧ Whole inLiteral first ∧
      (others ≠ [] → Closed inLiteral first) ∧ InOrder others := by
  induction text generalizing inLiteral with
  | nil => exact ⟨[], [], rfl, rfl, fun further => (further rfl).elim, inOrder_nil⟩
  | cons c text ih =>
      have cut := cut_piecesFrom inLiteral (c :: text)
      rw [piecesFrom_cons] at cut ⊢
      split
      · next starts =>
          have whole : Whole inLiteral (c :: text) := by
            rw [Whole, piecesFrom_cons, if_pos starts]
          exact ⟨_, [], rfl, whole, fun further => (further rfl).elim, inOrder_nil⟩
      · next noStart =>
          rw [if_neg noStart] at cut
          split
          · next isCut =>
              obtain ⟨first, others, shape, whole, closed, order⟩ := ih false
              rw [isCut.2, shape]
              exact ⟨[], first :: others, rfl, rfl, fun _ => closed_nil, order.cons whole closed⟩
          · next noCut =>
              rw [if_neg noCut] at cut
              obtain ⟨first, others, shape, whole, closed, order⟩ :=
                ih (if c = apostrophe then !inLiteral else inLiteral)
              rw [shape] at cut ⊢
              have silent : ¬(!inLiteral && startsHere (c :: first)) = true := by
                intro starts
                simp only [Bool.and_eq_true] at starts noStart
                exact noStart ⟨starts.1, Comment.startsHere_of_isPrefix cut.1 starts.2⟩
              exact ⟨c :: first, others, rfl, whole_cons silent noCut whole,
                fun further => closed_cons silent (closed further), order⟩

theorem inOrder_piecesFrom (text : Text) : InOrder (piecesFrom false text) := by
  obtain ⟨first, others, shape, whole, closed, order⟩ := exists_piecesFrom false text
  exact shape ▸ order.cons whole closed

/-- A semicolon behind a text that ends outside of literals cuts it off. -/
theorem piecesFrom_append {inLiteral : Bool} {text : Text} (whole : Whole inLiteral text)
    (closed : Closed inLiteral text) (rest : Text) :
    piecesFrom inLiteral (text ++ ';' :: rest) = text :: piecesFrom false rest := by
  induction text generalizing inLiteral with
  | nil =>
      have outside : inLiteral = false := closed.outside
      rw [outside, List.nil_append, piecesFrom_cons,
        Comment.startsHere_cons_of_ne (by decide)]
      rfl
  | cons c text ih =>
      have quiet := closed.quiet
      rw [Comment.Quiet, Comment.startFrom?_cons] at quiet
      rw [Whole, piecesFrom_cons] at whole
      have stops : Text.Stops (· == '/') (';' :: rest) := Text.stops_cons.mpr (by decide)
      rw [List.cons_append, piecesFrom_cons, ← List.cons_append, Comment.startsHere_append stops]
      split at quiet
      · cases quiet
      · next noStart =>
          rw [if_neg noStart] at whole ⊢
          split at whole
          · cases whole
          · next noCut =>
              rw [if_neg noCut, ih (Text.pushFront_eq_singleton whole (piecesFrom_ne_nil _ text))
                ⟨Option.map_eq_none_iff.mp quiet, closed.outside⟩]
              rfl

end SchemaNotation.Body
