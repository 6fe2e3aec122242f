import UnitPropagation.Proofs.Grammar
import UnitPropagation.Proofs.Lines

namespace UnitPropagation.Dimacs

/-! Comments and trailing data do not matter to a formula.

Lines pad others if they have comments among them and anything at all behind them.  The grammar
accepts padded lines with the formula of the others.  Putting a comment into a text, or more bytes
behind its last line, pads its lines; the last line may lose a carriage return by that, which
none of its fields has. -/

/-- Two lines that no part of the grammar tells apart. -/
structure Alike (line other : List Char) : Prop where
  fields : Text.fields other = Text.fields line
  comment : isComment other = isComment line
  marked : other.head? = some 'p' ↔ line.head? = some 'p'

/-- The second lines are like the first up to the end or the first line that cannot be decoded,
with comments between them. -/
inductive Padded : List (Option (List Char)) → List (Option (List Char)) → Prop
  | behind (more : List (Option (List Char))) : Padded [] more
  | undecodable (lines more : List (Option (List Char))) : Padded (none :: lines) more
  | comment {line : List Char} {lines more : List (Option (List Char))}
      (comment : isComment line = true) (padded : Padded lines more) :
      Padded lines (some line :: more)
  | line {line other : List Char} {lines more : List (Option (List Char))}
      (alike : Alike line other) (padded : Padded lines more) :
      Padded (some line :: lines) (some other :: more)

variable {line : List Char} {passed needed : List (List Char)} {clauses : List (List Literal)}
  {lines more rest : List (Option (List Char))} {formula : Formula} {header : Header}
  {numVars : Nat}

theorem Alike.refl (line : List Char) : Alike line line := ⟨rfl, rfl, Iff.rfl⟩

theorem alike_dropEnd (line : List Char) : Alike line (Text.dropEnd '\r' line) where
  fields := Text.fields_dropEnd line
  comment := by
    have same : (Text.dropEnd '\r' line).head? = some 'c' ↔ line.head? = some 'c' :=
      Text.head?_dropEnd (by decide)
    rw [isComment, isComment, Bool.eq_iff_iff, beq_iff_eq, beq_iff_eq, same]
  marked := Text.head?_dropEnd (by decide)

theorem Alike.declares {other : List Char} (alike : Alike line other)
    (declares : Declares line header) : Declares other header := by
  rw [Declares, alike.fields]
  exact declares

theorem Padded.append_left (front : List (Option (List Char))) (padded : Padded lines more) :
    Padded (front ++ lines) (front ++ more) := by
  induction front with
  | nil => exact padded
  | cons line front ih =>
      cases line with
      | none => exact .undecodable _ _
      | some line => exact .line (.refl line) ih

theorem Padded.refl (lines : List (Option (List Char))) : Padded lines lines := by
  simpa using Padded.append_left lines (.behind [])

theorem not_marked_of_comment (comment : isComment line = true) : line.head? ≠ some 'p' := by
  have first : line.head? = some 'c' := by simpa [isComment] using comment
  rw [first]
  decide

/-- The first line that starts with `p` is found among the padded lines, too. -/
theorem Padded.opening (padded : Padded lines more) (opening : Opening lines passed line rest) :
    ∃ before other after, Opening more before other after ∧ Alike line other ∧
      Padded rest after := by
  induction padded generalizing passed with
  | behind more =>
      have split := opening.split
      simp at split
  | undecodable lines more =>
      have split := opening.split
      cases passed <;> simp at split
  | comment comment padded ih =>
      rename_i remark lines more
      obtain ⟨before, other, after, ⟨rfl, unmarked, marked⟩, alike, tail⟩ := ih opening
      exact ⟨remark :: before, other, after, ⟨rfl, List.forall_mem_cons.mpr
        ⟨not_marked_of_comment comment, unmarked⟩, marked⟩, alike, tail⟩
  | line alike padded ih =>
      rename_i first copy lines more
      obtain ⟨split, unmarked, marked⟩ := opening
      cases passed with
      | nil =>
          obtain ⟨same, rfl⟩ := List.cons.inj split
          obtain rfl := Option.some.inj same
          exact ⟨[], copy, more, ⟨rfl, by simp, alike.marked.mpr marked⟩, alike, padded⟩
      | cons head passed =>
          obtain ⟨same, rfl⟩ := List.cons.inj split
          obtain rfl := Option.some.inj same
          obtain ⟨skip, others⟩ := List.forall_mem_cons.mp unmarked
          obtain ⟨before, other, after, ⟨rfl, unmarked, marked⟩, like, tail⟩ :=
            ih ⟨rfl, others, marked⟩
          exact ⟨copy :: before, other, after, ⟨rfl, List.forall_mem_cons.mpr
            ⟨mt alike.marked.mp skip, unmarked⟩, marked⟩, like, tail⟩

theorem Padded.listed (padded : Padded lines more)
    (split : lines = needed.map some ++ rest) (listed : Listed numVars needed clauses) :
    ∃ found after, more = found.map some ++ after ∧ Listed numVars found clauses := by
  induction padded generalizing needed clauses with
  | behind more =>
      obtain ⟨none, -⟩ := List.append_eq_nil_iff.mp split.symm
      obtain rfl := List.map_eq_nil_iff.mp none
      exact ⟨[], more, rfl, listed⟩
  | undecodable lines more =>
      cases needed with
      | nil => exact ⟨[], more, rfl, listed⟩
      | cons line needed => simp at split
  | comment comment padded ih =>
      rename_i remark lines more
      obtain ⟨found, after, rfl, listed⟩ := ih split listed
      exact ⟨remark :: found, after, rfl, (listed_comment_iff comment).mpr listed⟩
  | line alike padded ih =>
      rename_i first copy lines more
      cases needed with
      | nil => exact ⟨[], some copy :: more, rfl, listed⟩
      | cons line needed =>
          obtain ⟨same, rfl⟩ := List.cons.inj split
          obtain rfl := Option.some.inj same
          have kind := alike.comment
          cases comment : isComment first with
          | true =>
              rw [comment] at kind
              obtain ⟨found, after, rfl, others⟩ :=
                ih rfl ((listed_comment_iff comment).mp listed)
              exact ⟨copy :: found, after, rfl, (listed_comment_iff kind).mpr others⟩
          | false =>
              rw [comment] at kind
              obtain ⟨literals, clauses, spelled, remaining, rfl⟩ :=
                (listed_clause_iff comment).mp listed
              obtain ⟨found, after, rfl, others⟩ := ih rfl remaining
              exact ⟨copy :: found, after, rfl, (listed_clause_iff kind).mpr
                ⟨literals, clauses, alike.fields ▸ spelled, others, rfl⟩⟩

theorem Padded.accepts (padded : Padded lines more) (accepts : Accepts lines formula) :
    Accepts more formula := by
  obtain ⟨passed, line, rest, header, opening, declares, few, ⟨needed, behind, split, listed,
    length⟩, numVars⟩ := accepts
  obtain ⟨before, other, after, found, alike, tail⟩ := padded.opening opening
  obtain ⟨needed, behind, split, listed⟩ := tail.listed split listed
  exact ⟨before, other, after, header, found, alike.declares declares, few,
    ⟨needed, behind, split, listed, length⟩, numVars⟩

/-! Bytes -/

variable {bytes annotated front back : List UInt8} {comment : List Char}

theorem read_of_padded (loaded : read bytes = .ok formula)
    (padded : Padded ((Text.byteLines bytes).map Text.decode?)
      ((Text.byteLines annotated).map Text.decode?)) : read annotated = .ok formula :=
  (padded.accepts (accepts_of_readLines loaded)).readLines

/-- A comment is valid UTF-8 and one line. -/
structure Remark (comment : List Char) : Prop where
  marked : comment.head? = some 'c'
  single : '\n' ∉ comment

theorem Remark.free (remark : Remark comment) : 10 ∉ Text.encode comment := by
  intro member
  obtain ⟨c, listed, part⟩ := List.mem_flatMap.mp member
  have feed : c = '\n' := (Text.mem_utf8EncodeChar_iff (by decide)).mp part
  exact remark.single (feed ▸ listed)

theorem Remark.isComment (remark : Remark comment) : isComment comment = true := by
  rw [Dimacs.isComment, remark.marked, beq_self_eq_true]

theorem decode?_dropEnd (text : List Char) :
    Text.decode? (Text.dropEnd 13 (Text.encode text)) = some (Text.dropEnd '\r' text) := by
  have ended : Text.dropEnd 13 (Text.encode text) = _ := Text.dropEnd_encode '\r' (by decide) text
  rw [ended, Text.decode?_encode]

/-- Whether the bytes stop where a line of a text may start. -/
def LineStart (front : List UInt8) : Prop := front = [] ∨ front.getLast? = some 10

theorem padded_insert (boundary : LineStart front) (remark : Remark comment)
    (back : List UInt8) :
    Padded ((Text.byteLines (front ++ back)).map Text.decode?)
      ((Text.byteLines (front ++ (Text.encode comment ++ 10 :: back))).map Text.decode?) := by
  have kept := (alike_dropEnd comment).comment.trans remark.isComment
  have before : Text.byteLines (front ++ back) = _ := Text.splitLines_append boundary back
  have after : Text.byteLines (front ++ (Text.encode comment ++ 10 :: back)) = _ :=
    Text.splitLines_append boundary _
  rw [before, after, Text.splitLines_append_end remark.free, List.map_append, List.map_append,
    List.map_cons, decode?_dropEnd]
  apply Padded.append_left
  exact .comment kept (.refl _)

theorem padded_append (boundary : LineStart front) (back : List UInt8) :
    Padded ((Text.byteLines front).map Text.decode?)
      ((Text.byteLines (front ++ back)).map Text.decode?) := by
  have after : Text.byteLines (front ++ back) = Text.byteLines front ++ Text.byteLines back :=
    Text.splitLines_append boundary back
  rw [after, List.map_append]
  simpa using Padded.append_left ((Text.byteLines front).map Text.decode?) (.behind _)

/-- Bytes behind a line end are behind the last line, which is the same line as before unless it
loses a carriage return. -/
theorem padded_behind (bytes trailing : List UInt8) :
    Padded ((Text.byteLines bytes).map Text.decode?)
      ((Text.byteLines (bytes ++ 10 :: trailing)).map Text.decode?) := by
  unfold Text.byteLines
  induction bytes using Text.lineInduction (10 : UInt8) with
  | empty =>
      rw [Text.splitLines_nil, List.map_nil]
      exact .behind _
  | last line occupied free =>
      rw [Text.splitLines_last occupied free, Text.splitLines_append_end free, List.map_cons,
        List.map_cons, List.map_nil]
      cases decoded : Text.decode? line with
      | none => exact .undecodable _ _
      | some text =>
          rw [Text.eq_encode_of_decode? decoded, decode?_dropEnd]
          exact .line (alike_dropEnd text) (.behind _)
  | ended line rest free ih =>
      rw [List.append_assoc, List.cons_append, Text.splitLines_append_end free,
        Text.splitLines_append_end free, List.map_cons, List.map_cons]
      exact ih.append_left [_]

/-- The text with comments as further lines, at the starts of lines and behind the last one.  A
last line that has no end is given one before a comment can follow it. -/
inductive Annotated (bytes : List UInt8) : List UInt8 → Prop
  | same : Annotated bytes bytes
  | insert {front back : List UInt8} {comment : List Char}
      (earlier : Annotated bytes (front ++ back)) (boundary : LineStart front)
      (remark : Remark comment) :
      Annotated bytes (front ++ (Text.encode comment ++ 10 :: back))
  | finish {front : List UInt8} {comment : List Char} (earlier : Annotated bytes front)
      (boundary : LineStart front) (remark : Remark comment) :
      Annotated bytes (front ++ Text.encode comment)
  | ended {front : List UInt8} (earlier : Annotated bytes front) : Annotated bytes (front ++ [10])

theorem Annotated.kept (noted : Annotated bytes annotated)
    (loaded : read bytes = .ok formula) : read annotated = .ok formula := by
  induction noted with
  | same => exact loaded
  | insert earlier boundary remark ih => exact read_of_padded ih (padded_insert boundary remark _)
  | finish earlier boundary remark ih => exact read_of_padded ih (padded_append boundary _)
  | ended earlier ih => exact read_of_padded ih (padded_behind _ [])

/-- A text that is read to a formula is read to the same formula with comments as further lines,
wherever they stand and however many there are, and with any bytes behind its last line. -/
theorem comments_and_trailing_ignored (loaded : read bytes = .ok formula) :
    (∀ annotated, Annotated bytes annotated → read annotated = .ok formula) ∧
      ∀ trailing, read (bytes ++ 10 :: trailing) = .ok formula := by
  constructor
  · intro annotated noted
    exact noted.kept loaded
  · intro trailing
    exact read_of_padded loaded (padded_behind bytes trailing)

/-- A text without a last line end takes comments before its header, between its lines and behind
them, and bytes that are no text. -/
theorem annotated_pair_of_clauses :
    let opening := Text.encode "p cnf 2 2\r\n".toList
    let clauses := Text.encode "1 -2 0 c\n\t2\r".toList
    let remark := "c p cnf é\r".toList
    let annotated := Text.encode remark ++ 10 ::
      (opening ++ (Text.encode remark ++ 10 :: clauses)) ++ [10] ++ Text.encode ['c']
    let formula : Formula := ⟨2, [[⟨0, true⟩, ⟨1, false⟩], [⟨1, true⟩]]⟩
    read (opening ++ clauses) = .ok formula ∧ Annotated (opening ++ clauses) annotated ∧
      read annotated = .ok formula ∧
      read (opening ++ clauses ++ 10 :: [112, 255]) = .ok formula := by
  intro opening clauses remark annotated formula
  have loaded : read (opening ++ clauses) = .ok formula := by decide +kernel
  have comment : Remark remark := ⟨by decide +kernel, by decide +kernel⟩
  have boundary : LineStart opening := .inr (by decide +kernel)
  have between :
      Annotated (opening ++ clauses) (opening ++ (Text.encode remark ++ 10 :: clauses)) :=
    .insert .same boundary comment
  have atStart : Annotated (opening ++ clauses)
      ([] ++ (Text.encode remark ++ 10 :: (opening ++ (Text.encode remark ++ 10 :: clauses)))) :=
    .insert between (.inl rfl) comment
  have noted : Annotated (opening ++ clauses) annotated :=
    .finish (.ended atStart) (.inr List.getLast?_concat) ⟨rfl, by decide⟩
  obtain ⟨kept, behind⟩ := comments_and_trailing_ignored loaded
  exact ⟨loaded, noted, kept annotated noted, behind [112, 255]⟩

end UnitPropagation.Dimacs
