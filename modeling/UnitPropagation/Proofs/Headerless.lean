import UnitPropagation.Proofs.Grammar
import UnitPropagation.Proofs.Lines
import UnitPropagation.Proofs.RoundTrip

namespace UnitPropagation

/-! A text without a header is read like the same text behind one.

The header declares the most variables that a text without a header may have, and as many clauses
as there are lines for them.  One way of reading refuses a variable beyond the bound at its token,
the other looks at the largest variable after all of them have been read; both leave the same
clauses. -/

section

variable {α β : Type} {left : List α} {right : List β}

theorem forall₂_narrowed_iff {narrow wide : α → β → Prop} {holds : β → Prop}
    (narrowed : ∀ x y, narrow x y ↔ wide x y ∧ holds y) :
    List.Forall₂ narrow left right ↔ List.Forall₂ wide left right ∧ ∀ y ∈ right, holds y := by
  induction right generalizing left with
  | nil => simp
  | cons y right ih =>
      simp only [List.forall₂_cons_right_iff, narrowed, ih, List.forall_mem_cons]
      constructor
      · rintro ⟨x, rest, ⟨pair, first⟩, ⟨pairs, others⟩, rfl⟩
        exact ⟨⟨x, rest, pair, pairs, rfl⟩, first, others⟩
      · rintro ⟨⟨x, rest, pair, pairs, rfl⟩, first, others⟩
        exact ⟨x, rest, ⟨pair, first⟩, ⟨pairs, others⟩, rfl⟩

theorem mapM_eq_ok_iff {ε : Type} {step : α → Except ε β} :
    left.mapM step = .ok right ↔ List.Forall₂ (fun x y => step x = .ok y) left right := by
  induction left generalizing right with
  | nil =>
      rw [List.mapM_nil, List.forall₂_nil_left_iff]
      exact ⟨fun same => (Except.ok.inj same).symm, fun same => by rw [same]; rfl⟩
  | cons x left ih =>
      rw [List.mapM_cons, List.forall₂_cons_left_iff]
      cases first : step x with
      | error reason => simp [bind, Except.bind]
      | ok y =>
          cases others : left.mapM step with
          | error reason => simp [bind, Except.bind, ← ih, others]
          | ok rest => simp [bind, Except.bind, pure, Except.pure, ← ih, others, eq_comm]

end

namespace Dimacs

variable {numVars numClauses larger : Nat} {token line : List Char} {tokens : List (List Char)}
  {lines : List (List Char)} {literals : List Literal} {clauses : List (List Literal)}
  {formula : Formula}

/-! Variable bounds -/

theorem names_iff (bound : numVars ≤ larger) (token : List Char) (l : Literal) :
    Names numVars token l ↔ Names larger token l ∧ l.var < numVars := by
  constructor
  · rintro ⟨numeral, inside⟩
    exact ⟨⟨numeral, Nat.lt_of_lt_of_le inside bound⟩, inside⟩
  · rintro ⟨⟨numeral, _⟩, inside⟩
    exact ⟨numeral, inside⟩

theorem spelledOut_iff (bound : numVars ≤ larger) (tokens : List (List Char))
    (literals : List Literal) : SpelledOut numVars tokens literals ↔
      SpelledOut larger tokens literals ∧ ∀ l ∈ literals, l.var < numVars := by
  simp only [SpelledOut, forall₂_narrowed_iff (names_iff bound)]
  constructor
  · rintro ⟨spelled, rest, split, ⟨named, inside⟩, ended⟩
    exact ⟨⟨spelled, rest, split, named, ended⟩, inside⟩
  · rintro ⟨⟨spelled, rest, split, named, ended⟩, inside⟩
    exact ⟨spelled, rest, split, ⟨named, inside⟩, ended⟩

theorem listed_iff (bound : numVars ≤ larger) : Listed numVars lines clauses ↔
    Listed larger lines clauses ∧ variableBound clauses.flatten ≤ numVars := by
  rw [variableBound_flatten_le_iff]
  exact forall₂_narrowed_iff fun line literals => spelledOut_iff bound (Text.fields line) literals

/-! The text without a header -/

/-- Whether a line counts for a text without a header, as a clause or as a comment. -/
def counts (line : List Char) : Bool := !(line.all Text.isBlank || line.head? == some 'p')

theorem filter_holdsClause (lines : List (List Char)) :
    lines.filter holdsClause = (lines.filter counts).filter (!isComment ·) := by
  rw [List.filter_filter]
  congr 1
  funext line
  cases comment : isComment line <;> simp [holdsClause, counts, comment]

theorem readClauseLines_eq_ok_iff {text : List Char} :
    ((Text.numbered (Text.lines text)).filter fun entry => holdsClause entry.2).mapM
        (fun entry => readClause entry.1 maxNumber entry.2) = .ok clauses ↔
      Listed maxNumber ((Text.lines text).filter counts) clauses := by
  have spelled : (fun (entry : Nat × List Char) literals =>
      readClause entry.1 maxNumber entry.2 = .ok literals) = fun entry literals =>
        SpelledOut maxNumber (Text.fields entry.2) literals := by
    funext entry literals
    exact propext ((readLiterals_exact entry.1 (Nat.le_refl _) _).1 literals)
  have unnumbered : (Text.numbered (Text.lines text)).map Prod.snd = Text.lines text := by
    simp [Text.numbered, List.map_map, Function.comp_def]
  have entries : ((Text.numbered (Text.lines text)).filter fun entry => holdsClause entry.2).map
      Prod.snd = (Text.lines text).filter holdsClause := by
    conv_rhs => rw [← unnumbered, List.filter_map]
    rfl
  rw [mapM_eq_ok_iff, spelled, Listed, ← filter_holdsClause, ← entries, List.forall₂_map_left_iff]

theorem readText_eq_ok_iff {text : List Char} : readText text = .ok formula ↔
    Listed maxNumber ((Text.lines text).filter counts) formula.clauses ∧
      variableBound formula.clauses.flatten ≤ maxTextVariables ∧
      formula.numVars = variableBound formula.clauses.flatten := by
  rw [readText_eq, ← readClauseLines_eq_ok_iff]
  cases ((Text.numbered (Text.lines text)).filter fun entry => holdsClause entry.2).mapM
      fun entry => readClause entry.1 maxNumber entry.2 with
  | error reason => simp
  | ok clauses =>
      obtain ⟨numVars, others⟩ := formula
      dsimp only
      split
      · rename_i many
        refine ⟨nofun, ?_⟩
        rintro ⟨same, small, _⟩
        rw [Except.ok.inj same] at many
        omega
      · rename_i few
        constructor
        · intro same
          cases same
          exact ⟨rfl, by omega, rfl⟩
        · rintro ⟨same, _, rfl⟩
          rw [Except.ok.inj same]

/-! The text behind a header -/

/-- The text without its blank lines and its lines that start with `p`. -/
def clauseText (text : List Char) : List Char :=
  ((Text.wholeLines '\n' text).filter counts).flatten

/-- The number of lines of the text that are no comments. -/
def clauseCount (text : List Char) : Nat := (Text.lines text).countP (!isComment ·)

/-- The text behind a header line for the given number of variables and all of its clauses. -/
def headed (numVars : Nat) (text : List Char) : List Char :=
  declaration numVars (clauseCount text) ++ '\n' :: text

theorem counts_append_blank {c : Char} (blank : Text.isBlank c = true) (line : List Char) :
    counts (line ++ [c]) = counts line := by
  cases line with
  | nil => simp [counts, blank]
  | cons first rest => simp [counts, blank]

theorem counts_dropEnd (line : List Char) : counts (Text.dropEnd '\r' line) = counts line := by
  rcases Text.dropEnd_eq_or '\r' line with same | more
  · rw [same]
  · conv_rhs => rw [more, counts_append_blank (by decide)]

theorem lines_clauseText (text : List Char) :
    Text.lines (clauseText text) = (Text.lines text).filter counts := by
  apply Text.splitLines_filter
  intro line _
  rw [counts_append_blank (by decide), counts_dropEnd]

theorem lines_headed (numVars : Nat) (text : List Char) :
    Text.lines (headed numVars text) =
      declaration numVars (clauseCount text) :: Text.lines text := by
  have free : '\n' ∉ declaration numVars (clauseCount text) :=
    fun member => (plain_declaration _ member).1 rfl
  have bare : (declaration numVars (clauseCount text)).getLast? ≠ some '\r' :=
    fun last => (plain_declaration _ (List.mem_of_getLast? last)).2 rfl
  have kept : Text.dropEnd '\r' (declaration numVars (clauseCount text)) = _ := if_neg bare
  have split : Text.lines (headed numVars text) = _ := Text.splitLines_append_end free text
  rw [split, kept]
  rfl

/-- A header that declares all clause lines of a text leaves none of them unread. -/
theorem supplies_all_iff {header : Header}
    (all : header.numClauses = lines.countP (!isComment ·)) :
    Supplies header (lines.map some) clauses ↔ Listed header.numVars lines clauses := by
  constructor
  · rintro ⟨needed, rest, split, listed, length⟩
    obtain ⟨front, back, rfl, same, -⟩ := List.map_eq_append_iff.mp split
    obtain rfl := List.map_injective_iff.mpr (Option.some_injective _) same
    have enough := listed.length_eq
    rw [← List.countP_eq_length_filter] at enough
    rw [List.countP_append] at all
    have none : back.filter (!isComment ·) = [] := by
      rw [← List.length_eq_zero_iff, ← List.countP_eq_length_filter]
      omega
    rw [Listed, List.filter_append, none, List.append_nil]
    exact listed
  · intro listed
    refine ⟨lines, [], by simp, listed, ?_⟩
    rw [all, List.countP_eq_length_filter, listed.length_eq]

theorem read_headed_eq_ok_iff {text : List Char} (bound : numVars ≤ maxNumber)
    (few : clauseCount text ≤ maxClauses) :
    read (Text.encode (headed numVars text)) = .ok formula ↔
      Listed numVars (Text.lines text) formula.clauses ∧ formula.numVars = numVars := by
  have opening : Opening (some (declaration numVars (clauseCount text)) ::
      (Text.lines text).map some) [] _ _ := ⟨rfl, by simp, rfl⟩
  have declares : Declares (declaration numVars (clauseCount text)) ⟨numVars, clauseCount text⟩ :=
    declares_of_readHeader (readHeader_declaration bound few)
  rw [read, Text.decode?_byteLines_encode, lines_headed]
  exact (opening.readLines_eq_ok_iff declares few).trans
    (and_congr_left fun _ => supplies_all_iff rfl)

/-- A text is read without a header to the clauses that it is read to behind one, over exactly
the variables that they mention. -/
theorem readText_eq_ok_iff_headed {text : List Char}
    (few : clauseCount (clauseText text) ≤ maxClauses) :
    readText text = .ok formula ↔
      read (Text.encode (headed maxTextVariables (clauseText text))) =
          .ok ⟨maxTextVariables, formula.clauses⟩ ∧
        formula.numVars = variableBound formula.clauses.flatten := by
  have small : maxTextVariables ≤ maxNumber := by decide
  rw [readText_eq_ok_iff, read_headed_eq_ok_iff small few, lines_clauseText, listed_iff small]
  simp [and_assoc]

/-- A text is read without a header if and only if it is read, less its blank lines and its lines
that start with `p`, behind the header line `p cnf 16777216 k`, where `k` is the number of its
clause lines.  Both give the same clauses, and without a header the formula has the variables that
its clauses mention. -/
theorem headerless_agrees (text : List Char) (few : clauseCount (clauseText text) ≤ maxClauses) :
    ((∃ formula, readText text = .ok formula) ↔
        ∃ other, read (Text.encode (headed 16777216 (clauseText text))) = .ok other) ∧
      ∀ formula other, readText text = .ok formula →
        read (Text.encode (headed 16777216 (clauseText text))) = .ok other →
        formula.clauses = other.clauses ∧ formula.Tight := by
  change (_ ↔ ∃ other, read (Text.encode (headed maxTextVariables _)) = .ok other) ∧
    ∀ _ other, _ → read (Text.encode (headed maxTextVariables _)) = .ok other → _
  have small : maxTextVariables ≤ maxNumber := by decide
  constructor
  · constructor
    · rintro ⟨formula, loaded⟩
      exact ⟨_, ((readText_eq_ok_iff_headed few).mp loaded).1⟩
    · rintro ⟨⟨numVars, clauses⟩, loaded⟩
      obtain rfl : numVars = maxTextVariables := ((read_headed_eq_ok_iff small few).mp loaded).2
      exact ⟨⟨variableBound clauses.flatten, clauses⟩,
        (readText_eq_ok_iff_headed few).mpr ⟨loaded, rfl⟩⟩
  · rintro ⟨numVars, clauses⟩ other loaded behind
    obtain ⟨same, mentioned⟩ := (readText_eq_ok_iff_headed few).mp loaded
    rw [same] at behind
    cases behind
    change numVars = variableBound clauses.flatten at mentioned
    rw [mentioned]
    exact ⟨rfl, Formula.tight_variableBound clauses⟩

/-- A text with a header among its lines, blank lines, a comment, a word behind the zero, a
carriage return at one line end and one without a line end. -/
theorem mixed_text_agrees :
    let text := "p cnf 1 1\n \t\nc 9\n1 -3 0 x\r\n\n\t+2\r".toList
    let clauses : List (List Literal) := [[⟨0, true⟩, ⟨2, false⟩], [⟨1, true⟩]]
    clauseCount (clauseText text) ≤ maxClauses ∧ readText text = .ok ⟨3, clauses⟩ ∧
      (∃ other, read (Text.encode (headed 16777216 (clauseText text))) = .ok other ∧
        clauses = other.clauses) ∧ Formula.Tight ⟨3, clauses⟩ := by
  intro text clauses
  have few : clauseCount (clauseText text) ≤ maxClauses := by decide +kernel
  have loaded : readText text = .ok ⟨3, clauses⟩ := by decide +kernel
  obtain ⟨agree, relate⟩ := headerless_agrees text few
  obtain ⟨other, behind⟩ := agree.mp ⟨_, loaded⟩
  obtain ⟨same, tight⟩ := relate _ other loaded behind
  exact ⟨few, loaded, ⟨other, behind, same⟩, tight⟩

end Dimacs

end UnitPropagation
