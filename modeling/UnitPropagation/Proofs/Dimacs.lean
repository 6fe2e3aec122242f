import UnitPropagation.Dimacs.Reader
import UnitPropagation.Dimacs.Writer
import UnitPropagation.Proofs.Text

namespace UnitPropagation

/-! Formulas that are read lie within the variables that they declare, and what is written is
read back. -/

variable {l : Literal} {literals : List Literal} {bound : Nat}

theorem var_lt_variableBound (member : l ∈ literals) : l.var < variableBound literals := by
  induction literals with
  | nil => cases member
  | cons head rest ih =>
      have step : variableBound (head :: rest) = max (head.var + 1) (variableBound rest) := rfl
      rcases List.mem_cons.mp member with same | later
      · rw [same]
        omega
      · have inside := ih later
        omega

theorem variableBound_le (inside : ∀ l ∈ literals, l.var < bound) :
    variableBound literals ≤ bound := by
  induction literals with
  | nil => exact Nat.zero_le _
  | cons head rest ih =>
      have step : variableBound (head :: rest) = max (head.var + 1) (variableBound rest) := rfl
      have first := inside head (by simp)
      have others := ih fun l member => inside l (by simp [member])
      omega

theorem variableBound_flatten_le_iff {clauses : List (List Literal)} :
    variableBound clauses.flatten ≤ bound ↔
      ∀ literals ∈ clauses, ∀ l ∈ literals, l.var < bound := by
  rw [← List.forall_mem_flatten]
  constructor
  · intro small l member
    have below := var_lt_variableBound member
    omega
  · exact variableBound_le

/-- The clauses are over the declared variables, and each of their literals has a number. -/
structure Formula.InRange (formula : Formula) : Prop where
  numVars : formula.numVars ≤ maxNumber
  inside : ∀ literals ∈ formula.clauses, ∀ l ∈ literals, l.var < formula.numVars

namespace Dimacs

variable {lineNumber numVars : Nat} {tokens : List (List Char)} {clauses : List (List Literal)}

theorem readLiterals_inside (read : readLiterals lineNumber numVars tokens = .ok literals) :
    ∀ l ∈ literals, l.var < numVars := by
  fun_induction readLiterals lineNumber numVars tokens generalizing literals with
  | case1 =>
      cases read
      simp
  | case2 token rest missing => cases read
  | case3 token rest number numeral zero =>
      cases read
      simp
  | case4 token rest number numeral first named inside ih =>
      cases others : readLiterals lineNumber numVars rest with
      | error reason =>
          rw [others] at read
          cases read
      | ok later =>
          rw [others] at read
          cases read
          intro l member
          rcases List.mem_cons.mp member with same | member
          · rw [same]
            exact inside
          · exact ih others l member
  | case5 token rest number numeral first named outside => cases read

theorem readClauses_inside {header : Header} {missing : Nat} {before : List (List Literal)}
    {lines : List Line} (read : readClauses header missing before lines = .ok clauses)
    (earlier : ∀ literals ∈ before, ∀ l ∈ literals, l.var < header.numVars) :
    ∀ literals ∈ clauses, ∀ l ∈ literals, l.var < header.numVars := by
  fun_induction readClauses header missing before lines with
  | case1 before lines =>
      cases read
      simpa using earlier
  | case2 missing before => cases read
  | case3 missing before lineNumber rest => cases read
  | case4 missing before lineNumber line rest comment ih => exact ih read earlier
  | case5 missing before lineNumber line rest clause literals found ih =>
      apply ih read
      intro other member
      rcases List.mem_cons.mp member with same | old
      · rw [same]
        exact readLiterals_inside found
      · exact earlier other old
  | case6 missing before lineNumber line rest clause reason failed => cases read

theorem readHeader_numVars {line : List Char} {header : Header}
    (read : readHeader line = .ok header) : header.numVars ≤ maxNumber := by
  unfold readHeader at read
  split at read
  · split at read
    · split at read
      · rename_i small
        cases read
        exact small
      · cases read
    · cases read
  · cases read

theorem findHeader_numVars {lines rest : List Line} {header : Header}
    (found : findHeader lines = .ok (header, rest)) : header.numVars ≤ maxNumber := by
  fun_induction findHeader lines with
  | case1 => cases found
  | case2 lineNumber rest => cases found
  | case3 lineNumber line rest marked =>
      cases read : readHeader line with
      | error reason =>
          rw [read] at found
          cases found
      | ok header =>
          rw [read] at found
          cases found
          exact readHeader_numVars read
  | case4 lineNumber line rest unmarked ih => exact ih found

theorem readLines_eq (lines : List Line) : readLines lines =
    match findHeader lines with
    | .error reason => .error reason
    | .ok (header, rest) =>
        if maxClauses < header.numClauses then .error (.tooManyClauses header.numClauses)
        else (readClauses header header.numClauses [] rest).map (⟨header.numVars, ·⟩) := by
  unfold readLines
  cases findHeader lines with
  | error reason => rfl
  | ok found =>
      obtain ⟨header, rest⟩ := found
      change (if maxClauses < header.numClauses then _ else _) = _
      by_cases many : maxClauses < header.numClauses
      · simp only [many, ↓reduceIte]
        rfl
      · simp only [many, ↓reduceIte]
        cases readClauses header header.numClauses [] rest <;> rfl

theorem read_inRange {bytes : List UInt8} {formula : Formula} (loaded : read bytes = .ok formula) :
    formula.InRange := by
  rw [read, readLines_eq] at loaded
  cases found : findHeader (Text.numbered ((Text.byteLines bytes).map Text.decode?)) with
  | error reason => simp [found] at loaded
  | ok pair =>
      obtain ⟨header, rest⟩ := pair
      simp only [found] at loaded
      split at loaded
      · cases loaded
      · cases read : readClauses header header.numClauses [] rest with
        | error reason => simp [read, Except.map] at loaded
        | ok clauses =>
            rw [read] at loaded
            cases loaded
            exact ⟨findHeader_numVars found, readClauses_inside read (by simp)⟩

theorem readText_eq (text : List Char) : readText text =
    match ((Text.numbered (Text.lines text)).filter fun entry => holdsClause entry.2).mapM
      fun entry => readClause entry.1 maxNumber entry.2 with
    | .error reason => .error reason
    | .ok clauses =>
        if maxTextVariables < variableBound clauses.flatten then
          .error (.tooManyVariables (variableBound clauses.flatten))
        else .ok ⟨variableBound clauses.flatten, clauses⟩ := by
  unfold readText
  dsimp only
  cases ((Text.numbered (Text.lines text)).filter fun entry => holdsClause entry.2).mapM
      fun entry => readClause entry.1 maxNumber entry.2 with
  | error reason => rfl
  | ok clauses =>
      change (if maxTextVariables < variableBound clauses.flatten then _ else _) = _
      by_cases many : maxTextVariables < variableBound clauses.flatten
      · simp only [many, ↓reduceIte]
        rfl
      · simp only [many, ↓reduceIte]
        rfl

theorem readText_inRange {text : List Char} {formula : Formula}
    (loaded : readText text = .ok formula) : formula.InRange := by
  rw [readText_eq] at loaded
  split at loaded
  · cases loaded
  · rename_i clauses _
    split at loaded
    · cases loaded
    · rename_i few
      cases loaded
      have small : maxTextVariables ≤ maxNumber := by decide
      exact ⟨by dsimp only; omega, variableBound_flatten_le_iff.mp (Nat.le_refl _)⟩

theorem loaded_inRange {formula : Formula}
    (loaded : (∃ bytes, read bytes = .ok formula) ∨ ∃ text, readText text = .ok formula) :
    formula.InRange := by
  rcases loaded with ⟨bytes, loaded⟩ | ⟨text, loaded⟩
  · exact read_inRange loaded
  · exact readText_inRange loaded

/-- A clause line without its end. -/
def clauseBody (literals : List Literal) : List Char :=
  (literals.map fun l => Text.integerText l.number).flatMap (· ++ [' ']) ++ ['0']

/-- The line `p cnf <numVars> <numClauses>` without its end. -/
def declaration (numVars numClauses : Nat) : List Char :=
  [['p'], ['c', 'n', 'f'], Nat.toDigits 10 numVars].flatMap (· ++ [' ']) ++
    Nat.toDigits 10 numClauses

/-- The header line of clauses without its end. -/
def headerBody (clauses : List (List Literal)) : List Char :=
  [['p'], ['c', 'n', 'f'], Nat.toDigits 10 (variableBound clauses.flatten)].flatMap (· ++ [' ']) ++
    Nat.toDigits 10 clauses.length

theorem clauseLine_eq (literals : List Literal) :
    clauseLine literals = clauseBody literals ++ ['\n'] := by
  rw [clauseLine, clauseBody, List.flatMap_map, List.append_assoc]
  rfl

theorem headerLine_eq (clauses : List (List Literal)) :
    headerLine clauses = headerBody clauses ++ ['\n'] := by
  have start : "p cnf ".toList = ['p', ' ', 'c', 'n', 'f', ' '] := by decide
  unfold headerLine headerBody
  rw [start]
  -- The digits themselves do not matter here.
  generalize Nat.toDigits 10 (variableBound clauses.flatten) = numVars
  generalize Nat.toDigits 10 clauses.length = numClauses
  simp

theorem render_eq (clauses : List (List Literal)) : render clauses =
    (headerBody clauses :: clauses.map clauseBody).flatMap (· ++ ['\n']) := by
  rw [render, headerLine_eq, List.flatMap_cons, List.flatMap_map, funext clauseLine_eq]

theorem natAbs_number (l : Literal) : l.number.natAbs = l.var + 1 := by
  unfold Literal.number
  split <;> omega

theorem literalNumber?_integerText (numbered : l.var < maxNumber) :
    literalNumber? (Text.integerText l.number) = some l.number := by
  have magnitude := natAbs_number l
  have limit : maxNumber = 2147483647 := rfl
  have range : -2147483648 ≤ l.number ∧ l.number ≤ 2147483647 := by omega
  have small : l.number.natAbs ≤ maxNumber := by omega
  simp [literalNumber?, Text.int32?, Text.integer?_integerText, Option.filter, range, small]

theorem readLiterals_written (bound : numVars ≤ maxNumber)
    (inside : ∀ l ∈ literals, l.var < numVars) :
    readLiterals lineNumber numVars
      ((literals.map fun l => Text.integerText l.number) ++ [['0']]) = .ok literals := by
  induction literals with
  | nil => rfl
  | cons l rest ih =>
      have first := inside l (by simp)
      have others := ih fun other member => inside other (by simp [member])
      rw [List.map_cons, List.cons_append, readLiterals,
        literalNumber?_integerText (Nat.lt_of_lt_of_le first bound)]
      simp only [Literal.ofNumber?_number, first, ↓reduceIte, others]
      rfl

theorem fields_clauseBody (literals : List Literal) : Text.fields (clauseBody literals) =
    (literals.map fun l => Text.integerText l.number) ++ [['0']] := by
  apply Text.fields_spaced
  · rw [List.forall_mem_map]
    intro l _
    exact Text.solid_integerText l.number
  · exact Text.solid_of_all (by simp) (by decide)

theorem fields_declaration (numVars numClauses : Nat) :
    Text.fields (declaration numVars numClauses) =
      [['p'], ['c', 'n', 'f'], Nat.toDigits 10 numVars, Nat.toDigits 10 numClauses] := by
  apply Text.fields_spaced
  · intro field member
    simp only [List.mem_cons, List.not_mem_nil, or_false] at member
    rcases member with rfl | rfl | rfl
    · exact Text.solid_of_all (by simp) (by decide)
    · exact Text.solid_of_all (by simp) (by decide)
    · exact Text.solid_toDigits _
  · exact Text.solid_toDigits _

theorem readClause_clauseBody (lineNumber : Nat) (bound : numVars ≤ maxNumber)
    (inside : ∀ l ∈ literals, l.var < numVars) :
    readClause lineNumber numVars (clauseBody literals) = .ok literals := by
  rw [readClause, fields_clauseBody]
  exact readLiterals_written bound inside

theorem readHeader_declaration {numClauses : Nat} (bound : numVars ≤ maxNumber)
    (few : numClauses ≤ maxClauses) :
    readHeader (declaration numVars numClauses) = .ok ⟨numVars, numClauses⟩ := by
  have wide : maxNumber < UInt64.size ∧ maxClauses < UInt64.size := by decide
  have vars := Text.word64?_toDigits (Nat.lt_of_le_of_lt bound wide.1)
  have count := Text.word64?_toDigits (Nat.lt_of_le_of_lt few wide.2)
  simp only [readHeader, fields_declaration, vars, count, bound, ↓reduceIte]

theorem mem_clauseBody {c : Char} (member : c ∈ clauseBody literals) :
    c.isDigit ∨ c = '-' ∨ c = ' ' := by
  simp only [clauseBody, List.mem_append, List.mem_flatMap, List.mem_map, List.mem_singleton]
    at member
  rcases member with ⟨_, ⟨l, _, rfl⟩, digit | space⟩ | zero
  · unfold Text.integerText at digit
    split at digit
    · rcases List.mem_cons.mp digit with sign | digit
      · exact .inr (.inl sign)
      · exact .inl (Text.isDigit_of_mem_toDigits digit)
    · exact .inl (Text.isDigit_of_mem_toDigits digit)
  · exact .inr (.inr space)
  · rw [zero]
    decide

theorem mem_declaration {c : Char} {numClauses : Nat}
    (member : c ∈ declaration numVars numClauses) : c.isDigit ∨ c ∈ ['p', ' ', 'c', 'n', 'f'] := by
  simp only [declaration, List.mem_append, List.mem_flatMap, List.mem_cons, List.not_mem_nil,
    or_false] at member
  rcases member with ⟨_, rfl | rfl | rfl, field | space⟩ | digit
  · simp at field
    simp [field]
  · simp [space]
  · simp at field
    rcases field with rfl | rfl | rfl <;> simp
  · simp [space]
  · exact .inl (Text.isDigit_of_mem_toDigits field)
  · simp [space]
  · exact .inl (Text.isDigit_of_mem_toDigits digit)

theorem plain_declaration {numClauses : Nat} :
    ∀ c ∈ declaration numVars numClauses, c ≠ '\n' ∧ c ≠ '\r' := by
  intro c member
  rcases mem_declaration member with digit | letter
  · constructor <;> rintro rfl <;> cases digit
  · constructor <;> rintro rfl <;> simp at letter

theorem lines_render (clauses : List (List Literal)) :
    Text.lines (render clauses) = headerBody clauses :: clauses.map clauseBody := by
  have plain : ∀ line ∈ headerBody clauses :: clauses.map clauseBody, ∀ c ∈ line,
      c ≠ '\n' ∧ c ≠ '\r' := by
    rw [List.forall_mem_cons, List.forall_mem_map]
    constructor
    · exact plain_declaration
    · intro literals _ c member
      rcases mem_clauseBody member with digit | sign | space
      · constructor <;> rintro rfl <;> cases digit
      · rw [sign]
        decide
      · rw [space]
        decide
  rw [render_eq]
  apply Text.splitLines_ended
  · intro line listed member
    exact (plain line listed _ member).1 rfl
  · intro line listed last
    exact (plain line listed _ (List.mem_of_getLast? last)).2 rfl

theorem isComment_clauseBody (literals : List Literal) :
    isComment (clauseBody literals) = false := by
  rw [isComment, beq_eq_false_iff_ne]
  intro comment
  rcases mem_clauseBody (List.mem_of_head? comment) with digit | sign | space
  · cases digit
  · cases sign
  · cases space

theorem readClauses_written {header : Header} (bound : header.numVars ≤ maxNumber)
    (inside : ∀ literals ∈ clauses, ∀ l ∈ literals, l.var < header.numVars)
    (before : List (List Literal)) {lines : List Line}
    (written : lines.map Prod.snd = clauses.map fun literals => some (clauseBody literals)) :
    readClauses header clauses.length before lines = .ok (before.reverse ++ clauses) := by
  induction clauses generalizing before lines with
  | nil =>
      rw [List.length_nil, readClauses, List.append_nil]
  | cons literals rest ih =>
      cases lines with
      | nil => cases written
      | cons line lines =>
          obtain ⟨lineNumber, text⟩ := line
          rw [List.map_cons, List.map_cons, List.cons.injEq] at written
          obtain ⟨same, others⟩ := written
          change text = some (clauseBody literals) at same
          have first := readClause_clauseBody lineNumber bound (inside literals (by simp))
          rw [same, List.length_cons, readClauses, isComment_clauseBody]
          simp only [Bool.false_eq_true, ↓reduceIte, first]
          rw [ih (fun other member => inside other (by simp [member])) _ others]
          simp

/-- What is written is read back: the same clauses, over the variables up to the largest. -/
theorem read_render (numbered : ∀ literals ∈ clauses, ∀ l ∈ literals, l.var < maxNumber)
    (few : clauses.length ≤ maxClauses) :
    read (Text.encode (render clauses)) = .ok ⟨variableBound clauses.flatten, clauses⟩ := by
  have bound := variableBound_flatten_le_iff.mpr numbered
  have inside := variableBound_flatten_le_iff.mp (Nat.le_refl (variableBound clauses.flatten))
  have marked : (headerBody clauses).head? = some 'p' := rfl
  have header : readHeader (headerBody clauses) = _ := readHeader_declaration bound few
  rw [read, Text.decode?_byteLines_encode, lines_render, readLines_eq]
  simp only [List.map_cons, Text.numbered, List.zipIdx_cons, Prod.swap_prod_mk, findHeader, marked,
    ↓reduceIte, header, Except.map, Nat.not_lt.mpr few]
  rw [readClauses_written bound inside]
  · rfl
  · simp [List.map_map, Function.comp_def]

theorem write_eq {clauses : List Clause}
    (numbered : ∀ clause ∈ clauses, ∀ l ∈ clause.literals, l.var < maxNumber) :
    write clauses = .ok (String.ofList (render (clauses.map Clause.literals))) := by
  have all : (clauses.map Clause.literals).flatten.find? (!·.hasNumber) = none := by
    rw [List.find?_eq_none]
    intro l member
    obtain ⟨_, listed, occurs⟩ := List.mem_flatten.mp member
    obtain ⟨clause, inside, rfl⟩ := List.mem_map.mp listed
    simpa [Literal.hasNumber] using numbered clause inside l occurs
  simp only [write, all]

theorem read_write {clauses : List Clause}
    (numbered : ∀ clause ∈ clauses, ∀ l ∈ clause.literals, l.var < maxNumber)
    (few : clauses.length ≤ maxClauses) :
    ∃ text, write clauses = .ok text ∧ read text.toUTF8.data.toList =
      .ok ⟨variableBound (clauses.map Clause.literals).flatten, clauses.map Clause.literals⟩ := by
  refine ⟨_, write_eq numbered, ?_⟩
  rw [Text.toUTF8_ofList]
  apply read_render
  · rw [List.forall_mem_map]
    exact numbered
  · rw [List.length_map]
    exact few

end Dimacs

end UnitPropagation
