import Mathlib.Data.List.Forall2
import UnitPropagation.Proofs.Dimacs

namespace UnitPropagation

/-! The grammar of texts with a header, and the first fault of a text outside of it.

Tokens, clause lines and whole texts are treated alike.  Reading passes over what is in order, so
it comes to the end of it or to the first thing that is not.  Every text is of one of these two
kinds, and that makes the description of either exact. -/

theorem exact_of_exhaustive {ε α : Type} {result : Except ε α} {good : α → Prop}
    {bad : ε → Prop} (accepts : ∀ value, good value → result = .ok value)
    (refuses : ∀ reason, bad reason → result = .error reason)
    (exhaustive : (∃ value, good value) ∨ ∃ reason, bad reason) :
    (∀ value, result = .ok value ↔ good value) ∧ ∀ reason, result = .error reason ↔ bad reason := by
  rcases exhaustive with ⟨value, holds⟩ | ⟨reason, holds⟩
  · obtain rfl := accepts value holds
    constructor
    · intro other
      exact ⟨fun same => Except.ok.inj same ▸ holds, accepts other⟩
    · intro reason
      exact ⟨nofun, refuses reason⟩
  · obtain rfl := refuses reason holds
    constructor
    · intro value
      exact ⟨nofun, accepts value⟩
    · intro other
      exact ⟨fun same => Except.error.inj same ▸ holds, refuses other⟩

namespace Text

variable {text : List Char}

/-- At least one decimal digit, with the number that they stand for. -/
def Digits (text : List Char) (value : Nat) : Prop :=
  text ≠ [] ∧ (∀ c ∈ text, c.isDigit) ∧ Nat.ofDigitChars 10 text 0 = value

/-- The digits of a number below 2 ^ 64, perhaps after a plus sign. -/
def Unsigned (text : List Char) (value : Nat) : Prop :=
  value < UInt64.size ∧ ∃ digits, Digits digits value ∧ (text = digits ∨ text = '+' :: digits)

/-- The digits of a number from -2 ^ 31 to 2 ^ 31 - 1, perhaps after a sign. -/
def Signed (text : List Char) (value : Int) : Prop :=
  -2147483648 ≤ value ∧ value ≤ 2147483647 ∧ ∃ digits, Digits digits value.natAbs ∧
    (0 ≤ value ∧ (text = digits ∨ text = '+' :: digits) ∨ value ≤ 0 ∧ text = '-' :: digits)

theorem digits?_eq_some_iff {value : Nat} : digits? text = some value ↔ Digits text value := by
  simp [digits?, Digits, and_assoc]

theorem Digits.head_isDigit {c : Char} {value : Nat} (digits : Digits (c :: text) value) :
    c.isDigit := digits.2.1 c (by simp)

theorem natural?_eq_some_iff {value : Nat} : natural? text = some value ↔
    ∃ digits, Digits digits value ∧ (text = digits ∨ text = '+' :: digits) := by
  unfold natural?
  split
  · rename_i rest
    rw [digits?_eq_some_iff]
    constructor
    · intro digits
      exact ⟨rest, digits, .inr rfl⟩
    · rintro ⟨_, digits, rfl | same⟩
      · exact absurd digits.head_isDigit (by decide)
      · exact (List.cons.inj same).2 ▸ digits
  · rename_i unmarked
    rw [digits?_eq_some_iff]
    constructor
    · intro digits
      exact ⟨text, digits, .inl rfl⟩
    · rintro ⟨_, digits, rfl | same⟩
      · exact digits
      · exact absurd same (unmarked _)

theorem integer?_minus (digits : List Char) : integer? ('-' :: digits) =
    (digits? digits).map fun (magnitude : Nat) => -(magnitude : Int) := by
  simp only [integer?]
  cases digits? digits <;> rfl

theorem integer?_unmarked (unmarked : ∀ digits, text ≠ '-' :: digits) :
    integer? text = (natural? text).map Int.ofNat := by
  unfold integer?
  split
  · exact absurd rfl (unmarked _)
  · rfl

theorem integer?_eq_some_iff {value : Int} : integer? text = some value ↔
    ∃ digits, Digits digits value.natAbs ∧
      (0 ≤ value ∧ (text = digits ∨ text = '+' :: digits) ∨ value ≤ 0 ∧ text = '-' :: digits) := by
  by_cases minus : ∃ rest, text = '-' :: rest
  · obtain ⟨rest, rfl⟩ := minus
    simp only [integer?_minus, Option.map_eq_some_iff, digits?_eq_some_iff]
    constructor
    · rintro ⟨magnitude, digits, rfl⟩
      exact ⟨rest, by simpa using digits, .inr ⟨by omega, rfl⟩⟩
    · rintro ⟨_, digits, ⟨_, rfl | other⟩ | ⟨negative, same⟩⟩
      · exact absurd digits.head_isDigit (by decide)
      · exact absurd (List.cons.inj other).1 (by decide)
      · exact ⟨value.natAbs, (List.cons.inj same).2 ▸ digits, by omega⟩
  · have unmarked : ∀ rest, text ≠ '-' :: rest := fun rest same => minus ⟨rest, same⟩
    simp only [integer?_unmarked unmarked, Option.map_eq_some_iff, natural?_eq_some_iff]
    constructor
    · rintro ⟨magnitude, ⟨digits, spelled, shape⟩, rfl⟩
      exact ⟨digits, spelled, .inl ⟨by simp, shape⟩⟩
    · rintro ⟨digits, spelled, ⟨positive, shape⟩ | ⟨_, same⟩⟩
      · exact ⟨value.natAbs, ⟨digits, spelled, shape⟩, Int.natAbs_of_nonneg positive⟩
      · exact absurd same (unmarked _)

theorem word64?_eq_some_iff {value : Nat} : word64? text = some value ↔ Unsigned text value := by
  rw [word64?, Option.filter_eq_some_iff, natural?_eq_some_iff, Unsigned]
  simp [and_comm]

theorem int32?_eq_some_iff {value : Int} : int32? text = some value ↔ Signed text value := by
  rw [int32?, Option.filter_eq_some_iff, integer?_eq_some_iff, Signed, ← and_assoc, and_comm]
  simp

/-- Lines numbered from `start` on. -/
def numberedFrom {α : Type} (start : Nat) (entries : List α) : List (Nat × α) :=
  (entries.zipIdx start).map Prod.swap

@[simp] theorem numberedFrom_nil {α : Type} (start : Nat) :
    numberedFrom start ([] : List α) = [] := rfl

@[simp] theorem numberedFrom_cons {α : Type} (start : Nat) (entry : α) (rest : List α) :
    numberedFrom start (entry :: rest) = (start, entry) :: numberedFrom (start + 1) rest := rfl

end Text

namespace Dimacs

variable {lineNumber numVars : Nat} {token : List Char} {tokens spelled : List (List Char)}
  {literals : List Literal} {reason : LoadError}

/-! Tokens -/

/-- The token is the number of a literal over one of the variables. -/
def Names (numVars : Nat) (token : List Char) (l : Literal) : Prop :=
  Text.Signed token l.number ∧ l.var < numVars

/-- The tokens before the first zero, or all of them without one, name the literals. -/
def SpelledOut (numVars : Nat) (tokens : List (List Char)) (literals : List Literal) : Prop :=
  ∃ spelled rest, tokens = spelled ++ rest ∧ List.Forall₂ (Names numVars) spelled literals ∧
    ∀ token ∈ rest.head?, Text.Signed token 0

/-- Why a token is refused: it is the number of no literal at all, or of one over none of the
variables. -/
inductive Refused (lineNumber numVars : Nat) (token : List Char) : LoadError → Prop
  | foreign (none : ∀ number, Text.Signed token number → number = -2147483648) :
      Refused lineNumber numVars token (.invalidLiteral lineNumber (String.ofList token))
  | beyond {number : Int} (numeral : Text.Signed token number) (possible : number ≠ -2147483648)
      (large : numVars < number.natAbs) :
      Refused lineNumber numVars token (.variableOutOfRange lineNumber number numVars)

/-- The first token that is refused stands before any zero. -/
def Misspelled (lineNumber numVars : Nat) (tokens : List (List Char)) (reason : LoadError) :
    Prop :=
  ∃ spelled token rest literals, tokens = spelled ++ token :: rest ∧
    List.Forall₂ (Names numVars) spelled literals ∧ Refused lineNumber numVars token reason

theorem literalNumber?_eq_some_iff {number : Int} :
    literalNumber? token = some number ↔ Text.Signed token number ∧ number ≠ -2147483648 := by
  have limit : maxNumber = 2147483647 := rfl
  rw [literalNumber?, Option.filter_eq_some_iff, Text.int32?_eq_some_iff]
  constructor
  · rintro ⟨numeral, small⟩
    have magnitude : number.natAbs ≤ maxNumber := by simpa using small
    exact ⟨numeral, by omega⟩
  · rintro ⟨numeral, possible⟩
    have magnitude : number.natAbs ≤ maxNumber := by
      have range := numeral.1
      have upper := numeral.2.1
      omega
    exact ⟨numeral, by simpa using magnitude⟩

theorem Names.literalNumber? {l : Literal} (named : Names numVars token l)
    (bound : numVars ≤ maxNumber) : literalNumber? token = some l.number := by
  have limit : maxNumber = 2147483647 := rfl
  have magnitude := natAbs_number l
  have inside := named.2
  exact literalNumber?_eq_some_iff.mpr ⟨named.1, by omega⟩

theorem readLiterals_append (bound : numVars ≤ maxNumber)
    (named : List.Forall₂ (Names numVars) spelled literals) (rest : List (List Char)) :
    readLiterals lineNumber numVars (spelled ++ rest) =
      (readLiterals lineNumber numVars rest).map (literals ++ ·) := by
  induction named with
  | nil =>
      rw [List.nil_append]
      cases readLiterals lineNumber numVars rest <;> rfl
  | cons first others ih =>
      rw [List.cons_append, readLiterals, first.literalNumber? bound]
      simp only [Literal.ofNumber?_number, first.2, ↓reduceIte, ih]
      cases readLiterals lineNumber numVars rest <;> rfl

theorem readLiterals_ended (ended : ∀ token ∈ tokens.head?, Text.Signed token 0) :
    readLiterals lineNumber numVars tokens = .ok [] := by
  cases tokens with
  | nil => rfl
  | cons token rest =>
      have zero : literalNumber? token = some 0 :=
        literalNumber?_eq_some_iff.mpr ⟨ended token rfl, by decide⟩
      rw [readLiterals, zero]
      rfl

theorem Refused.readLiterals (refused : Refused lineNumber numVars token reason)
    (rest : List (List Char)) :
    readLiterals lineNumber numVars (token :: rest) = .error reason := by
  cases refused with
  | foreign none =>
      have missing : literalNumber? token = .none := by
        rw [Option.eq_none_iff_forall_ne_some]
        intro number found
        obtain ⟨numeral, possible⟩ := literalNumber?_eq_some_iff.mp found
        exact possible (none number numeral)
      rw [Dimacs.readLiterals, missing]
  | beyond numeral possible large =>
      rename_i number
      have found := literalNumber?_eq_some_iff.mpr ⟨numeral, possible⟩
      have nonzero : number ≠ 0 := by omega
      have outside : ¬ number.natAbs - 1 < numVars := by omega
      rw [Dimacs.readLiterals, found]
      simp only [Literal.ofNumber?, nonzero, ↓reduceIte, outside]

theorem token_exhaustive (lineNumber numVars : Nat) (token : List Char) :
    Text.Signed token 0 ∨ (∃ l, Names numVars token l) ∨
      ∃ reason, Refused lineNumber numVars token reason := by
  cases found : literalNumber? token with
  | none =>
      refine .inr (.inr ⟨_, .foreign ?_⟩)
      intro number numeral
      by_contra possible
      rw [literalNumber?_eq_some_iff.mpr ⟨numeral, possible⟩] at found
      cases found
  | some number =>
      obtain ⟨numeral, possible⟩ := literalNumber?_eq_some_iff.mp found
      cases named : Literal.ofNumber? number with
      | none =>
          have zero : number = 0 := by simpa [Literal.ofNumber?] using named
          exact .inl (zero ▸ numeral)
      | some l =>
          have same : l.number = number := by
            unfold Literal.ofNumber? at named
            split at named
            · cases named
            · cases named
              by_cases positive : 0 < number
              · simp [Literal.number, positive]
                omega
              · simp [Literal.number, positive]
                omega
          by_cases inside : l.var < numVars
          · exact .inr (.inl ⟨l, same ▸ numeral, inside⟩)
          · refine .inr (.inr ⟨_, .beyond numeral possible ?_⟩)
            rw [← same, natAbs_number]
            omega

theorem tokens_exhaustive (lineNumber numVars : Nat) (tokens : List (List Char)) :
    (∃ literals, SpelledOut numVars tokens literals) ∨
      ∃ reason, Misspelled lineNumber numVars tokens reason := by
  induction tokens with
  | nil => exact .inl ⟨[], [], [], rfl, .nil, by simp⟩
  | cons token tokens ih =>
      rcases token_exhaustive lineNumber numVars token with zero | ⟨l, named⟩ | ⟨reason, refused⟩
      · exact .inl ⟨[], [], token :: tokens, rfl, .nil, by simpa using zero⟩
      · rcases ih with ⟨literals, spelled, rest, split, names, ended⟩ |
          ⟨reason, spelled, other, rest, literals, split, names, refused⟩
        · exact .inl ⟨l :: literals, token :: spelled, rest, by rw [split]; rfl,
            .cons named names, ended⟩
        · exact .inr ⟨reason, token :: spelled, other, rest, l :: literals, by rw [split]; rfl,
            .cons named names, refused⟩
      · exact .inr ⟨reason, [], token, tokens, [], rfl, .nil, refused⟩

theorem readLiterals_exact (lineNumber : Nat) (bound : numVars ≤ maxNumber)
    (tokens : List (List Char)) :
    (∀ literals, readLiterals lineNumber numVars tokens = .ok literals ↔
        SpelledOut numVars tokens literals) ∧
      ∀ reason, readLiterals lineNumber numVars tokens = .error reason ↔
        Misspelled lineNumber numVars tokens reason := by
  apply exact_of_exhaustive _ _ (tokens_exhaustive lineNumber numVars tokens)
  · rintro literals ⟨spelled, rest, rfl, named, ended⟩
    rw [readLiterals_append bound named, readLiterals_ended ended, Except.map, List.append_nil]
  · rintro reason ⟨spelled, token, rest, literals, rfl, named, refused⟩
    rw [readLiterals_append bound named, refused.readLiterals, Except.map]

/-! Clause lines -/

variable {header : Header} {clauses : List (List Literal)} {lines rest : List (Option (List Char))}
  {seen : List (List Char)} {before : List (List Literal)} {missing start : Nat}

/-- The lines that are no comments are those of the clauses, in order. -/
def Listed (numVars : Nat) (lines : List (List Char)) (clauses : List (List Literal)) : Prop :=
  List.Forall₂ (fun line => SpelledOut numVars (Text.fields line))
    (lines.filter (!isComment ·)) clauses

/-- Why no further clause is read from the lines that are left, the first of which has the given
number. -/
inductive Stuck (header : Header) (found lineNumber : Nat) :
    List (Option (List Char)) → LoadError → Prop
  | ended : Stuck header found lineNumber [] (.notEnoughClauses header.numClauses found)
  | undecodable {rest : List (Option (List Char))} :
      Stuck header found lineNumber (none :: rest) (.unreadable .notText)
  | misspelled {line : List Char} {rest : List (Option (List Char))} {reason : LoadError}
      (clause : isComment line = false)
      (fault : Misspelled lineNumber header.numVars (Text.fields line) reason) :
      Stuck header found lineNumber (some line :: rest) reason

/-- The lines start with as many clause lines as the header declares. -/
def Supplies (header : Header) (lines : List (Option (List Char)))
    (clauses : List (List Literal)) : Prop :=
  ∃ needed rest, lines = needed.map some ++ rest ∧ Listed header.numVars needed clauses ∧
    clauses.length = header.numClauses

/-- The lines, numbered from `start` on, fail after fewer clauses than the header declares. -/
def FallsShort (header : Header) (start : Nat) (lines : List (Option (List Char)))
    (reason : LoadError) : Prop :=
  ∃ seen rest clauses, lines = seen.map some ++ rest ∧ Listed header.numVars seen clauses ∧
    clauses.length < header.numClauses ∧
    Stuck header clauses.length (start + seen.length) rest reason

theorem listed_nil_iff : Listed numVars [] clauses ↔ clauses = [] := by
  simp [Listed]

theorem listed_comment_iff {line : List Char} (comment : isComment line = true) :
    Listed numVars (line :: seen) clauses ↔ Listed numVars seen clauses := by
  simp [Listed, comment]

theorem listed_clause_iff {line : List Char} (clause : isComment line = false) :
    Listed numVars (line :: seen) clauses ↔ ∃ literals more,
      SpelledOut numVars (Text.fields line) literals ∧ Listed numVars seen more ∧
        clauses = literals :: more := by
  simp [Listed, clause, List.forall₂_cons_left_iff]

theorem readClauses_append (bound : header.numVars ≤ maxNumber)
    (listed : Listed header.numVars seen clauses) (few : clauses.length ≤ missing)
    (before : List (List Literal)) (rest : List (Option (List Char))) (start : Nat) :
    readClauses header missing before (Text.numberedFrom start (seen.map some ++ rest)) =
      readClauses header (missing - clauses.length) (clauses.reverse ++ before)
        (Text.numberedFrom (start + seen.length) rest) := by
  induction seen generalizing clauses missing before start with
  | nil =>
      rw [listed_nil_iff.mp listed]
      rfl
  | cons line seen ih =>
      have further : start + (line :: seen).length = start + 1 + seen.length := by
        rw [List.length_cons]
        omega
      rw [further, List.map_cons, List.cons_append, Text.numberedFrom_cons]
      cases comment : isComment line with
      | true =>
          rw [← ih ((listed_comment_iff comment).mp listed) few before (start + 1)]
          cases missing with
          | zero => rw [readClauses, readClauses]
          | succ missing => rw [readClauses, comment, if_pos rfl]
      | false =>
          obtain ⟨literals, more, spelled, others, rfl⟩ := (listed_clause_iff comment).mp listed
          rw [List.length_cons] at few ⊢
          obtain ⟨less, rfl⟩ : ∃ less, missing = less + 1 := ⟨missing - 1, by omega⟩
          have clause : readClause start header.numVars line = .ok literals :=
            ((readLiterals_exact start bound _).1 literals).mpr spelled
          rw [readClauses, comment, if_neg (by decide), clause]
          dsimp only
          rw [ih others (by omega), Nat.add_sub_add_right, List.reverse_cons, List.append_assoc,
            List.singleton_append]

theorem Stuck.readClauses (bound : header.numVars ≤ maxNumber)
    (stuck : Stuck header before.length start rest reason) (missing : Nat) :
    readClauses header (missing + 1) before (Text.numberedFrom start rest) = .error reason := by
  cases stuck with
  | ended => rfl
  | undecodable => rfl
  | misspelled clause fault =>
      rename_i line more
      have failed : readClause start header.numVars line = .error reason :=
        ((readLiterals_exact start bound _).2 reason).mpr fault
      rw [Text.numberedFrom_cons, Dimacs.readClauses, clause, if_neg (by decide), failed]

theorem lines_exhaustive (header : Header) (missing found start : Nat)
    (lines : List (Option (List Char))) :
    ∃ seen rest clauses, lines = seen.map some ++ rest ∧ Listed header.numVars seen clauses ∧
      (clauses.length = missing ∨ clauses.length < missing ∧
        ∃ reason, Stuck header (found + clauses.length) (start + seen.length) rest reason) := by
  induction lines generalizing missing found start with
  | nil =>
      refine ⟨[], [], [], rfl, listed_nil_iff.mpr rfl, ?_⟩
      cases missing with
      | zero => exact .inl rfl
      | succ missing => exact .inr ⟨Nat.succ_pos _, _, .ended⟩
  | cons line lines ih =>
      cases missing with
      | zero => exact ⟨[], line :: lines, [], rfl, listed_nil_iff.mpr rfl, .inl rfl⟩
      | succ missing =>
          cases line with
          | none =>
              exact ⟨[], none :: lines, [], rfl, listed_nil_iff.mpr rfl,
                .inr ⟨Nat.succ_pos _, _, .undecodable⟩⟩
          | some line =>
              cases comment : isComment line with
              | true =>
                  obtain ⟨seen, rest, clauses, rfl, listed, verdict⟩ :=
                    ih (missing + 1) found (start + 1)
                  refine ⟨line :: seen, rest, clauses, rfl, (listed_comment_iff comment).mpr listed,
                    ?_⟩
                  rw [List.length_cons, Nat.add_comm seen.length, ← Nat.add_assoc]
                  exact verdict
              | false =>
                  rcases tokens_exhaustive start header.numVars (Text.fields line) with
                    ⟨literals, spelled⟩ | ⟨reason, fault⟩
                  · obtain ⟨seen, rest, clauses, rfl, listed, verdict⟩ :=
                      ih missing (found + 1) (start + 1)
                    refine ⟨line :: seen, rest, literals :: clauses, rfl,
                      (listed_clause_iff comment).mpr ⟨literals, clauses, spelled, listed, rfl⟩, ?_⟩
                    rw [List.length_cons, List.length_cons, Nat.add_comm seen.length,
                      Nat.add_comm clauses.length, ← Nat.add_assoc, ← Nat.add_assoc]
                    rcases verdict with enough | ⟨less, stuck⟩
                    · exact .inl (by omega)
                    · exact .inr ⟨by omega, stuck⟩
                  · exact ⟨[], some line :: lines, [], rfl, listed_nil_iff.mpr rfl,
                      .inr ⟨Nat.succ_pos _, reason, .misspelled comment fault⟩⟩

theorem readClauses_exact (bound : header.numVars ≤ maxNumber) (start : Nat)
    (lines : List (Option (List Char))) :
    (∀ clauses, readClauses header header.numClauses [] (Text.numberedFrom start lines) =
        .ok clauses ↔ Supplies header lines clauses) ∧
      ∀ reason, readClauses header header.numClauses [] (Text.numberedFrom start lines) =
        .error reason ↔ FallsShort header start lines reason := by
  apply exact_of_exhaustive
  · rintro clauses ⟨needed, rest, rfl, listed, length⟩
    rw [readClauses_append bound listed (Nat.le_of_eq length), length, Nat.sub_self, readClauses]
    simp
  · rintro reason ⟨seen, rest, clauses, rfl, listed, less, stuck⟩
    obtain ⟨further, left⟩ : ∃ further, header.numClauses - clauses.length = further + 1 :=
      ⟨header.numClauses - clauses.length - 1, by omega⟩
    have found : (clauses.reverse ++ []).length = clauses.length := by simp
    rw [← found] at stuck
    rw [readClauses_append bound listed (Nat.le_of_lt less), left, stuck.readClauses bound]
  · obtain ⟨seen, rest, clauses, split, listed, enough | ⟨less, reason, stuck⟩⟩ :=
      lines_exhaustive header header.numClauses 0 start lines
    · exact .inl ⟨clauses, seen, rest, split, listed, enough⟩
    · rw [Nat.zero_add] at stuck
      exact .inr ⟨reason, seen, rest, clauses, split, listed, less, stuck⟩

/-! Whole texts -/

variable {line : List Char} {formula : Formula} {passed : List (List Char)}

/-- The line has four fields, the last two of which are the numbers of the header. -/
def Declares (line : List Char) (header : Header) : Prop :=
  header.numVars ≤ maxNumber ∧ ∃ first second numVars numClauses,
    Text.fields line = [first, second, numVars, numClauses] ∧
      Text.Unsigned numVars header.numVars ∧ Text.Unsigned numClauses header.numClauses

/-- The first line that starts with `p` stands after the lines `passed`, all of which can be
decoded, and before `rest`. -/
structure Opening (lines : List (Option (List Char))) (passed : List (List Char))
    (line : List Char) (rest : List (Option (List Char))) : Prop where
  split : lines = passed.map some ++ some line :: rest
  unmarked : ∀ other ∈ passed, other.head? ≠ some 'p'
  marked : line.head? = some 'p'

/-- The first line that starts with `p` is a header, it declares no more clauses than there may
be, and as many clause lines as it declares follow it. -/
def Accepts (lines : List (Option (List Char))) (formula : Formula) : Prop :=
  ∃ passed line rest header, Opening lines passed line rest ∧ Declares line header ∧
    header.numClauses ≤ maxClauses ∧ Supplies header rest formula.clauses ∧
    formula.numVars = header.numVars

/-- The first fault of the lines in the order of reading. -/
inductive Blames (lines : List (Option (List Char))) : LoadError → Prop
  | undecodable {passed : List (List Char)} {rest : List (Option (List Char))}
      (split : lines = passed.map some ++ none :: rest)
      (unmarked : ∀ other ∈ passed, other.head? ≠ some 'p') :
      Blames lines (.unreadable .notText)
  | headless {passed : List (List Char)} (whole : lines = passed.map some)
      (unmarked : ∀ other ∈ passed, other.head? ≠ some 'p') :
      Blames lines .missingHeader
  | malformed {passed : List (List Char)} {line : List Char} {rest : List (Option (List Char))}
      (opening : Opening lines passed line rest) (none : ∀ header, ¬ Declares line header) :
      Blames lines (.invalidHeader (String.ofList line))
  | boundless {passed : List (List Char)} {line : List Char} {rest : List (Option (List Char))}
      {header : Header} (opening : Opening lines passed line rest)
      (declares : Declares line header) (many : maxClauses < header.numClauses) :
      Blames lines (.tooManyClauses header.numClauses)
  | short {passed : List (List Char)} {line : List Char} {rest : List (Option (List Char))}
      {header : Header} {reason : LoadError} (opening : Opening lines passed line rest)
      (declares : Declares line header) (few : header.numClauses ≤ maxClauses)
      (fault : FallsShort header (passed.length + 2) rest reason) :
      Blames lines reason

theorem Declares.readHeader (declares : Declares line header) : readHeader line = .ok header := by
  obtain ⟨bound, first, second, numVars, numClauses, fields, vars, count⟩ := declares
  simp only [Dimacs.readHeader, fields, Text.word64?_eq_some_iff.mpr vars,
    Text.word64?_eq_some_iff.mpr count, bound, ↓reduceIte]

theorem declares_of_readHeader (read : readHeader line = .ok header) : Declares line header := by
  have bound := readHeader_numVars read
  unfold readHeader at read
  split at read
  · rename_i first second numVars numClauses fields
    split at read
    · rename_i vars count foundVars foundCount
      split at read
      · cases read
        exact ⟨bound, first, second, numVars, numClauses, fields,
          Text.word64?_eq_some_iff.mp foundVars, Text.word64?_eq_some_iff.mp foundCount⟩
      · cases read
    · cases read
  · cases read

theorem readHeader_refused (none : ∀ header, ¬ Declares line header) :
    readHeader line = .error (.invalidHeader (String.ofList line)) := by
  cases outcome : readHeader line with
  | ok header => exact absurd (declares_of_readHeader outcome) (none header)
  | error reason =>
      unfold readHeader at outcome
      split at outcome
      · split at outcome
        · split at outcome <;> cases outcome
          rfl
        · cases outcome
          rfl
      · cases outcome
        rfl

theorem findHeader_append (unmarked : ∀ other ∈ passed, other.head? ≠ some 'p')
    (rest : List (Option (List Char))) (start : Nat) :
    findHeader (Text.numberedFrom start (passed.map some ++ rest)) =
      findHeader (Text.numberedFrom (start + passed.length) rest) := by
  induction passed generalizing start with
  | nil => rfl
  | cons line passed ih =>
      have skip : line.head? ≠ some 'p' := unmarked line (by simp)
      rw [List.map_cons, List.cons_append, Text.numberedFrom_cons, findHeader, if_neg skip,
        ih fun other member => unmarked other (by simp [member])]
      rw [List.length_cons, Nat.add_comm passed.length, Nat.add_assoc]

theorem header_exhaustive (lines : List (Option (List Char))) :
    (∃ passed : List (List Char), lines = passed.map some ∧
        ∀ other ∈ passed, other.head? ≠ some 'p') ∨
      (∃ (passed : List (List Char)) (rest : List (Option (List Char))),
        lines = passed.map some ++ none :: rest ∧ ∀ other ∈ passed, other.head? ≠ some 'p') ∨
      ∃ passed line rest, Opening lines passed line rest := by
  induction lines with
  | nil => exact .inl ⟨[], rfl, by simp⟩
  | cons line lines ih =>
      cases line with
      | none => exact .inr (.inl ⟨[], lines, rfl, by simp⟩)
      | some line =>
          by_cases marked : line.head? = some 'p'
          · exact .inr (.inr ⟨[], line, lines, rfl, by simp, marked⟩)
          · have unmarked : ∀ passed : List (List Char),
                (∀ other ∈ passed, other.head? ≠ some 'p') →
                ∀ other ∈ line :: passed, other.head? ≠ some 'p' :=
              fun passed others => List.forall_mem_cons.mpr ⟨marked, others⟩
            rcases ih with ⟨passed, rfl, others⟩ | ⟨passed, rest, rfl, others⟩ |
              ⟨passed, opener, rest, rfl, others, found⟩
            · exact .inl ⟨line :: passed, rfl, unmarked passed others⟩
            · exact .inr (.inl ⟨line :: passed, rest, rfl, unmarked passed others⟩)
            · exact .inr (.inr ⟨line :: passed, opener, rest, rfl, unmarked passed others, found⟩)

theorem Opening.findHeader (opening : Opening lines passed line rest) :
    findHeader (Text.numberedFrom 1 lines) =
      (readHeader line).map (·, Text.numberedFrom (passed.length + 2) rest) := by
  rw [opening.split, findHeader_append opening.unmarked, Text.numberedFrom_cons, Dimacs.findHeader,
    if_pos opening.marked, Nat.add_comm 1, Nat.add_assoc]

theorem Opening.readLines (opening : Opening lines passed line rest)
    (declares : Declares line header) (few : header.numClauses ≤ maxClauses) :
    readLines (Text.numberedFrom 1 lines) =
      (readClauses header header.numClauses [] (Text.numberedFrom (passed.length + 2) rest)).map
        (⟨header.numVars, ·⟩) := by
  rw [readLines_eq, opening.findHeader, declares.readHeader]
  simp only [Except.map, Nat.not_lt.mpr few, ↓reduceIte]

theorem Opening.readLines_eq_ok_iff (opening : Opening lines passed line rest)
    (declares : Declares line header) (few : header.numClauses ≤ maxClauses) :
    Dimacs.readLines (Text.numberedFrom 1 lines) = .ok formula ↔
      Supplies header rest formula.clauses ∧ formula.numVars = header.numVars := by
  rw [opening.readLines declares few, ← (readClauses_exact declares.1 (passed.length + 2) rest).1]
  obtain ⟨numVars, clauses⟩ := formula
  cases readClauses header header.numClauses [] (Text.numberedFrom (passed.length + 2) rest) with
  | error reason => simp [Except.map]
  | ok found => simp [Except.map, and_comm, eq_comm]

theorem Accepts.readLines (accepts : Accepts lines formula) :
    readLines (Text.numberedFrom 1 lines) = .ok formula := by
  obtain ⟨passed, line, rest, header, opening, declares, few, supplies, numVars⟩ := accepts
  exact (opening.readLines_eq_ok_iff declares few).mpr ⟨supplies, numVars⟩

theorem Blames.readLines (blames : Blames lines reason) :
    readLines (Text.numberedFrom 1 lines) = .error reason := by
  cases blames with
  | undecodable split unmarked =>
      rw [readLines_eq, split, findHeader_append unmarked]
      rfl
  | headless whole unmarked =>
      rw [readLines_eq, whole, ← List.append_nil (List.map _ _), findHeader_append unmarked]
      rfl
  | malformed opening none =>
      rw [readLines_eq, opening.findHeader, readHeader_refused none]
      rfl
  | boundless opening declares many =>
      rw [readLines_eq, opening.findHeader, declares.readHeader]
      simp only [Except.map, many, ↓reduceIte]
  | short opening declares few fault =>
      rename_i passed line rest header
      have failed := ((readClauses_exact declares.1 (passed.length + 2) rest).2 _).mpr fault
      rw [opening.readLines declares few, failed, Except.map]

theorem text_exhaustive (lines : List (Option (List Char))) :
    (∃ formula, Accepts lines formula) ∨ ∃ reason, Blames lines reason := by
  rcases header_exhaustive lines with ⟨passed, whole, unmarked⟩ | ⟨passed, rest, split, unmarked⟩ |
    ⟨passed, line, rest, opening⟩
  · exact .inr ⟨_, .headless whole unmarked⟩
  · exact .inr ⟨_, .undecodable split unmarked⟩
  · by_cases declared : ∃ header, Declares line header
    · obtain ⟨header, declares⟩ := declared
      by_cases few : header.numClauses ≤ maxClauses
      · obtain ⟨supplied, short⟩ := readClauses_exact declares.1 (passed.length + 2) rest
        cases outcome : readClauses header header.numClauses []
            (Text.numberedFrom (passed.length + 2) rest) with
        | ok clauses =>
            exact .inl ⟨⟨header.numVars, clauses⟩, passed, line, rest, header, opening, declares,
              few, (supplied clauses).mp outcome, rfl⟩
        | error reason =>
            exact .inr ⟨reason, .short opening declares few ((short reason).mp outcome)⟩
      · exact .inr ⟨_, .boundless opening declares (Nat.lt_of_not_le few)⟩
    · exact .inr ⟨_, .malformed opening fun header declares => declared ⟨header, declares⟩⟩

theorem accepts_of_readLines (loaded : readLines (Text.numberedFrom 1 lines) = .ok formula) :
    Accepts lines formula := by
  rcases text_exhaustive lines with ⟨other, accepts⟩ | ⟨reason, blames⟩
  · rw [accepts.readLines] at loaded
    exact Except.ok.inj loaded ▸ accepts
  · rw [blames.readLines] at loaded
    cases loaded

/-- The bytes of a text, cut into lines, are read if and only if they follow the grammar, and then
to the formula that they spell.  All others are refused, for their first fault and no other. -/
theorem grammar_decides (bytes : List UInt8) :
    (∀ formula, read bytes = .ok formula ↔
        Accepts ((Text.byteLines bytes).map Text.decode?) formula) ∧
      ∀ reason, read bytes = .error reason ↔
        Blames ((Text.byteLines bytes).map Text.decode?) reason := by
  apply exact_of_exhaustive
  · intro formula accepts
    exact accepts.readLines
  · intro reason blames
    exact blames.readLines
  · exact text_exhaustive _

/-- Of two faults in the first clause line, which is line four, the left one is named, and neither
the fault of the next line nor the bytes behind it matter. -/
example : read ("c\np cnf 2 2\nc p\n-2 x 9 0\n3 0\n".toUTF8.data.toList ++ [255]) =
    .error (.invalidLiteral 4 "x") := by decide +kernel

end Dimacs

end UnitPropagation
