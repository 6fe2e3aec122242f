import UnitPropagation.Text.Blank
import UnitPropagation.Text.Lines
import UnitPropagation.Text.Numeral

namespace UnitPropagation.Text

/-! Texts read back: lines, fields and numerals.

A text may be cut into lines as characters or as bytes.  Both give the same lines, since the
bytes of a line end are part of no other character. -/

section

variable {α : Type} {test : α → Bool}

theorem splitOnP_append_left {start : List α} (free : ∀ item ∈ start, test item = false)
    (rest : List α) :
    (start ++ rest).splitOnP test = (rest.splitOnP test).modifyHead (start ++ ·) := by
  induction start with
  | nil =>
      change rest.splitOnP test = (rest.splitOnP test).modifyHead id
      rw [List.modifyHead_id]
      rfl
  | cons item start ih =>
      have first : test item = false := free item (by simp)
      have others := ih fun other member => free other (by simp [member])
      rw [List.cons_append, List.splitOnP_cons_eq_if_modifyHead, first, others]
      cases rest.splitOnP test <;> rfl

variable [DecidableEq α] {feed ret : α}

theorem splitOnP_ended {pieces : List (List α)} (free : ∀ line ∈ pieces, feed ∉ line) :
    (pieces.flatMap (· ++ [feed])).splitOnP (· = feed) = pieces ++ [[]] := by
  induction pieces with
  | nil => simp
  | cons line pieces ih =>
      have first : ∀ item ∈ line, decide (item = feed) = false := by
        intro item member
        have apart : item ≠ feed := fun same => free line (by simp) (by rw [← same]; exact member)
        simpa using apart
      have others := ih fun other member => free other (by simp [member])
      rw [List.flatMap_cons, List.append_assoc, List.singleton_append,
        List.splitOnP_append_cons_of_forall_mem first feed (by simp), others, List.cons_append]

theorem splitLines_ended {pieces : List (List α)} (free : ∀ line ∈ pieces, feed ∉ line)
    (bare : ∀ line ∈ pieces, line.getLast? ≠ some ret) :
    splitLines feed ret (pieces.flatMap (· ++ [feed])) = pieces := by
  have kept : pieces.map (dropEnd ret) = pieces := by
    apply List.map_congr_left _ |>.trans (List.map_id _)
    intro line member
    rw [dropEnd, if_neg (bare line member)]
    rfl
  simp [splitLines, splitOnP_ended free, kept]

end

/-- The bytes of a text in UTF-8. -/
def encode (text : List Char) : List UInt8 := text.flatMap String.utf8EncodeChar

theorem toUTF8_ofList (text : List Char) :
    (String.ofList text).toUTF8.data.toList = encode text := by
  simp [String.toUTF8, List.utf8Encode, encode]

theorem decode?_encode (text : List Char) : decode? (encode text) = some text := by
  have whole : (⟨(encode text).toArray⟩ : ByteArray) = text.utf8Encode := by
    apply ByteArray.ext
    simp [List.utf8Encode, encode]
  rw [decode?, whole, List.utf8Decode?_utf8Encode]
  rfl

theorem utf8EncodeChar_ascii {c : Char} (ascii : c.toNat < 128) :
    String.utf8EncodeChar c = [UInt8.ofNat c.toNat] :=
  String.utf8EncodeChar_eq_singleton (Char.utf8Size_eq_one_iff.mpr (by
    rw [UInt32.le_iff_toNat_le]
    exact Nat.le_of_lt_succ ascii))

theorem le_of_mem_utf8EncodeChar {c : Char} {byte : UInt8} (high : 128 ≤ c.toNat)
    (member : byte ∈ String.utf8EncodeChar c) : 128 ≤ byte.toNat := by
  have large : ¬ c.val.toNat ≤ 127 := Nat.not_le.mpr high
  simp only [String.utf8EncodeChar, large, ↓reduceIte] at member
  split at member
  · simp only [List.mem_cons, List.not_mem_nil, or_false] at member
    rcases member with rfl | rfl <;> rw [UInt8.toNat_ofNat'] <;> omega
  · split at member
    · simp only [List.mem_cons, List.not_mem_nil, or_false] at member
      rcases member with rfl | rfl | rfl <;> rw [UInt8.toNat_ofNat'] <;> omega
    · simp only [List.mem_cons, List.not_mem_nil, or_false] at member
      rcases member with rfl | rfl | rfl | rfl <;> rw [UInt8.toNat_ofNat'] <;> omega

/-- A byte below 128 stands for itself and is part of no other character. -/
theorem mem_utf8EncodeChar_iff {mark c : Char} (ascii : mark.toNat < 128) :
    UInt8.ofNat mark.toNat ∈ String.utf8EncodeChar c ↔ c = mark := by
  have value : (UInt8.ofNat mark.toNat).toNat = mark.toNat := by
    rw [UInt8.toNat_ofNat']
    omega
  constructor
  · intro member
    have low : c.toNat < 128 := by
      apply Nat.lt_of_not_le
      intro high
      have byte := le_of_mem_utf8EncodeChar high member
      omega
    rw [utf8EncodeChar_ascii low, List.mem_singleton, ← UInt8.toNat_inj, value,
      UInt8.toNat_ofNat', Nat.mod_eq_of_lt (by omega)] at member
    exact Char.toNat_inj.mp member.symm
  · intro same
    rw [same, utf8EncodeChar_ascii ascii]
    simp

/-- The bytes of a text split at a byte below 128 as the text does at its character. -/
theorem splitOnP_encode (mark : Char) (ascii : mark.toNat < 128) (text : List Char) :
    (encode text).splitOnP (· = UInt8.ofNat mark.toNat) =
      (text.splitOnP (· = mark)).map encode := by
  induction text with
  | nil => rfl
  | cons c rest ih =>
      rw [List.splitOnP_cons_eq_if_modifyHead, encode, List.flatMap_cons]
      by_cases same : c = mark
      · have alone : String.utf8EncodeChar c = [UInt8.ofNat mark.toNat] := by
          rw [same, utf8EncodeChar_ascii ascii]
        rw [alone, List.singleton_append, List.splitOnP_cons_eq_if_modifyHead]
        simp only [same, decide_true, ↓reduceIte, List.map_cons]
        exact congrArg _ ih
      · have free : ∀ byte ∈ String.utf8EncodeChar c,
            decide (byte = UInt8.ofNat mark.toNat) = false := by
          intro byte member
          have apart : byte ≠ UInt8.ofNat mark.toNat := by
            intro equal
            rw [equal] at member
            exact same ((mem_utf8EncodeChar_iff ascii).mp member)
          simpa using apart
        change (rest.flatMap String.utf8EncodeChar).splitOnP _ = _ at ih
        rw [splitOnP_append_left free, ih]
        simp only [same, decide_false, Bool.false_eq_true, ↓reduceIte]
        cases rest.splitOnP (· = mark) <;> simp [encode]

theorem dropEnd_encode (mark : Char) (ascii : mark.toNat < 128) (line : List Char) :
    dropEnd (UInt8.ofNat mark.toNat) (encode line) = encode (dropEnd mark line) := by
  rcases List.eq_nil_or_concat line with empty | ⟨start, c, split⟩
  · rw [empty]
    rfl
  · have bytes : encode line = encode start ++ String.utf8EncodeChar c := by
      rw [split, encode, List.concat_eq_append, List.flatMap_append, List.flatMap_singleton]
      rfl
    by_cases same : c = mark
    · have alone : String.utf8EncodeChar c = [UInt8.ofNat mark.toNat] := by
        rw [same, utf8EncodeChar_ascii ascii]
      rw [bytes, alone, split, same]
      simp [dropEnd]
    · have other : (encode line).getLast? ≠ some (UInt8.ofNat mark.toNat) := by
        intro last
        have final := List.getLast?_eq_some_getLast (String.utf8EncodeChar_ne_nil (c := c))
        rw [bytes, List.getLast?_append, final, Option.some_or] at last
        rw [last] at final
        exact same ((mem_utf8EncodeChar_iff ascii).mp (List.mem_of_getLast? final))
      have kept : line.getLast? ≠ some mark := by
        rw [split, List.concat_eq_append, List.getLast?_concat]
        simpa using same
      rw [dropEnd, if_neg other, dropEnd, if_neg kept]

theorem byteLines_encode (text : List Char) :
    byteLines (encode text) = (lines text).map encode := by
  have split := splitOnP_encode '\n' (by decide) text
  have ended := dropEnd_encode '\r' (by decide)
  simp only [byteLines, lines, splitLines]
  change (encode text).splitOnP (· = 10) = _ at split
  change ∀ line, dropEnd 13 (encode line) = _ at ended
  rw [split, ← List.map_dropLast, List.map_map, List.getLast?_map]
  have same : dropEnd 13 ∘ encode = encode ∘ dropEnd '\r' := funext ended
  rw [same]
  cases (text.splitOnP (· = '\n')).getLast? with
  | none => simp
  | some rest =>
      have empty : (encode rest).isEmpty = rest.isEmpty := by
        cases rest with
        | nil => rfl
        | cons c rest => simp [encode, String.utf8EncodeChar_ne_nil]
      simp only [Option.map_some, empty]
      split <;> simp

/-- The lines of a text are the lines of its bytes. -/
theorem decode?_byteLines_encode (text : List Char) :
    (byteLines (encode text)).map decode? = (lines text).map some := by
  rw [byteLines_encode, List.map_map]
  exact List.map_congr_left fun line _ => decode?_encode line

/-- A non-empty run of characters without a blank. -/
def Solid (field : List Char) : Prop := field ≠ [] ∧ ∀ c ∈ field, isBlank c = false

theorem solid_of_all {field : List Char} (occupied : field ≠ [])
    (visible : field.all (!isBlank ·) = true) : Solid field :=
  ⟨occupied, by simpa using visible⟩

theorem fields_spaced {spaced : List (List Char)} {last : List Char}
    (solid : ∀ field ∈ spaced, Solid field) (lastSolid : Solid last) :
    fields (spaced.flatMap (· ++ [' ']) ++ last) = spaced ++ [last] := by
  induction spaced with
  | nil =>
      rw [List.flatMap_nil, List.nil_append, fields, List.splitOnP_eq_singleton lastSolid.2]
      simp [lastSolid.1]
  | cons field spaced ih =>
      have first := solid field (by simp)
      have others := ih fun other member => solid other (by simp [member])
      rw [fields] at others
      rw [fields, List.flatMap_cons, List.append_assoc, List.append_assoc, List.singleton_append,
        List.splitOnP_append_cons_of_forall_mem first.2 ' ' (by decide), List.filter_cons, others]
      simp [first.1]

theorem toNat_of_isDigit {c : Char} (digit : c.isDigit) : 48 ≤ c.toNat ∧ c.toNat ≤ 57 := by
  simpa [Char.isDigit, UInt32.le_iff_toNat_le] using digit

theorem isBlank_of_isDigit {c : Char} (digit : c.isDigit) : isBlank c = false := by
  have range := toNat_of_isDigit digit
  simp [isBlank, blankRanges]
  omega

theorem isDigit_of_mem_toDigits {c : Char} {value : Nat} (member : c ∈ Nat.toDigits 10 value) :
    c.isDigit := Nat.isDigit_of_mem_toDigits (by decide) (by decide) member

theorem solid_toDigits (value : Nat) : Solid (Nat.toDigits 10 value) :=
  ⟨Nat.toDigits_ne_nil, fun _ member => isBlank_of_isDigit (isDigit_of_mem_toDigits member)⟩

theorem solid_integerText (value : Int) : Solid (integerText value) := by
  have digits := solid_toDigits value.natAbs
  unfold integerText
  split
  · refine ⟨by simp, ?_⟩
    intro c member
    rcases List.mem_cons.mp member with sign | digit
    · rw [sign]
      decide
    · exact digits.2 c digit
  · exact digits

theorem digits?_toDigits (value : Nat) : digits? (Nat.toDigits 10 value) = some value := by
  have all : (Nat.toDigits 10 value).all Char.isDigit = true := by
    rw [List.all_eq_true]
    exact fun c member => isDigit_of_mem_toDigits member
  have some : (Nat.toDigits 10 value).isEmpty = false := by
    simp [Nat.toDigits_ne_nil]
  simp [digits?, all, some, Nat.ofDigitChars_ten_toDigits]

/-- A numeral that starts with a digit has no sign. -/
theorem integer?_toDigits (value : Nat) :
    natural? (Nat.toDigits 10 value) = some value ∧
      integer? (Nat.toDigits 10 value) = some (value : Int) := by
  have whole := digits?_toDigits value
  cases digits : Nat.toDigits 10 value with
  | nil => exact absurd digits Nat.toDigits_ne_nil
  | cons first rest =>
      have digit : first.isDigit := isDigit_of_mem_toDigits (by rw [digits]; simp)
      have plus : first ≠ '+' := fun same => by rw [same] at digit; cases digit
      have minus : first ≠ '-' := fun same => by rw [same] at digit; cases digit
      rw [digits] at whole
      simp [natural?, integer?, plus, minus, whole]

theorem word64?_toDigits {value : Nat} (small : value < UInt64.size) :
    word64? (Nat.toDigits 10 value) = some value := by
  rw [word64?, (integer?_toDigits value).1]
  simp [Option.filter, small]

theorem integer?_integerText (value : Int) : integer? (integerText value) = some value := by
  unfold integerText
  split
  · have sign : -(value.natAbs : Int) = value := by omega
    simp only [integer?, digits?_toDigits]
    exact congrArg some sign
  · have sign : (value.natAbs : Int) = value := by omega
    rw [(integer?_toDigits value.natAbs).2, sign]

end UnitPropagation.Text
