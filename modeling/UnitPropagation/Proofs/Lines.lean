import UnitPropagation.Proofs.Text

namespace UnitPropagation.Text

/-! Texts line by line.

A text is empty, or one line without an end, or a line with its end and another text after it.
What is proved of texts in these three cases holds of every text. -/

section

variable {α : Type} [DecidableEq α] {feed ret mark : α} {line front : List α}

@[elab_as_elim]
theorem lineInduction (feed : α) {motive : List α → Prop} (empty : motive [])
    (last : ∀ line, line ≠ [] → feed ∉ line → motive line)
    (ended : ∀ line rest, feed ∉ line → motive rest → motive (line ++ feed :: rest))
    (text : List α) : motive text := by
  -- The induction goes through the line that has been started.
  suffices started : ∀ line, feed ∉ line → motive (line ++ text) from started [] (by simp)
  induction text with
  | nil =>
      intro line free
      rw [List.append_nil]
      by_cases none : line = []
      · rw [none]
        exact empty
      · exact last line none free
  | cons item rest ih =>
      intro line free
      by_cases same : item = feed
      · rw [same]
        exact ended line rest free (ih [] (by simp))
      · rw [List.append_cons]
        apply ih
        simpa [eq_comm, free] using same

theorem forall_mem_ne_of_free (free : feed ∉ line) :
    ∀ item ∈ line, decide (item = feed) = false := by
  intro item member
  have apart : item ≠ feed := fun same => free (same ▸ member)
  simpa using apart

@[simp] theorem splitLines_nil : splitLines feed ret [] = [] := by
  simp [splitLines]

theorem splitLines_last (occupied : line ≠ []) (free : feed ∉ line) :
    splitLines feed ret line = [line] := by
  simp [splitLines, List.splitOnP_eq_singleton (forall_mem_ne_of_free free), occupied]

theorem splitLines_append_end (free : feed ∉ line) (rest : List α) :
    splitLines feed ret (line ++ feed :: rest) = dropEnd ret line :: splitLines feed ret rest := by
  have pieces := List.splitOnP_append_cons_of_forall_mem (forall_mem_ne_of_free free) feed
    (by simp) rest
  cases others : rest.splitOnP (· = feed) with
  | nil => exact absurd others (List.splitOnP_ne_nil _ _)
  | cons piece more =>
      simp only [splitLines, pieces, others, List.dropLast_cons_cons, List.map_cons,
        List.getLast?_cons_cons]
      cases (piece :: more).getLast? with
      | none => rfl
      | some final =>
          dsimp only
          split <;> rfl

/-- Lines do not run across the start of a line. -/
theorem splitLines_append (start : front = [] ∨ front.getLast? = some feed) (back : List α) :
    splitLines feed ret (front ++ back) =
      splitLines feed ret front ++ splitLines feed ret back := by
  induction front using lineInduction feed with
  | empty => simp
  | last line occupied free =>
      rcases start with none | final
      · exact absurd none occupied
      · exact absurd (List.mem_of_getLast? final) free
  | ended line rest free ih =>
      have startRest : rest = [] ∨ rest.getLast? = some feed := by
        cases rest with
        | nil => exact .inl rfl
        | cons item more =>
            rw [List.getLast?_append, List.getLast?_cons_cons] at start
            right
            simpa [List.getLast?_cons] using start
      rw [List.append_assoc, List.cons_append, splitLines_append_end free,
        splitLines_append_end free, ih startRest, List.cons_append]

theorem dropEnd_append_mark (mark : α) (line : List α) : dropEnd mark (line ++ [mark]) = line := by
  simp [dropEnd]

theorem dropEnd_eq_or (mark : α) (line : List α) :
    dropEnd mark line = line ∨ line = dropEnd mark line ++ [mark] := by
  unfold dropEnd
  split
  · rename_i final
    obtain ⟨start, split⟩ := List.getLast?_eq_some_iff.mp final
    right
    rw [split, List.dropLast_concat]
  · exact .inl rfl

theorem head?_dropEnd {item : α} (apart : item ≠ mark) :
    (dropEnd mark line).head? = some item ↔ line.head? = some item := by
  rcases dropEnd_eq_or mark line with same | more
  · rw [same]
  · rw [more, dropEnd_append_mark]
    cases dropEnd mark line with
    | nil => simp [apart.symm]
    | cons first others => simp

/-- The lines of a text with their ends. -/
def wholeLines (feed : α) : List α → List (List α)
  | [] => []
  | item :: rest =>
      if item = feed then [item] :: wholeLines feed rest
      else
        match wholeLines feed rest with
        | [] => [[item]]
        | line :: more => (item :: line) :: more

theorem flatten_wholeLines (feed : α) (text : List α) : (wholeLines feed text).flatten = text := by
  induction text with
  | nil => rfl
  | cons item rest ih =>
      unfold wholeLines
      split
      · rw [List.flatten_cons, ih]
        rfl
      · cases whole : wholeLines feed rest with
        | nil =>
            rw [whole] at ih
            rw [← ih]
            rfl
        | cons line more =>
            rw [whole] at ih
            rw [← ih]
            rfl

theorem wholeLines_append_end (free : feed ∉ line) (rest : List α) :
    wholeLines feed (line ++ feed :: rest) = (line ++ [feed]) :: wholeLines feed rest := by
  induction line with
  | nil => simp [wholeLines]
  | cons item line ih =>
      have apart : item ≠ feed := fun same => free (by simp [same])
      rw [List.cons_append, wholeLines, if_neg apart, ih fun member => free (by simp [member])]
      rfl

theorem wholeLines_last (occupied : line ≠ []) (free : feed ∉ line) :
    wholeLines feed line = [line] := by
  induction line with
  | nil => exact absurd rfl occupied
  | cons item line ih =>
      have apart : item ≠ feed := fun same => free (by simp [same])
      rw [wholeLines, if_neg apart]
      cases line with
      | nil => rfl
      | cons next more => rw [ih (by simp) fun member => free (by simp [member])]

/-- A test that does not look at line ends selects the same lines before and after they are taken
off. -/
theorem splitLines_filter {keep : List α → Bool}
    (blind : ∀ line, feed ∉ line → keep (line ++ [feed]) = keep (dropEnd ret line))
    (text : List α) :
    splitLines feed ret ((wholeLines feed text).filter keep).flatten =
      (splitLines feed ret text).filter keep := by
  induction text using lineInduction feed with
  | empty => simp [wholeLines]
  | last line occupied free =>
      rw [wholeLines_last occupied free, splitLines_last occupied free]
      cases kept : keep line with
      | false => simp [kept]
      | true => simp [kept, splitLines_last occupied free]
  | ended line rest free ih =>
      rw [wholeLines_append_end free, splitLines_append_end free, List.filter_cons,
        List.filter_cons, blind line free]
      cases keep (dropEnd ret line) with
      | false => simpa using ih
      | true =>
          simp only [↓reduceIte, List.flatten_cons, List.append_assoc, List.singleton_append]
          rw [splitLines_append_end free, ih]

end

theorem eq_encode_of_decode? {bytes : List UInt8} {text : List Char}
    (decoded : decode? bytes = some text) : bytes = encode text := by
  obtain ⟨chars, found, same⟩ := Option.map_eq_some_iff.mp decoded
  have valid : (ByteArray.utf8Decode? ⟨bytes.toArray⟩).isSome := by simp [found]
  have back := ByteArray.utf8Encode_get_utf8Decode? (b := ⟨bytes.toArray⟩) (h := valid)
  simp only [found, Option.get_some, same] at back
  rw [← toUTF8_ofList, String.toUTF8, String.toByteArray_ofList, back]

/-- A line end that comes late changes no field. -/
theorem fields_dropEnd (line : List Char) : fields (dropEnd '\r' line) = fields line := by
  rcases dropEnd_eq_or '\r' line with same | more
  · rw [same]
  · rw [more, dropEnd_append_mark, fields, fields, List.splitOnP_append_cons _ _ (by decide)]
    simp

end UnitPropagation.Text
