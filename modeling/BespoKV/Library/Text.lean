import Mathlib.Data.List.TakeWhile

/-!
# Lines and tokens

The lines of a text as a loop around `std::getline` reads them, and `strtok_r` with one
delimiter, over any alphabet.  Tokens are the fields between delimiters that are not empty.
-/

namespace Text

variable {α : Type} [DecidableEq α]

/-! ## Lines -/

/-- The lines of a text.  A last line without a newline counts unless it is empty. -/
def lines (newline : α) : List α → List (List α)
  | [] => []
  | char :: rest =>
      if char = newline then
        [] :: lines newline rest
      else
        match lines newline rest with
        | [] => [[char]]
        | line :: more => (char :: line) :: more

variable {newline delim : α} {text rest token more : List α}

theorem lines_line {line : List α} (plain : newline ∉ line) :
    lines newline (line ++ newline :: rest) = line :: lines newline rest := by
  induction line with
  | nil => simp [lines]
  | cons char line ih =>
      rw [List.mem_cons, not_or] at plain
      simp [lines, Ne.symm plain.1, ih plain.2]

theorem lines_last {line : List α} (plain : newline ∉ line) (content : line ≠ []) :
    lines newline line = [line] := by
  induction line with
  | nil => exact absurd rfl content
  | cons char line ih =>
      rw [List.mem_cons, not_or] at plain
      rw [lines, if_neg (Ne.symm plain.1)]
      by_cases only : line = []
      · rw [only]
        rfl
      · rw [ih plain.2 only]

/-- Lines that each end with a newline, followed by one that need not. -/
theorem lines_render {whole : List (List α)} {last : List α}
    (plain : ∀ line ∈ whole, newline ∉ line) (lastPlain : newline ∉ last) :
    lines newline (whole.flatMap (fun line => line ++ [newline]) ++ last) =
      whole ++ if last = [] then [] else [last] := by
  induction whole with
  | nil =>
      by_cases empty : last = []
      · simp [empty, lines]
      · simp [empty, lines_last lastPlain empty]
  | cons line whole ih =>
      rw [List.forall_mem_cons] at plain
      rw [List.flatMap_cons, List.append_assoc, List.append_assoc, List.singleton_append,
        lines_line plain.1, ih plain.2]
      rfl

/-! ## Tokens -/

/-- `strtok_r` with one delimiter: the next token and what stands behind its delimiter. -/
def strtok (delim : α) (text : List α) : Option (List α × List α) :=
  let text := text.dropWhile (· = delim)
  if text = [] then none
  else some (text.takeWhile (· ≠ delim), (text.dropWhile (· ≠ delim)).tail)

/-- The fields between delimiters that are not empty. -/
def fields (delim : α) (text : List α) : List (List α) :=
  (text.splitOn delim).filter (· ≠ [])

/-- Delimiters in front of a token are skipped. -/
@[simp] theorem strtok_skip (text : List α) : strtok delim (delim :: text) = strtok delim text := by
  simp [strtok]

theorem strtok_field (plain : delim ∉ token) (content : token ≠ []) :
    strtok delim (token ++ delim :: rest) = some (token, rest) := by
  obtain ⟨char, token, rfl⟩ := List.exists_cons_of_ne_nil content
  have others : ∀ other ∈ char :: token, decide (other ≠ delim) = true := by
    intro other member
    exact decide_eq_true fun same => plain (same ▸ member)
  have first : (char :: token ++ delim :: rest).dropWhile (fun other => other = delim) =
      char :: token ++ delim :: rest := by
    rw [List.cons_append, List.dropWhile_cons, if_neg (by simpa using others char (by simp))]
  rw [strtok, first, if_neg (by simp), List.takeWhile_append_of_pos others,
    List.dropWhile_append_of_pos others]
  simp

theorem strtok_last (plain : delim ∉ token) (content : token ≠ []) :
    strtok delim token = some (token, []) := by
  obtain ⟨char, token, rfl⟩ := List.exists_cons_of_ne_nil content
  have others : ∀ other ∈ char :: token, decide (other ≠ delim) = true := by
    intro other member
    exact decide_eq_true fun same => plain (same ▸ member)
  have first : (char :: token).dropWhile (fun other => other = delim) = char :: token := by
    rw [List.dropWhile_cons, if_neg (by simpa using others char (by simp))]
  rw [strtok, first, if_neg (by simp), List.takeWhile_eq_self_iff.mpr others,
    List.dropWhile_eq_nil_iff.mpr others]
  rfl

/-- What a text looks like to `strtok`. -/
inductive Tokenized (delim : α) : List α → Option (List α × List α) → Prop
  | blank : Tokenized delim [] none
  | skip {text : List α} {result : Option (List α × List α)}
      (tokenized : Tokenized delim text result) : Tokenized delim (delim :: text) result
  | last {token : List α} (plain : delim ∉ token) (content : token ≠ []) :
      Tokenized delim token (some (token, []))
  | field {token rest : List α} (plain : delim ∉ token) (content : token ≠ []) :
      Tokenized delim (token ++ delim :: rest) (some (token, rest))

/-- A text without a delimiter, or what stands before the first one. -/
theorem split_at (delim : α) (text : List α) :
    delim ∉ text ∨ ∃ token rest, delim ∉ token ∧ text = token ++ delim :: rest := by
  by_cases occurs : delim ∈ text
  · obtain ⟨token, rest, split, plain⟩ := List.eq_append_cons_of_mem occurs
    exact .inr ⟨token, rest, plain, split⟩
  · exact .inl occurs

theorem strtok_tokenized (delim : α) (text : List α) :
    Tokenized delim text (strtok delim text) := by
  induction text with
  | nil => exact .blank
  | cons char text ih =>
      by_cases skipped : char = delim
      · subst skipped
        rw [strtok_skip]
        exact .skip ih
      · rcases split_at delim (char :: text) with plain | ⟨token, rest, plain, split⟩
        · rw [strtok_last plain (by simp)]
          exact .last plain (by simp)
        · have content : token ≠ [] := by
            rintro rfl
            exact skipped (List.cons.inj split).1
          rw [split, strtok_field plain content]
          exact .field plain content

/-! ### Fields -/

@[simp] theorem fields_nil : fields delim [] = [] := rfl

@[simp] theorem fields_skip (text : List α) : fields delim (delim :: text) = fields delim text := by
  simp [fields, List.splitOn, List.splitOnP_cons_eq_if_modifyHead]

theorem fields_last (plain : delim ∉ token) (content : token ≠ []) :
    fields delim token = [token] := by
  have others : ∀ other ∈ token, (other == delim) = false := by
    intro other member
    exact beq_false_of_ne fun same => plain (same ▸ member)
  rw [fields, List.splitOn, List.splitOnP_eq_singleton others]
  simp [content]

theorem fields_field (plain : delim ∉ token) (content : token ≠ []) :
    fields delim (token ++ delim :: rest) = token :: fields delim rest := by
  have others : ∀ other ∈ token, (other == delim) = false := by
    intro other member
    exact beq_false_of_ne fun same => plain (same ▸ member)
  rw [fields, List.splitOn,
    List.splitOnP_append_cons_of_forall_mem others delim (by simp)]
  simp [content, fields, List.splitOn]

/-- `strtok` takes the first field. -/
theorem Tokenized.fields {result : Option (List α × List α)}
    (tokenized : Tokenized delim text result) :
    fields delim text = result.elim [] fun found => found.1 :: Text.fields delim found.2 := by
  induction tokenized with
  | blank => rfl
  | skip _ ih => rw [fields_skip, ih]
  | last plain content => rw [fields_last plain content, Option.elim_some, fields_nil]
  | field plain content => exact fields_field plain content

theorem fields_of_some (found : strtok delim text = some (token, rest)) :
    fields delim text = token :: fields delim rest := by
  rw [(strtok_tokenized delim text).fields, found]
  rfl

/-- Going on with a text loses no field. -/
theorem fields_length_le_append (text more : List α) :
    (fields delim text).length ≤ (fields delim (text ++ more)).length := by
  induction size : text.length using Nat.strongRecOn generalizing text with
  | ind length ih =>
      subst size
      have tokenized := strtok_tokenized delim text
      generalize strtok delim text = result at tokenized
      cases tokenized with
      | blank => simp
      | @skip text result _ =>
          rw [List.cons_append, fields_skip, fields_skip]
          exact ih text.length (by simp) text rfl
      | last plain content =>
          rw [fields_last plain content]
          rcases split_at delim more with morePlain | ⟨before, rest, beforePlain, rfl⟩
          · rw [fields_last (by simp [plain, morePlain]) (by simp [content])]
            exact le_rfl
          · rw [← List.append_assoc, fields_field (by simp [plain, beforePlain])
              (by simp [content])]
            simp
      | @field token rest plain content =>
          rw [List.append_assoc, List.cons_append, fields_field plain content,
            fields_field plain content, List.length_cons, List.length_cons]
          exact Nat.succ_le_succ (ih rest.length (by simp; omega) rest rfl)

end Text
