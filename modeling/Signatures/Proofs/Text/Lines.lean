import Signatures.LineIndex
import Signatures.Text.Bytes

/-!
# Cutting into lines and counting them

A text is cut behind each of its line feeds, so the lines before one are as many as the line feeds before
it. The line index finds them by these line feeds alone: an offset at a character of a line, or at its end
before the line feed, is on the line with that number.
-/

namespace Signatures

namespace Text

/-- The text is empty or ends with a line feed, so what comes after it is on another line. -/
def EndsLine (cs : List Char) : Prop := ∀ c ∈ cs.getLast?, c = '\n'

theorem EndsLine.of_cons {c : Char} {cs : List Char} (h : EndsLine (c :: cs)) : EndsLine cs := by
  intro d hd
  apply h d
  rw [List.getLast?_cons, Option.mem_def.mp hd]
  rfl

/-- The pieces are lines: each ends with its only line feed, but the last may end without one. -/
inductive AreLines : List (List Char) → Prop where
  | nil : AreLines []
  | last {body : List Char} (hbody : '\n' ∉ body) (hne : body ≠ []) : AreLines [body]
  | cons {body : List Char} {rest : List (List Char)} (hbody : '\n' ∉ body) (hrest : AreLines rest) :
      AreLines ((body ++ ['\n']) :: rest)

theorem areLines_lines (cs : List Char) : AreLines (lines cs) := by
  induction cs with
  | nil => exact .nil
  | cons c cs ih =>
    unfold lines
    split
    · next hc =>
      rw [hc]
      exact @AreLines.cons [] _ (by simp) ih
    · next hc =>
      have hne : '\n' ≠ c := fun h => hc h.symm
      generalize lines cs = rest at ih
      cases ih with
      | nil => exact .last (by simpa using hne) (by simp)
      | last hbody => exact .last (List.not_mem_cons_of_ne_of_not_mem hne hbody) (by simp)
      | cons hbody hrest => exact .cons (List.not_mem_cons_of_ne_of_not_mem hne hbody) hrest

section AreLines

variable {before after : List (List Char)} {line : List Char}

theorem AreLines.of_append (h : AreLines (before ++ line :: after)) : AreLines (line :: after) := by
  induction before with
  | nil => exact h
  | cons first before ih =>
    generalize hrest : before ++ line :: after = rest at h ih
    rw [List.cons_append, hrest] at h
    cases h with
    | last hbody hne => simp at hrest
    | cons hbody h => exact ih h

theorem AreLines.count_flatten_and_endsLine (h : AreLines (before ++ line :: after)) :
    before.flatten.count '\n' = before.length ∧ EndsLine before.flatten := by
  induction before with
  | nil => exact ⟨rfl, nofun⟩
  | cons first before ih =>
    generalize hrest : before ++ line :: after = rest at h ih
    rw [List.cons_append, hrest] at h
    cases h with
    | last hbody hne => simp at hrest
    | cons hbody h =>
      rcases ih h with ⟨hcount, hends⟩
      constructor
      · rw [List.flatten_cons, List.count_append, List.count_append, List.count_eq_zero_of_not_mem hbody,
          hcount, List.length_cons]
        simp [Nat.add_comm]
      · intro c hc
        rw [List.flatten_cons, List.getLast?_append] at hc
        cases hlast : before.flatten.getLast? with
        | some d =>
          rw [hlast] at hc
          cases hc
          exact hends c hlast
        | none => simpa [hlast, eq_comm] using hc

end AreLines

theorem lines_of_ended {body : List Char} (h : '\n' ∉ body) (after : List Char) :
    lines (body ++ '\n' :: after) = (body ++ ['\n']) :: lines after := by
  induction body with
  | nil => rfl
  | cons c body ih =>
    have hc : c ≠ '\n' := fun heq => h (heq ▸ List.mem_cons_self)
    have hbody : '\n' ∉ body := fun hmem => h (List.mem_cons_of_mem c hmem)
    rw [List.cons_append, lines, if_neg hc, ih hbody]
    rfl

theorem lines_of_last {body : List Char} (h : '\n' ∉ body) (hne : body ≠ []) : lines body = [body] := by
  induction body with
  | nil => exact absurd rfl hne
  | cons c body ih =>
    have hc : c ≠ '\n' := fun heq => h (heq ▸ List.mem_cons_self)
    have hbody : '\n' ∉ body := fun hmem => h (List.mem_cons_of_mem c hmem)
    rw [lines, if_neg hc]
    by_cases hnil : body = []
    · rw [hnil]
      rfl
    · rw [ih hbody hnil]

/-- A text that ends its last line is cut apart from what comes after it. -/
theorem lines_append {before : List Char} (h : EndsLine before) (rest : List Char) :
    lines (before ++ rest) = lines before ++ lines rest := by
  induction before with
  | nil => rfl
  | cons c before ih =>
    have htail := ih h.of_cons
    by_cases hc : c = '\n'
    · rw [List.cons_append, lines, lines, if_pos hc, if_pos hc, htail, List.cons_append]
    · rw [List.cons_append, lines, lines, if_neg hc, if_neg hc, htail]
      cases hlines : lines before with
      | cons line more => rfl
      | nil =>
        -- Only the empty text has no lines, so `c` would end the text without a line feed.
        have hnil := flatten_lines before
        rw [hlines] at hnil
        subst hnil
        exact absurd (h c rfl) hc

theorem length_lines {before : List Char} (h : EndsLine before) :
    (lines before).length = before.count '\n' := by
  have hare := areLines_lines (before ++ ['\n'])
  rw [lines_append h] at hare
  have hcount := (AreLines.count_flatten_and_endsLine hare).1
  rw [flatten_lines] at hcount
  exact hcount.symm

end Text

namespace LineIndex

open Text

theorem laterStarts_append (offset : Nat) (cs ds : List Char) :
    laterStarts offset (cs ++ ds) = laterStarts offset cs ++ laterStarts (offset + byteSize cs) ds := by
  induction cs generalizing offset with
  | nil => simp [laterStarts]
  | cons c cs ih =>
    simp only [List.cons_append, laterStarts, ih, byteSize_cons, Nat.add_assoc]
    split <;> rfl

theorem length_laterStarts (offset : Nat) (cs : List Char) :
    (laterStarts offset cs).length = cs.count '\n' := by
  induction cs generalizing offset with
  | nil => rfl
  | cons c cs ih =>
    rw [laterStarts]
    split
    · next hc => rw [List.length_cons, ih, hc, List.count_cons_self]
    · next hc => rw [ih, List.count_cons_of_ne hc]

/-- A later line starts behind the start of the text, and not behind its end. -/
theorem bounds_of_mem_laterStarts {offset start : Nat} {cs : List Char}
    (h : start ∈ laterStarts offset cs) : offset < start ∧ start ≤ offset + byteSize cs := by
  induction cs generalizing offset with
  | nil => cases h
  | cons c cs ih =>
    have hc : 0 < c.utf8Size := c.utf8Size_pos
    have hrest : start ∈ laterStarts (offset + c.utf8Size) cs →
        offset < start ∧ start ≤ offset + byteSize (c :: cs) := fun h => by
      have hbounds := ih h
      rw [byteSize_cons]
      omega
    rw [laterStarts] at h
    split at h
    · rcases List.mem_cons.mp h with rfl | h
      · rw [byteSize_cons]
        omega
      · exact hrest h
    · exact hrest h

theorem starts_ofText {before middle : List Char} (after : List Char) (hmiddle : '\n' ∉ middle) :
    (ofText (before ++ (middle ++ after))).starts = (0 :: laterStarts 0 before) ++
      laterStarts (byteSize before + byteSize middle) after := by
  have hnone : laterStarts (byteSize before) middle = [] := by
    rw [← List.length_eq_zero_iff, length_laterStarts, List.count_eq_zero_of_not_mem hmiddle]
  rw [ofText, laterStarts_append, laterStarts_append, Nat.zero_add, hnone, List.nil_append,
    List.cons_append]

/-- Up to an offset in a part of a text without line feeds, its end included, start the lines that start
before that part. -/
theorem takeWhile_starts {before middle after : List Char} {offset : Nat} (hmiddle : '\n' ∉ middle)
    (hstart : byteSize before ≤ offset) (hstop : offset ≤ byteSize before + byteSize middle) :
    (ofText (before ++ (middle ++ after))).starts.takeWhile (· ≤ offset) = 0 :: laterStarts 0 before := by
  have hbefore : ∀ start ∈ 0 :: laterStarts 0 before, decide (start ≤ offset) = true := by
    intro start hmem
    rw [decide_eq_true_iff]
    rcases List.mem_cons.mp hmem with rfl | hmem
    · exact Nat.zero_le offset
    · have hbounds := bounds_of_mem_laterStarts hmem
      omega
  have hafter : (laterStarts (byteSize before + byteSize middle) after).takeWhile (· ≤ offset) = [] := by
    cases hlater : laterStarts (byteSize before + byteSize middle) after with
    | nil => rfl
    | cons start rest =>
      have hbounds := bounds_of_mem_laterStarts (hlater ▸ List.mem_cons_self)
      exact List.takeWhile_cons_of_neg (by simpa using Nat.lt_of_le_of_lt hstop hbounds.1)
  rw [starts_ofText after hmiddle, List.takeWhile_append_of_pos hbefore, hafter, List.append_nil]

/-- An offset in a part of a text without line feeds, its end included, is on the line whose number is
one more than the line feeds before that part. -/
theorem position_line {before middle after : List Char} {offset : Nat} (hmiddle : '\n' ∉ middle)
    (hstart : byteSize before ≤ offset) (hstop : offset ≤ byteSize before + byteSize middle) :
    ((ofText (before ++ (middle ++ after))).position offset).line = before.count '\n' + 1 := by
  rw [position, takeWhile_starts hmiddle hstart hstop, List.length_cons, length_laterStarts]

end LineIndex

end Signatures
