import Signatures.Proofs.Text.Lines
import Signatures.Proofs.Text.Parts

/-!
# Where the lines of a text are

A text has one line more than line feeds. The line index gives the bytes of each of them: from behind the
line feed before it up to its own line feed, or to the end of the text.
-/

namespace Signatures

open Text

namespace Text

theorem exists_firstLine (cs : List Char) :
    ∃ body after, cs = body ++ after ∧ '\n' ∉ body ∧ ∀ c ∈ after.head?, c = '\n' := by
  refine ⟨cs.takeWhile (· ≠ '\n'), cs.dropWhile (· ≠ '\n'), ?_, ?_, ?_⟩
  · rw [List.takeWhile_append_dropWhile]
  · intro hmem
    have hne := List.all_eq_true.mp List.all_takeWhile _ hmem
    simp at hne
  · intro c hc
    simpa using head?_dropWhile c hc

/-- A text is cut at one of its lines: there are the lines before it, the text of the line, and what comes
after it, from the line feed that ends it on. -/
structure IsLine (source before body after : List Char) : Prop where
  source_eq : source = before ++ (body ++ after)
  endsLine : EndsLine before
  no_feed : '\n' ∉ body
  feed_after : ∀ c ∈ after.head?, c = '\n'

theorem exists_isLine_first (source : List Char) : ∃ body after, IsLine source [] body after := by
  rcases exists_firstLine source with ⟨body, after, hsource, hbody, hafter⟩
  exact ⟨body, after, hsource, nofun, hbody, hafter⟩

namespace IsLine

variable {source before body after : List Char}

theorem byteSize_source (h : IsLine source before body after) :
    byteSize source = byteSize before + (byteSize body + byteSize after) := by
  rw [h.source_eq, byteSize_append, byteSize_append]

theorem count_source (h : IsLine source before body after) :
    source.count '\n' = before.count '\n' + after.count '\n' := by
  rw [h.source_eq, List.count_append, List.count_append, List.count_eq_zero_of_not_mem h.no_feed, Nat.zero_add]

theorem exists_next {rest : List Char} (h : IsLine source before body ('\n' :: rest)) :
    ∃ body' after', IsLine source (before ++ (body ++ ['\n'])) body' after' ∧ rest = body' ++ after' := by
  rcases exists_firstLine rest with ⟨body', after', hrest, hbody', hafter'⟩
  refine ⟨body', after', ⟨?_, ?_, hbody', hafter'⟩, hrest⟩
  · rw [h.source_eq, hrest]
    simp
  · intro c hc
    rw [List.getLast?_append, List.getLast?_append] at hc
    simpa [eq_comm] using hc

theorem count_before_next {rest : List Char} (h : IsLine source before body ('\n' :: rest)) :
    (before ++ (body ++ ['\n'])).count '\n' = before.count '\n' + 1 := by
  rw [List.count_append, List.count_append, List.count_eq_zero_of_not_mem h.no_feed, Nat.zero_add,
    List.count_singleton_self]

theorem byteSize_before_next (before body : List Char) :
    byteSize (before ++ (body ++ ['\n'])) = byteSize before + byteSize body + 1 := by
  rw [byteSize_append, byteSize_append, Nat.add_assoc]
  rfl

/-- What holds of the last line, and of a line where it holds of the next one, holds of every line. -/
@[elab_as_elim]
theorem rec_next {motive : ∀ before body after : List Char, IsLine source before body after → Prop}
    (last : ∀ before body h, motive before body [] h)
    (next : ∀ before body body' after' h hnext, motive (before ++ (body ++ ['\n'])) body' after' hnext →
      motive before body ('\n' :: (body' ++ after')) h)
    (h : IsLine source before body after) : motive before body after h := by
  induction hlength : after.length using Nat.strongRecOn generalizing before body after with
  | ind length ih =>
    cases after with
    | nil => exact last before body h
    | cons c rest =>
      cases h.feed_after c rfl
      rcases h.exists_next with ⟨body', after', hnext, rfl⟩
      have hshorter : after'.length < length := by
        rw [← hlength, List.length_cons, List.length_append]
        omega
      exact next before body body' after' h hnext (ih after'.length hshorter hnext rfl)

end IsLine

theorem exists_isLine {source : List Char} {count : Nat} (h : count ≤ source.count '\n') :
    ∃ before body after, IsLine source before body after ∧ before.count '\n' = count := by
  induction count with
  | zero =>
    rcases exists_isLine_first source with ⟨body, after, hline⟩
    exact ⟨[], body, after, hline, rfl⟩
  | succ count ih =>
    rcases ih (Nat.le_of_succ_le h) with ⟨before, body, after, hline, hcount⟩
    rw [hline.count_source, hcount] at h
    cases after with
    | nil => exact absurd h (Nat.not_succ_le_self count)
    | cons c rest =>
      cases hline.feed_after c rfl
      rcases hline.exists_next with ⟨body', after', hnext, -⟩
      exact ⟨_, body', after', hnext, by rw [hline.count_before_next, hcount]⟩

theorem exists_lastLine (cs : List Char) :
    ∃ before body, cs = before ++ body ∧ EndsLine before ∧ '\n' ∉ body := by
  rcases exists_isLine (Nat.le_refl (cs.count '\n')) with ⟨before, body, after, hline, hcount⟩
  have hsource := hline.count_source
  cases after with
  | nil =>
    have hcs := hline.source_eq
    rw [List.append_nil] at hcs
    exact ⟨before, body, hcs, hline.endsLine, hline.no_feed⟩
  | cons c after =>
    cases hline.feed_after c rfl
    rw [List.count_cons_self] at hsource
    omega

end Text

namespace LineIndex

theorem getLast?_starts {before : List Char} (h : EndsLine before) :
    (0 :: laterStarts 0 before).getLast? = some (byteSize before) := by
  rcases List.eq_nil_or_concat before with rfl | ⟨body, c, rfl⟩
  · rfl
  · cases h c (by simp)
    have hfeed : laterStarts (byteSize body) ['\n'] = [byteSize body + 1] := rfl
    have hsize : byteSize ['\n'] = 1 := rfl
    rw [List.concat_eq_append, laterStarts_append, Nat.zero_add, hfeed, ← List.cons_append,
      List.getLast?_append, byteSize_append, hsize]
    rfl

/-- The column of an offset on a line counts its bytes from the start of the line. -/
theorem position_of_line {before body after : List Char} {offset : Nat} (hends : EndsLine before)
    (hbody : '\n' ∉ body) (hstart : byteSize before ≤ offset)
    (hstop : offset ≤ byteSize before + byteSize body) :
    (ofText (before ++ (body ++ after))).position offset =
      ⟨before.count '\n' + 1, offset - byteSize before + 1⟩ := by
  rw [position, takeWhile_starts hbody hstart hstop, List.getLastD_eq_getLast?, getLast?_starts hends,
    List.length_cons, length_laterStarts, Option.getD_some]

theorem line_position_byteSize (cs ds : List Char) :
    ((ofText (cs ++ ds)).position (byteSize cs)).line = cs.count '\n' + 1 := by
  rcases exists_lastLine cs with ⟨before, body, rfl, -, hbody⟩
  have hsize := byteSize_append before body
  rw [List.append_assoc, position_line hbody (by omega) (by omega), List.count_append,
    List.count_eq_zero_of_not_mem hbody, Nat.add_zero]

theorem range?_line {before body after : List Char} (hends : EndsLine before) (hbody : '\n' ∉ body)
    (hafter : ∀ c ∈ after.head?, c = '\n') :
    (ofText (before ++ (body ++ after))).range? (before.count '\n' + 1) =
      some (byteSize before, after.head?.map fun _ => byteSize before + byteSize body) := by
  have hlength : (0 :: laterStarts 0 before).length = before.count '\n' + 1 := by
    rw [List.length_cons, length_laterStarts]
  have hstart : (ofText (before ++ (body ++ after))).starts[before.count '\n']? =
      some (byteSize before) := by
    have hlast := getLast?_starts hends
    rw [List.getLast?_eq_getElem?, hlength] at hlast
    rw [starts_ofText after hbody, List.getElem?_append_left (by omega)]
    exact hlast
  have hnext : (ofText (before ++ (body ++ after))).starts[before.count '\n' + 1]? =
      after.head?.map fun _ => byteSize before + byteSize body + 1 := by
    rw [starts_ofText after hbody, List.getElem?_append_right (by omega), hlength, Nat.sub_self]
    cases after with
    | nil => rfl
    | cons c after =>
      cases hafter c rfl
      rfl
  rw [range?, if_neg (Nat.succ_ne_zero _), Nat.add_sub_cancel, hstart, hnext]
  cases after <;> rfl

section IsLine

variable {source before body after : List Char}

theorem position_of_isLine {offset : Nat} (h : IsLine source before body after)
    (hstart : byteSize before ≤ offset) (hstop : offset ≤ byteSize before + byteSize body) :
    (ofText source).position offset = ⟨before.count '\n' + 1, offset - byteSize before + 1⟩ := by
  rw [h.source_eq, position_of_line h.endsLine h.no_feed hstart hstop]

theorem range?_of_isLine (h : IsLine source before body after) :
    (ofText source).range? (before.count '\n' + 1) =
      some (byteSize before, after.head?.map fun _ => byteSize before + byteSize body) := by
  rw [h.source_eq, range?_line h.endsLine h.no_feed h.feed_after]

end IsLine

theorem length_starts (source : List Char) : (ofText source).starts.length = source.count '\n' + 1 := by
  rw [ofText, List.length_cons, length_laterStarts]

theorem getLast?_takeWhile_starts (source : List Char) (offset : Nat) :
    ∃ start, ((ofText source).starts.takeWhile (· ≤ offset)).getLast? = some start ∧ start ≤ offset := by
  obtain ⟨start, hstart⟩ : ∃ start,
      ((ofText source).starts.takeWhile (· ≤ offset)).getLast? = some start := by
    rw [ofText, List.takeWhile_cons_of_pos (by simp), List.getLast?_cons]
    exact ⟨_, rfl⟩
  refine ⟨start, hstart, ?_⟩
  have hall := List.all_eq_true.mp List.all_takeWhile start (List.mem_of_getLast? hstart)
  simpa using hall

theorem position_line_bounds (source : List Char) (offset : Nat) :
    1 ≤ ((ofText source).position offset).line ∧
      ((ofText source).position offset).line ≤ source.count '\n' + 1 := by
  constructor
  · rw [position, ofText, List.takeWhile_cons_of_pos (by simp)]
    exact Nat.succ_pos _
  · rw [← length_starts, position]
    exact (List.takeWhile_prefix _).length_le

theorem slice?_line (before body after : List Char) :
    slice? (before ++ (body ++ after)) (byteSize before)
      (((after.head?.map fun _ => byteSize before + byteSize body).map
        (min · (byteSize (before ++ (body ++ after))))).getD (byteSize (before ++ (body ++ after)))) =
      some body := by
  have hstop : ((after.head?.map fun _ => byteSize before + byteSize body).map
      (min · (byteSize (before ++ (body ++ after))))).getD (byteSize (before ++ (body ++ after))) =
        byteSize before + byteSize body := by
    cases after with
    | nil => simp
    | cons c after =>
      simp only [List.head?_cons, Option.map_some, Option.getD_some, byteSize_append]
      omega
  rw [hstop]
  exact slice?_middle before body after

/-- The lines of a text are parts of it: what the line index gives as the bytes of a line can be cut out. -/
theorem exists_slice?_of_line {source : List Char} {line : Nat} (hpos : 1 ≤ line)
    (hle : line ≤ source.count '\n' + 1) :
    ∃ start stop? body, (ofText source).range? line = some (start, stop?) ∧
      slice? source start ((stop?.map (min · (byteSize source))).getD (byteSize source)) = some body := by
  rcases exists_isLine (Nat.sub_le_of_le_add hle) with ⟨before, body, after, hline, hcount⟩
  have hnumber : before.count '\n' + 1 = line := by omega
  have hslice := slice?_line before body after
  rw [← hline.source_eq] at hslice
  exact ⟨_, _, body, hnumber ▸ range?_of_isLine hline, hslice⟩

end LineIndex

end Signatures
