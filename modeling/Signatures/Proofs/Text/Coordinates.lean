import Mathlib.Data.List.TakeWhile
import Signatures.Proofs.Text.LineBytes

/-!
# The coordinates of a text

The line index of a text is an exact coordinate system for its bytes. Positions are in the order of the
offsets, a search for an offset among the starts of the lines tells its position, and the range of its line
leads back to it. The ranges of the lines, each with the byte of its line feed, tile the text.
-/

namespace Signatures

open Text

/-- A position comes before another one: it is on an earlier line, or on the same line in an earlier
column. -/
def Position.Before (p q : Position) : Prop := p.line < q.line ∨ p.line = q.line ∧ p.column < q.column

theorem Position.Before.ne {p q : Position} (h : p.Before q) : p ≠ q := by
  rintro rfl
  rcases h with hline | ⟨-, hcolumn⟩
  · exact Nat.lt_irrefl _ hline
  · exact Nat.lt_irrefl _ hcolumn

namespace LineIndex

section Order

variable (source : List Char)

theorem pairwise_starts : (ofText source).starts.Pairwise (· < ·) := by
  have hlater (offset : Nat) (cs : List Char) : (laterStarts offset cs).Pairwise (· < ·) := by
    induction cs generalizing offset with
    | nil => exact .nil
    | cons c cs ih =>
      rw [laterStarts]
      split
      · exact .cons (fun start hmem => (bounds_of_mem_laterStarts hmem).1) (ih _)
      · exact ih _
  exact .cons (fun start hmem => (bounds_of_mem_laterStarts hmem).1) (hlater 0 source)

theorem position_before {first second : Nat} (h : first < second) :
    ((ofText source).position first).Before ((ofText source).position second) := by
  -- The lines that start up to the first offset are a leading part of those that do up to the second.
  have hboth (start : Nat) : decide (start ≤ first ∧ start ≤ second) = decide (start ≤ first) := by
    rw [decide_eq_decide]
    omega
  have htwice := List.takeWhile_takeWhile (· ≤ first) (· ≤ second) (ofText source).starts
  simp only [decide_eq_true_eq, hboth] at htwice
  obtain ⟨rest, hrest⟩ : (ofText source).starts.takeWhile (· ≤ first) <+:
      (ofText source).starts.takeWhile (· ≤ second) := htwice ▸ List.takeWhile_prefix _
  rcases getLast?_takeWhile_starts source first with ⟨start, hlast, hle⟩
  cases rest with
  | nil =>
    rw [List.append_nil] at hrest
    right
    constructor
    · rw [position, position, hrest]
    · simp only [position, ← hrest, List.getLastD_eq_getLast?, hlast, Option.getD_some]
      omega
  | cons next rest =>
    left
    simp only [position, ← hrest, List.length_append, List.length_cons]
    omega

variable {source}

/-- Different offsets have different positions. -/
theorem eq_of_position_eq {first second : Nat}
    (h : (ofText source).position first = (ofText source).position second) : first = second := by
  rcases Nat.lt_trichotomy first second with hlt | heq | hlt
  · exact absurd h (position_before source hlt).ne
  · exact heq
  · exact absurd h.symm (position_before source hlt).ne

end Order

/-- What a search for an offset among the starts of lines can tell: the index of the line that starts there,
or the index at which a line that starts there would come. -/
inductive Search (starts : List Nat) (offset : Nat) : Except Nat Nat → Prop where
  | found {i : Nat} (h : starts[i]? = some offset) : Search starts offset (.ok i)
  | between {i : Nat} (hle : i ≤ starts.length)
      (hbefore : ∀ j start, starts[j]? = some start → j < i → start < offset)
      (hafter : ∀ j start, starts[j]? = some start → i ≤ j → offset < start) :
      Search starts offset (.error i)

/-- The index of the line that an offset is on, by the result of a search for it. -/
def lineFound : Except Nat Nat → Nat
  | .ok i => i
  | .error i => i - 1

/-- A search for an offset by halving, among `count` starts of lines from the one with index `low` on. -/
def bisect (starts : List Nat) (offset low count : Nat) : Except Nat Nat :=
  if count = 0 then .error low
  else
    let middle := low + count / 2
    let start := starts.getD middle 0
    if start < offset then bisect starts offset (middle + 1) (count - count / 2 - 1)
    else if offset < start then bisect starts offset low (count / 2)
    else .ok middle
termination_by count
decreasing_by all_goals omega

section Search

variable {starts : List Nat} {offset : Nat}

theorem lt_of_index_lt {i j first second : Nat} (hsorted : starts.Pairwise (· < ·))
    (hfirst : starts[i]? = some first) (hsecond : starts[j]? = some second) (h : i < j) : first < second := by
  rcases List.getElem?_eq_some_iff.mp hfirst with ⟨hi, rfl⟩
  rcases List.getElem?_eq_some_iff.mp hsecond with ⟨hj, rfl⟩
  exact List.pairwise_iff_getElem.mp hsorted i j hi hj h

/-- Halving finds an offset, or where it would come, if all starts that it leaves out are on their side of
the offset. -/
theorem search_bisect {low count : Nat} (hsorted : starts.Pairwise (· < ·)) (hle : low + count ≤ starts.length)
    (hbefore : ∀ j start, starts[j]? = some start → j < low → start < offset)
    (hafter : ∀ j start, starts[j]? = some start → low + count ≤ j → offset < start) :
    Search starts offset (bisect starts offset low count) := by
  have hget (i : Nat) (h : i < starts.length) : starts[i]? = some (starts.getD i 0) := by
    rw [List.getElem?_eq_getElem h, List.getElem_eq_getD]
  fun_induction bisect starts offset low count with
  | case1 low => exact .between hle hbefore hafter
  | case2 low count hcount middle start hlt ih =>
    have hmiddle : starts[middle]? = some start := hget middle (by omega)
    apply ih (by omega)
    · intro j other hj hindex
      rcases Nat.lt_or_eq_of_le (Nat.le_of_lt_succ hindex) with h | rfl
      · exact Nat.lt_trans (lt_of_index_lt hsorted hj hmiddle h) hlt
      · cases hmiddle.symm.trans hj
        exact hlt
    · intro j other hj hindex
      exact hafter j other hj (by omega)
  | case3 low count hcount middle start hnlt hgt ih =>
    have hmiddle : starts[middle]? = some start := hget middle (by omega)
    apply ih (by omega) hbefore
    intro j other hj hindex
    rcases Nat.lt_or_eq_of_le hindex with h | rfl
    · exact Nat.lt_trans hgt (lt_of_index_lt hsorted hmiddle hj h)
    · cases hmiddle.symm.trans hj
      exact hgt
  | case4 low count hcount middle start hnlt hngt =>
    have heq : start = offset := by omega
    exact .found (heq ▸ hget middle (by omega))

/-- The line that a search tells is the last one that does not start behind the offset. -/
theorem Search.sides {result : Except Nat Nat} (h : Search starts offset result)
    (hsorted : starts.Pairwise (· < ·)) (hzero : starts[0]? = some 0) :
    lineFound result < starts.length ∧
      (∀ j start, starts[j]? = some start → j ≤ lineFound result → start ≤ offset) ∧
      ∀ j start, starts[j]? = some start → lineFound result < j → offset < start := by
  cases h with
  | @found i hi =>
    refine ⟨(List.getElem?_eq_some_iff.mp hi).1, ?_, ?_⟩
    · intro j start hj hindex
      rcases Nat.lt_or_eq_of_le hindex with h | rfl
      · exact Nat.le_of_lt (lt_of_index_lt hsorted hj hi h)
      · cases hi.symm.trans hj
        exact Nat.le_refl offset
    · intro j start hj hindex
      exact lt_of_index_lt hsorted hi hj hindex
  | @between i hle hbefore hafter =>
    -- The first line starts at zero, so no line would come before it.
    have hpos : i ≠ 0 := by
      rintro rfl
      exact absurd (hafter 0 0 hzero (Nat.le_refl 0)) (Nat.not_lt_zero offset)
    refine ⟨?_, ?_, ?_⟩
    · rw [lineFound]
      omega
    · intro j start hj hindex
      rw [lineFound] at hindex
      exact Nat.le_of_lt (hbefore j start hj (by omega))
    · intro j start hj hindex
      rw [lineFound] at hindex
      exact hafter j start hj (by omega)

theorem takeWhile_le_eq_take {i : Nat} (hbefore : ∀ j start, starts[j]? = some start → j < i → start ≤ offset)
    (hafter : ∀ j start, starts[j]? = some start → i ≤ j → offset < start) :
    starts.takeWhile (· ≤ offset) = starts.take i := by
  have htake : ∀ start ∈ starts.take i, decide (start ≤ offset) = true := by
    intro start hmem
    rcases List.mem_iff_getElem?.mp hmem with ⟨j, hj⟩
    rw [List.getElem?_take] at hj
    split at hj
    · next hindex => exact decide_eq_true (hbefore j start hj hindex)
    · cases hj
  have hdrop : ∀ start ∈ (starts.drop i).head?, decide (start ≤ offset) = false := by
    intro start hmem
    rw [List.head?_drop] at hmem
    exact decide_eq_false (Nat.not_le.mpr (hafter i start hmem (Nat.le_refl i)))
  have hsplit := takeWhile_append_of_head htake hdrop
  rwa [List.take_append_drop] at hsplit

/-- A search for an offset among the starts of the lines tells its position. -/
theorem position_of_search {source : List Char} {result : Except Nat Nat}
    (h : Search (ofText source).starts offset result) :
    ∃ start, (ofText source).starts[lineFound result]? = some start ∧
      (ofText source).position offset = ⟨lineFound result + 1, offset - start + 1⟩ := by
  rcases h.sides (pairwise_starts source) rfl with ⟨hlt, hbefore, hafter⟩
  have htake : (ofText source).starts.takeWhile (· ≤ offset) =
      (ofText source).starts.take (lineFound result + 1) :=
    takeWhile_le_eq_take (fun j start hj hindex => hbefore j start hj (Nat.le_of_lt_succ hindex)) hafter
  have hlength : ((ofText source).starts.take (lineFound result + 1)).length = lineFound result + 1 :=
    List.length_take_of_le hlt
  have hlast : ((ofText source).starts.take (lineFound result + 1)).getLast? =
      some ((ofText source).starts[lineFound result]) := by
    rw [List.getLast?_eq_getElem?, hlength, Nat.add_sub_cancel, List.getElem?_take,
      if_pos (Nat.lt_succ_self _), List.getElem?_eq_getElem hlt]
  refine ⟨_, List.getElem?_eq_getElem hlt, ?_⟩
  simp only [position, htake, hlength, List.getLastD_eq_getLast?, hlast, Option.getD_some]

theorem search_starts (source : List Char) (offset : Nat) :
    Search (ofText source).starts offset (bisect (ofText source).starts offset 0 (ofText source).starts.length) := by
  apply search_bisect (pairwise_starts source) (Nat.le_of_eq (Nat.zero_add _))
  · intro j start _ hindex
    exact absurd hindex (Nat.not_lt_zero j)
  · intro j start hj hindex
    rw [Nat.zero_add] at hindex
    exact absurd (List.getElem?_eq_some_iff.mp hj).1 (Nat.not_lt.mpr hindex)

end Search

/-- Ranges of offsets, one after the other from `start` to `stop`: each begins where the one before it
ends. -/
def Tiles (start : Nat) (ranges : List (Nat × Nat)) (stop : Nat) : Prop :=
  match ranges with
  | [] => start = stop
  | range :: ranges => range.1 = start ∧ range.1 ≤ range.2 ∧ Tiles range.2 ranges stop

/-- The byte offsets at which a line starts and ends with its line feed; the last line has none, and ends
with the text, at `size`. -/
def extent? (index : LineIndex) (size line : Nat) : Option (Nat × Nat) :=
  (index.range? line).map fun (start, stop?) => (start, (stop?.map (· + 1)).getD size)

section Ranges

variable {source : List Char} {line start : Nat} {stop? : Option Nat}

theorem isSome_range?_iff :
    ((ofText source).range? line).isSome ↔ 1 ≤ line ∧ line ≤ 1 + source.count '\n' := by
  have hlength := length_starts source
  rw [range?]
  split
  · next h => simp [h]
  · next h =>
    rw [Option.isSome_map, isSome_getElem?]
    omega

theorem exists_isLine_of_range? (h : (ofText source).range? line = some (start, stop?)) :
    ∃ before body after, IsLine source before body after ∧ line = before.count '\n' + 1 ∧
      start = byteSize before ∧ stop? = after.head?.map fun _ => byteSize before + byteSize body := by
  have hbounds := isSome_range?_iff.mp (Option.isSome_of_eq_some h)
  obtain ⟨before, body, after, hline, hcount⟩ : ∃ before body after,
      IsLine source before body after ∧ before.count '\n' = line - 1 := exists_isLine (by omega)
  have hnumber : line = before.count '\n' + 1 := by omega
  rw [hnumber, range?_of_isLine hline] at h
  cases h
  exact ⟨before, body, after, hline, hnumber, rfl, rfl⟩

/-- The range of the line of an offset leads back to the offset. -/
theorem exists_range?_position {offset : Nat} (hoffset : offset ≤ byteSize source) : ∃ start stop?,
    (ofText source).range? ((ofText source).position offset).line = some (start, stop?) ∧
      start + ((ofText source).position offset).column - 1 = offset ∧ ∀ stop ∈ stop?, offset ≤ stop := by
  rcases exists_isLine_of_offset hoffset with ⟨before, body, after, hline, hstart, hstop⟩
  rw [position_of_isLine hline hstart hstop]
  refine ⟨_, _, range?_of_isLine hline, by dsimp only; omega, ?_⟩
  intro stop hmem
  rcases Option.map_eq_some_iff.mp hmem with ⟨-, -, rfl⟩
  exact hstop

/-- From one line on, the lines with their line feeds tile the rest of a text. -/
theorem tiles_of_isLine {before body after : List Char} (h : IsLine source before body after) :
    Tiles (byteSize before) ((List.range' (before.count '\n' + 1) (after.count '\n' + 1)).filterMap
      ((ofText source).extent? (byteSize source))) (byteSize source) := by
  induction h using IsLine.rec_next with
  | last before body h =>
    have hextent : (ofText source).extent? (byteSize source) (before.count '\n' + 1) =
        some (byteSize before, byteSize source) := by
      rw [extent?, range?_of_isLine h]
      rfl
    have hsize := h.byteSize_source
    rw [List.count_nil, List.range'_one, List.filterMap_cons_some hextent, List.filterMap_nil]
    exact ⟨rfl, by dsimp only; omega, rfl⟩
  | next before body body' after' h hnext ih =>
    have hextent : (ofText source).extent? (byteSize source) (before.count '\n' + 1) =
        some (byteSize before, byteSize before + byteSize body + 1) := by
      rw [extent?, range?_of_isLine h]
      rfl
    have hcount : ('\n' :: (body' ++ after')).count '\n' = after'.count '\n' + 1 := by
      rw [List.count_cons_self, List.count_append, List.count_eq_zero_of_not_mem hnext.no_feed, Nat.zero_add]
    rw [hcount, List.range'_succ, List.filterMap_cons_some hextent]
    rw [h.count_before_next, IsLine.byteSize_before_next] at ih
    exact ⟨rfl, by dsimp only; omega, ih⟩

theorem tiles_ofText (source : List Char) :
    Tiles 0 ((List.range' 1 (1 + source.count '\n')).filterMap ((ofText source).extent? (byteSize source)))
      (byteSize source) := by
  rcases exists_isLine_first source with ⟨body, after, hfirst⟩
  have htiles := tiles_of_isLine hfirst
  have hcount := hfirst.count_source
  rw [List.count_nil, Nat.zero_add] at hcount
  rwa [List.count_nil, Nat.zero_add, Nat.add_comm, ← hcount] at htiles

theorem feed_not_in_range (h : (ofText source).range? line = some (start, stop?)) {offset : Nat}
    (hstart : start ≤ offset) (hstop : ∀ stop ∈ stop?, offset < stop) : (bytes source)[offset]? ≠ some feed := by
  rcases exists_isLine_of_range? h with ⟨before, body, after, hline, -, rfl, rfl⟩
  intro hfeed
  rw [hline.source_eq, bytes_append, List.getElem?_append_right (by simpa), length_bytes] at hfeed
  apply hline.no_feed
  rw [← feed_mem_bytes_iff]
  cases after with
  | nil =>
    rw [List.append_nil] at hfeed
    exact List.mem_of_getElem? hfeed
  | cons c after =>
    have hlt : offset - byteSize before < (bytes body).length := by
      have hlt : offset < byteSize before + byteSize body := hstop _ rfl
      rw [length_bytes]
      omega
    rw [bytes_append, List.getElem?_append_left hlt] at hfeed
    exact List.mem_of_getElem? hfeed

theorem stop_of_range? (h : (ofText source).range? line = some (start, stop?)) :
    (stop? = none ↔ line = 1 + source.count '\n') ∧
      ∀ stop ∈ stop?, start ≤ stop ∧ (bytes source)[stop]? = some feed := by
  rcases exists_isLine_of_range? h with ⟨before, body, after, hline, rfl, rfl, rfl⟩
  have hcount := hline.count_source
  cases after with
  | nil =>
    rw [List.count_nil] at hcount
    exact ⟨iff_of_true rfl (by omega), nofun⟩
  | cons c after =>
    cases hline.feed_after c rfl
    rw [List.count_cons_self] at hcount
    refine ⟨iff_of_false nofun (by omega), ?_⟩
    intro stop hstop
    cases hstop
    refine ⟨Nat.le_add_right _ _, ?_⟩
    have hsplit : bytes source = bytes (before ++ body) ++ (feed :: bytes after) := by
      have hfeed : bytes ('\n' :: after) = feed :: bytes after := rfl
      rw [hline.source_eq, ← List.append_assoc, bytes_append, hfeed]
    rw [hsplit, List.getElem?_append_right (by simp), length_bytes, byteSize_append, Nat.sub_self]
    rfl

end Ranges

/-- Positions in a text are exact and in order. The line of an offset is one more than the line feeds before it,
and its column one more than the bytes since the last of them; any search for the offset among the starts of the
lines tells it, such as one by halving. The range of that line leads back to the offset, and a later offset has a
later position. The lines from one to one more than the line feeds have ranges. With their line feeds they tile
the text, without them they hold no line feed, and none but the last goes on to the end. -/
theorem coordinates (source : List Char) :
    let index := ofText source
    let bytes := Text.bytes source
    let size := bytes.length
    let feeds := bytes.count feed
    (∀ offset ≤ size,
      index.position offset = ⟨1 + (bytes.take offset).count feed,
        1 + ((bytes.take offset).reverse.takeWhile (· ≠ feed)).length⟩ ∧
      Search index.starts offset (bisect index.starts offset 0 index.starts.length) ∧
      (∀ result, Search index.starts offset result → ∃ start,
        index.starts[lineFound result]? = some start ∧
          index.position offset = ⟨lineFound result + 1, offset - start + 1⟩) ∧
      ∃ start stop?, index.range? (index.position offset).line = some (start, stop?) ∧
        start + (index.position offset).column - 1 = offset ∧ ∀ stop ∈ stop?, offset ≤ stop) ∧
    (∀ first second, first < second → (index.position first).Before (index.position second)) ∧
    (∀ line, (index.range? line).isSome ↔ 1 ≤ line ∧ line ≤ 1 + feeds) ∧
    Tiles 0 ((List.range' 1 (1 + feeds)).filterMap (index.extent? size)) size ∧
    ∀ line start stop?, index.range? line = some (start, stop?) →
      (∀ offset, start ≤ offset → (∀ stop ∈ stop?, offset < stop) → bytes[offset]? ≠ some feed) ∧
      (stop? = none ↔ line = 1 + feeds) ∧ ∀ stop ∈ stop?, start ≤ stop ∧ bytes[stop]? = some feed := by
  intro index bytes size feeds
  have hsize : size = byteSize source := length_bytes source
  have hfeeds : feeds = source.count '\n' := count_feed_bytes source
  rw [hsize, hfeeds]
  refine ⟨?_, ?_, ?_, tiles_ofText source, ?_⟩
  · intro offset hoffset
    exact ⟨position_eq hoffset, search_starts source offset, fun result => position_of_search,
      exists_range?_position hoffset⟩
  · intro first second hlt
    exact position_before source hlt
  · intro line
    exact isSome_range?_iff
  · intro line start stop? hrange
    exact ⟨fun offset hstart hstop => feed_not_in_range hrange hstart hstop, stop_of_range? hrange⟩

/-- A character of two bytes, an empty line, and a last line without a line feed. -/
example :
    let index := ofText "é\n\nx".toList
    [0, 1, 2, 3, 4, 5].map index.position = [⟨1, 1⟩, ⟨1, 2⟩, ⟨1, 3⟩, ⟨2, 1⟩, ⟨3, 1⟩, ⟨3, 2⟩] ∧
      [0, 1, 2, 3, 4].map index.range? =
        [none, some (0, some 2), some (3, some 3), some (4, none), none] := by
  decide

end LineIndex

end Signatures
