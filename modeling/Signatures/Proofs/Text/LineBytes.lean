import Signatures.Proofs.Text.LineRanges

/-!
# Lines in the bytes of a text

In UTF-8 the byte of a line feed is in no other character, so the bytes of a text have the lines of the text.
The line and the column of an offset can be read off the bytes before it.
-/

namespace Signatures

open Text

namespace Text

def bytes (cs : List Char) : List UInt8 := cs.flatMap String.utf8EncodeChar

def feed : UInt8 := 10

@[simp]
theorem bytes_append (cs ds : List Char) : bytes (cs ++ ds) = bytes cs ++ bytes ds := by
  simp [bytes]

@[simp]
theorem length_bytes (cs : List Char) : (bytes cs).length = byteSize cs := by
  induction cs with
  | nil => rfl
  | cons c cs ih =>
    rw [bytes] at ih
    rw [bytes, List.flatMap_cons, List.length_append, String.length_utf8EncodeChar, ih, byteSize_cons]

/-- The byte of a line feed is in no other character: all bytes of a longer one are at least 128. -/
theorem feed_mem_utf8EncodeChar_iff {c : Char} : feed ∈ String.utf8EncodeChar c ↔ c = '\n' := by
  have hchar : c = '\n' ↔ c.val.toNat = 10 := by
    rw [← Char.toNat_inj]
    rfl
  have hbyte {n : Nat} (hn : n < 256) : feed = UInt8.ofNat n ↔ n = 10 := by
    rw [feed, ← UInt8.toNat_inj, UInt8.toNat_ofNat_of_lt' hn]
    exact eq_comm
  rw [hchar, String.utf8EncodeChar]
  split
  · rw [List.mem_singleton, hbyte (by omega)]
  · split
    · simp only [List.mem_cons, List.not_mem_nil, or_false]
      rw [hbyte (by omega), hbyte (by omega)]
      omega
    · split
      · simp only [List.mem_cons, List.not_mem_nil, or_false]
        rw [hbyte (by omega), hbyte (by omega), hbyte (by omega)]
        omega
      · simp only [List.mem_cons, List.not_mem_nil, or_false]
        rw [hbyte (by omega), hbyte (by omega), hbyte (by omega), hbyte (by omega)]
        omega

theorem feed_mem_bytes_iff {cs : List Char} : feed ∈ bytes cs ↔ '\n' ∈ cs := by
  simp [bytes, List.mem_flatMap, feed_mem_utf8EncodeChar_iff]

theorem count_feed_bytes (cs : List Char) : (bytes cs).count feed = cs.count '\n' := by
  induction cs with
  | nil => rfl
  | cons c cs ih =>
    have hsplit : bytes (c :: cs) = String.utf8EncodeChar c ++ bytes cs := List.flatMap_cons
    rw [hsplit, List.count_append, ih]
    by_cases hc : c = '\n'
    · have hfeed : String.utf8EncodeChar c = [feed] := hc ▸ rfl
      rw [hfeed, hc, List.count_singleton_self, List.count_cons_self, Nat.add_comm]
    · have hnone : feed ∉ String.utf8EncodeChar c := fun hmem => hc (feed_mem_utf8EncodeChar_iff.mp hmem)
      rw [List.count_eq_zero_of_not_mem hnone, List.count_cons_of_ne hc, Nat.zero_add]

theorem EndsLine.getLast?_bytes {cs : List Char} (h : EndsLine cs) : ∀ b ∈ (bytes cs).getLast?, b = feed := by
  rcases List.eq_nil_or_concat cs with rfl | ⟨body, c, rfl⟩
  · exact nofun
  · cases h c (by simp)
    intro b hb
    have hfeed : bytes ['\n'] = [feed] := rfl
    rw [List.concat_eq_append, bytes_append, hfeed, List.getLast?_concat] at hb
    exact (Option.some.inj hb).symm

namespace IsLine

variable {source before body after : List Char}

/-- The line feeds before the line, and the bytes of it before an offset, can be read off the bytes before
that offset. -/
theorem take_bytes {offset : Nat} (h : IsLine source before body after) (hstart : byteSize before ≤ offset)
    (hstop : offset ≤ byteSize before + byteSize body) :
    (bytes source).take offset = bytes before ++ (bytes body).take (offset - byteSize before) := by
  have hbody : offset - byteSize before ≤ (bytes body).length := by
    rw [length_bytes]
    omega
  rw [h.source_eq, bytes_append, bytes_append, List.take_append, List.take_of_length_le (by simpa),
    length_bytes, List.take_append_of_le_length hbody]

theorem exists_of_offset {offset : Nat} (h : IsLine source before body after) (hstart : byteSize before ≤ offset)
    (hstop : offset ≤ byteSize source) :
    ∃ before' body' after', IsLine source before' body' after' ∧ byteSize before' ≤ offset ∧
      offset ≤ byteSize before' + byteSize body' := by
  induction h using rec_next with
  | last before body h =>
    rw [h.byteSize_source, byteSize_nil, Nat.add_zero] at hstop
    exact ⟨before, body, [], h, hstart, hstop⟩
  | next before body body' after' h hnext ih =>
    by_cases hbody : offset ≤ byteSize before + byteSize body
    · exact ⟨before, body, _, h, hstart, hbody⟩
    · apply ih
      rw [byteSize_before_next]
      omega

end IsLine

theorem exists_isLine_of_offset {source : List Char} {offset : Nat} (h : offset ≤ byteSize source) :
    ∃ before body after, IsLine source before body after ∧ byteSize before ≤ offset ∧
      offset ≤ byteSize before + byteSize body := by
  rcases exists_isLine_first source with ⟨body, after, hfirst⟩
  exact hfirst.exists_of_offset (Nat.zero_le offset) h

end Text

namespace LineIndex

/-- The line of an offset is one more than the line feeds before it, and its column one more than the bytes
since the last of them. -/
theorem position_eq {source : List Char} {offset : Nat} (h : offset ≤ byteSize source) :
    (ofText source).position offset = ⟨1 + ((bytes source).take offset).count feed,
      1 + (((bytes source).take offset).reverse.takeWhile (· ≠ feed)).length⟩ := by
  rcases exists_isLine_of_offset h with ⟨before, body, after, hline, hstart, hstop⟩
  have htake := hline.take_bytes hstart hstop
  have hbody : feed ∉ (bytes body).take (offset - byteSize before) := fun hmem =>
    hline.no_feed (feed_mem_bytes_iff.mp (List.mem_of_mem_take hmem))
  have hcount : ((bytes source).take offset).count feed = before.count '\n' := by
    rw [htake, List.count_append, count_feed_bytes, List.count_eq_zero_of_not_mem hbody, Nat.add_zero]
  have hcolumn : (((bytes source).take offset).reverse.takeWhile (· ≠ feed)).length =
      offset - byteSize before := by
    have hnone : ∀ b ∈ ((bytes body).take (offset - byteSize before)).reverse, decide (b ≠ feed) = true := by
      intro b hb
      rw [List.mem_reverse] at hb
      exact decide_eq_true fun heq => hbody (heq ▸ hb)
    have hhead : ∀ b ∈ (bytes before).reverse.head?, decide (b ≠ feed) = false := by
      intro b hb
      rw [List.head?_reverse] at hb
      simpa using hline.endsLine.getLast?_bytes b hb
    rw [htake, List.reverse_append, takeWhile_append_of_head hnone hhead, List.length_reverse,
      List.length_take, length_bytes]
    omega
  rw [position_of_isLine hline hstart hstop, hcount, hcolumn, Nat.add_comm 1, Nat.add_comm 1]

end LineIndex

end Signatures
