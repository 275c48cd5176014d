import Signatures.Span
import Signatures.Text.Blank
import Signatures.Text.Bytes

/-!
# Parts of a text

A span lies in a text if it is that of a part of it, so both of its ends fall between characters. A part
of a part is a part of the whole, and moving a text moves the spans of its parts. A text that is not
blank is cut into the blanks at its two ends and the part between them.
-/

namespace Signatures

open Text

namespace Span

/-- The span is that of a part of the text `cs`, which stands at `offset`. -/
def LiesIn (span : Span) (offset : Nat) (cs : List Char) : Prop :=
  ∃ before part after, cs = before ++ (part ++ after) ∧
    span = ⟨offset + byteSize before, offset + byteSize before + byteSize part⟩

section

variable {span : Span} {offset : Nat} {cs ds : List Char}

theorem liesIn_whole (offset : Nat) (cs : List Char) :
    (⟨offset, offset + byteSize cs⟩ : Span).LiesIn offset cs :=
  ⟨[], cs, [], by simp, by simp⟩

theorem liesIn_finish (offset : Nat) (cs : List Char) :
    (point (offset + byteSize cs)).LiesIn offset cs :=
  ⟨cs, [], [], by simp, by simp [point]⟩

theorem LiesIn.append_right (h : span.LiesIn offset cs) (ds : List Char) :
    span.LiesIn offset (cs ++ ds) := by
  rcases h with ⟨before, part, after, rfl, rfl⟩
  exact ⟨before, part, after ++ ds, by simp, rfl⟩

theorem LiesIn.append_left (cs : List Char) (h : span.LiesIn (offset + byteSize cs) ds) :
    span.LiesIn offset (cs ++ ds) := by
  rcases h with ⟨before, part, after, rfl, rfl⟩
  exact ⟨cs ++ before, part, after, by simp, by simp [Nat.add_assoc]⟩

theorem LiesIn.extend (cs : List Char) (h : span.LiesIn (offset + byteSize cs) ds) :
    (⟨offset, span.stop⟩ : Span).LiesIn offset (cs ++ ds) := by
  rcases h with ⟨before, part, after, rfl, rfl⟩
  exact ⟨[], cs ++ (before ++ part), after, by simp, by simp [Nat.add_assoc]⟩

theorem LiesIn.shift (h : span.LiesIn offset cs) (distance : Nat) :
    (span.shift distance).LiesIn (distance + offset) cs := by
  rcases h with ⟨before, part, after, rfl, rfl⟩
  exact ⟨before, part, after, rfl, by simp [Span.shift, Nat.add_assoc]⟩

theorem LiesIn.bounds (h : span.LiesIn offset cs) :
    offset ≤ span.start ∧ span.start ≤ span.stop ∧ span.stop ≤ offset + byteSize cs := by
  rcases h with ⟨before, part, after, rfl, rfl⟩
  simp only [byteSize_append]
  omega

end

end Span

namespace Text

/-- A text is cut between two parts of it, the first of which has as many bytes as are asked for. -/
theorem cut?_eq_some_iff {n : Nat} {cs before after : List Char} :
    cut? n cs = some (before, after) ↔ cs = before ++ after ∧ byteSize before = n := by
  constructor
  · intro h
    induction cs generalizing n before with
    | nil =>
      cases n with
      | zero => cases h; exact ⟨rfl, rfl⟩
      | succ n => cases h
    | cons c cs ih =>
      cases n with
      | zero => cases h; exact ⟨rfl, rfl⟩
      | succ n =>
        rw [cut?] at h
        split at h
        · next hle =>
          rcases Option.map_eq_some_iff.mp h with ⟨⟨first, rest⟩, hcut, heq⟩
          cases heq
          rcases ih hcut with ⟨rfl, hsize⟩
          refine ⟨rfl, ?_⟩
          rw [byteSize_cons, hsize]
          omega
        · cases h
  · rintro ⟨rfl, rfl⟩
    exact cut?_byteSize_append before after

theorem slice?_eq_some_iff {cs part : List Char} {start stop : Nat} :
    slice? cs start stop = some part ↔ ∃ before after, cs = before ++ (part ++ after) ∧
      start = byteSize before ∧ stop = byteSize before + byteSize part := by
  constructor
  · intro h
    rw [slice?] at h
    split at h
    · next hle =>
      split at h
      · cases h
      · next before rest hstart =>
        rcases Option.map_eq_some_iff.mp h with ⟨⟨found, after⟩, hstop, rfl⟩
        rcases cut?_eq_some_iff.mp hstart with ⟨rfl, hbefore⟩
        rcases cut?_eq_some_iff.mp hstop with ⟨rfl, hpart⟩
        exact ⟨before, after, rfl, hbefore.symm, by dsimp only; omega⟩
    · cases h
  · rintro ⟨before, after, rfl, rfl, rfl⟩
    exact slice?_middle before part after

theorem takeWhile_append_of_head {α : Type} {p : α → Bool} {cs rest : List α} (hcs : ∀ c ∈ cs, p c = true)
    (hrest : ∀ c ∈ rest.head?, p c = false) : (cs ++ rest).takeWhile p = cs := by
  rw [List.takeWhile_append_of_pos hcs]
  cases rest with
  | nil => simp
  | cons c rest => simp [hrest c (by simp)]

theorem dropWhile_append_of_head {p : Char → Bool} {cs rest : List Char} (hcs : ∀ c ∈ cs, p c = true)
    (hrest : ∀ c ∈ rest.head?, p c = false) : (cs ++ rest).dropWhile p = rest := by
  rw [List.dropWhile_append_of_pos hcs]
  cases rest with
  | nil => simp
  | cons c rest => simp [hrest c (by simp)]

theorem head?_dropWhile {p : Char → Bool} {cs : List Char} :
    ∀ c ∈ (cs.dropWhile p).head?, p c = false := by
  intro c hc
  have h := List.head?_dropWhile_not p cs
  rw [Option.mem_def.mp hc] at h
  exact h

theorem dropRight_concat_of_pos {p : Char → Bool} {c : Char} (h : p c = true) (cs : List Char) :
    dropRight p (cs ++ [c]) = dropRight p cs := by
  rw [dropRight, List.reverse_append, List.reverse_singleton, List.singleton_append,
    List.dropWhile_cons_of_pos h, dropRight]

/-- All that satisfies `p` is dropped at the end, up to a character that does not. -/
theorem dropRight_append_of_getLast {p : Char → Bool} {cs ds : List Char} (hds : ∀ d ∈ ds, p d = true)
    (hcs : ∀ c ∈ cs.getLast?, p c = false) : dropRight p (cs ++ ds) = cs := by
  have hds' : ∀ d ∈ ds.reverse, p d = true := fun d hd => hds d (List.mem_reverse.mp hd)
  have hcs' : ∀ c ∈ cs.reverse.head?, p c = false := by rwa [List.head?_reverse]
  rw [dropRight, List.reverse_append, dropWhile_append_of_head hds' hcs', List.reverse_reverse]

theorem getLast?_dropRight {p : Char → Bool} {cs : List Char} :
    ∀ c ∈ (dropRight p cs).getLast?, p c = false := by
  rw [dropRight, List.getLast?_reverse]
  exact head?_dropWhile

theorem mem_of_mem_dropRight {p : Char → Bool} {c : Char} {cs : List Char} (h : c ∈ dropRight p cs) :
    c ∈ cs := by
  rw [← dropRight_append_takeWhile p cs]
  exact List.mem_append_left _ h

theorem dropRight_append_of_mem {p : Char → Bool} {c : Char} {cs ds : List Char} (hmem : c ∈ ds)
    (hc : p c = false) : dropRight p (cs ++ ds) = cs ++ dropRight p ds := by
  have hne : (ds.reverse.dropWhile p).isEmpty ≠ true := by
    rw [ne_eq, List.isEmpty_iff]
    intro hnil
    have hsplit := List.takeWhile_append_dropWhile (p := p) (l := ds.reverse)
    rw [hnil, List.append_nil] at hsplit
    have hpos := List.all_eq_true.mp List.all_takeWhile c (hsplit ▸ List.mem_reverse.mpr hmem)
    rw [hc] at hpos
    cases hpos
  rw [dropRight, List.reverse_append, List.dropWhile_append, if_neg hne, List.reverse_append,
    List.reverse_reverse, dropRight]

/-- A text that is not blank is some blanks, the text without the blanks around it, and some blanks. -/
theorem exists_trim {blanks rest text : List Char} {c : Char} (htext : text = blanks ++ c :: rest)
    (hblanks : ∀ b ∈ blanks, isBlank b = true) (hc : isBlank c = false) :
    ∃ trailing, text = blanks ++ (dropRight isBlank (trimLeft text) ++ trailing) ∧
      (∀ b ∈ trailing, isBlank b = true) ∧ text = blanks ++ trimLeft text ∧
      dropRight isBlank text = blanks ++ dropRight isBlank (trimLeft text) := by
  have htrim : trimLeft text = c :: rest := by
    rw [htext, trimLeft, List.dropWhile_append_of_pos hblanks, List.dropWhile_cons_of_neg (by simp [hc])]
  refine ⟨((c :: rest).reverse.takeWhile isBlank).reverse, ?_, ?_, ?_, ?_⟩
  · rw [htrim, dropRight_append_takeWhile, htext]
  · intro b hb
    exact List.all_eq_true.mp List.all_takeWhile b (List.mem_reverse.mp hb)
  · rw [htrim, htext]
  · rw [htrim, htext, dropRight_append_of_mem List.mem_cons_self hc]

theorem contains_eq_true_iff {part cs : List Char} : contains part cs = true ↔ part <:+: cs := by
  induction cs with
  | nil => simp [contains]
  | cons c cs ih =>
    rw [contains, Bool.or_eq_true, List.isPrefixOf_iff_prefix, ih, List.infix_cons_iff]

/-- A part whose last character is missing at the end of a text stands before this end. -/
theorem isInfix_of_isInfix_append {part cs ds : List Char} {c : Char} (h : part ++ [c] <:+: cs ++ ds)
    (hc : c ∉ ds) : part ++ [c] <:+: cs := by
  rcases h with ⟨before, after, hsplit⟩
  rcases List.append_eq_append_iff.mp hsplit with ⟨shared, hcs, -⟩ | ⟨shared, hpart, hds⟩
  · exact ⟨before, shared, hcs.symm⟩
  · rcases List.eq_nil_or_concat shared with rfl | ⟨rest, d, rfl⟩
    · exact ⟨before, [], by simpa using hpart⟩
    · rw [List.concat_eq_append, ← List.append_assoc, ← List.append_assoc] at hpart
      cases (List.append_inj' hpart rfl).2
      exact absurd (by simp [hds]) hc

end Text

end Signatures
