import Signatures.Token

/-!
# Which texts are integers of 32 bits

A text denotes an integer of 32 bits exactly when it is an optional minus sign and one or more digits
whose value is in range. The canonical text of a word is one of them.
-/

namespace Signatures

namespace Text.Decimal

def IsDigits (cs : List Char) : Prop := cs ≠ [] ∧ ∀ c ∈ cs, c.isDigit = true

/-- An optional minus sign and one or more digits whose value fits in 32 bits. -/
inductive IsInt32 : List Char → Prop where
  | plain {digits : List Char} (h : IsDigits digits)
      (hvalue : Nat.ofDigitChars 10 digits 0 < 2147483648) : IsInt32 digits
  | minus {digits : List Char} (h : IsDigits digits)
      (hvalue : Nat.ofDigitChars 10 digits 0 ≤ 2147483648) : IsInt32 ('-' :: digits)

theorem natural?_eq_some_iff {cs : List Char} {n : Nat} :
    natural? cs = some n ↔ IsDigits cs ∧ Nat.ofDigitChars 10 cs 0 = n := by
  rw [natural?]
  split
  · next h =>
    have hdigits : IsDigits cs := ⟨h.1, List.all_eq_true.mp h.2⟩
    simp [hdigits]
  · next h =>
    simp only [reduceCtorEq, false_iff, not_and]
    intro hdigits
    exact absurd ⟨hdigits.1, List.all_eq_true.mpr hdigits.2⟩ h

theorem IsDigits.ne_minus_cons {cs : List Char} (h : IsDigits cs) (ds : List Char) :
    cs ≠ '-' :: ds := by
  rintro rfl
  exact absurd (h.2 '-' (List.mem_cons_self ..)) (by decide)

/-- The value of a run of digits, with the opposite sign after a minus sign. -/
theorem integer?_eq_some_iff {cs : List Char} {n : Int} :
    integer? cs = some n ↔
      (IsDigits cs ∧ n = Nat.ofDigitChars 10 cs 0) ∨
        ∃ ds, cs = '-' :: ds ∧ IsDigits ds ∧ n = -(Nat.ofDigitChars 10 ds 0 : Int) := by
  unfold integer?
  split
  · next ds =>
    rw [Option.map_eq_some_iff]
    constructor
    · rintro ⟨m, hm, rfl⟩
      rcases natural?_eq_some_iff.mp hm with ⟨hdigits, rfl⟩
      exact .inr ⟨ds, rfl, hdigits, rfl⟩
    · rintro (⟨hdigits, -⟩ | ⟨ds', heq, hdigits, rfl⟩)
      · exact absurd rfl (hdigits.ne_minus_cons ds)
      · cases heq
        exact ⟨_, natural?_eq_some_iff.mpr ⟨hdigits, rfl⟩, rfl⟩
  · next hminus =>
    rw [Option.map_eq_some_iff]
    constructor
    · rintro ⟨m, hm, rfl⟩
      rcases natural?_eq_some_iff.mp hm with ⟨hdigits, rfl⟩
      exact .inl ⟨hdigits, rfl⟩
    · rintro (⟨hdigits, rfl⟩ | ⟨ds, rfl, -, -⟩)
      · exact ⟨_, natural?_eq_some_iff.mpr ⟨hdigits, rfl⟩, rfl⟩
      · exact absurd rfl (hminus ds)

theorem toInt32?_eq_some_iff {n : Int} {v : Int32} : toInt32? n = some v ↔ v.toInt = n := by
  constructor
  · intro h
    rw [toInt32?] at h
    split at h
    · next hrange =>
      cases h
      exact Int32.toInt_ofInt_of_le (by omega) (by omega)
    · cases h
  · rintro rfl
    exact toInt32?_toInt v

theorem int32?_eq_some_iff {cs : List Char} {v : Int32} :
    int32? cs = some v ↔ integer? cs = some v.toInt := by
  rw [int32?, Option.bind_eq_some_iff]
  constructor
  · rintro ⟨n, hn, hv⟩
    rw [hn, toInt32?_eq_some_iff.mp hv]
  · intro h
    exact ⟨v.toInt, h, toInt32?_toInt v⟩

theorem isInt32_iff {cs : List Char} : IsInt32 cs ↔ ∃ v, int32? cs = some v := by
  constructor
  · intro h
    have hint : ∃ n, integer? cs = some n ∧ -2147483648 ≤ n ∧ n < 2147483648 := by
      cases h with
      | plain h hvalue => exact ⟨_, integer?_eq_some_iff.mpr (.inl ⟨h, rfl⟩), by omega, by omega⟩
      | minus h hvalue =>
        exact ⟨_, integer?_eq_some_iff.mpr (.inr ⟨_, rfl, h, rfl⟩), by omega, by omega⟩
    rcases hint with ⟨n, hn, hlo, hhi⟩
    exact ⟨.ofInt n, int32?_eq_some_iff.mpr (by rw [Int32.toInt_ofInt_of_le hlo hhi, hn])⟩
  · rintro ⟨v, hv⟩
    have hlo := v.le_toInt
    have hhi := v.toInt_lt
    rcases integer?_eq_some_iff.mp (int32?_eq_some_iff.mp hv) with ⟨h, hn⟩ | ⟨ds, rfl, h, hn⟩
    · exact .plain h (by omega)
    · exact .minus h (by omega)

end Text.Decimal

namespace Literal

open Text.Decimal

def ofInt32 (n : Int32) : Literal := ⟨Text.Decimal.ofInt32 n, n, int32?_ofInt32 n⟩

theorem isInt32_text (l : Literal) : IsInt32 l.text.toList := isInt32_iff.mpr ⟨l.value, l.denotes⟩

theorem ofText?_isSome_iff {text : String} : (ofText? text).isSome = true ↔ IsInt32 text.toList := by
  rw [Option.isSome_iff_exists]
  constructor
  · rintro ⟨l, hl⟩
    rw [← text_of_ofText? hl]
    exact l.isInt32_text
  · intro h
    rcases isInt32_iff.mp h with ⟨v, hv⟩
    exact ⟨⟨text, v, hv⟩, ofText?_text ⟨text, v, hv⟩⟩

end Literal

end Signatures
