/-!
# Decimal integers

An integer is written as an optional minus sign and one or more ASCII digits; leading zeros do not
change it. Only integers of 32 bits have a value here.
-/

namespace Signatures.Text.Decimal

def natural? (cs : List Char) : Option Nat :=
  if cs ≠ [] ∧ cs.all Char.isDigit then some (Nat.ofDigitChars 10 cs 0) else none

/-- The integer that an optional minus sign and a run of digits denote. -/
def integer? : List Char → Option Int
  | '-' :: cs => (natural? cs).map fun n : Nat => -(n : Int)
  | cs => (natural? cs).map fun n : Nat => (n : Int)

def toInt32? (n : Int) : Option Int32 :=
  if -2147483648 ≤ n ∧ n ≤ 2147483647 then some (Int32.ofInt n) else none

def int32? (cs : List Char) : Option Int32 :=
  (integer? cs).bind toInt32?

/-- The decimal integer that denotes a word, without leading zeros. -/
def ofInt32 (n : Int32) : String := n.toInt.repr

theorem toInt32?_toInt (n : Int32) : toInt32? n.toInt = some n := by
  have hlo := n.le_toInt
  have hhi := n.toInt_lt
  simp only [toInt32?, Int32.ofInt_toInt]
  rw [if_pos ⟨by omega, by omega⟩]

theorem natural?_toDigits (n : Nat) : natural? (Nat.toDigits 10 n) = some n := by
  have hne : Nat.toDigits 10 n ≠ [] := List.ne_nil_of_length_pos Nat.length_toDigits_pos
  have hall : (Nat.toDigits 10 n).all Char.isDigit = true :=
    List.all_eq_true.mpr fun c hc => Nat.isDigit_of_mem_toDigits (by decide) (by decide) hc
  rw [natural?, if_pos ⟨hne, hall⟩, Nat.ofDigitChars_toDigits (by decide) (by decide)]

theorem toList_ofInt32 (n : Int32) : (ofInt32 n).toList =
    if 0 ≤ n.toInt then Nat.toDigits 10 n.toInt.toNat
    else '-' :: Nat.toDigits 10 (-n.toInt).toNat := by
  rw [ofInt32, Int.repr_eq_if]
  split <;> simp [Nat.toList_repr]

theorem integer?_ofInt32 (n : Int32) : integer? (ofInt32 n).toList = some n.toInt := by
  rw [toList_ofInt32]
  split
  · next h =>
    have hm : '-' ∉ Nat.toDigits 10 n.toInt.toNat := fun hc =>
      absurd (Nat.isDigit_of_mem_toDigits (by decide) (by decide) hc) (by decide)
    have key := natural?_toDigits n.toInt.toNat
    unfold integer?
    split
    · next cs hcs => rw [hcs] at hm; simp at hm
    · rw [key, Option.map_some, Int.toNat_of_nonneg h]
  · next h =>
    rw [integer?, natural?_toDigits, Option.map_some, Int.toNat_of_nonneg (by omega), Int.neg_neg]

theorem int32?_ofInt32 (n : Int32) : int32? (ofInt32 n).toList = some n := by
  rw [int32?, integer?_ofInt32, Option.bind_some, toInt32?_toInt]
end Signatures.Text.Decimal
