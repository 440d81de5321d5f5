import Mathlib.Algebra.GroupWithZero.Nat

namespace UlogCpp

/-! Decimal numerals as ASCII bytes. -/

def digitByte (digit : Char) : UInt8 := UInt8.ofNat digit.toNat

def decimal (value : Nat) : List UInt8 := (Nat.toDigits 10 value).map digitByte

def isDigit (byte : UInt8) : Bool := 48 ≤ byte && byte ≤ 57

def decimalValue (digits : List UInt8) : Nat :=
  digits.foldl (fun value digit => 10 * value + (digit.toNat - 48)) 0

theorem decimal_ne_nil (value : Nat) : decimal value ≠ [] := by
  simp [decimal]

private theorem digitChar_toNat {digit : Char} (isDigit : digit.isDigit = true) :
    48 ≤ digit.toNat ∧ digit.toNat ≤ 57 := by
  simp only [Char.isDigit, Bool.and_eq_true, decide_eq_true_eq] at isDigit
  exact ⟨UInt32.le_iff_toNat_le.mp isDigit.1,
    UInt32.le_iff_toNat_le.mp isDigit.2⟩

private theorem toNat_digitByte {digit : Char} (isDigit : digit.isDigit = true) :
    (digitByte digit).toNat = digit.toNat := by
  have range := digitChar_toNat isDigit
  rw [digitByte, UInt8.toNat_ofNat']
  omega

theorem isDigit_of_mem_decimal {value : Nat} {byte : UInt8}
    (member : byte ∈ decimal value) : isDigit byte = true := by
  obtain ⟨digit, digitMember, rfl⟩ := List.mem_map.mp member
  have isDigitChar := Nat.isDigit_of_mem_toDigits (by decide) (by decide)
    digitMember
  have range := digitChar_toNat isDigitChar
  have same := toNat_digitByte isDigitChar
  simp only [isDigit, Bool.and_eq_true, decide_eq_true_eq,
    UInt8.le_iff_toNat_le, same]
  exact range

theorem decimalValue_decimal (value : Nat) :
    decimalValue (decimal value) = value := by
  have agree : ∀ (digits : List Char) (start : Nat),
      (∀ digit ∈ digits, digit.isDigit = true) →
      (digits.map digitByte).foldl
          (fun value digit => 10 * value + (digit.toNat - 48)) start =
        Nat.ofDigitChars 10 digits start := by
    intro digits
    induction digits with
    | nil =>
        intro start _
        simp
    | cons digit rest ih =>
        intro start areDigits
        rw [List.map_cons, List.foldl_cons, Nat.ofDigitChars_cons,
          toNat_digitByte (areDigits digit (by simp))]
        exact ih _ fun other member => areDigits other (by simp [member])
  unfold decimalValue decimal
  rw [agree _ _ fun digit => Nat.isDigit_of_mem_toDigits (by decide) (by decide)]
  exact Nat.ofDigitChars_ten_toDigits

theorem length_decimal_le {value count : Nat} (positive : 0 < count)
    (below : value < 10 ^ count) : (decimal value).length ≤ count := by
  rw [decimal, List.length_map]
  exact (Nat.length_toDigits_le_iff (by decide) positive).mpr below

structure Numeral (text : List UInt8) (value : Nat) : Prop where
  nonempty : text ≠ []
  digits : ∀ byte ∈ text, isDigit byte = true
  value : decimalValue text = value

theorem Numeral.decimal (value : Nat) : Numeral (decimal value) value where
  nonempty := decimal_ne_nil value
  digits _ member := isDigit_of_mem_decimal member
  value := decimalValue_decimal value

theorem Numeral.not_mem {text : List UInt8} {value : Nat} {byte : UInt8}
    (numeral : Numeral text value) (other : isDigit byte = false) :
    byte ∉ text := by
  intro member
  rw [numeral.digits byte member] at other
  cases other

theorem Numeral.takeWhile_append {text rest : List UInt8} {value : Nat}
    (numeral : Numeral text value)
    (ends : ∀ byte, rest.head? = some byte → isDigit byte = false) :
    (text ++ rest).takeWhile isDigit = text := by
  rw [List.takeWhile_append_of_pos numeral.digits]
  cases rest with
  | nil => simp
  | cons byte rest =>
      rw [List.takeWhile_cons_of_neg (by simp [ends byte rfl]),
        List.append_nil]

end UlogCpp
