import RemoteKeys.Proofs.Text.Numeral
import RemoteKeys.Text.Hex

/-!
# Numbers as text

Times are shown in base ten, words and codes in base sixteen behind `0x`. Both are numerals: every
number that fits 64 bits is read back from either. What is shown holds neither blanks nor the mark
of a comment, so that it stays one word of the line that it is put on.

## Main statements

- `numeral?_toString`, `numeral?_hex`: what is shown of a number is read as that number.
- `mem_numeralLetters_toString`, `mem_numeralLetters_hex`: the characters that a number is shown
  with.
-/

namespace RemoteKeys.Text

/-- The characters that numbers are shown with: digits of either base, and the mark of base
sixteen. -/
def numeralLetters : List Char := "0123456789abcdefx".toList

/-! ### Digits -/

private theorem exists_digit_of_mem_toDigits {base : Nat} (two : 1 < base) {n : Nat} {c : Char}
    (mem : c ∈ Nat.toDigits base n) : ∃ d < base, c = d.digitChar := by
  obtain ⟨values, spelled, below, -⟩ := exists_values_toDigits two n
  rw [spelled] at mem
  obtain ⟨d, listed, rfl⟩ := List.mem_map.mp mem
  exact ⟨d, below d listed, rfl⟩

private theorem mem_numeralLetters_of_mem_toDigits {base : Nat} (two : 1 < base) (most : base ≤ 16)
    {n : Nat} {c : Char} (mem : c ∈ Nat.toDigits base n) : c ∈ numeralLetters ∧ c ≠ 'x' := by
  obtain ⟨d, below, rfl⟩ := exists_digit_of_mem_toDigits two mem
  have small : d < 16 := Nat.lt_of_lt_of_le below most
  interval_cases d <;> decide

/-! ### What is shown is read back -/

private theorem filter_underscores_toDigits {base : Nat} (two : 1 < base) (most : base ≤ 16)
    (n : Nat) :
    (Nat.toDigits base n).filter (· ≠ '_') = Nat.toDigits base n := by
  refine List.filter_eq_self.mpr fun c mem => decide_eq_true ?_
  rintro rfl
  exact absurd (mem_numeralLetters_of_mem_toDigits two most mem).1 (by decide)

private theorem toList_hex (n : Nat) : (hex n).toList = '0' :: 'x' :: Nat.toDigits 16 n := by
  rw [hex, String.toList_append, String.toList_ofList, String.toList_ofList, List.cons_append,
    List.singleton_append]

private theorem isNumeral_toString (n : Nat) : IsNumeral (toString n).toList n := by
  have spelled : (toString n).toList.filter (· ≠ '_') = List.replicate 0 '0' ++
      (toString n).toList := by
    rw [toList_toString, filter_underscores_toDigits (by decide) (by decide), List.replicate_zero,
      List.nil_append]
  exact isNumeral_decimal spelled

private theorem isNumeral_hex (n : Nat) : IsNumeral (hex n).toList n := by
  have spelled : (hex n).toList.filter (· ≠ '_') = ['0', 'x'] ++
      (List.replicate 0 '0' ++ Nat.toDigits 16 n) := by
    rw [toList_hex, List.filter_cons_of_pos (by decide), List.filter_cons_of_pos (by decide),
      filter_underscores_toDigits (by decide) (by decide)]
    rfl
  exact isNumeral_hexadecimal .sixteen (List.forall₂_same.mpr fun _ _ => .inl rfl) spelled

theorem numeral?_toString {n : Nat} (fits : n ≤ numeralLimit) :
    numeral? (toString n).toList = some n :=
  numeral?_eq_some_iff.mpr ⟨isNumeral_toString n, fits⟩

theorem numeral?_hex {n : Nat} (fits : n ≤ numeralLimit) : numeral? (hex n).toList = some n :=
  numeral?_eq_some_iff.mpr ⟨isNumeral_hex n, fits⟩

/-! ### The characters of what is shown -/

theorem mem_numeralLetters_toString {n : Nat} {c : Char} (mem : c ∈ (toString n).toList) :
    c ∈ numeralLetters := by
  rw [toList_toString] at mem
  exact (mem_numeralLetters_of_mem_toDigits (by decide) (by decide) mem).1

theorem mem_numeralLetters_hex {n : Nat} {c : Char} (mem : c ∈ (hex n).toList) :
    c ∈ numeralLetters := by
  rw [toList_hex, List.mem_cons, List.mem_cons] at mem
  rcases mem with rfl | rfl | digit
  · decide
  · decide
  · exact (mem_numeralLetters_of_mem_toDigits (by decide) (by decide) digit).1

theorem toString_ne_nil (n : Nat) : (toString n).toList ≠ [] := by
  rw [toList_toString]
  exact Nat.toDigits_ne_nil

theorem hex_ne_nil (n : Nat) : (hex n).toList ≠ [] := by
  rw [toList_hex]
  exact List.cons_ne_nil _ _

theorem isBlank_of_mem_numeralLetters {c : Char} (mem : c ∈ numeralLetters) :
    isBlank c = false := by
  have letters : numeralLetters.all (!isBlank ·) = true := by decide
  simpa using List.all_eq_true.mp letters c mem

end RemoteKeys.Text
