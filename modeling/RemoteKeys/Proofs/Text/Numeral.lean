import Mathlib.Data.List.Forall2
import Mathlib.Data.Nat.Digits.Defs
import Mathlib.Tactic.IntervalCases
import RemoteKeys.Text.Numeral

/-!
# The grammar of numerals

Without its underscores, a numeral is the mark of its base, a plus sign and digits, and only the
digits must be there. This module says so for numerals of any length and size, and shows that
reading accepts those alone whose value fits 64 bits.

## Main result

`numerals_read_exactly`: a text is read as a number exactly when it is a numeral of that value and
the value fits. Every such number is read back from its digits of either base, behind any number of
zeros.

## Proof strategy

Layer by layer: a character against `IsDigit`, the list of them by `Forall₂`, then the sign, then
the mark. That a numeral has no mark can be told from its digits, none of which is an `x`.
-/

namespace RemoteKeys.Text

/-- What stands in front of digits of that base. -/
inductive BaseMark : List Char → Nat → Prop
  | ten : BaseMark [] 10
  | sixteen : BaseMark ['0', 'x'] 16
  | sixteenUpper : BaseMark ['0', 'X'] 16

/-- The character is the digit of that value; a letter may be in upper case. -/
def IsDigit (base : Nat) (c : Char) (value : Nat) : Prop :=
  value < base ∧ (c = value.digitChar ∨ c = value.digitChar.toUpper)

/-- The text is one digit or more behind at most one plus sign, and they make up the number `n`. -/
def IsDigits (base : Nat) (text : List Char) (n : Nat) : Prop :=
  ∃ sign digits values, (sign = [] ∨ sign = ['+']) ∧ digits ≠ [] ∧ text = sign ++ digits ∧
    List.Forall₂ (IsDigit base) digits values ∧ Nat.ofDigits base values.reverse = n

/-- The text is a numeral of the number `n`, whatever its size. -/
def IsNumeral (text : List Char) (n : Nat) : Prop :=
  ∃ mark base number, BaseMark mark base ∧ text.filter (· ≠ '_') = mark ++ number ∧
    IsDigits base number n

variable {base n d : Nat} {c : Char} {text digits : List Char} {values : List Nat}

/-! ### Digits -/

private theorem IsDigit.digit?_eq (digit : IsDigit base c d) (most : base ≤ 16) :
    digit? base c = some d := by
  obtain ⟨below, spelled⟩ := digit
  have small : d < 16 := Nat.lt_of_lt_of_le below most
  refine Option.filter_eq_some_iff.mpr ⟨?_, decide_eq_true below⟩
  rcases spelled with rfl | rfl <;> interval_cases d <;> decide

private theorem exists_ofNat_add {first last : Char} (from_first : first ≤ c) (to_last : c ≤ last) :
    ∃ k ≤ last.toNat - first.toNat, c = Char.ofNat (first.toNat + k) := by
  have least : first.toNat ≤ c.toNat := from_first
  have most : c.toNat ≤ last.toNat := to_last
  refine ⟨c.toNat - first.toNat, Nat.sub_le_sub_right most _, ?_⟩
  rw [Nat.add_sub_cancel' least, Char.ofNat_toNat]

private theorem digit?_eq_some_iff (most : base ≤ 16) :
    digit? base c = some d ↔ IsDigit base c d := by
  refine ⟨fun read => ?_, fun digit => digit.digit?_eq most⟩
  obtain ⟨value, below⟩ := Option.filter_eq_some_iff.mp read
  refine ⟨of_decide_eq_true below, ?_⟩
  -- In each of the three ranges, the value follows from how far the character is from the first
  -- one.
  split at value
  next decimal =>
    obtain ⟨k, within, rfl⟩ := exists_ofNat_add decimal.1 decimal.2
    cases value
    replace within : k ≤ 9 := within
    left
    interval_cases k <;> decide
  · split at value
    next lower =>
      obtain ⟨k, within, rfl⟩ := exists_ofNat_add lower.1 lower.2
      cases value
      replace within : k ≤ 5 := within
      left
      interval_cases k <;> decide
    · split at value
      next upper =>
        obtain ⟨k, within, rfl⟩ := exists_ofNat_add upper.1 upper.2
        cases value
        replace within : k ≤ 5 := within
        right
        interval_cases k <;> decide
      · cases value

private theorem IsDigit.mem_letters (digit : IsDigit base c d) (most : base ≤ 16) :
    c ∈ "0123456789abcdefABCDEF".toList := by
  obtain ⟨below, spelled⟩ := digit
  have small : d < 16 := Nat.lt_of_lt_of_le below most
  rcases spelled with rfl | rfl <;> interval_cases d <;> decide

private theorem not_mem_of_forall₂_isDigit (spelled : List.Forall₂ (IsDigit base) digits values)
    (most : base ≤ 16) (other : c ∉ "0123456789abcdefABCDEF".toList) : c ∉ digits := by
  intro mem
  induction spelled with
  | nil => cases mem
  | cons digit _ ih =>
    rcases List.mem_cons.mp mem with rfl | later
    · exact other (digit.mem_letters most)
    · exact ih later

private theorem mapM_eq_some_iff {α β : Type} {f : α → Option β} {xs : List α} {ys : List β} :
    xs.mapM f = some ys ↔ List.Forall₂ (fun x y => f x = some y) xs ys := by
  induction xs generalizing ys with
  | nil => cases ys <;> simp
  | cons x xs ih =>
    rw [List.mapM_cons]
    cases read : f x with
    | none => cases ys <;> simp [read]
    | some y => cases later : xs.mapM f <;> cases ys <;> simp [← ih, read, later]

private theorem positional_eq_ofDigits (base : Nat) (values : List Nat) :
    positional base values = Nat.ofDigits base values.reverse := by
  rw [Nat.ofDigits_eq_foldr, List.foldr_reverse, positional]
  congr
  funext n d
  exact Nat.add_comm ..

/-! ### The sign, and the mark of the base -/

private theorem unsigned_eq_some_iff (most : base ≤ 16) :
    (if digits = [] then none else (digits.mapM (digit? base)).map (positional base)) = some n ↔
      digits ≠ [] ∧ ∃ values, List.Forall₂ (IsDigit base) digits values ∧
        Nat.ofDigits base values.reverse = n := by
  have each : (fun c d => digit? base c = some d) = IsDigit base := by
    funext c d
    exact propext (digit?_eq_some_iff most)
  by_cases empty : digits = []
  · simp [empty]
  · simp only [if_neg empty, Option.map_eq_some_iff, mapM_eq_some_iff, each, positional_eq_ofDigits]
    exact ⟨fun read => ⟨empty, read⟩, fun read => read.2⟩

private theorem digits?_of_unsigned (unsigned : ∀ rest, text ≠ '+' :: rest) : digits? base text =
    if text = [] then none else (text.mapM (digit? base)).map (positional base) := by
  rw [digits?]
  exact unsigned

private theorem digits?_eq_some_iff (most : base ≤ 16) :
    digits? base text = some n ↔ IsDigits base text n := by
  constructor
  · intro read
    by_cases signed : ∃ rest, text = '+' :: rest
    · obtain ⟨rest, rfl⟩ := signed
      obtain ⟨nonempty, values, spelled, value⟩ := (unsigned_eq_some_iff most).mp read
      exact ⟨['+'], rest, values, .inr rfl, nonempty, rfl, spelled, value⟩
    · rw [digits?_of_unsigned (not_exists.mp signed)] at read
      obtain ⟨nonempty, values, spelled, value⟩ := (unsigned_eq_some_iff most).mp read
      exact ⟨[], text, values, .inl rfl, nonempty, rfl, spelled, value⟩
  · rintro ⟨sign, digits, values, signed, nonempty, rfl, spelled, value⟩
    have read := (unsigned_eq_some_iff most).mpr ⟨nonempty, values, spelled, value⟩
    rcases signed with rfl | rfl
    · have unsigned : '+' ∉ digits := not_mem_of_forall₂_isDigit spelled most (by decide)
      rw [List.nil_append, digits?_of_unsigned]
      · exact read
      · rintro rest rfl
        exact unsigned List.mem_cons_self
    · exact read

private theorem BaseMark.le_sixteen {mark : List Char} (marked : BaseMark mark base) :
    base ≤ 16 := by
  cases marked <;> decide

private theorem exists_baseMark (text : List Char) :
    ∃ mark, BaseMark mark (splitBase text).1 ∧ text = mark ++ (splitBase text).2 := by
  unfold splitBase
  split
  · exact ⟨_, .sixteen, rfl⟩
  · exact ⟨_, .sixteenUpper, rfl⟩
  · exact ⟨_, .ten, rfl⟩

private theorem splitBase_of_not_mem (lower : 'x' ∉ text) (upper : 'X' ∉ text) :
    splitBase text = (10, text) := by
  unfold splitBase
  split
  · simp at lower
  · simp at upper
  · rfl

private theorem BaseMark.splitBase_eq {mark : List Char} (marked : BaseMark mark base)
    (number : IsDigits base text n) :
    splitBase (mark ++ text) = (base, text) := by
  cases marked with
  | ten =>
    obtain ⟨sign, digits, values, signed, -, rfl, spelled, -⟩ := number
    have unmarked {x : Char} (other : x ∉ "+0123456789abcdefABCDEF".toList) :
        x ∉ sign ++ digits := by
      rw [show "+0123456789abcdefABCDEF".toList = '+' :: "0123456789abcdefABCDEF".toList by decide,
        List.mem_cons, not_or] at other
      have unsigned : x ∉ sign := by rcases signed with rfl | rfl <;> simp [other.1]
      have undigit : x ∉ digits := not_mem_of_forall₂_isDigit spelled (by decide) other.2
      simp [unsigned, undigit]
    exact splitBase_of_not_mem (unmarked (by decide)) (unmarked (by decide))
  | sixteen => rfl
  | sixteenUpper => rfl

theorem isNumeral_iff : IsNumeral text n ↔
    digits? (splitBase (text.filter (· ≠ '_'))).1 (splitBase (text.filter (· ≠ '_'))).2 =
      some n := by
  constructor
  · rintro ⟨mark, base, number, marked, cut, value⟩
    rw [cut, marked.splitBase_eq value]
    exact (digits?_eq_some_iff marked.le_sixteen).mpr value
  · intro read
    obtain ⟨mark, marked, cut⟩ := exists_baseMark (text.filter (· ≠ '_'))
    exact ⟨mark, _, _, marked, cut, (digits?_eq_some_iff marked.le_sixteen).mp read⟩

theorem IsNumeral.ne_nil (numeral : IsNumeral text n) : text ≠ [] := by
  rintro rfl
  obtain ⟨mark, base, number, -, cut, sign, digits, values, -, nonempty, rfl, -⟩ := numeral
  have nothing : mark ++ (sign ++ digits) = [] := cut.symm
  exact nonempty (List.append_eq_nil_iff.mp (List.append_eq_nil_iff.mp nothing).2).2

theorem IsNumeral.unique {m : Nat} (a : IsNumeral text n) (b : IsNumeral text m) : n = m :=
  Option.some.inj ((isNumeral_iff.mp a).symm.trans (isNumeral_iff.mp b))

theorem numeral?_eq_some_iff : numeral? text = some n ↔ IsNumeral text n ∧ n ≤ numeralLimit := by
  rw [isNumeral_iff, numeral?, Option.filter_eq_some_iff, decide_eq_true_eq]

/-! ### Numbers by their digits -/

/-- The last digit stands behind those of the number without it. -/
theorem toDigits_eq (two : 1 < base) (n : Nat) :
    Nat.toDigits base n =
      (if n < base then [] else Nat.toDigits base (n / base)) ++ [(n % base).digitChar] := by
  rw [Nat.toDigits_eq_if two]
  split
  next small => rw [Nat.mod_eq_of_lt small, List.nil_append]
  · rfl

theorem exists_values_toDigits (two : 1 < base) (n : Nat) : ∃ values : List Nat,
    Nat.toDigits base n = values.map Nat.digitChar ∧ (∀ d ∈ values, d < base) ∧
      Nat.ofDigits base values.reverse = n := by
  -- Over the number: the digits before the last one have the value of the quotient.
  induction n using Nat.strongRecOn with
  | ind n ih =>
    have last : n % base < base := Nat.mod_lt n (by omega)
    rw [toDigits_eq two]
    split
    next small =>
      refine ⟨[n % base], rfl, by simpa using last, ?_⟩
      rw [List.reverse_singleton, Nat.ofDigits_singleton, Nat.mod_eq_of_lt small]
    next large =>
      obtain ⟨values, front, below, value⟩ := ih (n / base) (Nat.div_lt_self (by omega) two)
      refine ⟨values ++ [n % base], by rw [front, List.map_append, List.map_singleton], ?_, ?_⟩
      · simpa [or_imp, forall_and, last] using below
      · rw [List.reverse_append, List.reverse_singleton, List.singleton_append,
          Nat.ofDigits_cons, value, Nat.mod_add_div]

private theorem forall₂_zeros (positive : 0 < base) (zeros : Nat) :
    List.Forall₂ (IsDigit base) (List.replicate zeros '0') (List.replicate zeros 0) := by
  induction zeros with
  | zero => exact .nil
  | succ zeros ih => exact .cons ⟨positive, .inl rfl⟩ ih

private theorem isDigits_padded (two : 1 < base) (zeros : Nat)
    (spelled : List.Forall₂ (fun c d => c = d ∨ c = Char.toUpper d) digits (Nat.toDigits base n)) :
    IsDigits base (List.replicate zeros '0' ++ digits) n := by
  obtain ⟨values, toDigits, below, value⟩ := exists_values_toDigits two n
  rw [toDigits, List.forall₂_map_right_iff] at spelled
  have each : List.Forall₂ (IsDigit base) digits values :=
    ((List.forall₂_and_left _ _).mpr ⟨below, spelled.flip⟩).flip
  have nonempty : digits ≠ [] := by
    rintro rfl
    cases spelled
    exact Nat.toDigits_ne_nil toDigits
  refine ⟨[], _, List.replicate zeros 0 ++ values, .inl rfl, by simp [nonempty], rfl,
    List.rel_append (forall₂_zeros (by omega) zeros) each, ?_⟩
  rw [List.reverse_append, List.reverse_replicate, Nat.ofDigits_append_replicate_zero, value]

theorem toList_toString (n : Nat) : (toString n).toList = Nat.toDigits 10 n := by
  rw [Nat.toString_eq_ofList_toDigits, String.toList_ofList]

theorem isNumeral_decimal {zeros : Nat}
    (spelled : text.filter (· ≠ '_') = List.replicate zeros '0' ++ (toString n).toList) :
    IsNumeral text n := by
  refine ⟨[], 10, _, .ten, spelled, isDigits_padded (by decide) zeros ?_⟩
  rw [toList_toString]
  exact List.forall₂_same.mpr fun _ _ => .inl rfl

theorem isNumeral_hexadecimal {mark : List Char} {zeros : Nat} (marked : BaseMark mark 16)
    (either : List.Forall₂ (fun c d => c = d ∨ c = Char.toUpper d) digits (Nat.toDigits 16 n))
    (spelled : text.filter (· ≠ '_') = mark ++ (List.replicate zeros '0' ++ digits)) :
    IsNumeral text n :=
  ⟨mark, 16, _, marked, spelled, isDigits_padded (by decide) zeros either⟩

private theorem le_numeralLimit_iff : n ≤ numeralLimit ↔ n < 2 ^ 64 := Nat.lt_succ_iff.symm

theorem IsNumeral.numeral?_eq (numeral : IsNumeral text n) :
    numeral? text = if n < 2 ^ 64 then some n else none := by
  split
  next fits => exact numeral?_eq_some_iff.mpr ⟨numeral, le_numeralLimit_iff.mpr fits⟩
  next large =>
    rw [Option.eq_none_iff_forall_not_mem]
    intro m read
    obtain ⟨also, fits⟩ := numeral?_eq_some_iff.mp read
    rw [numeral.unique also, ← le_numeralLimit_iff] at large
    exact large fits

/-- What a reader that tests the size of a number makes of a numeral: one of more than 64 bits is
bad to it. -/
theorem IsNumeral.read_eq {ε α : Type} {test : Nat → Prop} [DecidablePred test] {take : Nat → α}
    {large bad : ε} (short : ∀ n, test n → n < 2 ^ 64) (numeral : IsNumeral text n) :
    (match numeral? text with
      | none => .error bad
      | some n => if test n then .ok (take n) else .error large : Except ε α) =
      if test n then .ok (take n) else .error (if n < 2 ^ 64 then large else bad) := by
  rw [numeral.numeral?_eq]
  by_cases fits : n < 2 ^ 64
  · rw [if_pos fits, if_pos fits]
  · rw [if_neg fits, if_neg (mt (short n) fits), if_neg fits]

/--
The numbers that texts are read as. What is read is a numeral, underscores aside, and its value is
below `2 ^ 64`. Every such numeral is read, and no other text. In particular every number of 64 bits
is read back from its decimal digits, and from its hexadecimal digits behind the mark of their base,
each a letter of either case, with any number of zeros in front of the digits and underscores
anywhere.
-/
theorem numerals_read_exactly (text : List Char) :
    (∀ n, numeral? text = some n ↔ IsNumeral text n ∧ n < 2 ^ 64) ∧
      (numeral? text = none ↔ ∀ n, IsNumeral text n → 2 ^ 64 ≤ n) ∧
      ∀ n zeros, n < 2 ^ 64 →
        (text.filter (· ≠ '_') = List.replicate zeros '0' ++ (toString n).toList →
          numeral? text = some n) ∧
        ∀ mark digits, BaseMark mark 16 →
          List.Forall₂ (fun c d => c = d ∨ c = Char.toUpper d) digits (Nat.toDigits 16 n) →
          text.filter (· ≠ '_') = mark ++ (List.replicate zeros '0' ++ digits) →
            numeral? text = some n := by
  have read_iff (n : Nat) : numeral? text = some n ↔ IsNumeral text n ∧ n < 2 ^ 64 := by
    rw [numeral?_eq_some_iff, le_numeralLimit_iff]
  refine ⟨read_iff, ?_, fun n zeros fits =>
    ⟨fun spelled => ?_, fun mark digits marked either spelled => ?_⟩⟩
  · rw [Option.eq_none_iff_forall_not_mem]
    refine forall_congr' fun n => ?_
    rw [Option.mem_def, read_iff, not_and, Nat.not_lt]
  · exact (read_iff n).mpr ⟨isNumeral_decimal spelled, fits⟩
  · exact (read_iff n).mpr ⟨isNumeral_hexadecimal marked either spelled, fits⟩

/-- The largest number of 64 bits in both bases, with underscores also inside the mark, and the
number above it. -/
theorem numerals_read_exactly_largest :
    let largest := 18446744073709551615
    let decimal := "_00_18_446_744_073_709_551_615".toList
    let hexadecimal := "0_X00ffFF_FffF_FFff__fFFf_".toList
    let above := "0x+1_0000_0000_0000_0000".toList
    (decimal.filter (· ≠ '_') = List.replicate 2 '0' ++ (toString largest).toList ∧
        numeral? decimal = some largest) ∧
      (hexadecimal.filter (· ≠ '_') = ['0', 'X'] ++
        (List.replicate 2 '0' ++ "ffFFFffFFFfffFFf".toList) ∧
        numeral? hexadecimal = some largest) ∧
      IsNumeral above (largest + 1) ∧ numeral? above = none := by
  intro largest decimal hexadecimal above
  have fits : largest < 2 ^ 64 := by decide
  have decimal_spelled : decimal.filter (· ≠ '_') = List.replicate 2 '0' ++
      (toString largest).toList := by
    decide +kernel
  have hex_spelled : hexadecimal.filter (· ≠ '_') =
      ['0', 'X'] ++ (List.replicate 2 '0' ++ "ffFFFffFFFfffFFf".toList) := by decide +kernel
  have above_numeral : IsNumeral above (largest + 1) :=
    ⟨['0', 'x'], 16, "+10000000000000000".toList, .sixteen, by decide +kernel,
      ['+'], '1' :: List.replicate 16 '0', 1 :: List.replicate 16 0, .inr rfl,
      List.cons_ne_nil _ _, by decide,
      .cons ⟨by decide, .inl rfl⟩ (forall₂_zeros (by decide) 16), by decide +kernel⟩
  refine ⟨⟨decimal_spelled, ?_⟩, ⟨hex_spelled, ?_⟩, above_numeral, ?_⟩
  · exact ((numerals_read_exactly decimal).2.2 largest 2 fits).1 decimal_spelled
  · exact ((numerals_read_exactly hexadecimal).2.2 largest 2 fits).2 _ _ .sixteenUpper
      (by decide +kernel)
      hex_spelled
  · refine (numerals_read_exactly above).2.1.mpr fun n numeral => ?_
    have reached : 2 ^ 64 ≤ largest + 1 := by decide
    rw [numeral.unique above_numeral]
    exact reached

end RemoteKeys.Text
