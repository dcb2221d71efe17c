import Mathlib.Algebra.Order.Field.Rat
import Mathlib.Data.List.DropRight
import Mathlib.Tactic.FieldSimp
import Mathlib.Tactic.Ring

/-!
# Fixed Point Numerals

What digits in a base write, before a point and after it, most significant
digit first. A digit is a number below the base, so a list of digits is always
a numeral.

An amount with a fixed number of places is a whole number of its smallest unit.
`scaled_iff` says how the two are read from each other: a fraction that fits
is filled up with zeros to the number of places, and the point is left out.
`fraction_trimmed` goes the other way, since zeros at the end of a fraction
write nothing.

## Main definitions

* `whole`: The number that digits write.
* `fraction`: The number they write after a point.
* `trimmed`: A fraction without the zeros at its end.

## Theorems

* `whole_append`: Digits side by side.
* `fraction_eq`: A fraction is its digits over a power of the base.
* `fraction_trimmed`: Zeros at the end of a fraction write nothing.
* `cut_eq`: Where the point is set in a row of digits.
* `scaled_iff`: Numerals with a fixed number of places.
-/

namespace FixedPoint

variable {b : Nat}

/-- The number that digits write, most significant first. -/
def whole (digits : List (Fin b)) : Nat := digits.foldl (fun n d => n * b + d.val) 0

/-- The number they write after a point: each digit counts a `b`-th of the one
    before it. -/
def fraction : List (Fin b) → ℚ
  | [] => 0
  | d :: rest => (d.val + fraction rest) / b

theorem whole_nil : whole ([] : List (Fin b)) = 0 := rfl

theorem whole_concat (digits : List (Fin b)) (d : Fin b) :
    whole (digits ++ [d]) = whole digits * b + d.val := by
  rw [whole, List.foldl_append, List.foldl_cons, List.foldl_nil, whole]

/-- Digits side by side: the first ones count for as many places more as there
    are others. -/
theorem whole_append (xs ys : List (Fin b)) :
    whole (xs ++ ys) = whole xs * b ^ ys.length + whole ys := by
  induction ys using List.reverseRecOn with
  | nil => simp [whole_nil]
  | append_singleton ys d ih =>
      rw [← List.append_assoc, whole_concat, ih, whole_concat, List.length_append,
        List.length_singleton]
      ring

theorem whole_cons (d : Fin b) (rest : List (Fin b)) :
    whole (d :: rest) = d.val * b ^ rest.length + whole rest := by
  have happend := whole_append [d] rest
  rw [List.singleton_append] at happend
  rw [happend, whole, List.foldl_cons, List.foldl_nil, Nat.zero_mul, Nat.zero_add]

section Zeros

variable [NeZero b]

theorem whole_zeros (k : Nat) : whole (List.replicate k (0 : Fin b)) = 0 := by
  induction k with
  | zero => rfl
  | succ k ih =>
      rw [List.replicate_succ, whole_cons, ih, Fin.val_zero, Nat.zero_mul]

/-- Zeros in front write nothing. -/
theorem whole_leftpad (k : Nat) (digits : List (Fin b)) :
    whole (digits.leftpad k 0) = whole digits := by
  rw [List.leftpad, whole_append, whole_zeros, Nat.zero_mul, Nat.zero_add]

/-- A zero at the end is one place more. -/
theorem whole_append_zeros (digits : List (Fin b)) (k : Nat) :
    whole (digits ++ List.replicate k 0) = whole digits * b ^ k := by
  rw [whole_append, whole_zeros, List.length_replicate, Nat.add_zero]

/-- A fraction is its digits over a power of the base. -/
theorem fraction_eq (digits : List (Fin b)) :
    fraction digits = whole digits / (b : ℚ) ^ digits.length := by
  have hbase : (b : ℚ) ≠ 0 := Nat.cast_ne_zero.mpr (NeZero.ne b)
  induction digits with
  | nil => simp [fraction, whole_nil]
  | cons d rest ih =>
      rw [fraction, ih, whole_cons, List.length_cons]
      push_cast
      field_simp
      ring

theorem fraction_append_zeros (digits : List (Fin b)) (k : Nat) :
    fraction (digits ++ List.replicate k 0) = fraction digits := by
  have hbase : (b : ℚ) ≠ 0 := Nat.cast_ne_zero.mpr (NeZero.ne b)
  rw [fraction_eq, fraction_eq, whole_append_zeros, List.length_append, List.length_replicate,
    pow_add]
  push_cast
  exact mul_div_mul_right _ _ (pow_ne_zero k hbase)

/-- A fraction without the zeros at its end. -/
def trimmed (digits : List (Fin b)) : List (Fin b) := digits.rdropWhile (· = 0)

theorem length_trimmed_le (digits : List (Fin b)) : (trimmed digits).length ≤ digits.length :=
  (List.rdropWhile_prefix _ _).length_le

/-- Zeros at the end of a fraction write nothing. -/
theorem fraction_trimmed (digits : List (Fin b)) :
    fraction (trimmed digits) = fraction digits := by
  induction digits using List.reverseRecOn with
  | nil => rfl
  | append_singleton rest d ih =>
      by_cases hzero : d = 0
      · rw [trimmed, List.rdropWhile_concat_pos _ _ _ (by simpa using hzero), hzero]
        exact ih.trans (fraction_append_zeros rest 1).symm
      · rw [trimmed, List.rdropWhile_concat_neg _ _ _ (by simpa using hzero)]

/-- A point set `k` places from the end divides by the `k`-th power of the base. -/
theorem cut_eq {digits : List (Fin b)} {k : Nat} (hplaces : k ≤ digits.length) :
    whole (digits.take (digits.length - k)) + fraction (digits.drop (digits.length - k))
      = whole digits / (b : ℚ) ^ k := by
  have hbase : (b : ℚ) ≠ 0 := Nat.cast_ne_zero.mpr (NeZero.ne b)
  have hlength : (digits.drop (digits.length - k)).length = k := by
    rw [List.length_drop]
    omega
  have hdigits := whole_append (digits.take (digits.length - k)) (digits.drop (digits.length - k))
  rw [List.take_append_drop, hlength] at hdigits
  rw [fraction_eq, hlength, hdigits]
  push_cast
  field_simp

/-- A numeral with at most `k` places is `n` over the `k`-th power of the base
    exactly if its digits, filled up to `k` places, write `n`. -/
theorem scaled_iff {w f : List (Fin b)} {k : Nat} (hplaces : f.length ≤ k) (n : ℤ) :
    whole w + fraction f = n / (b : ℚ) ^ k ↔ (whole (w ++ f.rightpad k 0) : ℤ) = n := by
  have hbase : (b : ℚ) ≠ 0 := Nat.cast_ne_zero.mpr (NeZero.ne b)
  have hlength : (f.rightpad k (0 : Fin b)).length = k := by
    rw [List.length_rightpad, Nat.max_eq_left hplaces]
  have hvalue : (whole (w ++ f.rightpad k (0 : Fin b)) : ℚ) / (b : ℚ) ^ k
      = whole w + fraction f := by
    have hpad : fraction (f.rightpad k (0 : Fin b)) = fraction f := fraction_append_zeros f _
    rw [whole_append, ← hpad, fraction_eq, hlength]
    push_cast
    field_simp
  rw [← hvalue, div_left_inj' (pow_ne_zero k hbase)]
  exact_mod_cast Iff.rfl

end Zeros

end FixedPoint
