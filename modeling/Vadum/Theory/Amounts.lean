import Mathlib.Data.List.GetD
import Vadum.Apps.Format
import Vadum.Numeral.FixedPoint

/-!
# Amounts are Exact

What the user types and what the user reads is the amount, to the last place.
`parseAmount` takes the plain decimal numerals that the mint has places for, at
the number they write, and nothing else. `formatAmount` writes such a numeral, so
what was shown reads back as what was meant.

The strings are read off a `Numeral` and back. What number it writes, and how
that depends on the number of places, is left to the fixed point numerals in
base ten.

## Main definitions

* `Numeral`: A plain decimal numeral.
* `Numeral.text`, `Numeral.value`: How it is written, and what.
* `Numeral.units`: The same in base units.

## Theorems

* `isPlainNumber_iff`: The expression matches what numerals look like.
* `parseAmount_eq_some`: The texts that are accepted, and as what.
* `formatAmount_eq`: Base units are shown as a numeral of their value.
* `amounts_exact`: The two directions agree, and with the numerals.
-/

namespace Vadum

/-- A plain decimal numeral: digits with at most one point, and at least one
    digit. -/
structure Numeral where
  whole : List (Fin 10)
  fraction : List (Fin 10)
  pointed : Bool
  digit : whole ≠ [] ∨ fraction ≠ []
  unpointed : pointed = false → fraction = []

/-- The character of a digit. -/
def digitUnit (d : Fin 10) : UInt16 := UInt16.ofNat (0x30 + d.val)

/-- How a numeral is written. -/
def Numeral.text (numeral : Numeral) : JsString :=
  numeral.whole.map digitUnit
    ++ (if numeral.pointed then pointUnit :: numeral.fraction.map digitUnit else [])

/-- What a numeral writes. -/
def Numeral.value (numeral : Numeral) : ℚ :=
  FixedPoint.whole numeral.whole + FixedPoint.fraction numeral.fraction

/-- The base units its digits write, filled up with zeros to the places of the
    mint. -/
def Numeral.units (numeral : Numeral) (decimals : Nat) : Nat :=
  FixedPoint.whole (numeral.whole ++ numeral.fraction.rightpad decimals 0)

section Digits

theorem toNat_digitUnit (d : Fin 10) : (digitUnit d).toNat = 0x30 + d.val := by
  rw [digitUnit, UInt16.toNat_ofNat']
  exact Nat.mod_eq_of_lt (by omega)

theorem digitUnit_injective : Function.Injective digitUnit := by
  intro d e heq
  have hnat := congrArg UInt16.toNat heq
  rw [toNat_digitUnit, toNat_digitUnit] at hnat
  omega

theorem isDigitUnit_iff {unit : UInt16} : isDigitUnit unit = true ↔ ∃ d, digitUnit d = unit := by
  rw [isDigitUnit, decide_eq_true_eq, UInt16.le_iff_toNat_le, UInt16.le_iff_toNat_le]
  constructor
  · rintro ⟨hlow, hhigh⟩
    have hlt : unit.toNat - 0x30 < 10 := by
      have : unit.toNat ≤ 0x39 := hhigh
      omega
    refine ⟨⟨unit.toNat - 0x30, hlt⟩, UInt16.toNat_inj.mp ?_⟩
    rw [toNat_digitUnit]
    exact Nat.add_sub_cancel' hlow
  · rintro ⟨d, rfl⟩
    rw [toNat_digitUnit]
    have := d.isLt
    exact ⟨Nat.le_add_right _ _, show 0x30 + d.val ≤ 0x39 by omega⟩

theorem isDigitUnit_digitUnit (d : Fin 10) : isDigitUnit (digitUnit d) = true :=
  isDigitUnit_iff.mpr ⟨d, rfl⟩

/-- A string of digits is one list of digits. -/
theorem exists_digits {text : JsString} (hdigits : ∀ unit ∈ text, isDigitUnit unit = true) :
    ∃ digits : List (Fin 10), text = digits.map digitUnit := by
  induction text with
  | nil => exact ⟨[], rfl⟩
  | cons unit rest ih =>
      rcases isDigitUnit_iff.mp (hdigits unit List.mem_cons_self) with ⟨d, hd⟩
      rcases ih fun u hu => hdigits u (List.mem_cons_of_mem _ hu) with ⟨digits, hrest⟩
      exact ⟨d :: digits, by rw [List.map_cons, hd, hrest]⟩

/-- `BigInt` reads the number that the digits write. -/
theorem bigIntOfDigits_map (digits : List (Fin 10)) :
    bigIntOfDigits (digits.map digitUnit) = FixedPoint.whole digits := by
  have hdigit : ∀ d : Fin 10, (digitUnit d).toNat - zeroUnit.toNat = d.val := by
    intro d
    rw [toNat_digitUnit]
    exact Nat.add_sub_cancel_left _ _
  rw [bigIntOfDigits, FixedPoint.whole, List.foldl_map]
  simp only [hdigit]

/-- The digits of a number write it, and there is at least one. -/
theorem decimalDigits_eq (n : Nat) : ∃ digits : List (Fin 10),
    decimalDigits n = digits.map digitUnit ∧ FixedPoint.whole digits = n ∧ digits ≠ [] := by
  have hunit : ∀ d : Fin 10, UInt16.ofNat (Nat.digitChar d.val).toNat = digitUnit d := by decide
  induction n using Nat.strongRecOn with
  | ind n ih =>
      by_cases hlt : n < 10
      · refine ⟨[⟨n, hlt⟩], ?_, FixedPoint.whole_concat [] ⟨n, hlt⟩ |>.trans ?_,
          List.cons_ne_nil _ _⟩
        · rw [decimalDigits, Nat.toDigits_of_lt_base hlt, List.map_singleton, List.map_singleton,
            hunit ⟨n, hlt⟩]
        · rw [FixedPoint.whole_nil, Nat.zero_mul, Nat.zero_add]
      -- The last digit is the remainder, and the others are the quotient's.
      · rcases ih (n / 10) (by omega) with ⟨digits, heq, hvalue, _⟩
        have hmod : n % 10 < 10 := Nat.mod_lt n (by decide)
        refine ⟨digits ++ [⟨n % 10, hmod⟩], ?_, ?_, List.concat_ne_nil _ _⟩
        · rw [decimalDigits, Nat.toDigits_of_base_le (by decide) (by omega), List.map_append,
            List.map_singleton, hunit ⟨n % 10, hmod⟩, List.map_append, List.map_singleton, ← heq,
            decimalDigits]
        · rw [FixedPoint.whole_concat, hvalue]
          exact Nat.div_add_mod' n 10

end Digits

section Texts

theorem isDigitUnit_point : isDigitUnit pointUnit = false := by decide

/-- No digit is white space. -/
theorem isWhiteSpace_digitUnit (d : Fin 10) : isWhiteSpace (digitUnit d) = false := by
  revert d
  decide

/-- The expression matches what numerals look like, and the two strings that have
    no digit. -/
theorem isPlainNumber_iff {text : JsString} : isPlainNumber text = true ↔
    ∃ (whole fraction : List (Fin 10)) (pointed : Bool), (pointed = false → fraction = []) ∧
      text = whole.map digitUnit
        ++ (if pointed then pointUnit :: fraction.map digitUnit else []) := by
  constructor
  · intro hplain
    rcases exists_digits (fun unit hu => List.mem_takeWhile_imp hu :
      ∀ unit ∈ text.takeWhile isDigitUnit, isDigitUnit unit = true) with ⟨whole, hwhole⟩
    have hsplit := List.takeWhile_append_dropWhile (p := isDigitUnit) (l := text)
    rw [isPlainNumber] at hplain
    -- What is left behind the digits is nothing, or a point and digits.
    cases hrest : text.dropWhile isDigitUnit with
    | nil =>
        rw [hrest, hwhole] at hsplit
        exact ⟨whole, [], false, fun _ => rfl, hsplit.symm⟩
    | cons unit rest =>
        rw [hrest] at hplain
        rcases of_decide_eq_true hplain with ⟨rfl, hall⟩
        rcases exists_digits (List.all_eq_true.mp hall) with ⟨fraction, rfl⟩
        rw [hrest, hwhole] at hsplit
        exact ⟨whole, fraction, true, fun h => (by cases h), hsplit.symm⟩
  · rintro ⟨whole, fraction, pointed, hpointed, rfl⟩
    have hdigits : ∀ unit ∈ whole.map digitUnit, isDigitUnit unit = true := by
      intro unit hu
      rcases List.mem_map.mp hu with ⟨d, _, rfl⟩
      exact isDigitUnit_digitUnit d
    rw [isPlainNumber, List.dropWhile_append_of_pos hdigits]
    cases pointed with
    | false => rfl
    | true =>
        rw [if_pos rfl, List.dropWhile_cons_of_neg (by rw [isDigitUnit_point]; decide)]
        refine decide_eq_true ⟨rfl, List.all_eq_true.mpr fun unit hu => ?_⟩
        rcases List.mem_map.mp hu with ⟨d, _, rfl⟩
        exact isDigitUnit_digitUnit d

theorem Numeral.exists_digit_mem (numeral : Numeral) : ∃ d, digitUnit d ∈ numeral.text := by
  rcases numeral.digit with hwhole | hfraction
  · rcases List.exists_mem_of_ne_nil _ hwhole with ⟨d, hd⟩
    exact ⟨d, List.mem_append_left _ (List.mem_map_of_mem hd)⟩
  · have hpointed : numeral.pointed = true :=
      Bool.eq_true_of_not_eq_false fun h => hfraction (numeral.unpointed h)
    rcases List.exists_mem_of_ne_nil _ hfraction with ⟨d, hd⟩
    refine ⟨d, List.mem_append_right _ ?_⟩
    rw [if_pos hpointed]
    exact List.mem_cons_of_mem _ (List.mem_map_of_mem hd)

theorem Numeral.mem_text {numeral : Numeral} {unit : UInt16} (hmem : unit ∈ numeral.text) :
    unit = pointUnit ∨ ∃ d, unit = digitUnit d := by
  rcases List.mem_append.mp hmem with hwhole | hfraction
  · rcases List.mem_map.mp hwhole with ⟨d, _, rfl⟩
    exact .inr ⟨d, rfl⟩
  · by_cases hpointed : numeral.pointed = true
    · rw [if_pos hpointed] at hfraction
      rcases List.mem_cons.mp hfraction with rfl | hmap
      · exact .inl rfl
      · rcases List.mem_map.mp hmap with ⟨d, _, rfl⟩
        exact .inr ⟨d, rfl⟩
    · rw [if_neg hpointed] at hfraction
      cases hfraction

/-- What passes the checks on the text is what numerals look like. -/
theorem exists_numeral_iff {text : JsString} :
    ¬ (isPlainNumber text = false ∨ text = [] ∨ text = [pointUnit]) ↔
      ∃ numeral : Numeral, text = numeral.text := by
  constructor
  · intro hpass
    have hplain : isPlainNumber text = true :=
      Bool.eq_true_of_not_eq_false fun h => hpass (.inl h)
    rcases isPlainNumber_iff.mp hplain with ⟨whole, fraction, pointed, hpointed, rfl⟩
    refine ⟨⟨whole, fraction, pointed, ?_, hpointed⟩, rfl⟩
    by_contra hempty
    rcases not_or.mp hempty with ⟨hwhole, hfraction⟩
    rw [not_not.mp hwhole, not_not.mp hfraction] at hpass
    -- Without a digit the text is empty or a lone point.
    cases pointed with
    | false => exact hpass (.inr (.inl rfl))
    | true => exact hpass (.inr (.inr rfl))
  · rintro ⟨numeral, rfl⟩ hfail
    rcases numeral.exists_digit_mem with ⟨d, hd⟩
    rcases hfail with hplain | hnil | hpoint
    · have htrue := isPlainNumber_iff.mpr
        ⟨numeral.whole, numeral.fraction, numeral.pointed, numeral.unpointed, rfl⟩
      rw [← Numeral.text, hplain] at htrue
      cases htrue
    · rw [hnil] at hd
      cases hd
    · rw [hpoint, List.mem_singleton] at hd
      have hdigit := isDigitUnit_digitUnit d
      rw [hd, isDigitUnit_point] at hdigit
      cases hdigit

/-- There is nothing to trim around a numeral. -/
theorem Numeral.trim_text (numeral : Numeral) : trim numeral.text = numeral.text := by
  have hnone : ∀ unit ∈ numeral.text, ¬ isWhiteSpace unit = true := by
    intro unit hu
    rcases Numeral.mem_text hu with rfl | ⟨d, rfl⟩
    · decide
    · rw [isWhiteSpace_digitUnit]
      decide
  have hdrop : numeral.text.dropWhile isWhiteSpace = numeral.text :=
    List.dropWhile_eq_self_iff.mpr fun hl => hnone _ (List.getElem_mem hl)
  rw [trim, hdrop]
  exact List.rdropWhile_eq_self_iff.mpr fun hl => hnone _ (List.getLast_mem hl)

theorem pointUnit_not_mem (digits : List (Fin 10)) : pointUnit ∉ digits.map digitUnit := by
  intro hmem
  rcases List.mem_map.mp hmem with ⟨d, _, hd⟩
  have hdigit := isDigitUnit_digitUnit d
  rw [hd, isDigitUnit_point] at hdigit
  cases hdigit

/-- The parts between the points are the digits before and after it. -/
theorem Numeral.splitOn_text (numeral : Numeral) :
    (numeral.text.splitOn pointUnit).getD 0 [] = numeral.whole.map digitUnit ∧
      (numeral.text.splitOn pointUnit).getD 1 [] = numeral.fraction.map digitUnit := by
  by_cases hpointed : numeral.pointed = true
  · rw [Numeral.text, if_pos hpointed,
      List.splitOn_append_cons_self_of_not_mem (pointUnit_not_mem numeral.whole),
      List.splitOn_eq_singleton (pointUnit_not_mem numeral.fraction)]
    exact ⟨rfl, rfl⟩
  · have hfraction := numeral.unpointed (Bool.eq_false_of_not_eq_true hpointed)
    rw [Numeral.text, if_neg hpointed, List.append_nil,
      List.splitOn_eq_singleton (pointUnit_not_mem numeral.whole), hfraction]
    exact ⟨rfl, rfl⟩

/-- One text writes one number. -/
theorem Numeral.value_eq_of_text {x y : Numeral} (heq : x.text = y.text) : x.value = y.value := by
  have hx := x.splitOn_text
  have hy := y.splitOn_text
  rw [heq] at hx
  have hwhole := List.map_injective_iff.mpr digitUnit_injective (hx.1.symm.trans hy.1)
  have hfraction := List.map_injective_iff.mpr digitUnit_injective (hx.2.symm.trans hy.2)
  rw [Numeral.value, Numeral.value, hwhole, hfraction]

end Texts

section Parsing

/-- The number that `BigInt` is given: an empty whole part reads as a zero, and the
    fraction is filled up with zeros. -/
theorem bigIntOfDigits_parts (numeral : Numeral) (decimals : Nat) :
    bigIntOfDigits ((if numeral.whole.map digitUnit = [] then [zeroUnit]
        else numeral.whole.map digitUnit)
      ++ (numeral.fraction.map digitUnit).rightpad decimals zeroUnit)
      = numeral.units decimals := by
  have hzero : digitUnit 0 = zeroUnit := by decide
  have hpad : (numeral.fraction.map digitUnit).rightpad decimals zeroUnit
      = (numeral.fraction.rightpad decimals 0).map digitUnit := by
    rw [List.rightpad, List.rightpad, List.map_append, List.map_replicate, List.length_map, hzero]
  rw [hpad, Numeral.units]
  by_cases hwhole : numeral.whole = []
  · rw [if_pos (by rw [hwhole, List.map_nil]), hwhole, ← hzero, ← List.map_singleton,
      ← List.map_append, bigIntOfDigits_map, List.singleton_append, FixedPoint.whole_cons,
      List.nil_append, Fin.val_zero, Nat.zero_mul, Nat.zero_add]
  · rw [if_neg (by rwa [List.map_eq_nil_iff]), ← List.map_append, bigIntOfDigits_map]

/-- With enough places, the base units are the value times a power of ten. -/
theorem Numeral.value_eq_iff {numeral : Numeral} {decimals : Nat}
    (hplaces : numeral.fraction.length ≤ decimals) (n : Int) :
    numeral.value = n / 10 ^ decimals ↔ (numeral.units decimals : Int) = n :=
  FixedPoint.scaled_iff (w := numeral.whole) hplaces n

/-- What is made of a numeral: with too many places, or too large, nothing, and
    otherwise its base units. -/
theorem parseAmount_of_text {text : JsString} {numeral : Numeral}
    (htext : trim text = numeral.text) (decimals : Nat) :
    parseAmount text decimals =
      if numeral.fraction.length > decimals then none
      else if (numeral.units decimals : Int) > u64Max then none
      else some (numeral.units decimals : Int) := by
  have hpass := exists_numeral_iff.mpr ⟨numeral, rfl⟩
  have hparts := numeral.splitOn_text
  rw [parseAmount]
  simp only [htext]
  rw [if_neg hpass, hparts.1, hparts.2, List.length_map, bigIntOfDigits_parts]

/-- The texts that are accepted, and as what. -/
theorem parseAmount_eq_some {text : JsString} {decimals : Nat} {n : Int} :
    parseAmount text decimals = some n ↔
      ∃ numeral : Numeral, trim text = numeral.text ∧ numeral.fraction.length ≤ decimals ∧
        numeral.value = n / 10 ^ decimals ∧ n ≤ u64Max := by
  constructor
  · intro hsome
    by_cases hpass : isPlainNumber (trim text) = false ∨ trim text = [] ∨ trim text = [pointUnit]
    · rw [parseAmount, if_pos hpass] at hsome
      cases hsome
    · rcases exists_numeral_iff.mp hpass with ⟨numeral, htext⟩
      rw [parseAmount_of_text htext] at hsome
      -- The two limits, on the places and on the size.
      by_cases hplaces : numeral.fraction.length > decimals
      · rw [if_pos hplaces] at hsome
        cases hsome
      · rw [if_neg hplaces] at hsome
        by_cases hlarge : (numeral.units decimals : Int) > u64Max
        · rw [if_pos hlarge] at hsome
          cases hsome
        · rw [if_neg hlarge] at hsome
          have hunits := Option.some.inj hsome
          exact ⟨numeral, htext, not_lt.mp hplaces,
            (Numeral.value_eq_iff (not_lt.mp hplaces) n).mpr hunits, hunits ▸ not_lt.mp hlarge⟩
  · rintro ⟨numeral, htext, hplaces, hvalue, hle⟩
    rw [parseAmount_of_text htext, if_neg (not_lt.mpr hplaces),
      (Numeral.value_eq_iff hplaces n).mp hvalue, if_neg (not_lt.mpr hle)]

end Parsing

section Formatting

/-- The zeros are dropped from the end of the characters as from the digits. -/
theorem rdropWhile_map_digitUnit (digits : List (Fin 10)) :
    (digits.map digitUnit).rdropWhile (· = zeroUnit)
      = (FixedPoint.trimmed digits).map digitUnit := by
  have hzero : ∀ d : Fin 10, digitUnit d = zeroUnit ↔ d = 0 := by decide
  induction digits using List.reverseRecOn with
  | nil => rfl
  | append_singleton rest d ih =>
      rw [List.map_append, List.map_singleton, FixedPoint.trimmed]
      by_cases hd : d = 0
      · rw [List.rdropWhile_concat_pos _ _ _ (by simpa using (hzero d).mpr hd), ih,
          FixedPoint.trimmed, List.rdropWhile_concat_pos _ _ _ (by simpa using hd)]
      · rw [List.rdropWhile_concat_neg _ _ _ (by simpa [hzero d] using hd),
          List.rdropWhile_concat_neg _ _ _ (by simpa using hd), List.map_append,
          List.map_singleton]

/-- The numeral of a row of digits, the last of them after the point and without the
    zeros at the end. -/
def Numeral.ofDigits (digits : List (Fin 10)) (decimals : Nat)
    (hlong : decimals < digits.length) : Numeral where
  whole := digits.take (digits.length - decimals)
  fraction := FixedPoint.trimmed (digits.drop (digits.length - decimals))
  pointed := FixedPoint.trimmed (digits.drop (digits.length - decimals)) ≠ []
  digit := .inl fun hnil => by
    have hlength := congrArg List.length hnil
    rw [List.length_take, List.length_nil] at hlength
    omega
  unpointed := fun hpoint => not_not.mp (of_decide_eq_false hpoint)

theorem Numeral.length_fraction_ofDigits {digits : List (Fin 10)} {decimals : Nat}
    (hlong : decimals < digits.length) :
    (Numeral.ofDigits digits decimals hlong).fraction.length ≤ decimals := by
  refine (FixedPoint.length_trimmed_le _).trans ?_
  rw [List.length_drop]
  omega

theorem Numeral.value_ofDigits {digits : List (Fin 10)} {decimals : Nat}
    (hlong : decimals < digits.length) :
    (Numeral.ofDigits digits decimals hlong).value
      = FixedPoint.whole digits / 10 ^ decimals := by
  rw [Numeral.value, Numeral.ofDigits, FixedPoint.fraction_trimmed]
  exact FixedPoint.cut_eq hlong.le

/-- Digits with more characters than places are shown as their numeral. -/
theorem Numeral.text_ofDigits {digits : List (Fin 10)} {decimals : Nat}
    (hlong : decimals < digits.length) :
    (Numeral.ofDigits digits decimals hlong).text =
      (digits.map digitUnit).take ((digits.map digitUnit).length - decimals)
        ++ (let fraction := if decimals = 0 then []
              else ((digits.map digitUnit).drop
                ((digits.map digitUnit).length - decimals)).rdropWhile (· = zeroUnit)
            if fraction = [] then [] else pointUnit :: fraction) := by
  have hfraction : (if decimals = 0 then []
      else ((digits.map digitUnit).drop
        ((digits.map digitUnit).length - decimals)).rdropWhile (· = zeroUnit))
      = (FixedPoint.trimmed (digits.drop (digits.length - decimals))).map digitUnit := by
    rw [List.length_map, ← List.map_drop, rdropWhile_map_digitUnit]
    by_cases hnone : decimals = 0
    · rw [if_pos hnone, hnone, Nat.sub_zero, List.drop_length]
      rfl
    · rw [if_neg hnone]
  simp only [hfraction, List.map_eq_nil_iff]
  rw [Numeral.text, Numeral.ofDigits, List.length_map, ← List.map_take]
  by_cases hnil : FixedPoint.trimmed (digits.drop (digits.length - decimals)) = []
  · rw [if_neg (by simpa using hnil), if_pos hnil]
  · rw [if_pos (by simpa using hnil), if_neg hnil]

theorem bigIntToString_abs (base : Int) :
    bigIntToString (if base < 0 then -base else base) = decimalDigits base.natAbs := by
  cases base with
  | ofNat n =>
      rw [if_neg (not_lt.mpr (Int.natCast_nonneg n) : ¬ Int.ofNat n < 0)]
      rfl
  | negSucc n =>
      rw [if_pos (Int.negSucc_lt_zero n)]
      rfl

/-- Base units are shown as a numeral of their value, after a minus if they are
    negative. -/
theorem formatAmount_eq (base : Int) (decimals : Nat) : ∃ numeral : Numeral,
    formatAmount base decimals = (if base < 0 then [minusUnit] else []) ++ numeral.text ∧
      numeral.fraction.length ≤ decimals ∧
      numeral.value = |base| / 10 ^ decimals := by
  rcases decimalDigits_eq base.natAbs with ⟨significant, hdecimal, hvalue, _⟩
  have hlong : decimals < (significant.leftpad (decimals + 1) 0).length := by
    rw [List.length_leftpad]
    omega
  have hzero : digitUnit 0 = zeroUnit := by decide
  have hpad : (bigIntToString (if base < 0 then -base else base)).leftpad (decimals + 1) zeroUnit
      = (significant.leftpad (decimals + 1) 0).map digitUnit := by
    rw [bigIntToString_abs, hdecimal, List.leftpad, List.leftpad, List.map_append,
      List.map_replicate, List.length_map, hzero]
  refine ⟨Numeral.ofDigits _ decimals hlong, ?_, Numeral.length_fraction_ofDigits hlong, ?_⟩
  · rw [Numeral.text_ofDigits, formatAmount, ← List.append_assoc]
    simp only [hpad]
  · rw [Numeral.value_ofDigits, FixedPoint.whole_leftpad, hvalue, Nat.cast_natAbs]

/-- A numeral has no sign. -/
theorem Numeral.minusUnit_not_mem (numeral : Numeral) : minusUnit ∉ numeral.text := by
  intro hmem
  have hnot : ∀ d : Fin 10, minusUnit ≠ digitUnit d := by decide
  rcases Numeral.mem_text hmem with hpoint | ⟨d, hd⟩
  · cases hpoint
  · exact hnot d hd

/-- What is shown reads back as what was meant. -/
theorem parseAmount_formatAmount {n : Int} (hnonneg : 0 ≤ n) (hle : n ≤ u64Max) (decimals : Nat) :
    parseAmount (formatAmount n decimals) decimals = some n := by
  rcases formatAmount_eq n decimals with ⟨numeral, htext, hplaces, hvalue⟩
  rw [if_neg (not_lt.mpr hnonneg), List.nil_append] at htext
  rw [abs_of_nonneg hnonneg] at hvalue
  exact parseAmount_eq_some.mpr ⟨numeral, htext ▸ numeral.trim_text, hplaces, hvalue, hle⟩

/-- No two amounts are shown as one line, not even with negative ones among them. -/
theorem formatAmount_injective (decimals : Nat) :
    Function.Injective (formatAmount · decimals) := by
  intro m n heq
  rcases formatAmount_eq m decimals with ⟨x, hx, _, hxvalue⟩
  rcases formatAmount_eq n decimals with ⟨y, hy, _, hyvalue⟩
  have habs : x.text = y.text → |m| = |n| := by
    intro htext
    have hvalue := Numeral.value_eq_of_text htext
    rw [hxvalue, hyvalue, div_left_inj' (pow_ne_zero decimals (by norm_num))] at hvalue
    exact_mod_cast hvalue
  have htext := hx.symm.trans (heq.trans hy)
  by_cases hm : m < 0
  · -- Only one of two amounts with different signs has a minus in front.
    by_cases hn : n < 0
    · rw [if_pos hm, if_pos hn, List.append_cancel_left_eq] at htext
      have := habs htext
      rwa [abs_of_neg hm, abs_of_neg hn, neg_inj] at this
    · rw [if_pos hm, if_neg hn, List.nil_append] at htext
      exact absurd (htext ▸ List.mem_append_left _ List.mem_cons_self) y.minusUnit_not_mem
  · by_cases hn : n < 0
    · rw [if_neg hm, if_pos hn, List.nil_append] at htext
      exact absurd (htext ▸ List.mem_append_left _ List.mem_cons_self) x.minusUnit_not_mem
    · rw [if_neg hm, if_neg hn, List.append_cancel_left_eq] at htext
      have := habs htext
      rwa [abs_of_nonneg (not_lt.mp hm), abs_of_nonneg (not_lt.mp hn)] at this

end Formatting

/-- Amounts are exact: a text is accepted as `n` if it is, white space apart, a plain
    decimal numeral that the mint has places for, writing `n` base units, and a u64
    holds them. What is shown for an amount is accepted as that amount, and no two
    amounts are shown alike. -/
theorem amounts_exact (decimals : Nat) :
    (∀ (text : JsString) (n : Int), parseAmount text decimals = some n ↔
      ∃ numeral : Numeral, trim text = numeral.text ∧ numeral.fraction.length ≤ decimals ∧
        numeral.value = n / 10 ^ decimals ∧ n ≤ u64Max) ∧
    (∀ n : Int, 0 ≤ n → n ≤ u64Max → parseAmount (formatAmount n decimals) decimals = some n) ∧
    (∀ m n : Int, m ≠ n → formatAmount m decimals ≠ formatAmount n decimals) :=
  ⟨fun _ _ => parseAmount_eq_some, fun _ hnonneg hle => parseAmount_formatAmount hnonneg hle _,
    fun _ _ hne heq => hne (formatAmount_injective decimals heq)⟩

/-- A typed fraction with a zero at its end, and the largest amount. -/
theorem amounts_exact_six :
    parseAmount [0x20, 0x32, 0x2e, 0x35, 0x30] 6 = some 2500000 ∧
      parseAmount (formatAmount u64Max 6) 6 = some u64Max := by
  refine ⟨((amounts_exact 6).1 _ _).mpr ⟨⟨[2], [5, 0], true, .inl (by decide), by decide⟩,
    by decide, by decide, ?_, by decide⟩, (amounts_exact 6).2.1 u64Max (by decide) le_rfl⟩
  have hfive : ((5 : Fin 10) : Nat) = 5 := rfl
  norm_num [Numeral.value, FixedPoint.whole, FixedPoint.fraction, hfive]

end Vadum
