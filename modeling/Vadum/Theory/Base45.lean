import Mathlib.Data.List.GetD
import Mathlib.Data.List.Nodup
import Vadum.Wire.Base45

/-!
# Base45 is Exact

`fromBase45` accepts the strings `toBase45` makes and no others. A digit is
below 45, so a group of digits is one number in one way, and the checks on
groups and tails keep what two bytes and one byte can hold.

The proof goes through digits. `digitsOf` are the digits of a byte string, and
both directions are that and the alphabet.

## Main definitions

* `digitsOf`: The digits of a byte string.
* `Rfc9285`: The strings of the standard.

## Theorems

* `base45Digits_cases`: What the first pass makes of a string.
* `base45Bytes_cases`: What the second makes of digits.
* `base45_exact`: The two directions undo each other, and nothing else is
  accepted.
-/

namespace Vadum

/-- The digits of a byte string, three for two bytes and two for an odd byte at
    the end. -/
def digitsOf : List UInt8 → List Nat
  | high :: low :: rest =>
    let value := high.toNat * 256 + low.toNat
    value % 45 :: value / 45 % 45 :: value / 2025 :: digitsOf rest
  | [last] => [last.toNat % 45, last.toNat / 45]
  | [] => []

/-- The strings of the standard: groups of three that two bytes can hold, and a
    tail of two that one can. -/
inductive Rfc9285 : JsString → Prop
  | nil : Rfc9285 []
  | tail {a b : UInt16} {x y : Nat} : base45Value a = some x → base45Value b = some y →
      x + y * 45 ≤ 0xff → Rfc9285 [a, b]
  | group {a b c : UInt16} {x y z : Nat} {rest : JsString} : base45Value a = some x →
      base45Value b = some y → base45Value c = some z → x + y * 45 + z * 2025 ≤ 0xffff →
      Rfc9285 rest → Rfc9285 (a :: b :: c :: rest)

section Alphabet

theorem nodup_base45Alphabet : base45Alphabet.Nodup := by decide

theorem length_base45Alphabet : base45Alphabet.length = 45 := by decide

/-- The digits of the characters are those below 45, each its own character's. -/
theorem base45Value_eq_some {character : UInt16} {value : Nat} :
    base45Value character = some value ↔ value < 45 ∧ base45Character value = character := by
  rw [base45Value, List.idxOf?, List.findIdx?_eq_some_iff_getElem, base45Character]
  constructor
  · rintro ⟨h, heq, _⟩
    rw [List.getD_eq_getElem _ _ h]
    exact ⟨length_base45Alphabet ▸ h, eq_of_beq heq⟩
  · rintro ⟨h, heq⟩
    have hlt : value < base45Alphabet.length := length_base45Alphabet.symm ▸ h
    rw [List.getD_eq_getElem _ _ hlt] at heq
    refine ⟨hlt, beq_iff_eq.mpr heq, fun j hj hbeq => ?_⟩
    have := nodup_base45Alphabet.getElem_inj_iff.mp ((eq_of_beq hbeq).trans heq.symm)
    omega

end Alphabet

theorem toBase45_eq (bytes : List UInt8) :
    toBase45 bytes = (digitsOf bytes).map base45Character := by
  induction bytes using digitsOf.induct with
  | case1 high low rest ih =>
      have hlow : (high.toNat * 256 + low.toNat) % 2025 % 45
          = (high.toNat * 256 + low.toNat) % 45 := by omega
      simp only [toBase45, digitsOf, List.map_cons, ih]
      congr 2
      · omega
      · congr 1
        omega
  | case2 last =>
      simp only [toBase45, digitsOf, List.map_cons, List.map_nil]
      congr 2
      omega
  | case3 => rfl

theorem digitsOf_lt {bytes : List UInt8} {digit : Nat} (h : digit ∈ digitsOf bytes) :
    digit < 45 := by
  induction bytes using digitsOf.induct with
  | case1 high low rest ih =>
      have := high.toNat_lt
      have := low.toNat_lt
      simp only [digitsOf, List.mem_cons] at h
      rcases h with rfl | rfl | rfl | h
      · omega
      · omega
      · omega
      · exact ih h
  | case2 last =>
      have := last.toNat_lt
      simp only [digitsOf, List.mem_cons, List.not_mem_nil, or_false] at h
      omega
  | case3 => exact absurd h List.not_mem_nil

/-- The first pass gives the digits of a string that has only characters of the
    alphabet. -/
theorem base45Digits_cases (index : Nat) (s : JsString) :
    (∃ digits, base45Digits index s = .ok digits ∧ s = digits.map base45Character ∧
      ∀ digit ∈ digits, digit < 45) ∨
    (∃ detail, base45Digits index s = .error (vadumError .wireBase45Invalid detail)) ∧
      ∃ character ∈ s, base45Value character = none := by
  induction s generalizing index with
  | nil => exact .inl ⟨[], rfl, rfl, fun _ h => absurd h List.not_mem_nil⟩
  | cons character rest ih =>
      rcases hvalue : base45Value character with _ | value
      · right
        simp only [base45Digits, hvalue]
        exact ⟨⟨_, rfl⟩, character, List.mem_cons_self, hvalue⟩
      · simp only [base45Digits, hvalue]
        rcases ih (index + 1) with ⟨digits, hok, rfl, hlt⟩ | ⟨⟨detail, herror⟩, c, hc, hnone⟩
        · left
          rw [hok]
          rcases base45Value_eq_some.mp hvalue with ⟨hvalue', hcharacter⟩
          refine ⟨value :: digits, rfl, by rw [List.map_cons, hcharacter], fun digit h => ?_⟩
          rcases List.mem_cons.mp h with rfl | h
          · exact hvalue'
          · exact hlt digit h
        · right
          rw [herror]
          exact ⟨⟨detail, rfl⟩, c, List.mem_cons_of_mem _ hc, hnone⟩

/-- The two bytes of a group hold its value. -/
theorem group_value {value : Nat} (h : value ≤ 0xffff) :
    (UInt8.ofNat (value >>> 8)).toNat * 256 + (UInt8.ofNat (value &&& 0xff)).toNat = value := by
  have hlow : value &&& 0xff = value % 256 := Nat.and_two_pow_sub_one_eq_mod value 8
  have hhigh : value >>> 8 = value / 256 := Nat.shiftRight_eq_div_pow value 8
  rw [hlow, hhigh, UInt8.toNat_ofNat', UInt8.toNat_ofNat']
  omega

/-- The digits of a group are those it was read from. -/
theorem digitsOf_group {a b c : Nat} (ha : a < 45) (hb : b < 45)
    (h : a + b * 45 + c * 2025 ≤ 0xffff) (bytes : List UInt8) :
    digitsOf (UInt8.ofNat ((a + b * 45 + c * 2025) >>> 8)
      :: UInt8.ofNat ((a + b * 45 + c * 2025) &&& 0xff) :: bytes)
        = a :: b :: c :: digitsOf bytes := by
  have hvalue := group_value h
  simp only [digitsOf, hvalue, List.cons.injEq, and_true]
  omega

theorem digitsOf_tail {a b : Nat} (ha : a < 45) (h : a + b * 45 ≤ 0xff) :
    digitsOf [UInt8.ofNat (a + b * 45)] = [a, b] := by
  have hvalue : (a + b * 45) % 2 ^ 8 = a + b * 45 := Nat.mod_eq_of_lt (by omega)
  simp only [digitsOf, UInt8.toNat_ofNat', hvalue, List.cons.injEq, and_true]
  omega

/-- Digits that stand for two bytes and more. -/
theorem digitsOf_eq_group {a b c : Nat} {rest : List Nat} {bytes : List UInt8}
    (h : a :: b :: c :: rest = digitsOf bytes) : ∃ bytes', rest = digitsOf bytes' ∧
      a + b * 45 + c * 2025 ≤ 0xffff := by
  cases bytes with
  | nil => cases h
  | cons high bytes => cases bytes with
    | nil => cases h
    | cons low bytes =>
        have := high.toNat_lt
        have := low.toNat_lt
        have := Nat.div_div_eq_div_mul (high.toNat * 256 + low.toNat) 45 45
        simp only [digitsOf, List.cons.injEq] at h
        exact ⟨bytes, h.2.2.2, by omega⟩

/-- Digits that stand for one byte. -/
theorem digitsOf_eq_tail {a b : Nat} {bytes : List UInt8} (h : [a, b] = digitsOf bytes) :
    a + b * 45 ≤ 0xff := by
  cases bytes with
  | nil => cases h
  | cons last bytes => cases bytes with
    | nil =>
        have := last.toNat_lt
        simp only [digitsOf, List.cons.injEq, and_true] at h
        omega
    | cons low bytes => cases h

/-- The second pass takes the digits of byte strings, and refuses all others. -/
theorem base45Bytes_cases : ∀ (index : Nat) {digits : List Nat}, (∀ digit ∈ digits, digit < 45) →
    digits.length % 3 ≠ 1 →
    (∃ bytes, base45Bytes index digits = .ok bytes ∧ digits = digitsOf bytes) ∨
    (∃ detail, base45Bytes index digits = .error (vadumError .wireBase45Invalid detail)) ∧
      ∀ bytes, digits ≠ digitsOf bytes
  | _, [], _, _ => .inl ⟨[], rfl, rfl⟩
  | _, [_], _, hlength => absurd rfl hlength
  | index, [a, b], hlt, _ => by
      simp only [List.mem_cons, List.not_mem_nil, or_false, forall_eq_or_imp, forall_eq] at hlt
      rw [base45Bytes]
      -- Two digits are one byte.
      by_cases hbig : a + b * 45 > 0xff
      · right
        rw [if_pos hbig]
        refine ⟨⟨_, rfl⟩, fun bytes h => ?_⟩
        have := digitsOf_eq_tail h
        omega
      · left
        rw [if_neg hbig]
        exact ⟨_, rfl, (digitsOf_tail hlt.1 (Nat.not_lt.mp hbig)).symm⟩
  | index, a :: b :: c :: rest, hlt, hlength => by
      simp only [List.mem_cons, forall_eq_or_imp] at hlt
      rcases hlt with ⟨ha, hb, hc, hrest⟩
      rw [base45Bytes]
      -- Three digits are two bytes.
      by_cases hbig : a + b * 45 + c * 2025 > 0xffff
      · right
        rw [if_pos hbig]
        refine ⟨⟨_, rfl⟩, fun bytes h => ?_⟩
        rcases digitsOf_eq_group h with ⟨_, _, hsmall⟩
        omega
      · rw [if_neg hbig]
        have hrest' : rest.length % 3 ≠ 1 := by
          simp only [List.length_cons] at hlength
          omega
        rcases base45Bytes_cases (index + 3) hrest hrest' with
          ⟨bytes, hok, rfl⟩ | ⟨⟨detail, herror⟩, hnone⟩
        · left
          simp only [hok]
          exact ⟨_, rfl, (digitsOf_group ha hb (Nat.not_lt.mp hbig) bytes).symm⟩
        · right
          simp only [herror]
          refine ⟨⟨detail, rfl⟩, fun bytes h => ?_⟩
          rcases digitsOf_eq_group h with ⟨bytes', hrest', _⟩
          exact hnone bytes' hrest'

/-- How long the digits of a byte string are. -/
theorem length_digitsOf (bytes : List UInt8) : (digitsOf bytes).length % 3 ≠ 1 := by
  induction bytes using digitsOf.induct with
  | case1 high low rest ih =>
      simp only [digitsOf, List.length_cons]
      omega
  | case2 last => exact Nat.ne_of_beq_eq_false rfl
  | case3 => exact Nat.ne_of_beq_eq_false rfl

/-- Digits are told apart by their characters. -/
theorem map_base45Character_inj {digits digits' : List Nat} (h : ∀ d ∈ digits, d < 45)
    (h' : ∀ d ∈ digits', d < 45)
    (heq : digits.map base45Character = digits'.map base45Character) : digits = digits' := by
  induction digits generalizing digits' with
  | nil => exact (List.map_eq_nil_iff.mp heq.symm).symm
  | cons d digits ih =>
      rcases List.map_eq_cons_iff.mp heq.symm with ⟨d', rest, rfl, hd, hrest⟩
      simp only [List.mem_cons, forall_eq_or_imp] at h h'
      have hvalue := base45Value_eq_some.mpr ⟨h.1, rfl⟩
      rw [← hd, base45Value_eq_some.mpr ⟨h'.1, rfl⟩, Option.some.injEq] at hvalue
      rw [hvalue, ih h.2 h'.2 hrest.symm]

/-- The second pass gives a byte string back from its digits. -/
theorem base45Bytes_digitsOf (index : Nat) (bytes : List UInt8) :
    base45Bytes index (digitsOf bytes) = .ok bytes := by
  induction bytes using digitsOf.induct generalizing index with
  | case1 high low rest ih =>
      have := high.toNat_lt
      have := low.toNat_lt
      have := Nat.div_div_eq_div_mul (high.toNat * 256 + low.toNat) 45 45
      -- The three digits are those of one number below 65536, and its bytes are the two.
      have hvalue : (high.toNat * 256 + low.toNat) % 45
          + (high.toNat * 256 + low.toNat) / 45 % 45 * 45
          + (high.toNat * 256 + low.toNat) / 2025 * 2025 = high.toNat * 256 + low.toNat := by omega
      have hhigh : (high.toNat * 256 + low.toNat) >>> 8 = high.toNat := by
        rw [Nat.shiftRight_eq_div_pow]
        omega
      have hlow : (high.toNat * 256 + low.toNat) &&& 0xff = low.toNat := by
        rw [Nat.and_two_pow_sub_one_eq_mod _ 8]
        omega
      simp only [digitsOf, base45Bytes, hvalue, hhigh, hlow, ih, UInt8.ofNat_toNat]
      rw [if_neg (by omega)]
      rfl
  | case2 last =>
      have := last.toNat_lt
      have hvalue : last.toNat % 45 + last.toNat / 45 * 45 = last.toNat := by omega
      simp only [digitsOf, base45Bytes, hvalue, UInt8.ofNat_toNat]
      rw [if_neg (by omega)]
      rfl
  | case3 => rfl

theorem toBase45_inj {bytes bytes' : List UInt8} (h : toBase45 bytes = toBase45 bytes') :
    bytes = bytes' := by
  rw [toBase45_eq, toBase45_eq] at h
  have hdigits := map_base45Character_inj (fun _ => digitsOf_lt) (fun _ => digitsOf_lt) h
  have hbytes := base45Bytes_digitsOf 0 bytes
  rw [hdigits, base45Bytes_digitsOf, Except.ok.injEq] at hbytes
  exact hbytes.symm

/-- What is decoded is what encodes to the string. -/
theorem fromBase45_cases (s : JsString) :
    (∃ bytes, fromBase45 s = .ok bytes ∧ s = toBase45 bytes) ∨
    (∃ detail, fromBase45 s = .error (vadumError .wireBase45Invalid detail)) ∧
      ∀ bytes, s ≠ toBase45 bytes := by
  simp only [toBase45_eq, fromBase45]
  by_cases hlength : s.length % 3 = 1
  · right
    rw [if_pos hlength]
    refine ⟨⟨_, rfl⟩, fun bytes h => ?_⟩
    rw [h, List.length_map] at hlength
    exact length_digitsOf bytes hlength
  · rw [if_neg hlength]
    rcases base45Digits_cases 0 s with ⟨digits, hok, rfl, hlt⟩ |
      ⟨⟨detail, herror⟩, character, hcharacter, hnone⟩
    · -- Every character has a digit; the groups of them may still be too large.
      simp only [hok]
      rw [List.length_map] at hlength
      rcases base45Bytes_cases 0 hlt hlength with ⟨bytes, hok, rfl⟩ | ⟨⟨detail, herror⟩, hnone⟩
      · exact .inl ⟨bytes, hok, rfl⟩
      · refine .inr ⟨⟨detail, herror⟩, fun bytes h => hnone bytes ?_⟩
        exact map_base45Character_inj hlt (fun _ => digitsOf_lt) h
    · right
      simp only [herror]
      refine ⟨⟨detail, rfl⟩, fun bytes h => ?_⟩
      rw [h] at hcharacter
      rcases List.mem_map.mp hcharacter with ⟨digit, hdigit, rfl⟩
      rw [base45Value_eq_some.mpr ⟨digitsOf_lt hdigit, rfl⟩] at hnone
      cases hnone

/-- The strings of the standard are the encodings of byte strings. -/
theorem rfc9285_iff {s : JsString} : Rfc9285 s ↔ ∃ bytes, s = toBase45 bytes := by
  simp only [toBase45_eq]
  constructor
  · intro h
    induction h with
    | nil => exact ⟨[], rfl⟩
    | tail ha hb hsmall =>
        rcases base45Value_eq_some.mp ha with ⟨hx, rfl⟩
        rcases base45Value_eq_some.mp hb with ⟨hy, rfl⟩
        exact ⟨_, congrArg (List.map base45Character) (digitsOf_tail hx hsmall).symm⟩
    | group ha hb hc hsmall _ ih =>
        rcases base45Value_eq_some.mp ha with ⟨hx, rfl⟩
        rcases base45Value_eq_some.mp hb with ⟨hy, rfl⟩
        rcases base45Value_eq_some.mp hc with ⟨hz, rfl⟩
        rcases ih with ⟨bytes, rfl⟩
        exact ⟨_, congrArg (List.map base45Character)
          (digitsOf_group hx hy hsmall bytes).symm⟩
  · rintro ⟨bytes, rfl⟩
    -- Every digit below 45 has a character, and that character this digit.
    have hdigit : ∀ digit, digit < 45 → base45Value (base45Character digit) = some digit :=
      fun digit hlt => base45Value_eq_some.mpr ⟨hlt, rfl⟩
    induction bytes using digitsOf.induct with
    | case1 high low rest ih =>
        have := high.toNat_lt
        have := low.toNat_lt
        have := Nat.div_div_eq_div_mul (high.toNat * 256 + low.toNat) 45 45
        exact .group (hdigit _ (by omega)) (hdigit _ (by omega)) (hdigit _ (by omega)) (by omega) ih
    | case2 last =>
        have := last.toNat_lt
        exact .tail (hdigit _ (by omega)) (hdigit _ (by omega)) (by omega)
    | case3 => exact .nil

/-- Decoding undoes encoding. -/
theorem fromBase45_toBase45 (bytes : List UInt8) : fromBase45 (toBase45 bytes) = .ok bytes := by
  rcases fromBase45_cases (toBase45 bytes) with ⟨bytes', hok, heq⟩ | ⟨_, hnone⟩
  · rw [hok, toBase45_inj heq]
  · exact absurd rfl (hnone bytes)

/-- Decoding gives a byte string exactly for its encoding, and refuses every
    other string, so no two strings decode to one. What it accepts are the
    strings of the standard. -/
theorem base45_exact :
    (∀ s bytes, fromBase45 s = .ok bytes ↔ s = toBase45 bytes) ∧
    (∀ s, (∀ bytes, s ≠ toBase45 bytes) →
      ∃ detail, fromBase45 s = .error (vadumError .wireBase45Invalid detail)) ∧
    (∀ s s' bytes, fromBase45 s = .ok bytes → fromBase45 s' = .ok bytes → s = s') ∧
    ∀ s, (∃ bytes, fromBase45 s = .ok bytes) ↔ Rfc9285 s := by
  -- Decoding accepts exactly what encoding writes; the rest follows.
  have hiff : ∀ s bytes, fromBase45 s = .ok bytes ↔ s = toBase45 bytes := by
    intro s bytes
    constructor
    · intro hok
      rcases fromBase45_cases s with ⟨bytes', hok', rfl⟩ | ⟨⟨_, herror⟩, _⟩
      · rw [Except.ok.inj (hok.symm.trans hok')]
      · rw [hok] at herror
        cases herror
    · rintro rfl
      exact fromBase45_toBase45 bytes
  refine ⟨hiff, fun s hnone => ?_, fun s s' bytes h h' => ?_, fun s => ?_⟩
  · rcases fromBase45_cases s with ⟨bytes, _, heq⟩ | ⟨herror, _⟩
    · exact absurd heq (hnone bytes)
    · exact herror
  · rw [(hiff s bytes).mp h, (hiff s' bytes).mp h']
  · rw [rfc9285_iff]
    exact exists_congr (hiff s)

end Vadum
