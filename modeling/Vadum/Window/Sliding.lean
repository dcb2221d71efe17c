import Mathlib.Algebra.Order.BigOperators.Group.List
import Mathlib.Algebra.Order.Group.Defs
import Mathlib.Algebra.Order.Monoid.Unbundled.Pow
import Mathlib.Algebra.Order.Ring.Int
import Mathlib.Tactic.GCongr

/-!
# Limits over a Sliding Window

A log of amounts, each at a time, and a limit on how much may fall within any
window of a given length. The log is kept by looking back: an amount is
admitted when it and what is still inside the window ending now stay within
the limit. `Admitted.window_le` says what that buys. Every window is bounded,
wherever it starts, because the last amount inside it was admitted by looking
back at all the others.

Nothing here asks that times never go back. Only looking back must have seen
everything made before.

## Main definitions

* `sumAfter`: What a log holds after a time.
* `sumIn`: What a log holds in a half-open interval.
* `sumWithin`: What a log holds in a closed interval.
* `Admitted`: A log built by looking back.

## Theorems

* `sumAfter_prune`: A log may be pruned as time goes on.
* `sumAfter_mono`, `sumAfter_lt`: Looking back less far sees less.
* `Admitted.window_le`: Every window of an admitted log is within the limit.
* `Admitted.windows_le`: Consecutive windows hold the limit each.
* `Admitted.within_le`: A closed interval holds the limit once for every
  window started.
-/

namespace Window

variable {τ : Type}

/-- No amount of a log is negative. -/
def Nonneg (log : List (τ × Int)) : Prop := ∀ e ∈ log, 0 ≤ e.2

/-- Of a log without negative amounts, a part chosen more generously holds
    more. -/
theorem sum_filter_mono {log : List (τ × Int)} (h : Nonneg log) {p q : τ × Int → Prop}
    [DecidablePred p] [DecidablePred q] (hpq : ∀ e ∈ log, p e → q e) :
    ((log.filter fun e => p e).map Prod.snd).sum
      ≤ ((log.filter fun e => q e).map Prod.snd).sum := by
  induction log with
  | nil => exact le_refl _
  | cons e log ih =>
      have hrest := ih (fun e' he' => h e' (List.mem_cons_of_mem _ he'))
        (fun e' he' => hpq e' (List.mem_cons_of_mem _ he'))
      have he := h e List.mem_cons_self
      have hpe := hpq e List.mem_cons_self
      by_cases hp : p e
      · simp only [List.filter_cons, hp, hpe hp, decide_true, if_true, List.map_cons,
          List.sum_cons]
        omega
      · by_cases hq : q e
        · simp only [List.filter_cons, hp, hq, decide_true, decide_false, if_true,
            Bool.false_eq_true, if_false, List.map_cons, List.sum_cons]
          omega
        · simpa only [List.filter_cons, hp, hq, decide_false, Bool.false_eq_true, if_false]
            using hrest

variable [LinearOrder τ]

/-- What a log holds after a time, the time itself left out. -/
def sumAfter (log : List (τ × Int)) (a : τ) : Int :=
  ((log.filter fun e => a < e.1).map Prod.snd).sum

/-- What a log holds from a time on until before another. -/
def sumIn (log : List (τ × Int)) (a b : τ) : Int :=
  ((log.filter fun e => a ≤ e.1 ∧ e.1 < b).map Prod.snd).sum

/-- What a log holds from a time on up to and with another. -/
def sumWithin (log : List (τ × Int)) (a b : τ) : Int :=
  ((log.filter fun e => a ≤ e.1 ∧ e.1 ≤ b).map Prod.snd).sum

@[simp] theorem sumAfter_nil (a : τ) : sumAfter ([] : List (τ × Int)) a = 0 := rfl

@[simp] theorem sumIn_nil (a b : τ) : sumIn ([] : List (τ × Int)) a b = 0 := rfl

theorem sumAfter_append (log log' : List (τ × Int)) (a : τ) :
    sumAfter (log ++ log') a = sumAfter log a + sumAfter log' a := by
  simp only [sumAfter, List.filter_append, List.map_append, List.sum_append]

theorem sumIn_append (log log' : List (τ × Int)) (a b : τ) :
    sumIn (log ++ log') a b = sumIn log a b + sumIn log' a b := by
  simp only [sumIn, List.filter_append, List.map_append, List.sum_append]

theorem sumAfter_singleton (e : τ × Int) (a : τ) :
    sumAfter [e] a = if a < e.1 then e.2 else 0 := by
  by_cases h : a < e.1 <;> simp [sumAfter, h]

theorem sumIn_singleton (e : τ × Int) (a b : τ) :
    sumIn [e] a b = if a ≤ e.1 ∧ e.1 < b then e.2 else 0 := by
  by_cases h : a ≤ e.1 ∧ e.1 < b <;> simp [sumIn, h]

/-- Dropping what one look no longer sees loses nothing for a later one. -/
theorem sumAfter_prune (log : List (τ × Int)) {a b : τ} (hab : a ≤ b) :
    sumAfter (log.filter fun e => a < e.1) b = sumAfter log b := by
  simp only [sumAfter, List.filter_filter]
  congr 2
  refine List.filter_congr fun e _ => ?_
  simp only [Bool.and_eq_left_iff_imp, decide_eq_true_eq]
  exact lt_of_le_of_lt hab

/-- Looking back less far sees less. -/
theorem sumAfter_mono {log : List (τ × Int)} (h : Nonneg log) {a b : τ} (hab : a ≤ b) :
    sumAfter log b ≤ sumAfter log a :=
  sum_filter_mono h fun _ _ he => lt_of_le_of_lt hab he

/-- Looking back less far loses sight of an entry, and of its amount. -/
theorem sumAfter_lt {log : List (τ × Int)} (h : ∀ e ∈ log, 0 < e.2) {a b : τ} (hab : a ≤ b)
    {e : τ × Int} (he : e ∈ log) (hseen : a < e.1) (hlost : ¬ b < e.1) :
    sumAfter log b < sumAfter log a := by
  induction log with
  | nil => exact absurd he List.not_mem_nil
  | cons e' log ih =>
      have hpos := fun x hx => h x (List.mem_cons_of_mem e' hx)
      have hcons : ∀ x, sumAfter (e' :: log) x = sumAfter [e'] x + sumAfter log x :=
        fun x => sumAfter_append [e'] log x
      rw [hcons a, hcons b]
      rcases List.mem_cons.mp he with rfl | he
      · have hrest := sumAfter_mono (fun x hx => (hpos x hx).le) hab
        rw [sumAfter_singleton, sumAfter_singleton, if_pos hseen, if_neg hlost]
        have := h e List.mem_cons_self
        omega
      · have hrest := ih hpos he
        have hhead := @sumAfter_mono _ _ [e']
          (fun x hx => (h x (List.mem_singleton.mp hx ▸ List.mem_cons_self)).le) _ _ hab
        omega

/-- An interval is seen by looking back from before it. -/
theorem sumIn_le_sumAfter {log : List (τ × Int)} (h : Nonneg log) {a b c : τ} (hca : c < a) :
    sumIn log a b ≤ sumAfter log c :=
  sum_filter_mono h fun _ _ he => lt_of_lt_of_le hca he.1

/-- Intervals that meet add up. -/
theorem sumIn_add (log : List (τ × Int)) {a b c : τ} (hab : a ≤ b) (hbc : b ≤ c) :
    sumIn log a c = sumIn log a b + sumIn log b c := by
  induction log with
  | nil => rfl
  | cons e log ih =>
      have hcons : ∀ x y, sumIn (e :: log) x y = sumIn [e] x y + sumIn log x y :=
        fun x y => sumIn_append [e] log x y
      rw [hcons, hcons, hcons, ih, sumIn_singleton, sumIn_singleton, sumIn_singleton]
      by_cases hb : e.1 < b
      · have hnb : ¬ b ≤ e.1 := not_le.mpr hb
        simp only [hb, lt_of_lt_of_le hb hbc, and_true, hnb, if_false]
        omega
      · have hbe := not_lt.mp hb
        simp only [hb, hbe, le_trans hab hbe, true_and, and_false, if_false]
        omega

variable [AddCommGroup τ]

/-- A log built by looking back: each amount and what the log then held after
    the start of the window ending at it are within the limit. -/
inductive Admitted (W : τ) (L : Int) : List (τ × Int) → Prop
  | nil : Admitted W L []
  | snoc {log : List (τ × Int)} {e : τ × Int} (h : Admitted W L log) (nonneg : 0 ≤ e.2)
      (within : sumAfter log (e.1 - W) + e.2 ≤ L) : Admitted W L (log ++ [e])

theorem Admitted.nonneg {W : τ} {L : Int} {log : List (τ × Int)} (h : Admitted W L log) :
    Nonneg log := by
  induction h with
  | nil => exact fun _ he => absurd he List.not_mem_nil
  | snoc _ hnonneg _ ih =>
      intro e he
      rcases List.mem_append.mp he with he | he
      · exact ih e he
      · rw [List.mem_singleton.mp he]
        exact hnonneg

variable [IsOrderedAddMonoid τ]

/-- Every window of an admitted log is within the limit. The last amount in the
    window was admitted with all of the window's others in sight. -/
theorem Admitted.window_le {W : τ} {L : Int} (hL : 0 ≤ L) {log : List (τ × Int)}
    (h : Admitted W L log) (t : τ) : sumIn log t (t + W) ≤ L := by
  induction h with
  | nil => exact hL
  | @snoc log e hlog hnonneg hwithin ih =>
      rw [sumIn_append, sumIn_singleton]
      by_cases hin : t ≤ e.1 ∧ e.1 < t + W
      · rw [if_pos hin]
        have hstart : e.1 - W < t := sub_lt_iff_lt_add.mpr hin.2
        have := sumIn_le_sumAfter hlog.nonneg (b := t + W) hstart
        omega
      · rw [if_neg hin]
        omega

/-- Consecutive windows of an admitted log hold the limit each. -/
theorem Admitted.windows_le {W : τ} (hW : 0 ≤ W) {L : Int} (hL : 0 ≤ L)
    {log : List (τ × Int)} (h : Admitted W L log) (t : τ) (n : Nat) :
    sumIn log t (t + n • W) ≤ L * n := by
  induction n with
  | zero =>
      have hempty : sumIn log t t = 0 := by
        have := sumIn_add log (le_refl t) (le_refl t)
        omega
      rw [zero_nsmul, add_zero, hempty]
      simp
  | succ n ih =>
      have hn : (0 : τ) ≤ n • W := nsmul_nonneg hW n
      have hsplit := sumIn_add log (a := t) (b := t + n • W) (c := t + n • W + W)
        (le_add_of_nonneg_right hn) (le_add_of_nonneg_right hW)
      have hlast := h.window_le hL (t + n • W)
      have hstep : t + (n + 1) • W = t + n • W + W := by
        rw [succ_nsmul, add_assoc]
      rw [hstep, hsplit, Nat.cast_succ, mul_add, mul_one]
      omega

/-- A closed interval of an admitted log holds the limit once for every window
    started in it. -/
theorem Admitted.within_le {W : τ} (hW : 0 ≤ W) {L : Int} (hL : 0 ≤ L) {log : List (τ × Int)}
    (h : Admitted W L log) (t : τ) {d : τ} {n : Nat} (hd : d < n • W) :
    sumWithin log t (t + d) ≤ L * n := by
  have hcover : sumWithin log t (t + d) ≤ sumIn log t (t + n • W) :=
    sum_filter_mono h.nonneg fun e _ he => ⟨he.1, lt_of_le_of_lt he.2 (by gcongr)⟩
  exact le_trans hcover (h.windows_le hW hL t n)

end Window
