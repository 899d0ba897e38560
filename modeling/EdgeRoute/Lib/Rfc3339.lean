import Mathlib.Data.List.Basic
import Mathlib.Data.String.Basic
import Mathlib.Order.Nat
import Mathlib.Data.Nat.Find

/-!
# The text of a UTC time

RFC 3339 in UTC: date and time of day in fixed width, then the fraction of the
second with its trailing zeros left out, then `Z`. Such texts are compared as
strings; this file says when that is a comparison of times.

* `timeText_lt`: different seconds compare as their texts do.
* `fractionText_lt_iff`: within a second the text of the earlier time is the
  smaller one, unless its digits are a prefix of the other's.
-/

namespace Rfc3339

/-! ## Digits -/

def digit (n : ℕ) : Char := Char.ofNat (48 + n % 10)

/-- The last `w` decimal digits. -/
def digits : ℕ → ℕ → List Char
  | 0, _ => []
  | w + 1, n => digit (n / 10 ^ w) :: digits w (n % 10 ^ w)

theorem digit_lt {a b : ℕ} (hb : b < 10) (h : a < b) : digit a < digit b := by
  have hall : ∀ b < 10, ∀ a < b, digit a < digit b := by decide
  exact hall b hb a h

theorem digit_lt_Z (a : ℕ) : digit a < 'Z' := by
  have hall : ∀ a < 10, digit a < 'Z' := by decide
  have hmod : digit a = digit (a % 10) := by rw [digit, digit, Nat.mod_mod]
  rw [hmod]
  exact hall (a % 10) (Nat.mod_lt a (by omega))

theorem leading_lt {w b : ℕ} (hb : b < 10 ^ (w + 1)) : b / 10 ^ w < 10 := by
  rw [Nat.div_lt_iff_lt_mul (Nat.pow_pos (by omega)), mul_comm, ← pow_succ]
  exact hb

/-- The leading digits decide, or pass the comparison on to the rest. -/
theorem leading_cases {a b : ℕ} (w : ℕ) (h : a < b) :
    a / 10 ^ w < b / 10 ^ w ∨ (a / 10 ^ w = b / 10 ^ w ∧ a % 10 ^ w < b % 10 ^ w) := by
  rcases Nat.lt_or_eq_of_le (Nat.div_le_div_right (c := 10 ^ w) h.le) with hlt | heq
  · exact .inl hlt
  · refine .inr ⟨heq, ?_⟩
    have ha' := Nat.div_add_mod a (10 ^ w)
    have hb' := Nat.div_add_mod b (10 ^ w)
    rw [heq] at ha'
    omega

/-- **A field of fixed width** decides the comparison, or passes it on to what follows. -/
theorem field_lt {w a b : ℕ} {u v : List Char} (hb : b < 10 ^ w) (h : a < b ∨ (a = b ∧ u < v)) :
    digits w a ++ u < digits w b ++ v := by
  induction w generalizing a b with
  | zero =>
    rcases h with h | ⟨-, h⟩
    · omega
    · exact h
  | succ w ih =>
    have hrest : b % 10 ^ w < 10 ^ w := Nat.mod_lt _ (Nat.pow_pos (by omega))
    rw [digits, digits, List.cons_append, List.cons_append, List.cons_lt_cons_iff]
    rcases h with h | ⟨rfl, h⟩
    · rcases leading_cases w h with hlt | ⟨heq, hlt⟩
      · exact .inl (digit_lt (leading_lt hb) hlt)
      · exact .inr ⟨by rw [heq], ih hrest (.inl hlt)⟩
    · exact .inr ⟨rfl, ih hrest (.inr ⟨rfl, h⟩)⟩

/-! ## The date -/

/-- Days from the first day of year 0 to the first day of year `y` (proleptic Gregorian). -/
def daysBeforeYear (y : ℕ) : ℕ := 365 * y + (y + 3) / 4 + (y + 399) / 400 - (y + 99) / 100

def isLeap (y : ℕ) : Bool := y % 4 == 0 && (y % 100 != 0 || y % 400 == 0)

/-- Days of the year before the month (January is 0). -/
def daysBeforeMonth (leap : Bool) (month : ℕ) : ℕ :=
  [0, 31, 59, 90, 120, 151, 181, 212, 243, 273, 304, 334].getD month 365 + (if leap && 2 ≤ month then 1 else 0)

/-- The year a day lies in, days counted from the first day of year 0. -/
def yearOf (day : ℕ) : ℕ := Nat.findGreatest (fun y => daysBeforeYear y ≤ day) 9999

/-- The day of the year, from 0. -/
def ordinalOf (day : ℕ) : ℕ := day - daysBeforeYear (yearOf day)

/-- The month, from 0. -/
def monthOf (day : ℕ) : ℕ :=
  Nat.findGreatest (fun m => daysBeforeMonth (isLeap (yearOf day)) m ≤ ordinalOf day) 11

/-- The day of the month, from 0. -/
def dayOf (day : ℕ) : ℕ := ordinalOf day - daysBeforeMonth (isLeap (yearOf day)) (monthOf day)

section Blocks

variable {S : ℕ → ℕ} {N x x' : ℕ}

theorem block_start_le (h0 : S 0 = 0) : S (Nat.findGreatest (fun k => S k ≤ x) N) ≤ x :=
  Nat.findGreatest_spec (P := fun k => S k ≤ x) (m := 0) (Nat.zero_le N) (by omega)

/-- A later point lies in a later block, or later in the same one. -/
theorem block_lt (h0 : S 0 = 0) (h : x < x') :
    Nat.findGreatest (fun k => S k ≤ x) N < Nat.findGreatest (fun k => S k ≤ x') N ∨
      (Nat.findGreatest (fun k => S k ≤ x) N = Nat.findGreatest (fun k => S k ≤ x') N ∧
        x - S (Nat.findGreatest (fun k => S k ≤ x) N) <
          x' - S (Nat.findGreatest (fun k => S k ≤ x') N)) := by
  have hle : Nat.findGreatest (fun k => S k ≤ x) N ≤ Nat.findGreatest (fun k => S k ≤ x') N :=
    Nat.findGreatest_mono (fun j hj => hj.trans h.le) le_rfl
  rcases Nat.lt_or_eq_of_le hle with hlt | heq
  · exact .inl hlt
  · have hstart := block_start_le (N := N) (x := x) h0
    refine .inr ⟨heq, ?_⟩
    rw [← heq]
    omega

/-- A point lies before the start of the next block. -/
theorem lt_next_block (hx : x < S (N + 1)) : x < S (Nat.findGreatest (fun k => S k ≤ x) N + 1) := by
  rcases Nat.lt_or_eq_of_le (Nat.findGreatest_le (P := fun k => S k ≤ x) N) with hlt | heq
  · have := Nat.findGreatest_is_greatest (P := fun k => S k ≤ x) (n := N) (Nat.lt_add_one _) hlt
    exact Nat.lt_of_not_le this
  · rw [heq]
    exact hx

end Blocks

/-- Crude, but enough for two digits of a day. -/
theorem ordinalOf_lt {day : ℕ} (h : day < 3652425) : ordinalOf day < 367 := by
  have hnext : day < daysBeforeYear (yearOf day + 1) := lt_next_block (S := daysBeforeYear) (N := 9999) h
  unfold ordinalOf
  unfold daysBeforeYear at *
  omega

theorem daysBeforeMonth_zero (leap : Bool) : daysBeforeMonth leap 0 = 0 := by cases leap <;> rfl

theorem daysBeforeMonth_succ (leap : Bool) {m : ℕ} (hm : m ≤ 11) :
    daysBeforeMonth leap (m + 1) ≤ daysBeforeMonth leap m + 31 := by
  have hall : ∀ leap, ∀ m ≤ 11, daysBeforeMonth leap (m + 1) ≤ daysBeforeMonth leap m + 31 := by decide
  exact hall leap m hm

theorem dayOf_lt {day : ℕ} (h : day < 3652425) : dayOf day < 34 := by
  have hord := ordinalOf_lt h
  have hmonth : monthOf day ≤ 11 := Nat.findGreatest_le 11
  unfold dayOf
  rcases Nat.lt_or_eq_of_le hmonth with hlt | heq
  · have hnext : ordinalOf day < daysBeforeMonth (isLeap (yearOf day)) (monthOf day + 1) :=
      Nat.lt_of_not_le (Nat.findGreatest_is_greatest
        (P := fun m => daysBeforeMonth (isLeap (yearOf day)) m ≤ ordinalOf day) (Nat.lt_add_one _) hlt)
    have hsucc := daysBeforeMonth_succ (isLeap (yearOf day)) hmonth
    omega
  · have hstart : 334 ≤ daysBeforeMonth (isLeap (yearOf day)) 11 := by cases isLeap (yearOf day) <;> decide
    rw [heq]
    omega

/-- **The calendar keeps the order of days.** -/
theorem date_lt {day day' : ℕ} (h : day < day') :
    yearOf day < yearOf day' ∨ (yearOf day = yearOf day' ∧
      (monthOf day < monthOf day' ∨ (monthOf day = monthOf day' ∧ dayOf day < dayOf day'))) := by
  rcases block_lt (S := daysBeforeYear) (N := 9999) rfl h with hy | ⟨hy, hord⟩
  · exact .inl hy
  · refine .inr ⟨hy, ?_⟩
    have hyear : yearOf day' = yearOf day := hy.symm
    have hord' : ordinalOf day < ordinalOf day' := hord
    unfold dayOf monthOf
    rw [hyear]
    exact block_lt (daysBeforeMonth_zero _) hord'

/-! ## Date and time -/

/-- `YYYY-MM-DDTHH:MM:SS` of a second counted from the start of year 0, and what follows it. -/
def timeText (second : ℕ) (rest : List Char) : List Char :=
  digits 4 (yearOf (second / 86400)) ++ '-' :: (digits 2 (monthOf (second / 86400) + 1) ++
    '-' :: (digits 2 (dayOf (second / 86400) + 1) ++ 'T' :: (digits 2 (second % 86400 / 3600) ++
      ':' :: (digits 2 (second % 86400 / 60 % 60) ++ ':' :: (digits 2 (second % 86400 % 60) ++ rest)))))

/-- **Seconds compare as their texts do**, whatever follows. -/
theorem timeText_lt {second second' : ℕ} {u v : List Char} (hb : second' < 315569520000)
    (h : second < second' ∨ (second = second' ∧ u < v)) : timeText second u < timeText second' v := by
  have hday : second' / 86400 < 3652425 := by omega
  have hyear : yearOf (second' / 86400) ≤ 9999 := Nat.findGreatest_le 9999
  have hmonth : monthOf (second' / 86400) ≤ 11 := Nat.findGreatest_le 11
  have hdayOf := dayOf_lt hday
  have hclock : second / 86400 < second' / 86400 ∨ (second / 86400 = second' / 86400 ∧
      (second % 86400 < second' % 86400 ∨ (second % 86400 = second' % 86400 ∧ u < v))) := by
    rcases h with h | ⟨rfl, h⟩
    · omega
    · exact .inr ⟨rfl, .inr ⟨rfl, h⟩⟩
  have hdate : yearOf (second / 86400) < yearOf (second' / 86400) ∨
      (yearOf (second / 86400) = yearOf (second' / 86400) ∧
        (monthOf (second / 86400) < monthOf (second' / 86400) ∨
          (monthOf (second / 86400) = monthOf (second' / 86400) ∧
            (dayOf (second / 86400) < dayOf (second' / 86400) ∨ (dayOf (second / 86400) = dayOf (second' / 86400) ∧
              (second % 86400 < second' % 86400 ∨ (second % 86400 = second' % 86400 ∧ u < v))))))) := by
    rcases hclock with hlt | ⟨heq, hrest⟩
    · rcases date_lt hlt with hy | ⟨hy, hm | ⟨hm, hd⟩⟩
      · exact .inl hy
      · exact .inr ⟨hy, .inl hm⟩
      · exact .inr ⟨hy, .inr ⟨hm, .inl hd⟩⟩
    · rw [heq]
      exact .inr ⟨rfl, .inr ⟨rfl, .inr ⟨rfl, hrest⟩⟩⟩
  unfold timeText
  refine field_lt (by omega) (hdate.imp id fun ⟨hy, hdate⟩ => ⟨hy, List.cons_lt_cons_self.2 ?_⟩)
  refine field_lt (by omega) (hdate.imp (by omega) fun ⟨hm, hdate⟩ => ⟨by omega, List.cons_lt_cons_self.2 ?_⟩)
  refine field_lt (by omega) (hdate.imp (by omega) fun ⟨hd, hclock⟩ => ⟨by omega, List.cons_lt_cons_self.2 ?_⟩)
  have htime : second % 86400 / 3600 < second' % 86400 / 3600 ∨
      (second % 86400 / 3600 = second' % 86400 / 3600 ∧
        (second % 86400 / 60 % 60 < second' % 86400 / 60 % 60 ∨
          (second % 86400 / 60 % 60 = second' % 86400 / 60 % 60 ∧
            (second % 86400 % 60 < second' % 86400 % 60 ∨ (second % 86400 % 60 = second' % 86400 % 60 ∧ u < v))))) := by
    rcases hclock with hlt | ⟨heq, huv⟩
    · omega
    · rw [heq]
      exact .inr ⟨rfl, .inr ⟨rfl, .inr ⟨rfl, huv⟩⟩⟩
  refine field_lt (by omega) (htime.imp id fun ⟨hh, htime⟩ => ⟨hh, List.cons_lt_cons_self.2 ?_⟩)
  refine field_lt (by omega) (htime.imp id fun ⟨hmi, htime⟩ => ⟨hmi, List.cons_lt_cons_self.2 ?_⟩)
  exact field_lt (by omega) htime

/-! ## The fraction -/

/-- The first `w` digits after the dot of `n / 10 ^ w`, without trailing zeros. -/
def fraction : ℕ → ℕ → List Char
  | 0, _ => []
  | w + 1, n => if n = 0 then [] else digit (n / 10 ^ w) :: fraction w (n % 10 ^ w)

/-- The fraction with its dot, or nothing, and the `Z`. -/
def fractionText (nanos : ℕ) : List Char :=
  if nanos = 0 then ['Z'] else '.' :: (fraction 9 nanos ++ ['Z'])

example : fractionText 500000000 = ".5Z".toList ∧ fractionText 10 = ".00000001Z".toList ∧
    timeText 63934443296 [] = "2025-12-31T23:34:56".toList := by decide +kernel

/-- Where the digits of the smaller fraction are a prefix of the other's, its `Z` meets a digit. -/
theorem fraction_gt {w n n' : ℕ} (h : n < n') (hb : n' < 10 ^ w) (hp : fraction w n <+: fraction w n') :
    fraction w n' ++ ['Z'] < fraction w n ++ ['Z'] := by
  induction w generalizing n n' with
  | zero => rw [pow_zero] at hb; omega
  | succ w ih =>
    have hpos : 0 < 10 ^ w := Nat.pow_pos (by omega)
    have hn' : n' ≠ 0 := by omega
    rw [fraction, fraction, if_neg hn'] at hp ⊢
    by_cases hn : n = 0
    · rw [if_pos hn, List.nil_append, List.cons_append, List.cons_lt_cons_iff]
      exact .inl (digit_lt_Z _)
    · rw [if_neg hn, List.cons_prefix_cons] at hp
      obtain ⟨hd, hp⟩ := hp
      rcases leading_cases w h with hlt | ⟨-, hlt⟩
      · exact absurd hd (digit_lt (leading_lt hb) hlt).ne
      · rw [if_neg hn, hd, List.cons_append, List.cons_append, List.cons_lt_cons_self]
        exact ih hlt (Nat.mod_lt n' hpos) hp

/-- Where they are not, the first digits that differ decide, as they do for the numbers. -/
theorem fraction_lt {w n n' : ℕ} (h : n < n') (hb : n' < 10 ^ w) (hp : ¬ fraction w n <+: fraction w n') :
    fraction w n ++ ['Z'] < fraction w n' ++ ['Z'] := by
  induction w generalizing n n' with
  | zero => rw [pow_zero] at hb; omega
  | succ w ih =>
    have hpos : 0 < 10 ^ w := Nat.pow_pos (by omega)
    have hn' : n' ≠ 0 := by omega
    rw [fraction, fraction, if_neg hn'] at hp ⊢
    by_cases hn : n = 0
    · rw [if_pos hn] at hp
      exact absurd List.nil_prefix hp
    · rw [if_neg hn, List.cons_prefix_cons] at hp
      rw [if_neg hn, List.cons_append, List.cons_append, List.cons_lt_cons_iff]
      rcases leading_cases w h with hlt | ⟨heq, hlt⟩
      · exact .inl (digit_lt (leading_lt hb) hlt)
      · rw [heq] at hp ⊢
        exact .inr ⟨rfl, ih hlt (Nat.mod_lt n' hpos) fun hpre => hp ⟨rfl, hpre⟩⟩

/-- **Within a second** the texts compare as the times do, unless the digits of the
earlier are a prefix of the later's: then they compare the other way. -/
theorem fractionText_lt_iff {n n' : ℕ} (h : n < n') (hb : n' < 10 ^ 9) :
    (fractionText n < fractionText n' ↔ ¬ fraction 9 n <+: fraction 9 n') ∧
      (fraction 9 n <+: fraction 9 n' → fractionText n' < fractionText n) := by
  have hn' : n' ≠ 0 := by omega
  unfold fractionText
  rw [if_neg hn']
  by_cases hn : n = 0
  · have hpre : fraction 9 n <+: fraction 9 n' := by
      rw [hn]
      exact List.nil_prefix
    have hgt : '.' :: (fraction 9 n' ++ ['Z']) < ['Z'] := List.cons_lt_cons_iff.2 (.inl (by decide))
    rw [if_pos hn]
    exact ⟨iff_of_false (fun hlt => absurd hlt (lt_asymm hgt)) (not_not.2 hpre), fun _ => hgt⟩
  · rw [if_neg hn, List.cons_lt_cons_self, List.cons_lt_cons_self]
    refine ⟨⟨fun hlt hpre => lt_asymm hlt (fraction_gt h hb hpre), fraction_lt h hb⟩, fraction_gt h hb⟩

end Rfc3339
