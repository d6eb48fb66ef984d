/-
`datetime.isoformat` for times in UTC, and the order of its texts: times and their
texts compare alike, since every part has a fixed width but the last, and `+` comes
before `.`.
-/
import Centinal26.Py.Host

namespace Py

-- == dates

/-- A day, by the cycles of the calendar: of 400, of 100, of 4 years and of one. -/
structure CalendarDay where
  cycle : Nat
  century : Nat
  olympiad : Nat
  year : Nat
  day : Nat

/-- The day with a number, from 0 for 0001-01-01. -/
def calendarDay (n : Nat) : CalendarDay :=
  let rest := n % 146097 - 36524 * min (n % 146097 / 36524) 3
  ⟨n / 146097, min (n % 146097 / 36524) 3, rest / 1461, min (rest % 1461 / 365) 3,
    rest % 1461 - 365 * min (rest % 1461 / 365) 3⟩

namespace CalendarDay

def yearNumber (d : CalendarDay) : Nat :=
  400 * d.cycle + 100 * d.century + 4 * d.olympiad + d.year + 1

def isLeap (d : CalendarDay) : Bool :=
  decide (d.year = 3) && (decide (d.olympiad ≠ 24) || decide (d.century = 3))

end CalendarDay

def monthLengths (leap : Bool) : List Nat :=
  [31, if leap then 29 else 28, 31, 30, 31, 30, 31, 31, 30, 31, 30, 31]

def monthDay (month day : Nat) : List Nat → Nat × Nat
  | [] => (month, day + 1)
  | length :: rest =>
    if day < length then (month, day + 1) else monthDay (month + 1) (day - length) rest

def CalendarDay.monthDay (d : CalendarDay) : Nat × Nat :=
  Py.monthDay 1 d.day (monthLengths d.isLeap)

-- == texts

/-- A number in `w` digits. -/
def pad : Nat → Nat → PyStr
  | 0, _ => []
  | w + 1, n => pad w (n / 10) ++ [48 + n % 10]

/-- `YYYY-MM-DD`. -/
def dateText (day : Nat) : PyStr :=
  pad 4 (calendarDay day).yearNumber ++ (45 :: pad 2 (calendarDay day).monthDay.1
    ++ (45 :: pad 2 (calendarDay day).monthDay.2))

/-- `HH:MM:SS`. -/
def clockText (second : Nat) : PyStr :=
  pad 2 (second / 3600) ++ (58 :: pad 2 (second / 60 % 60) ++ (58 :: pad 2 (second % 60)))

/-- The microseconds, if there are any, and the offset. -/
def fractionText (micro : Nat) : PyStr :=
  (if micro = 0 then [] else 46 :: pad 6 micro) ++ py "+00:00"

/-- `dt.isoformat()`, for a time in UTC. -/
def isoformat (t : Instant) : PyStr :=
  dateText (t.toNat / 86400000000) ++ (84 :: clockText (t.toNat % 86400000000 / 1000000)
    ++ fractionText (t.toNat % 1000000))

-- == order

variable {x y : PyStr} {w a b m n : Nat} {s t : Int}

theorem append_lt_append {u v : PyStr} (hlength : u.length = v.length)
    (h : u < v ∨ u = v ∧ x < y) : u ++ x < v ++ y := by
  induction u generalizing v with
  | nil =>
    cases v with
    | nil =>
      rcases h with h | ⟨-, h⟩
      · exact absurd h (List.lt_irrefl _)
      · exact h
    | cons b v => cases hlength
  | cons a u ih =>
    cases v with
    | nil => cases hlength
    | cons b v =>
      rw [List.cons_append, List.cons_append, List.cons_lt_cons_iff]
      rw [List.cons_lt_cons_iff] at h
      rcases h with (h | ⟨rfl, h⟩) | ⟨heq, h⟩
      · exact Or.inl h
      · exact Or.inr ⟨rfl, ih (Nat.succ.inj hlength) (Or.inl h)⟩
      · cases heq
        exact Or.inr ⟨rfl, ih rfl (Or.inr ⟨rfl, h⟩)⟩

theorem cons_lt_cons {c : Nat} (h : x < y) : c :: x < c :: y :=
  List.cons_lt_cons_iff.mpr (Or.inr ⟨rfl, h⟩)

@[simp] theorem length_pad (w n : Nat) : (pad w n).length = w := by
  induction w generalizing n with
  | zero => rfl
  | succ w ih => rw [pad, List.length_append, ih, List.length_singleton]

theorem pad_lt_pad (h : a < b) (hb : b < 10 ^ w) : pad w a < pad w b := by
  induction w generalizing a b with
  | zero => omega
  | succ w ih =>
    rw [Nat.pow_succ] at hb
    refine append_lt_append (by rw [length_pad, length_pad]) ?_
    by_cases hten : a / 10 < b / 10
    · exact Or.inl (ih hten (by omega))
    · have hsame : a / 10 = b / 10 := by omega
      rw [hsame]
      refine Or.inr ⟨rfl, List.cons_lt_cons_iff.mpr (Or.inl ?_)⟩
      omega

theorem pad_append_lt (hb : b < 10 ^ w)
    (h : a < b ∨ a = b ∧ x < y) : pad w a ++ x < pad w b ++ y := by
  refine append_lt_append (by rw [length_pad, length_pad]) ?_
  rcases h with h | ⟨rfl, h⟩
  · exact Or.inl (pad_lt_pad h hb)
  · exact Or.inr ⟨rfl, h⟩

-- == order of dates

/-- The bounds of the parts of a day, and the number it has. -/
structure CalendarDay.Ok (n : Nat) (d : CalendarDay) : Prop where
  number : n = 146097 * d.cycle + 36524 * d.century + 1461 * d.olympiad + 365 * d.year + d.day
  century : d.century ≤ 3
  olympiad : d.olympiad ≤ 24
  year : d.year ≤ 3
  day : d.day ≤ 365
  inCycle : 36524 * d.century + 1461 * d.olympiad + 365 * d.year + d.day < 146097
  inCentury : d.century < 3 → 1461 * d.olympiad + 365 * d.year + d.day < 36524
  inOlympiad : 365 * d.year + d.day < 1461
  inYear : d.year < 3 → d.day < 365

theorem calendarDay_ok (n : Nat) : (calendarDay n).Ok n := by
  constructor <;> simp only [calendarDay] <;> omega

theorem calendarDay_lt (h : m < n) : (calendarDay m).yearNumber < (calendarDay n).yearNumber
      ∨ (calendarDay m).yearNumber = (calendarDay n).yearNumber
        ∧ (calendarDay m).isLeap = (calendarDay n).isLeap
        ∧ (calendarDay m).day < (calendarDay n).day := by
  have hm := calendarDay_ok m
  have hn := calendarDay_ok n
  generalize calendarDay m = a at hm ⊢
  generalize calendarDay n = b at hn ⊢
  obtain ⟨q, c, f, o, d⟩ := a
  obtain ⟨q', c', f', o', d'⟩ := b
  obtain ⟨hnum, hc, hf, ho, hd, hcycle, hcentury, holympiad, hyear⟩ := hm
  obtain ⟨hnum', hc', hf', ho', hd', hcycle', hcentury', holympiad', hyear'⟩ := hn
  simp only at hnum hc hf ho hd hcycle hcentury holympiad hyear
  simp only at hnum' hc' hf' ho' hd' hcycle' hcentury' holympiad' hyear'
  simp only [CalendarDay.yearNumber, CalendarDay.isLeap]
  by_cases hq : q = q'
  · subst hq
    by_cases hcc : c = c'
    · subst hcc
      by_cases hff : f = f'
      · subst hff
        by_cases hoo : o = o'
        · subst hoo
          exact Or.inr ⟨rfl, rfl, by omega⟩
        · exact Or.inl (by omega)
      · exact Or.inl (by omega)
    · exact Or.inl (by omega)
  · exact Or.inl (by omega)

/-- Where a day of the year stands among the months. -/
def monthCode (leap : Bool) (day : Nat) : Nat :=
  32 * (monthDay 1 day (monthLengths leap)).1 + (monthDay 1 day (monthLengths leap)).2

theorem monthCode_lt {leap : Bool} (h : a < b) (hb : b ≤ 365) :
    monthCode leap a < monthCode leap b := by
  have hstep : ∀ leap, ∀ n < 365, monthCode leap n < monthCode leap (n + 1) := by
    decide +kernel
  induction b with
  | zero => omega
  | succ b ih =>
    rcases Nat.lt_succ_iff_lt_or_eq.mp h with hlt | rfl
    · exact Nat.lt_trans (ih hlt (by omega)) (hstep leap b (by omega))
    · exact hstep leap a (by omega)

theorem monthDay_bounds (leap : Bool) {day : Nat} (h : day ≤ 365) :
    (monthDay 1 day (monthLengths leap)).1 < 100 ∧ (monthDay 1 day (monthLengths leap)).2 < 32 := by
  have hall : ∀ leap, ∀ n < 366, (monthDay 1 n (monthLengths leap)).1 < 100
      ∧ (monthDay 1 n (monthLengths leap)).2 < 32 := by decide +kernel
  exact hall leap day (by omega)

/-- The number of days of the years a `datetime` can have. -/
def maxDay : Nat := 3652059

theorem yearNumber_lt (h : n < maxDay) : (calendarDay n).yearNumber < 10000 := by
  have hn := calendarDay_ok n
  generalize calendarDay n = d at hn ⊢
  obtain ⟨hnumber, hc, hf, ho, hd, hcycle, hcentury, holympiad, hyear⟩ := hn
  unfold maxDay at h
  unfold CalendarDay.yearNumber
  omega

theorem dateText_lt (h : m < n) (hn : n < maxDay) : dateText m < dateText n := by
  refine pad_append_lt (yearNumber_lt hn) ?_
  rcases calendarDay_lt h with hyear | ⟨hyear, hleap, hday⟩
  · exact Or.inl hyear
  · refine Or.inr ⟨hyear, cons_lt_cons ?_⟩
    have hbound := (calendarDay_ok n).day
    have hcode : monthCode (calendarDay n).isLeap (calendarDay m).day
        < monthCode (calendarDay n).isLeap (calendarDay n).day := monthCode_lt hday hbound
    unfold monthCode at hcode
    obtain ⟨hmonth, hmday⟩ := monthDay_bounds (calendarDay n).isLeap hbound
    obtain ⟨hmonth', hmday'⟩ :=
      monthDay_bounds (calendarDay n).isLeap (Nat.le_of_lt (Nat.lt_of_lt_of_le hday hbound))
    unfold CalendarDay.monthDay
    rw [hleap]
    refine pad_append_lt hmonth ?_
    rcases Nat.lt_or_ge (monthDay 1 (calendarDay m).day (monthLengths (calendarDay n).isLeap)).1
      (monthDay 1 (calendarDay n).day (monthLengths (calendarDay n).isLeap)).1 with hlt | hge
    · exact Or.inl hlt
    · refine Or.inr ⟨by omega, cons_lt_cons (pad_lt_pad (by omega) (by omega))⟩

@[simp] theorem length_dateText (n : Nat) : (dateText n).length = 10 := by
  simp [dateText]

-- == order of times

@[simp] theorem length_clockText (n : Nat) : (clockText n).length = 8 := by
  simp [clockText]

theorem clockText_lt (h : m < n) (hn : n < 86400) : clockText m < clockText n := by
  refine pad_append_lt (by omega) ?_
  by_cases hhour : m / 3600 < n / 3600
  · exact Or.inl hhour
  · refine Or.inr ⟨by omega, cons_lt_cons (pad_append_lt (by omega) ?_)⟩
    by_cases hminute : m / 60 % 60 < n / 60 % 60
    · exact Or.inl hminute
    · exact Or.inr ⟨by omega, cons_lt_cons (pad_lt_pad (by omega) (by omega))⟩

theorem fractionText_lt (h : m < n) (hn : n < 1000000) : fractionText m < fractionText n := by
  unfold fractionText
  rw [if_neg (show n ≠ 0 by omega)]
  split
  · -- `+` comes before `.`
    exact List.cons_lt_cons_iff.mpr (Or.inl (by decide))
  · exact cons_lt_cons (pad_append_lt (by omega) (Or.inl h))

theorem isoformat_lt (hs : 0 ≤ s) (h : s < t) (ht : t ≤ maxInstant) :
    isoformat s < isoformat t := by
  replace ht : t ≤ 315537897599999999 := ht
  refine append_lt_append (by simp) ?_
  by_cases hday : s.toNat / 86400000000 < t.toNat / 86400000000
  · exact Or.inl (dateText_lt hday (by unfold maxDay; omega))
  · have hsame : s.toNat / 86400000000 = t.toNat / 86400000000 := by omega
    rw [hsame]
    refine Or.inr ⟨rfl, cons_lt_cons (append_lt_append (by simp) ?_)⟩
    by_cases hsecond : s.toNat % 86400000000 / 1000000 < t.toNat % 86400000000 / 1000000
    · exact Or.inl (clockText_lt hsecond (by omega))
    · have hseconds : s.toNat % 86400000000 / 1000000 = t.toNat % 86400000000 / 1000000 := by omega
      rw [hseconds]
      exact Or.inr ⟨rfl, fractionText_lt (by omega) (by omega)⟩

theorem isoformat_not_lt (hs : 0 ≤ s) (hs' : s ≤ maxInstant) (ht : 0 ≤ t)
    (ht' : t ≤ maxInstant) : ¬ isoformat t < isoformat s ↔ s ≤ t := by
  constructor
  · intro h
    by_contra hlt
    exact h (isoformat_lt ht (Int.not_le.mp hlt) hs')
  · intro h hlt
    rcases Int.lt_or_eq_of_le h with h | rfl
    · exact List.lt_asymm (isoformat_lt hs h ht') hlt
    · exact List.lt_irrefl _ hlt

end Py
