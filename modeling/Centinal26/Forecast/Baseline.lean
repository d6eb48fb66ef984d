/-
The baseline of a rain forecast: the days from the fifteenth to the second before the target,
each resolved from the reports of that day.
-/
import Mathlib.Tactic.Positivity
import Centinal26.Ingest.Extract
import Centinal26.Py.Typed
import Mathlib.Algebra.Order.Field.Rat

namespace Centinal26.Forecast

open Py
open Ingest (Formats pyStr)

-- == reports

inductive TimeError : Type
  | valueError
  | osError
  | overflowError
deriving DecidableEq

/-- A local time: the clock on the wall, in microseconds since the first day, and its text. -/
structure Local where
  wall : Int
  isoformat : PyStr
deriving DecidableEq

def Local.hour (l : Local) : Int := l.wall / 3600000000 % 24

def Local.date (l : Local) : Int := l.wall / 86400000000 + 1

/-- Texts, times and the calendar. -/
structure Times extends Formats where
  upper : PyStr → PyStr
  isdigit : PyStr → Bool
  /-- `datetime.fromtimestamp(float(value), utc)` -/
  fromtimestamp : Json → Except TimeError Instant
  /-- `datetime.fromisoformat(s).astimezone(utc)` -/
  fromisoformat : PyStr → Except TimeError Instant
  /-- `t.astimezone(TZ)` -/
  inZone : Instant → Except TimeError Local
  /-- `str(day)` -/
  strDate : Int → PyStr

abbrev Row := Members

variable (T : Times)

def timeKeys : List String := ["obsTime", "observation_time", "reportTime", "issueTime"]

def replaceZ (s : PyStr) : PyStr := s.flatMap fun c => if c = 90 then py "+00:00" else [c]

/-- `isinstance(value, (int, float))`: `True` and `False` are numbers. -/
def isNumber : Json → Bool
  | .int _ => true
  | .float _ => true
  | .bool _ => true
  | _ => false

def obsTimeFrom (row : Row) : List String → Except TimeError (Option Instant)
  | [] => .ok none
  | key :: keys =>
    match getItem? row (py key) with
    | none => obsTimeFrom row keys
    | some .null => obsTimeFrom row keys
    | some value =>
      if isNumber value || T.isdigit (pyStr T.toFormats value) then
        match T.fromtimestamp value with
        | .ok t => .ok (some t)
        | .error .overflowError => .error .overflowError
        | .error _ => obsTimeFrom row keys
      else
        match T.fromisoformat (replaceZ (pyStr T.toFormats value)) with
        | .ok t => .ok (some t)
        | .error .valueError => obsTimeFrom row keys
        | .error e => .error e

def obsTime (row : Row) : Except TimeError (Option Instant) := obsTimeFrom T row timeKeys

def rawKeys : List String := ["rawOb", "raw_text", "rawText", "raw", "wxString", "wx"]

def raw (row : Row) : PyStr :=
  match rawKeys.findSome? fun key => (getItem? row (py key)).filter Json.truthy with
  | some value => T.upper (pyStr T.toFormats value)
  | none => []

-- == rain

/-- What is left of a text behind one of some words. -/
def behind (words : List String) (s : PyStr) : List PyStr :=
  words.filterMap fun w =>
    if (py w).isPrefixOf s then some (s.drop (py w).length) else none

/-- The same, where the word may be missing. -/
def behindOptional (words : List String) (s : PyStr) : List PyStr := s :: behind words s

def isUpper (c : Nat) : Bool := decide (65 ≤ c ∧ c ≤ 90)

/-- `RAIN_RE`, at the start of a text: an intensity, a vicinity, a descriptor and the rain. -/
def rainHere (s : PyStr) : Bool :=
  (behindOptional ["-", "+"] s).any fun s =>
    (behindOptional ["VC"] s).any fun s =>
      (behindOptional ["SH", "TS", "FZ"] s).any fun s =>
        (behind ["RA", "DZ"] s).any fun rest => !rest.head?.any isUpper

/-- `RAIN_RE.search`, behind a character. -/
def rainFrom (before : Option Nat) : PyStr → Bool
  | [] => false
  | c :: s => (!before.any isUpper && rainHere (c :: s)) || rainFrom (some c) s

def hasRain (row : Row) : Bool := rainFrom none (raw T row)

-- == days

def observed (row : Row) : Except TimeError (Option Local) := do
  match ← obsTime T row with
  | none => .ok none
  | some t => do .ok (some (← T.inZone t))

def rowsForDay (day : Int) : List Row → Except TimeError (List Row)
  | [] => .ok []
  | row :: rest => do
    let seen ← observed T row
    let kept ← rowsForDay day rest
    .ok (if seen.any fun l => decide (l.date = day) then row :: kept else kept)

def localTimes : List Row → Except TimeError (List Local)
  | [] => .ok []
  | row :: rest => do
    let seen ← observed T row
    let times ← localTimes rest
    .ok (seen.toList ++ times)

inductive Status : Type
  | positive
  | insufficientCoverage
  | negative
deriving DecidableEq

inductive Coverage : Type
  | noData
  | data (status : Status) (reports uniqueHours : Nat) (first last : PyStr)
deriving DecidableEq

def outcomeOf (rows : List Row) (times : List Local) : Option Nat × Coverage :=
  match times.mergeSort (fun a b => decide (a.wall ≤ b.wall)) with
  | [] => (none, .noData)
  | first :: rest =>
    let hours := (times.map Local.hour).dedup.length
    let last := (rest.getLast?.getD first).isoformat
    if rows.any (hasRain T) then
      (some 1, .data .positive rows.length hours first.isoformat last)
    else if rows.length < 12 ∨ hours < 10 then
      (none, .data .insufficientCoverage rows.length hours first.isoformat last)
    else (some 0, .data .negative rows.length hours first.isoformat last)

def resolveDay (rows : List Row) (day : Int) : Except TimeError (Option Nat × Coverage) := do
  let dayRows ← rowsForDay T day rows
  let times ← localTimes T dayRows
  .ok (outcomeOf T dayRows times)

/-- `completed_baseline_days`: the days from `target - (days + 1)` to `target - 2`; before the
first day of the calendar there is none. -/
def completedBaselineDays (target : Int) (days : Nat) : Except TimeError (List Int) :=
  (List.range days).mapM fun i : Nat =>
    let day := target - ((days : Int) + 1 - i)
    if 1 ≤ day then .ok day else .error .overflowError

structure Baseline where
  usableDays : Nat
  wetDays : Nat
  usedDates : List PyStr
  smoothing : String
deriving DecidableEq

/-- The loop of `baseline_probability`: the outcomes and the days they are of. -/
def outcomes (rows : List Row) : List Int → Except TimeError (List (Nat × Int))
  | [] => .ok []
  | day :: days => do
    let (outcome, _) ← resolveDay T rows day
    let rest ← outcomes rows days
    .ok (outcome.toList.map (·, day) ++ rest)

/-- `baseline_probability`; the quotient is rounded to a float. -/
def baselineProbability (rows : List Row) (target : Int) (days : Nat) :
    Except TimeError (Rat × Baseline) := do
  let used ← outcomes T rows (← completedBaselineDays target days)
  let wet := (used.map Prod.fst).sum
  .ok ((wet + 1) / (used.length + 2),
    ⟨used.length, wet, used.map fun o => T.strDate o.2, "Beta(1,1)"⟩)

def inWindow (target : Int) (row : Row) : Bool :=
  match observed T row with
  | .ok (some l) => decide (target - 15 ≤ l.date ∧ l.date ≤ target - 2)
  | _ => false

/-- The time of the row cannot be read, nor passed over. -/
def Raises (row : Row) : Prop := ∃ e, observed T row = .error e

/-- Both lists have one baseline, and its probability is no certainty. -/
def Isolated (target : Int) (rows rows' : List Row) : Prop :=
  ∃ p baseline, baselineProbability T rows target 14 = .ok (p, baseline)
    ∧ baselineProbability T rows' target 14 = .ok (p, baseline) ∧ 0 < p ∧ p < 1

-- == rows that can be read

section Read

variable {T}

def onDay (T : Times) (day : Int) (row : Row) : Bool :=
  match observed T row with
  | .ok (some l) => decide (l.date = day)
  | _ => false

theorem observed_ok {row : Row} (h : ¬ Raises T row) : ∃ seen, observed T row = .ok seen := by
  cases hseen : observed T row with
  | ok seen => exact ⟨seen, rfl⟩
  | error e => exact absurd ⟨e, hseen⟩ h

variable {rows : List Row}

theorem rowsForDay_ok (h : ∀ row ∈ rows, ¬ Raises T row) (day : Int) :
    rowsForDay T day rows = .ok (rows.filter (onDay T day)) := by
  induction rows with
  | nil => rfl
  | cons row rest ih =>
    obtain ⟨hrow, hrest⟩ := List.forall_mem_cons.mp h
    obtain ⟨seen, hseen⟩ := observed_ok hrow
    have hday : onDay T day row = seen.any fun l => decide (l.date = day) := by
      unfold onDay
      rw [hseen]
      cases seen <;> rfl
    rw [rowsForDay, hseen, bind_ok_eq, ih hrest, bind_ok_eq, List.filter_cons, hday]

/-- A row that cannot be read is read for any day. -/
theorem of_rowsForDay {day : Int} {kept : List Row}
    (h : rowsForDay T day rows = .ok kept) : ∀ row ∈ rows, ¬ Raises T row := by
  induction rows generalizing kept with
  | nil => exact fun row hrow => absurd hrow List.not_mem_nil
  | cons row rest ih =>
    rw [rowsForDay] at h
    obtain ⟨seen, hseen, h⟩ := of_bind_ok h
    obtain ⟨dayRows, hrest, -⟩ := of_bind_ok h
    refine List.forall_mem_cons.mpr ⟨?_, ih hrest⟩
    rintro ⟨e, he⟩
    rw [hseen] at he
    cases he

theorem localTimes_ok (rows : List Row) (h : ∀ row ∈ rows, ¬ Raises T row) :
    ∃ times, localTimes T rows = .ok times := by
  induction rows with
  | nil => exact ⟨[], rfl⟩
  | cons row rest ih =>
    obtain ⟨hrow, hrest⟩ := List.forall_mem_cons.mp h
    obtain ⟨seen, hseen⟩ := observed_ok hrow
    obtain ⟨times, htimes⟩ := ih hrest
    refine ⟨seen.toList ++ times, ?_⟩
    rw [localTimes, hseen, bind_ok_eq, htimes, bind_ok_eq]

theorem resolveDay_ok (h : ∀ row ∈ rows, ¬ Raises T row) (day : Int) :
    ∃ times, localTimes T (rows.filter (onDay T day)) = .ok times
      ∧ resolveDay T rows day = .ok (outcomeOf T (rows.filter (onDay T day)) times) := by
  obtain ⟨times, htimes⟩ := localTimes_ok (rows.filter (onDay T day)) fun row hrow =>
    h row (List.mem_filter.mp hrow).1
  refine ⟨times, htimes, ?_⟩
  unfold resolveDay
  rw [rowsForDay_ok h, bind_ok_eq, htimes, bind_ok_eq]

theorem outcomeOf_le (rows : List Row) (times : List Local) :
    ∀ n ∈ (outcomeOf T rows times).1, n ≤ 1 := by
  intro n hn
  unfold outcomeOf at hn
  split at hn
  · cases hn
  · dsimp only at hn
    split at hn
    · cases hn
      exact Nat.le_refl 1
    · split at hn
      · cases hn
      · cases hn
        exact Nat.zero_le 1

end Read

-- == the window

section Window

variable {T}

variable {target day : Int}

theorem onDay_inWindow (h : target - 15 ≤ day ∧ day ≤ target - 2) (row : Row) :
    onDay T day row = (onDay T day row && inWindow T target row) := by
  unfold onDay inWindow
  split
  · next l hl =>
    by_cases hday : l.date = day
    · rw [hday, decide_eq_true h, Bool.and_true]
    · rw [decide_eq_false hday, Bool.false_and]
  · rfl

/-- The rows of a day of the window are among those of the window. -/
theorem filter_onDay (h : target - 15 ≤ day ∧ day ≤ target - 2) (rows : List Row) :
    rows.filter (onDay T day) = (rows.filter (inWindow T target)).filter (onDay T day) := by
  rw [List.filter_filter]
  exact List.filter_congr fun row _ => onDay_inWindow h row

/-- The days before the target that are looked at. -/
def windowDays (target : Int) : List Int := (List.range 14).map fun i : Nat => target - (15 - i)

theorem mem_windowDays (h : day ∈ windowDays target) : target - 15 ≤ day ∧ day ≤ target - 2 := by
  obtain ⟨i, hi, rfl⟩ := List.mem_map.mp h
  have hlt := List.mem_range.mp hi
  omega

variable {ns : List Nat} {days : List Int} {rows : List Row}

theorem mapM_days : (ns.mapM fun i : Nat =>
        if 1 ≤ target - (15 - (i : Int)) then Except.ok (target - (15 - (i : Int)))
        else Except.error TimeError.overflowError) = .ok days
      ↔ (∀ i ∈ ns, 1 ≤ target - (15 - (i : Int)))
        ∧ days = ns.map fun i : Nat => target - (15 - i) := by
  induction ns generalizing days with
  | nil =>
    rw [List.mapM_nil, List.map_nil]
    exact ⟨fun h => ⟨fun i hi => absurd hi List.not_mem_nil, (Except.ok.inj h).symm⟩,
      fun h => congrArg Except.ok h.2.symm⟩
  | cons i ns ih =>
    rw [List.mapM_cons, List.forall_mem_cons, List.map_cons]
    by_cases hi : 1 ≤ target - (15 - (i : Int))
    · rw [if_pos hi, bind_ok_eq]
      constructor
      · intro h
        obtain ⟨rest, hrest, h⟩ := of_bind_ok h
        obtain ⟨hall, rfl⟩ := ih.mp hrest
        exact ⟨⟨hi, hall⟩, (Except.ok.inj h).symm⟩
      · rintro ⟨⟨-, hall⟩, rfl⟩
        rw [ih.mpr ⟨hall, rfl⟩]
        rfl
    · rw [if_neg hi]
      refine ⟨fun h => ?_, fun h => absurd h.1.1 hi⟩
      cases h

theorem completedBaselineDays_ok :
    completedBaselineDays target 14 = .ok days ↔ 15 < target ∧ days = windowDays target := by
  unfold completedBaselineDays windowDays
  refine mapM_days.trans (and_congr_left fun _ => ?_)
  constructor
  · intro h
    have hfirst := h 0 (by decide)
    omega
  · intro h i _
    omega

theorem outcomes_congr {rows' : List Row}
    (hsame : rows.filter (inWindow T target) = rows'.filter (inWindow T target))
    (h : ∀ row ∈ rows, ¬ Raises T row) (h' : ∀ row ∈ rows', ¬ Raises T row) (days : List Int)
    (hdays : ∀ day ∈ days, target - 15 ≤ day ∧ day ≤ target - 2) :
    ∃ used, outcomes T rows days = .ok used ∧ outcomes T rows' days = .ok used
      ∧ ∀ o ∈ used, o.1 ≤ 1 := by
  induction days with
  | nil => exact ⟨[], rfl, rfl, fun o ho => absurd ho List.not_mem_nil⟩
  | cons day days ih =>
    obtain ⟨hday, hdays⟩ := List.forall_mem_cons.mp hdays
    obtain ⟨used, hused, hused', hle⟩ := ih hdays
    have hrows : rows.filter (onDay T day) = rows'.filter (onDay T day) := by
      rw [filter_onDay hday rows, hsame, ← filter_onDay hday rows']
    obtain ⟨times, htimes, hresolve⟩ := resolveDay_ok h day
    obtain ⟨times', htimes', hresolve'⟩ := resolveDay_ok h' day
    rw [← hrows, htimes] at htimes'
    cases htimes'
    rw [← hrows] at hresolve'
    refine ⟨(outcomeOf T (rows.filter (onDay T day)) times).1.toList.map (·, day) ++ used,
      ?_, ?_, ?_⟩
    · rw [outcomes, hresolve, bind_ok_eq]
      dsimp only
      rw [hused, bind_ok_eq]
    · rw [outcomes, hresolve', bind_ok_eq]
      dsimp only
      rw [hused', bind_ok_eq]
    · intro o ho
      rcases List.mem_append.mp ho with ho | ho
      · obtain ⟨n, hn, rfl⟩ := List.mem_map.mp ho
        exact outcomeOf_le _ _ n (Option.mem_toList.mp hn)
      · exact hle o ho

theorem outcomes_reads {used : List (Nat × Int)}
    (h : outcomes T rows (windowDays target) = .ok used) : ∀ row ∈ rows, ¬ Raises T row := by
  have hcons : ∃ day days, windowDays target = day :: days := by
    unfold windowDays
    rw [List.range_succ_eq_map]
    exact ⟨_, _, rfl⟩
  obtain ⟨day, days, hcons⟩ := hcons
  rw [hcons, outcomes] at h
  obtain ⟨resolved, hday, -⟩ := of_bind_ok h
  obtain ⟨dayRows, hrows, -⟩ := of_bind_ok hday
  exact of_rowsForDay hrows

theorem sum_le_length (h : ∀ n ∈ ns, n ≤ 1) : ns.sum ≤ ns.length := by
  induction ns with
  | nil => exact Nat.le_refl 0
  | cons n ns ih =>
    obtain ⟨hn, hns⟩ := List.forall_mem_cons.mp h
    have hle := ih hns
    rw [List.sum_cons, List.length_cons]
    omega

/-- The probability is that of a beta distribution: no evidence makes it certain. -/
theorem smoothed {wet count : Nat} (h : wet ≤ count) :
    (0 : Rat) < (wet + 1) / (count + 2) ∧ ((wet : Rat) + 1) / (count + 2) < 1 := by
  refine ⟨by positivity, ?_⟩
  rw [div_lt_one (by positivity)]
  have hlt : wet + 1 < count + 2 := by omega
  exact_mod_cast hlt

/-- The rows outside the window leave the baseline alone just if all times can be read or passed
over, and the window is in the calendar. -/
theorem isolated_iff {target : Int} {rows rows' : List Row}
    (hsame : rows.filter (inWindow T target) = rows'.filter (inWindow T target)) :
    Isolated T target rows rows'
      ↔ 15 < target ∧ ∀ row, row ∈ rows ∨ row ∈ rows' → ¬ Raises T row := by
  constructor
  · rintro ⟨p, baseline, hrun, hrun', -⟩
    obtain ⟨days, hdays, hrun⟩ := of_bind_ok hrun
    obtain ⟨days', hdays', hrun'⟩ := of_bind_ok hrun'
    obtain ⟨htarget, rfl⟩ := completedBaselineDays_ok.mp hdays
    obtain ⟨-, rfl⟩ := completedBaselineDays_ok.mp hdays'
    obtain ⟨used, hused, -⟩ := of_bind_ok hrun
    obtain ⟨used', hused', -⟩ := of_bind_ok hrun'
    refine ⟨htarget, fun row hrow => ?_⟩
    rcases hrow with hrow | hrow
    · exact outcomes_reads hused row hrow
    · exact outcomes_reads hused' row hrow
  · rintro ⟨htarget, hreads⟩
    obtain ⟨used, hused, hused', hle⟩ := outcomes_congr hsame
      (fun row hrow => hreads row (Or.inl hrow)) (fun row hrow => hreads row (Or.inr hrow))
      (windowDays target) fun day => mem_windowDays
    have hdays := completedBaselineDays_ok.mpr ⟨htarget, rfl⟩
    have hwet : (used.map Prod.fst).sum ≤ used.length := by
      have hlength : (used.map Prod.fst).length = used.length := List.length_map _
      rw [← hlength]
      refine sum_le_length fun n hn => ?_
      obtain ⟨o, ho, rfl⟩ := List.mem_map.mp hn
      exact hle o ho
    have hrun : ∀ list, outcomes T list (windowDays target) = .ok used →
        baselineProbability T list target 14
          = .ok ((((used.map Prod.fst).sum : Nat) + 1) / ((used.length : Nat) + 2),
            ⟨used.length, (used.map Prod.fst).sum, used.map fun o => T.strDate o.2,
              "Beta(1,1)"⟩) := by
      intro list hlist
      unfold baselineProbability
      rw [hdays, bind_ok_eq, hlist, bind_ok_eq]
    exact ⟨_, _, hrun rows hused, hrun rows' hused', smoothed hwet⟩

end Window

namespace Sample

/-- A clock that takes a number for a second of the first of all days, as long as it is one. -/
def times : Times where
  sha256 _ := ⟨[], nofun⟩
  jsonLoads _ := .error (.valueError "Expecting value")
  containerStr _ := py "{}"
  upper s := s
  isdigit s := !s.isEmpty && s.all fun c => decide (48 ≤ c ∧ c ≤ 57)
  fromtimestamp
    | .int n => if n.natAbs < 2 ^ 63 then .ok (n * 1000000) else .error .overflowError
    | _ => .error .valueError
  fromisoformat _ := .error .valueError
  inZone t := .ok ⟨t, py "day"⟩
  strDate _ := py "day"

def report (n : Int) : Row := [(py "obsTime", .int n), (py "rawOb", .str (py "MMMX RA"))]

theorem filter_report {n : Int} (h : inWindow times 20 (report n) = false) :
    ([] : List Row).filter (inWindow times 20) = [report n].filter (inWindow times 20) := by
  rw [List.filter_cons, h]
  rfl

end Sample

theorem isolated_later : Isolated Sample.times 20 [] [Sample.report 10000000]
    ↔ 15 < (20 : Int) ∧ ∀ row, row ∈ ([] : List Row) ∨ row ∈ [Sample.report 10000000] →
      ¬ Raises Sample.times row :=
  isolated_iff (Sample.filter_report (by decide +kernel))

/-- A time that is too large for the clock is in no window, and takes the baseline away. -/
theorem isolated_overflow : ([] : List Row).filter (inWindow Sample.times 20)
        = [Sample.report (10 ^ 20)].filter (inWindow Sample.times 20)
      ∧ ¬ Isolated Sample.times 20 [] [Sample.report (10 ^ 20)] := by
  refine ⟨Sample.filter_report (by decide +kernel), ?_⟩
  rintro ⟨p, baseline, -, hrun, -⟩
  obtain ⟨days, hdays, hrun⟩ := of_bind_ok hrun
  obtain ⟨-, rfl⟩ := completedBaselineDays_ok.mp hdays
  obtain ⟨used, hused, -⟩ := of_bind_ok hrun
  refine outcomes_reads hused _ (List.mem_singleton_self _) ⟨.overflowError, ?_⟩
  decide +kernel

end Centinal26.Forecast
