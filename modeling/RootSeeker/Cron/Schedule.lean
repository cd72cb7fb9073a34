import RootSeeker.Core.Loops
import RootSeeker.Cron.Jobs

/-!
# Cron expressions

The minimal scheduler understands the minute and the hour of an expression.
Its search for the next run steps through local wall-clock minutes.
-/

namespace RootSeeker.Cron

open Python Contracts

/-- The standard library with time zones and SHA-256. -/
structure CronStdlib extends NumberStdlib where
  Zone : Type
  /-- `ZoneInfo(key)`; an unknown key is a `KeyError`. -/
  zoneInfo : PyStr → Except PyError Zone
  /-- The wall clock of a zone at an instant, in microseconds. -/
  toLocal : Zone → Instant → ℤ
  /-- The instant at which the wall clock of a zone shows this. -/
  toUtc : Zone → ℤ → Instant
  /-- The first eight hexadecimal digits of the SHA-256 of a text, as a number. -/
  sha256Head : PyStr → ℕ

/-! ## Parsing -/

/-- `text.split()`. -/
def splitWords (text : PyStr) : List PyStr :=
  (text.splitBy fun c d => isSpace c == isSpace d).filter fun word => !word.all isSpace

/-- `text.split(separator)` for a separator of one character. -/
def splitAt (separator : CodePoint) (text : PyStr) : List PyStr :=
  text.splitOn separator

/-- `None` matches every value. -/
structure CronField where
  values : Option (List ℤ)

def CronField.matches (field : CronField) (value : ℤ) : Bool :=
  match field.values with
  | none => true
  | some values => value ∈ values

def parseInt (std : CronStdlib) (raw : PyStr) (minimum maximum : ℤ) : Except PyError ℤ :=
  match std.intOfText raw with
  | none => .error (.valueError (py "invalid cron field value: " ++ raw))
  | some value =>
    if value < minimum ∨ maximum < value then
      .error (.valueError (py "cron field value out of range: " ++ raw))
    else .ok value

/-- `range(start, stop + 1, step)` for a positive step. -/
def rangeUpTo (start stop step : ℤ) : List ℤ :=
  ((List.range (stop + 1 - start).toNat).map fun offset : ℕ => start + offset).filter
    fun value => (value - start) % step = 0

def parseField (std : CronStdlib) (raw : PyStr) (minimum maximum : ℤ) :
    Except PyError CronField :=
  if raw = py "*" then .ok ⟨none⟩
  else if (py "*/").isPrefixOf raw then do
    let step ← parseInt std (raw.drop 2) 1 maximum
    pure ⟨some (rangeUpTo minimum maximum step)⟩
  else do
    let values ← (splitAt (CodePoint.ofChar ',') raw).mapM
      fun part => parseInt std part minimum maximum
    pure ⟨some values⟩

def aliases : Dict PyStr PyStr :=
  [(py "@hourly", py "0 * * * *"), (py "@daily", py "0 0 * * *"), (py "@weekly", py "0 0 * * 0")]

def parseExpression (std : CronStdlib) (expression : PyStr) :
    Except PyError (CronField × CronField) :=
  match splitWords ((aliases.get? (strip expression)).getD (strip expression)) with
  | [minute, hour, _, _, _] => do
    let minute ← parseField std minute 0 59
    let hour ← parseField std hour 0 23
    pure (minute, hour)
  | _ => .error (.valueError (py "cron expression must have 5 fields: " ++ expression))

def loadTimezone (std : CronStdlib) (timezone : PyStr) : Except PyError std.Zone :=
  match std.zoneInfo timezone with
  | .error (.keyError _) => .error (.valueError (py "unknown timezone: " ++ timezone))
  | loaded => loaded

/-! ## The next run -/

def minuteLength : ℤ := 60 * 1000000

/-- The first minute from `current` on at which both fields match. -/
def searchMinutes (minute hour : CronField) : ℕ → ℤ → Option ℤ
  | 0, _ => none
  | fuel + 1, current =>
    let minutes := current / minuteLength
    if minute.matches (minutes % 60) ∧ hour.matches (minutes / 60 % 24) then
      some current
    else searchMinutes minute hour fuel (current + minuteLength)

/-- `parse_schedule(expression, timezone).next_after(now)`. -/
def nextAfter (std : CronStdlib) (expression timezone : PyStr) (now : Instant) :
    Except PyError Instant := do
  let zone ← loadTimezone std timezone
  let (minute, hour) ← parseExpression std expression
  let wall := std.toLocal zone now
  match searchMinutes minute hour (60 * 24 * 366)
      (wall - wall % minuteLength + minuteLength) with
  | some next => pure (std.toUtc zone next)
  | none => .error (.valueError (py "cannot find next run for expression: " ++ expression))

def stableStaggerSeconds (std : CronStdlib) (jobId : PyStr) (maxOffset : ℤ) : ℤ :=
  if maxOffset ≤ 0 then 0 else std.sha256Head jobId % (maxOffset + 1)

/-- `_schedule_next_run`. -/
def scheduleNextRun (std : CronStdlib) (job : CronJobSpec) (after : Instant) :
    Except PyError Instant := do
  let nextAt ← nextAfter std job.schedule.val job.timezone after
  let staggerMax ← intOrZero std.toNumberStdlib job.metadata.val (py "stagger_max_offset_seconds")
  if 0 < staggerMax then
    pure (nextAt + stableStaggerSeconds std job.jobId.val staggerMax * 1000000)
  else pure nextAt

/-! ## A parsed expression has a next run -/

/-- Some value of the range matches. -/
def CronField.Matchable (field : CronField) (minimum maximum : ℤ) : Prop :=
  ∃ value, minimum ≤ value ∧ value ≤ maximum ∧ field.matches value = true

variable {minute : CronField} {std : CronStdlib}

theorem parseInt_eq_ok {raw : PyStr} {minimum maximum value : ℤ}
    (hok : parseInt std raw minimum maximum = .ok value) : minimum ≤ value ∧ value ≤ maximum := by
  unfold parseInt at hok
  split at hok
  · exact absurd hok (by simp)
  · split at hok
    · exact absurd hok (by simp)
    · rename_i hrange
      obtain rfl := Except.ok.inj hok
      omega

theorem matchable_of_parseField {raw : PyStr} {minimum maximum : ℤ} (hrange : minimum ≤ maximum)
    {field : CronField} (hok : parseField std raw minimum maximum = .ok field) :
    field.Matchable minimum maximum := by
  unfold parseField at hok
  split at hok
  · obtain rfl := Except.ok.inj hok
    exact ⟨minimum, le_refl _, hrange, rfl⟩
  · split at hok
    · obtain ⟨step, hstep, hok⟩ := Loops.exists_of_bind_eq_ok hok
      obtain rfl := Except.ok.inj hok
      refine ⟨minimum, le_refl _, hrange, ?_⟩
      simp only [CronField.matches, rangeUpTo, List.mem_filter, List.mem_map,
        List.mem_range, decide_eq_true_eq]
      refine ⟨⟨0, ?_, by simp⟩, by simp⟩
      omega
    · obtain ⟨values, hvalues, hok⟩ := Loops.exists_of_bind_eq_ok hok
      obtain rfl := Except.ok.inj hok
      have hparts : splitAt (CodePoint.ofChar ',') raw ≠ [] := List.splitOn_ne_nil _ _
      cases hsplit : splitAt (CodePoint.ofChar ',') raw with
      | nil => exact absurd hsplit hparts
      | cons part parts =>
        rw [hsplit, List.mapM_cons] at hvalues
        obtain ⟨value, hvalue, hvalues⟩ := Loops.exists_of_bind_eq_ok hvalues
        obtain ⟨others, _, hvalues⟩ := Loops.exists_of_bind_eq_ok hvalues
        obtain rfl := Except.ok.inj hvalues
        obtain ⟨hmin, hmax⟩ := parseInt_eq_ok hvalue
        exact ⟨value, hmin, hmax, by simp [CronField.matches]⟩

theorem matchable_of_parseExpression {expression : PyStr} {hour : CronField}
    (hok : parseExpression std expression = .ok (minute, hour)) :
    minute.Matchable 0 59 ∧ hour.Matchable 0 23 := by
  unfold parseExpression at hok
  split at hok
  · obtain ⟨first, hfirst, hok⟩ := Loops.exists_of_bind_eq_ok hok
    obtain ⟨second, hsecond, hok⟩ := Loops.exists_of_bind_eq_ok hok
    obtain ⟨rfl, rfl⟩ := Prod.mk.inj (Except.ok.inj hok)
    exact ⟨matchable_of_parseField (by decide) hfirst, matchable_of_parseField (by decide) hsecond⟩
  · exact absurd hok (by simp)

/-- The search finds a match that is within reach. -/
theorem exists_searchMinutes {hour : CronField} {fuel : ℕ} {current : ℤ} (offset : ℕ)
    (hreach : offset < fuel)
    (hminute : minute.matches ((current / minuteLength + offset) % 60) = true)
    (hhour : hour.matches ((current / minuteLength + offset) / 60 % 24) = true) :
    ∃ next, searchMinutes minute hour fuel current = some next := by
  induction fuel generalizing offset current with
  | zero => omega
  | succ fuel ih =>
    simp only [searchMinutes]
    split
    · exact ⟨current, rfl⟩
    · rename_i hother
      cases offset with
      | zero =>
        rw [Nat.cast_zero, add_zero] at hminute hhour
        exact absurd ⟨hminute, hhour⟩ hother
      | succ offset =>
        have hnext : (current + minuteLength) / minuteLength + offset =
            current / minuteLength + (offset + 1 : ℕ) := by
          rw [Int.add_ediv_of_dvd_right (dvd_refl _), Int.ediv_self (by decide)]
          push_cast
          ring
        apply ih offset (Nat.lt_of_succ_lt_succ hreach)
        · rw [hnext]
          exact hminute
        · rw [hnext]
          exact hhour

/-- One day of minutes contains every pair of a minute and an hour. -/
theorem exists_searchMinutes_of_matchable {hour : CronField} (hminute : minute.Matchable 0 59)
    (hhour : hour.Matchable 0 23) (current : ℤ) :
    ∃ next, searchMinutes minute hour (60 * 24 * 366) current = some next := by
  obtain ⟨m, hm0, hm59, hm⟩ := hminute
  obtain ⟨h, hh0, hh23, hh⟩ := hhour
  have hday : (current / minuteLength +
      ((60 * h + m - current / minuteLength) % 1440).toNat) % 1440 = 60 * h + m := by
    omega
  have hminutes : (current / minuteLength +
      ((60 * h + m - current / minuteLength) % 1440).toNat) % 60 = m := by
    omega
  have hhours : (current / minuteLength +
      ((60 * h + m - current / minuteLength) % 1440).toNat) / 60 % 24 = h := by
    omega
  apply exists_searchMinutes ((60 * h + m - current / minuteLength) % 1440).toNat
  · omega
  · rw [hminutes]
    exact hm
  · rw [hhours]
    exact hh

/-- The schedule, the time zone and the stagger of the job can be read. -/
structure Schedulable (std : CronStdlib) (job : CronJobSpec) : Prop where
  timezone : ∃ zone, loadTimezone std job.timezone = .ok zone
  schedule : ∃ fields, parseExpression std job.schedule.val = .ok fields
  stagger : ∃ seconds, intOrZero std.toNumberStdlib job.metadata.val
    (py "stagger_max_offset_seconds") = .ok seconds

/-- Whether a job can be scheduled does not depend on the time. -/
theorem exists_scheduleNextRun_iff {job : CronJobSpec} (after : Instant) :
    (∃ next, scheduleNextRun std job after = .ok next) ↔ Schedulable std job := by
  constructor
  · rintro ⟨next, hnext⟩
    unfold scheduleNextRun at hnext
    obtain ⟨nextAt, hnextAt, hnext⟩ := Loops.exists_of_bind_eq_ok hnext
    obtain ⟨seconds, hseconds, _⟩ := Loops.exists_of_bind_eq_ok hnext
    unfold nextAfter at hnextAt
    obtain ⟨zone, hzone, hnextAt⟩ := Loops.exists_of_bind_eq_ok hnextAt
    obtain ⟨fields, hfields, _⟩ := Loops.exists_of_bind_eq_ok hnextAt
    exact ⟨⟨zone, hzone⟩, ⟨fields, hfields⟩, ⟨seconds, hseconds⟩⟩
  · rintro ⟨⟨zone, hzone⟩, ⟨⟨minute, hour⟩, hfields⟩, ⟨seconds, hseconds⟩⟩
    obtain ⟨hminute, hhour⟩ := matchable_of_parseExpression hfields
    obtain ⟨found, hlocal⟩ := exists_searchMinutes_of_matchable hminute hhour
      (std.toLocal zone after - std.toLocal zone after % minuteLength + minuteLength)
    simp only [scheduleNextRun, nextAfter, hzone, hfields, hlocal, hseconds, bind,
      Except.bind, pure, Except.pure]
    split
    · exact ⟨_, rfl⟩
    · exact ⟨_, rfl⟩

end RootSeeker.Cron
