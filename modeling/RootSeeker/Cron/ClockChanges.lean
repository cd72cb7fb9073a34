import RootSeeker.Cron.Schedule

/-!
# The next run and changes of the clock

The search for the next run steps through wall-clock minutes and only then asks
for the instant.  The answer is the next matching minute unless the clock is put
back or ahead in the way of the search.
-/

namespace RootSeeker.Cron

open Python Contracts

section Clock

variable (clock : Instant → ℤ)

/-- A jump ahead of the clock leaves out a wall time that no instant shows. -/
structure SkippedAt (wall : ℤ) (jump : Instant) : Prop where
  unseen : ∀ instant, clock instant ≠ wall
  before : clock (jump - 1) < wall
  after : wall < clock jump

/-- Where the clock would show a wall time without the jump. -/
def withoutJump (wall : ℤ) (jump : Instant) : Instant :=
  wall - (clock (jump - 1) - (jump - 1))

/-- The instant of a wall time: the first one that shows it, or the one by the offset
before the jump that skips it. -/
inductive StandsFor (wall : ℤ) (instant : Instant) : Prop
  | shown : clock instant = wall → (∀ earlier < instant, clock earlier ≠ wall) →
      StandsFor wall instant
  | skipped (jump : Instant) : SkippedAt clock wall jump →
      instant = withoutJump clock wall jump → StandsFor wall instant

/-- A time zone converts wall times by the standard rule, which is unambiguous. -/
structure StandardZone (toUtc : ℤ → Instant) : Prop where
  standsFor : ∀ wall, StandsFor clock wall (toUtc wall)
  unique : ∀ wall first second, StandsFor clock wall first → StandsFor clock wall second →
    first = second

def minuteOf (wall : ℤ) : ℤ :=
  wall - wall % minuteLength

variable (minute hour : CronField)

/-- The minute and the hour of a wall time match the fields. -/
def MatchesWall (wall : ℤ) : Prop :=
  minute.matches (wall / minuteLength % 60) = true ∧
    hour.matches (wall / minuteLength / 60 % 24) = true

/-- The first matching minute after a wall time, as if the clock never changed. -/
structure IsNextWall (start wall : ℤ) : Prop where
  whole : wall % minuteLength = 0
  later : start < wall
  isMatch : MatchesWall minute hour wall
  first : ∀ other, other % minuteLength = 0 → start < other → other < wall →
    ¬MatchesWall minute hour other

/-- What the next run should be. -/
structure IsNextRun (now next : Instant) : Prop where
  later : now < next
  isMatch : MatchesWall minute hour (clock next)
  first : ∀ between, between % minuteLength = 0 → now < between → between < next →
    ¬MatchesWall minute hour (clock between)

/-- The clock does not change in the way of the search: the next matching wall minute has
not been shown yet, a jump that skips it leads to a later match, and until then no whole
minute shows a matching wall minute out of its turn, before the current one or behind the
next. -/
structure ClockUndisturbed (now : Instant) : Prop where
  unseen : ∀ wall, IsNextWall minute hour (clock now) wall →
    ∀ earlier ≤ now, clock earlier ≠ wall
  skipped : ∀ wall, IsNextWall minute hour (clock now) wall →
    ∀ jump, SkippedAt clock wall jump → now < withoutJump clock wall jump ∧
      MatchesWall minute hour (clock (withoutJump clock wall jump))
  inTurn : ∀ wall, IsNextWall minute hour (clock now) wall →
    ∀ next, StandsFor clock wall next →
      ∀ between, between % minuteLength = 0 → now < between → between < next →
        minuteOf (clock between) ≤ clock now ∨ wall ≤ minuteOf (clock between) →
          ¬MatchesWall minute hour (clock between)

end Clock

section Search

variable {minute hour : CronField}

theorem matchesWall_minuteOf (wall : ℤ) :
    MatchesWall minute hour (minuteOf wall) ↔ MatchesWall minute hour wall := by
  have hsame : minuteOf wall / minuteLength = wall / minuteLength := by
    rw [minuteOf, minuteLength]
    omega
  rw [MatchesWall, MatchesWall, hsame]

/-- The search stops at the first match. -/
theorem searchMinutes_first {fuel : ℕ} {current wall : ℤ} (hwhole : current % minuteLength = 0)
    (hfound : searchMinutes minute hour fuel current = some wall) :
    wall % minuteLength = 0 ∧ current ≤ wall ∧ MatchesWall minute hour wall ∧
      ∀ other, other % minuteLength = 0 → current ≤ other → other < wall →
        ¬MatchesWall minute hour other := by
  induction fuel generalizing current with
  | zero => exact absurd hfound (by simp [searchMinutes])
  | succ fuel ih =>
    rw [searchMinutes] at hfound
    split at hfound
    · rename_i hmatch
      obtain rfl := Option.some.inj hfound
      exact ⟨hwhole, le_rfl, hmatch, fun other _ hle hlt => absurd hlt (not_lt.mpr hle)⟩
    · rename_i hmiss
      have hnext : (current + minuteLength) % minuteLength = 0 := by
        rw [Int.add_emod_right, hwhole]
      obtain ⟨hwallWhole, hle, hmatch, hfirst⟩ := ih hnext hfound
      have hpos : 0 < minuteLength := by decide
      refine ⟨hwallWhole, by omega, hmatch, fun other hother hfrom hto => ?_⟩
      by_cases heq : other = current
      · rw [heq]
        exact hmiss
      · refine hfirst other hother ?_ hto
        rw [minuteLength] at hwhole hother ⊢
        omega

theorem isNextWall_of_search {start wall : ℤ} {fuel : ℕ}
    (hfound : searchMinutes minute hour fuel (start - start % minuteLength + minuteLength) =
      some wall) : IsNextWall minute hour start wall := by
  have hwhole : (start - start % minuteLength + minuteLength) % minuteLength = 0 := by
    rw [minuteLength]
    omega
  obtain ⟨hwallWhole, hle, hmatch, hfirst⟩ := searchMinutes_first hwhole hfound
  refine ⟨hwallWhole, ?_, hmatch, fun other hother hlater hlt => hfirst other hother ?_ hlt⟩
  · have hpos : start % minuteLength < minuteLength := Int.emod_lt_of_pos _ (by decide)
    omega
  · rw [minuteLength] at hother ⊢
    omega

theorem IsNextWall.unique {start wall other : ℤ} (hwall : IsNextWall minute hour start wall)
    (hother : IsNextWall minute hour start other) : wall = other := by
  cases lt_trichotomy wall other with
  | inl hlt => exact absurd hwall.isMatch (hother.first wall hwall.whole hwall.later hlt)
  | inr hge =>
    cases hge with
    | inl heq => exact heq
    | inr hlt => exact absurd hother.isMatch (hwall.first other hother.whole hother.later hlt)

end Search

/-- The instant of the next matching wall minute is the next run exactly where the clock
does not change in the way. -/
theorem isNextRun_iff {clock : Instant → ℤ} {toUtc : ℤ → Instant} {minute hour : CronField}
    {now : Instant} {wall : ℤ} (hzone : StandardZone clock toUtc)
    (hwall : IsNextWall minute hour (clock now) wall) :
    IsNextRun clock minute hour now (toUtc wall) ↔ ClockUndisturbed clock minute hour now := by
  have hstands := hzone.standsFor wall
  constructor
  · intro hnext
    constructor
    · intro other hother earlier hle hshown
      obtain rfl := hwall.unique hother
      cases hstands with
      | shown _ hearliest => exact hearliest earlier (hle.trans_lt hnext.later) hshown
      | skipped jump hjump _ => exact hjump.unseen earlier hshown
    · intro other hother jump hjump
      obtain rfl := hwall.unique hother
      rw [hzone.unique wall _ _ (.skipped jump hjump rfl) hstands]
      exact ⟨hnext.later, hnext.isMatch⟩
    · intro other hother next hnextStands between hwhole hlater hbefore _
      obtain rfl := hwall.unique hother
      rw [hzone.unique wall _ _ hnextStands hstands] at hbefore
      exact hnext.first between hwhole hlater hbefore
  · intro hundisturbed
    have hboth : now < toUtc wall ∧ MatchesWall minute hour (clock (toUtc wall)) := by
      cases hstands with
      | shown hshown _ =>
        refine ⟨not_le.mp fun hle => ?_, hshown.symm ▸ hwall.isMatch⟩
        exact hundisturbed.unseen wall hwall _ hle hshown
      | skipped jump hjump heq =>
        rw [heq]
        exact hundisturbed.skipped wall hwall jump hjump
    refine ⟨hboth.1, hboth.2, fun between hwhole hlater hbefore hmatch => ?_⟩
    by_cases hturn : minuteOf (clock between) ≤ clock now ∨ wall ≤ minuteOf (clock between)
    · exact hundisturbed.inTurn wall hwall _ hstands between hwhole hlater hbefore hturn hmatch
    · rw [not_or, not_le, not_le] at hturn
      have hminute : minuteOf (clock between) % minuteLength = 0 := by
        rw [minuteOf, minuteLength]
        omega
      exact hwall.first _ hminute hturn.1 hturn.2 ((matchesWall_minuteOf _).mpr hmatch)

/-- A clock that runs evenly until it shows the next matching minute, for the first time,
disturbs nothing. -/
theorem clockUndisturbed_of_steady {clock : Instant → ℤ} {minute hour : CronField} {now : Instant}
    {wall offset : ℤ} (hoffset : offset % minuteLength = 0)
    (hwall : IsNextWall minute hour (clock now) wall) (hnow : clock now = now + offset)
    (hsteady : ∀ instant, now < instant → instant ≤ wall - offset →
      clock instant = instant + offset) (hunseen : ∀ earlier < now, clock earlier ≠ wall) :
    ClockUndisturbed clock minute hour now := by
  have hlater : now + offset < wall := hnow ▸ hwall.later
  have hshown : clock (wall - offset) = wall := by
    rw [hsteady (wall - offset) (lt_sub_iff_add_lt.mpr hlater) le_rfl]
    exact sub_add_cancel wall offset
  constructor
  · intro other hother earlier hle
    obtain rfl := hwall.unique hother
    cases hle.lt_or_eq with
    | inl hlt => exact hunseen earlier hlt
    | inr heq =>
      rw [heq]
      exact hwall.later.ne
  · intro other hother jump hjump
    obtain rfl := hwall.unique hother
    exact absurd hshown (hjump.unseen _)
  · intro other hother next hnext between hwhole hafter hbefore hturn
    obtain rfl := hwall.unique hother
    have hle : next ≤ wall - offset := by
      cases hnext with
      | shown _ hearliest => exact not_lt.mp fun hlt => hearliest _ hlt hshown
      | skipped jump hjump _ => exact absurd hshown (hjump.unseen _)
    have hclock := hsteady between hafter (hbefore.le.trans hle)
    have hminute : minuteOf (clock between) = between + offset := by
      rw [hclock, minuteOf]
      rw [minuteLength] at hoffset hwhole ⊢
      omega
    rw [hminute, hnow] at hturn
    cases hturn with
    | inl hback => exact absurd hback (not_le.mpr (add_lt_add_left hafter offset))
    | inr hahead => exact absurd (hbefore.trans_le hle) (not_lt.mpr (sub_le_iff_le_add.mpr hahead))

/-- `next_after` returns the next run exactly where the clock does not change in the way of
its search. -/
theorem next_after_iff (std : CronStdlib) {expression timezone : PyStr} {zone : std.Zone}
    {minute hour : CronField} (hzone : loadTimezone std timezone = .ok zone)
    (hfields : parseExpression std expression = .ok (minute, hour))
    (hstandard : StandardZone (std.toLocal zone) (std.toUtc zone)) (now : Instant) :
    (∃ next, nextAfter std expression timezone now = .ok next ∧
        IsNextRun (std.toLocal zone) minute hour now next) ↔
      ClockUndisturbed (std.toLocal zone) minute hour now := by
  obtain ⟨hminute, hhour⟩ := matchable_of_parseExpression hfields
  obtain ⟨wall, hfound⟩ := exists_searchMinutes_of_matchable hminute hhour
    (std.toLocal zone now - std.toLocal zone now % minuteLength + minuteLength)
  have hnext : nextAfter std expression timezone now = .ok (std.toUtc zone wall) := by
    simp only [nextAfter, hzone, hfields, hfound, bind, Except.bind, pure, Except.pure]
  rw [← isNextRun_iff hstandard (isNextWall_of_search hfound), hnext]
  constructor
  · rintro ⟨next, heq, hrun⟩
    rwa [Except.ok.inj heq]
  · exact fun hrun => ⟨_, rfl, hrun⟩

/-! ## The end of summer time -/

/-- One o'clock UTC on the last Sunday of October 2026. -/
def summerEnd : Instant := 1792890000 * 1000000

/-- Central European time, from the summer of 2026 on. -/
def berlinStdlib : CronStdlib :=
  { numberStdlib with
    Zone := Unit
    zoneInfo := fun _ => .ok ()
    toLocal := fun _ instant =>
      if instant < summerEnd then instant + 120 * minuteLength else instant + 60 * minuteLength
    toUtc := fun _ wall =>
      if wall < summerEnd + 120 * minuteLength then wall - 120 * minuteLength
      else wall - 60 * minuteLength
    sha256Head := fun _ => 0 }

theorem berlin_toLocal_of_lt {instant : Instant} (hlt : instant < summerEnd) :
    berlinStdlib.toLocal () instant = instant + 120 * minuteLength :=
  if_pos hlt

theorem berlin_toLocal_of_le {instant : Instant} (hle : summerEnd ≤ instant) :
    berlinStdlib.toLocal () instant = instant + 60 * minuteLength :=
  if_neg (not_lt.mpr hle)

theorem berlin_toUtc_of_lt {wall : ℤ} (hlt : wall < summerEnd + 120 * minuteLength) :
    berlinStdlib.toUtc () wall = wall - 120 * minuteLength :=
  if_pos hlt

theorem berlin_toUtc_of_le {wall : ℤ} (hle : summerEnd + 120 * minuteLength ≤ wall) :
    berlinStdlib.toUtc () wall = wall - 60 * minuteLength :=
  if_neg (not_lt.mpr hle)

theorem standardZone_berlin : StandardZone (berlinStdlib.toLocal ()) (berlinStdlib.toUtc ()) := by
  have hpos : 0 < minuteLength := by decide
  have hshown : ∀ wall, berlinStdlib.toLocal () (berlinStdlib.toUtc () wall) = wall := by
    intro wall
    cases lt_or_ge wall (summerEnd + 120 * minuteLength) with
    | inl hlt =>
      rw [berlin_toUtc_of_lt hlt, berlin_toLocal_of_lt (by linarith)]
      linarith
    | inr hle =>
      rw [berlin_toUtc_of_le hle, berlin_toLocal_of_le (by linarith)]
      linarith
  have hearliest : ∀ wall, ∀ earlier < berlinStdlib.toUtc () wall,
      berlinStdlib.toLocal () earlier ≠ wall := by
    intro wall earlier hearlier
    cases lt_or_ge wall (summerEnd + 120 * minuteLength) with
    | inl hlt =>
      rw [berlin_toUtc_of_lt hlt] at hearlier
      rw [berlin_toLocal_of_lt (by linarith)]
      linarith
    | inr hle =>
      rw [berlin_toUtc_of_le hle] at hearlier
      cases lt_or_ge earlier summerEnd with
      | inl hsummer =>
        rw [berlin_toLocal_of_lt hsummer]
        linarith
      | inr hwinter =>
        rw [berlin_toLocal_of_le hwinter]
        linarith
  constructor
  · exact fun wall => .shown (hshown wall) (hearliest wall)
  · have hfirst : ∀ wall instant, StandsFor (berlinStdlib.toLocal ()) wall instant →
        instant = berlinStdlib.toUtc () wall := by
      intro wall instant hstands
      cases hstands with
      | shown hseen hnone =>
        cases lt_trichotomy instant (berlinStdlib.toUtc () wall) with
        | inl hlt => exact absurd hseen (hearliest wall instant hlt)
        | inr hge => exact hge.resolve_right fun hlt => hnone _ hlt (hshown wall)
      | skipped jump hjump _ => exact absurd (hshown wall) (hjump.unseen _)
    intro wall first second hone htwo
    rw [hfirst wall first hone, hfirst wall second htwo]

/-- An hour before the clock is put back, with every minute matching. -/
theorem summer_next_run :
    ∃ next, nextAfter berlinStdlib (py "* * * * *") (py "Europe/Berlin")
          (summerEnd - 60 * minuteLength) = .ok next ∧
        IsNextRun (berlinStdlib.toLocal ()) ⟨none⟩ ⟨none⟩
          (summerEnd - 60 * minuteLength) next := by
  apply (@next_after_iff berlinStdlib (py "* * * * *") (py "Europe/Berlin") () ⟨none⟩ ⟨none⟩
    rfl rfl standardZone_berlin _).mpr
  have hbefore : summerEnd - 60 * minuteLength < summerEnd := by decide
  have hevery : ∀ wall, MatchesWall ⟨none⟩ ⟨none⟩ wall := fun _ => ⟨rfl, rfl⟩
  apply @clockUndisturbed_of_steady _ _ _ _ (summerEnd + 61 * minuteLength) (120 * minuteLength)
    (by decide) ⟨by decide, ?_, hevery _, ?_⟩ (berlin_toLocal_of_lt hbefore)
  · intro instant _ hle
    exact berlin_toLocal_of_lt (hle.trans_lt (by decide))
  · intro earlier hlt
    rw [berlin_toLocal_of_lt (hlt.trans hbefore)]
    linarith
  · rw [berlin_toLocal_of_lt hbefore]
    decide
  · intro other hother hlater hlt
    rw [berlin_toLocal_of_lt hbefore] at hlater
    rw [minuteLength] at hother hlater hlt
    rw [summerEnd] at hlater hlt
    omega

/-- Ten minutes after the clock has been put back, the next run is the first time it
showed the next minute, fifty-nine minutes ago. -/
theorem repeated_hour_goes_back :
    StandardZone (berlinStdlib.toLocal ()) (berlinStdlib.toUtc ()) ∧
      nextAfter berlinStdlib (py "* * * * *") (py "Europe/Berlin")
          (summerEnd + 10 * minuteLength) = .ok (summerEnd - 49 * minuteLength) ∧
        ¬summerEnd + 10 * minuteLength < summerEnd - 49 * minuteLength :=
  ⟨standardZone_berlin, rfl, by decide⟩

end RootSeeker.Cron
