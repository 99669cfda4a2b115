import Mathlib
import OraDesktop.Scheduled.Run

/-!
# Planned times

When the runtime plans an occurrence it takes a time of the task's schedule: for an hourly schedule
counted from the anchor of the task, for a calendar schedule from its cron expression. Either way
planned times are far apart compared with the time an occurrence may be late.

## Main results

* `onGrid_of_planned` — where planned times lie
* `length_window_le` — how many there are while an occurrence is due
* `recent_eq_live_iff` — when startup recovery offers the times of live scheduling
-/

namespace OraDesktop.Scheduled

inductive Weekday where
  | monday
  | tuesday
  | wednesday
  | thursday
  | friday
  | saturday
  | sunday

/-- Intervals are positive and of sixteen bits. -/
inductive Schedule where
  | everyHours (interval : Nat) (positive : 0 < interval) (bounded : interval < 65536)
  | daily (hour minute : Nat)
  | weekly (weekdays : List Weekday) (hour minute : Nat)

/-- What planning reads of a task's definition. The anchor is what an hourly schedule counts
from. -/
structure Definition where
  id : String
  schedule : Schedule
  scheduleAnchorAt : Option Int
  updatedAt : Int

/-- The times of a calendar schedule in the timezone of the scheduler: those after the first time
and not after the second, in order. The expressions ask for second zero, and timezones are whole
minutes apart, so these are whole minutes. -/
structure Calendar where
  ticks : Schedule → Int → Int → List Int
  whole_minutes : ∀ schedule start observedAt, ∀ tick ∈ ticks schedule start observedAt,
    tick % 60000 = 0

/-- `60 * 60 * 1_000` -/
def hour : Int := 3600000

/-- The first hourly occurrence strictly after a time. It is counted from the anchor, so late timers
do not shift the schedule. -/
def Schedule.nextHourlyOccurrenceAfter (anchorAt after : Int) : Schedule → Option Int
  | .everyHours interval _ _ => do
    let intervalMillis ← checked (interval * hour)
    let completed := saturate (after - anchorAt) / intervalMillis
    let next ← checked (completed + 1)
    let offset ← checked (next * intervalMillis)
    checked (anchorAt + offset)
  | .daily .. | .weekly .. => none

/-- The latest two planned times at startup: one may still be due, and the one before it is what was
missed. -/
def recentScheduledOccurrences (calendar : Calendar) (task : Definition) (observedAt : Int) :
    List Int :=
  match task.schedule with
  | .everyHours interval _ _ =>
    match task.scheduleAnchorAt with
    | none => []
    | some anchorAt =>
      let intervalMillis := saturate (interval * hour)
      if intervalMillis ≤ 0 then []
      else
        let first := saturate (anchorAt + intervalMillis)
        if observedAt < first then []
        else
          let latest := saturate (first +
            saturate (saturate (observedAt - first) / intervalMillis * intervalMillis))
          let previous := saturate (latest - intervalMillis)
          if anchorAt ≤ previous then [previous, latest] else [latest]
  | schedule =>
    let ticks := calendar.ticks schedule (min task.updatedAt observedAt) observedAt
    ticks.drop (ticks.length - 2)

/-- The planned time a calendar callback belongs to, since callbacks come a little late and carry no
time of their own. -/
def latestCalendarOccurrenceAtOrBefore (calendar : Calendar) (schedule : Schedule)
    (observedAt : Int) : Option Int :=
  match schedule with
  | .everyHours .. => none
  | schedule => (calendar.ticks schedule (observedAt - 8 * 24 * hour) observedAt).getLast?

/-- The task was anchored at the time and not again before `time`. `anchored` are the readings of the
clock at which it was: enabling a task, or turning it to an hourly schedule, anchors it anew. -/
def AnchoredUntil (anchored : Int → Prop) (anchorAt time : Int) : Prop :=
  anchored anchorAt ∧ ∀ later, anchored later → anchorAt < later → time ≤ later

/-- The runtime may plan the time for the task: as the next of its timer, from a callback of its
calendar, or at startup. Anchoring a task anew cancels its timer, so one that fires was armed for an
anchor that is still the task's at the time it was armed for. -/
def Planned (calendar : Calendar) (anchored : Int → Prop) (task : Definition) (time : Int) : Prop :=
  (∃ anchorAt now, task.scheduleAnchorAt = some anchorAt ∧ anchorAt ≤ now ∧
    task.schedule.nextHourlyOccurrenceAfter anchorAt now = some time ∧
    AnchoredUntil anchored anchorAt time) ∨
  (∃ observedAt, latestCalendarOccurrenceAtOrBefore calendar task.schedule observedAt = some time) ∨
  ∃ observedAt, time ∈ recentScheduledOccurrences calendar task observedAt ∧
    ∀ anchorAt, task.scheduleAnchorAt = some anchorAt → AnchoredUntil anchored anchorAt observedAt

/-! ### The grid

Arithmetic that saturates takes an hourly time off the hours of its anchor, but only to the two ends
of time and whole hours from there. -/

/-- On the hours of an anchor that stays the task's until then, and for an hour at least. -/
structure OnHours (anchored : Int → Prop) (anchorAt time : Int) : Prop where
  mod_eq : time % 3600000 = anchorAt % 3600000
  le : anchorAt ≤ time
  until_time : AnchoredUntil anchored anchorAt time
  until_hour : AnchoredUntil anchored anchorAt (anchorAt + 3600000)

/-- A whole minute, or a whole number of hours from an end of time or an anchor. -/
def OnGrid (anchored : Int → Prop) (time : Int) : Prop :=
  time % 60000 = 0 ∨ time % 3600000 = maxTime % 3600000 ∨ time % 3600000 = minTime % 3600000 ∨
    ∃ anchorAt, OnHours anchored anchorAt time

theorem saturate_eq_self {x : Int} (hmin : minTime ≤ x) (hmax : x ≤ maxTime) : saturate x = x := by
  unfold saturate
  omega

theorem checked_eq_self {x : Int} (hmin : minTime ≤ x) (hmax : x ≤ maxTime) :
    checked x = some x := if_pos ⟨hmin, hmax⟩

theorem checked_eq_some {x y : Int} (h : checked x = some y) : x = y := by
  unfold checked at h
  split at h
  · exact Option.some.inj h
  · cases h

theorem millis_bounds {interval : Nat} {millis : Int} (positive : 0 < interval)
    (bounded : interval < 65536) (hmillis : interval * hour = millis) :
    3600000 ≤ millis ∧ millis ≤ maxTime ∧ minTime ≤ 0 := by
  unfold hour at hmillis
  unfold maxTime minTime
  omega

theorem AnchoredUntil.mono {anchored : Int → Prop} {anchorAt time time' : Int}
    (h : AnchoredUntil anchored anchorAt time') (hle : time ≤ time') :
    AnchoredUntil anchored anchorAt time :=
  ⟨h.1, fun later hlater hlt => hle.trans (h.2 later hlater hlt)⟩

/-- The next occurrence is whole hours after its anchor, one at least. -/
theorem nextHourly_mod {schedule : Schedule} {anchorAt after time : Int} (hafter : anchorAt ≤ after)
    (h : schedule.nextHourlyOccurrenceAfter anchorAt after = some time) :
    time % 3600000 = anchorAt % 3600000 ∧ anchorAt + 3600000 ≤ time := by
  cases schedule with
  | daily => cases h
  | weekly => cases h
  | everyHours interval positive bounded =>
    simp only [Schedule.nextHourlyOccurrenceAfter, Option.bind_eq_bind,
      Option.bind_eq_some_iff] at h
    obtain ⟨millis, hmillis, next, hnext, offset, hoffset, htime⟩ := h
    rw [← checked_eq_some htime, ← checked_eq_some hoffset, ← checked_eq_some hnext,
      ← checked_eq_some hmillis]
    have hcompleted : 0 ≤ saturate (after - anchorAt) / (interval * hour) := by
      refine Int.ediv_nonneg ?_ ?_
      · unfold saturate maxTime minTime
        omega
      · unfold hour
        omega
    have hwhole := Int.mul_nonneg hcompleted (Int.natCast_nonneg interval)
    rw [← Int.mul_assoc, Int.add_mul]
    unfold hour at hwhole ⊢
    omega

/-- At startup an hourly time is whole hours after its anchor, and an hour has passed since that,
unless arithmetic has saturated. -/
theorem recent_mod {calendar : Calendar} {task : Definition} {observedAt time anchorAt : Int}
    {interval : Nat} {positive : 0 < interval} {bounded : interval < 65536}
    (hschedule : task.schedule = .everyHours interval positive bounded)
    (hanchor : task.scheduleAnchorAt = some anchorAt)
    (h : time ∈ recentScheduledOccurrences calendar task observedAt) :
    time % 3600000 = maxTime % 3600000 ∨ time % 3600000 = minTime % 3600000 ∨
      time % 3600000 = anchorAt % 3600000 ∧ anchorAt ≤ time ∧ time ≤ observedAt ∧
        anchorAt + 3600000 ≤ observedAt := by
  obtain ⟨hhour, hmax, hmin⟩ := millis_bounds positive bounded rfl
  rw [recentScheduledOccurrences, hschedule, hanchor] at h
  simp only [saturate_eq_self (x := interval * hour) (by omega) hmax] at h
  split at h
  · cases h
  split at h
  · cases h
  rename_i hpositive hobserved
  generalize hfirst : saturate (anchorAt + interval * hour) = first at h hobserved
  have hnonneg : 0 ≤ saturate (observedAt - first) := by
    unfold saturate maxTime minTime
    omega
  have hle := Int.ediv_mul_le (saturate (observedAt - first)) (by omega : interval * hour ≠ 0)
  have hwhole := Int.mul_nonneg (Int.ediv_nonneg hnonneg (by omega : 0 ≤ interval * hour))
    (by omega : 0 ≤ interval * hour)
  rw [← Int.mul_assoc] at hle hwhole h
  generalize saturate (observedAt - first) / (interval * hour) * interval = hours at hle hwhole h
  have htime : time = saturate (first + saturate (hours * hour)) ∨
      anchorAt ≤ time ∧ time = saturate (saturate (first + saturate (hours * hour)) - interval * hour) := by
    split at h
    · rcases List.mem_cons.mp h with rfl | h
      · exact .inr ⟨‹_›, rfl⟩
      · exact .inl (List.mem_singleton.mp h)
    · exact .inl (List.mem_singleton.mp h)
  unfold saturate maxTime minTime hour at *
  omega

theorem onGrid_of_recent {calendar : Calendar} {anchored : Int → Prop} {task : Definition}
    {observedAt time : Int} (hanchor : ∀ anchorAt, task.scheduleAnchorAt = some anchorAt →
      AnchoredUntil anchored anchorAt observedAt)
    (h : time ∈ recentScheduledOccurrences calendar task observedAt) : OnGrid anchored time := by
  cases hschedule : task.schedule with
  | everyHours interval positive bounded =>
    cases hat : task.scheduleAnchorAt with
    | none =>
      rw [recentScheduledOccurrences, hschedule, hat] at h
      cases h
    | some anchorAt =>
      rcases recent_mod hschedule hat h with hmax | hmin | ⟨hmod, hle, hobserved, hhour⟩
      · exact .inr (.inl hmax)
      · exact .inr (.inr (.inl hmin))
      · exact .inr (.inr (.inr ⟨anchorAt, hmod, hle, (hanchor _ hat).mono hobserved,
          (hanchor _ hat).mono hhour⟩))
  | daily | weekly =>
    rw [recentScheduledOccurrences, hschedule] at h
    exact .inl (calendar.whole_minutes _ _ _ _ (List.mem_of_mem_drop h))

theorem onGrid_of_planned {calendar : Calendar} {anchored : Int → Prop} {task : Definition}
    {time : Int} (h : Planned calendar anchored task time) : OnGrid anchored time := by
  rcases h with ⟨anchorAt, now, -, hnow, hnext, huntil⟩ | ⟨observedAt, hlatest⟩ |
    ⟨observedAt, hrecent, hanchor⟩
  · obtain ⟨hmod, hhour⟩ := nextHourly_mod hnow hnext
    exact .inr (.inr (.inr ⟨anchorAt, hmod, by omega, huntil, huntil.mono hhour⟩))
  · unfold latestCalendarOccurrenceAtOrBefore at hlatest
    split at hlatest
    · cases hlatest
    · exact .inl (calendar.whole_minutes _ _ _ _ (List.mem_of_getLast? hlatest))
  · exact onGrid_of_recent hanchor hrecent

/-! ### The window in which an occurrence is due -/

/-- The time on the hours of `residue` in the hour after `time`. -/
def hourAfter (time residue : Int) : Int := time + 1 + (residue - (time + 1)) % 3600000

/-- The times that follow a time while an occurrence of that time is due, but for those of anchors. -/
def gridAfter (time : Int) : List Int :=
  (List.range 10).map (fun minute : Nat => (time / 60000 + 1 + minute) * 60000) ++
    [hourAfter time maxTime, hourAfter time minTime]

theorem eq_hourAfter {time later residue : Int} (hlater : time < later)
    (hdue : later ≤ time + maxLateness) (hmod : later % 3600000 = residue % 3600000) :
    later = hourAfter time residue := by
  unfold maxLateness at hdue
  unfold hourAfter
  omega

section

variable {anchored : Int → Prop} {time later : Int}

theorem mem_gridAfter_or (hgrid : OnGrid anchored later) (hlater : time < later)
    (hdue : later ≤ time + maxLateness) :
    later ∈ gridAfter time ∨ ∃ anchorAt, OnHours anchored anchorAt later := by
  rw [gridAfter, List.mem_append]
  rcases hgrid with hminute | hmax | hmin | hhours
  · left
    left
    unfold maxLateness at hdue
    rw [List.mem_map]
    refine ⟨(later / 60000 - (time / 60000 + 1)).toNat, ?_, ?_⟩
    · rw [List.mem_range]
      omega
    · omega
  · simp [eq_hourAfter hlater hdue hmax]
  · simp [eq_hourAfter hlater hdue hmin]
  · exact .inr hhours

/-- While an occurrence is due, the task has no third anchor: the second is set when a time of the
first has come, and stays for an hour. So no three times of anchors follow. -/
theorem OnHours.not_third {a b c x y z : Int} (ha : OnHours anchored a x) (hb : OnHours anchored b y)
    (hc : OnHours anchored c z) (hlow : time < x ∧ time < y ∧ time < z)
    (hhigh : x ≤ time + maxLateness ∧ y ≤ time + maxLateness ∧ z ≤ time + maxLateness)
    (hxy : x ≠ y) (hxz : x ≠ z) (hyz : y ≠ z) : False := by
  have hnext {a b x y : Int} (ha : OnHours anchored a x) (hb : OnHours anchored b y) :
      a < b → x ≤ b ∧ a + 3600000 ≤ b := fun hlt =>
    ⟨ha.until_time.2 b hb.until_time.1 hlt, ha.until_hour.2 b hb.until_hour.1 hlt⟩
  have hab := hnext ha hb
  have hba := hnext hb ha
  have hac := hnext ha hc
  have hca := hnext hc ha
  have hbc := hnext hb hc
  have hcb := hnext hc hb
  have := ha.le
  have := hb.le
  have := hc.le
  have := ha.mod_eq
  have := hb.mod_eq
  have := hc.mod_eq
  unfold maxLateness at hhigh
  omega

/-- While an occurrence is due few planned times follow it. -/
theorem length_window_le (time : Int) {times : List Int} (hnodup : times.Nodup)
    (h : ∀ later ∈ times, OnGrid anchored later ∧ time < later ∧ later ≤ time + maxLateness) :
    times.length ≤ 14 := by
  have hfixed : (times.filter (· ∈ gridAfter time)).length ≤ 12 := by
    have hlength : (gridAfter time).length = 12 := by simp [gridAfter]
    rw [← hlength]
    refine (List.subperm_of_subset (hnodup.filter _) fun later hlater => ?_).length_le
    exact of_decide_eq_true (List.mem_filter.mp hlater).2
  obtain ⟨others, hothers⟩ : ∃ others,
      times.filter (fun later => !decide (later ∈ gridAfter time)) = others := ⟨_, rfl⟩
  have hanchors : ∀ later ∈ others,
      (∃ anchorAt, OnHours anchored anchorAt later) ∧ time < later ∧ later ≤ time + maxLateness := by
    intro later hlater
    rw [← hothers, List.mem_filter] at hlater
    obtain ⟨hgrid, hlt, hdue⟩ := h later hlater.1
    refine ⟨(mem_gridAfter_or hgrid hlt hdue).resolve_left ?_, hlt, hdue⟩
    simpa using hlater.2
  have hfew : others.length ≤ 2 := by
    have hdistinct : others.Nodup := hothers ▸ hnodup.filter _
    rcases others with _ | ⟨x, _ | ⟨y, _ | ⟨z, rest⟩⟩⟩
    · simp
    · simp
    · simp
    · obtain ⟨⟨a, ha⟩, hx⟩ := hanchors x (by simp)
      obtain ⟨⟨b, hb⟩, hy⟩ := hanchors y (by simp)
      obtain ⟨⟨c, hc⟩, hz⟩ := hanchors z (by simp)
      simp only [List.nodup_cons, List.mem_cons, not_or] at hdistinct
      exact (ha.not_third hb hc ⟨hx.1, hy.1, hz.1⟩ ⟨hx.2, hy.2, hz.2⟩ hdistinct.1.1
        hdistinct.1.2.1 hdistinct.2.1.1).elim
  have hsplit := List.length_eq_length_filter_add (l := times) (· ∈ gridAfter time)
  rw [hothers] at hsplit
  omega

end

/-! ### Recovery and live scheduling

Startup rounds down from the observation, while the timer goes from one occurrence to the next. -/

/-- What asking for the next occurrence again and again yields up to the observation. -/
def Schedule.liveTicks (schedule : Schedule) (anchorAt observedAt : Int) : Nat → Int → List Int
  | 0, _ => []
  | fuel + 1, after =>
    match schedule.nextHourlyOccurrenceAfter anchorAt after with
    | none => []
    | some next =>
      if next ≤ observedAt then next :: schedule.liveTicks anchorAt observedAt fuel next else []

section Hourly

variable {interval : Nat} {positive : 0 < interval} {bounded : interval < 65536}
  {anchorAt observedAt millis : Int} (hmillis : interval * hour = millis)

include hmillis

/-- The occurrence after the one that is `count` intervals from the anchor. -/
theorem nextHourly_of_tick {count : Nat} (hcount : count * millis ≤ maxTime) :
    (Schedule.everyHours interval positive bounded).nextHourlyOccurrenceAfter anchorAt
        (anchorAt + count * millis) =
      (checked ((count + 1) * millis)).bind fun offset => checked (anchorAt + offset) := by
  obtain ⟨hhour, hmillis_le, hneg⟩ := millis_bounds positive bounded hmillis
  have hle : (count : Int) * 3600000 ≤ count * millis :=
    Int.mul_le_mul_of_nonneg_left hhour (Int.natCast_nonneg count)
  have hnext : (count : Int) + 1 ≤ maxTime := by
    unfold maxTime at *
    omega
  have helapsed : anchorAt + count * millis - anchorAt = count * millis := by omega
  rw [Schedule.nextHourlyOccurrenceAfter, hmillis, checked_eq_self (by omega) hmillis_le, helapsed,
    saturate_eq_self (by omega) hcount]
  simp only [Option.bind_eq_bind, Option.bind_some]
  rw [Int.mul_ediv_cancel _ (by omega), checked_eq_self (by omega) hnext, Option.bind_some]

variable (hmin : minTime ≤ anchorAt) (hmax : observedAt ≤ maxTime)
  (helapsed : observedAt - anchorAt ≤ maxTime)

include hmin hmax helapsed

/-- Live scheduling yields the times whole intervals from the anchor, but not the anchor. -/
theorem liveTicks_eq {last : Nat} (hlast : last * millis ≤ observedAt - anchorAt)
    (hnext : observedAt - anchorAt < last * millis + millis) {ticks fuel count : Nat}
    (hfuel : ticks ≤ fuel) (hcount : count + ticks = last) :
    (Schedule.everyHours interval positive bounded).liveTicks anchorAt observedAt fuel
        (anchorAt + count * millis) =
      (List.range' (count + 1) ticks).map fun k : Nat => anchorAt + k * millis := by
  have hsum := Int.add_mul count 1 millis
  induction ticks generalizing fuel count with
  | zero =>
    obtain rfl : count = last := hcount
    cases fuel with
    | zero => rfl
    | succ fuel =>
      rw [Schedule.liveTicks, nextHourly_of_tick hmillis (by omega)]
      split
      · rfl
      · rename_i next hsome
        obtain ⟨offset, hoffset, htime⟩ := Option.bind_eq_some_iff.mp hsome
        rw [← checked_eq_some htime, ← checked_eq_some hoffset, if_neg (by omega)]
        rfl
  | succ ticks ih =>
    obtain ⟨fuel, rfl⟩ : ∃ fuel', fuel = fuel' + 1 := ⟨fuel - 1, by omega⟩
    obtain ⟨hhour, -, hneg⟩ := millis_bounds positive bounded hmillis
    have hle : (count + 1) * millis ≤ last * millis :=
      Int.mul_le_mul_of_nonneg_right (by omega) (by omega)
    have hnonneg : 0 ≤ count * millis := Int.mul_nonneg (Int.natCast_nonneg count) (by omega)
    rw [Schedule.liveTicks, nextHourly_of_tick hmillis (by omega),
      checked_eq_self (by omega) (by omega), Option.bind_some,
      checked_eq_self (by omega) (by omega)]
    simp only
    rw [if_pos (by omega), ← Int.natCast_succ, ih (by omega) (by omega) (Int.add_mul _ 1 millis),
      List.range'_succ, List.map_cons]

variable {calendar : Calendar} {task : Definition}
  (hschedule : task.schedule = .everyHours interval positive bounded)
  (hanchor : task.scheduleAnchorAt = some anchorAt) (hfirst : anchorAt + millis ≤ maxTime)

include hschedule hanchor hfirst

/-- Startup offers two times whole intervals from the anchor, even if one is the anchor. -/
theorem recent_eq {count : Nat} (hlast : count * millis ≤ observedAt - (anchorAt + millis))
    (hnext : observedAt - (anchorAt + millis) < count * millis + millis) :
    recentScheduledOccurrences calendar task observedAt =
      [anchorAt + count * millis, anchorAt + (count + 1 : Nat) * millis] := by
  obtain ⟨hhour, hmillis_le, hneg⟩ := millis_bounds positive bounded hmillis
  have hsum := Int.add_mul count 1 millis
  have hnonneg : 0 ≤ count * millis := Int.mul_nonneg (Int.natCast_nonneg count) (by omega)
  have hquotient := (Int.ediv_eq_iff_of_pos (by omega)).mpr ⟨hlast, hnext⟩
  have hback : anchorAt + millis + count * millis - millis = anchorAt + count * millis := by omega
  rw [recentScheduledOccurrences, hschedule, hanchor]
  simp only [hmillis]
  rw [saturate_eq_self (by omega) hmillis_le, if_neg (by omega),
    saturate_eq_self (by omega) hfirst, if_neg (by omega),
    saturate_eq_self (x := observedAt - _) (by omega) (by omega), hquotient,
    saturate_eq_self (x := count * millis) (by omega) (by omega),
    saturate_eq_self (x := anchorAt + millis + _) (by omega) (by omega), hback,
    saturate_eq_self (by omega) (by omega), if_pos (by omega), Int.natCast_succ, hsum,
    Int.one_mul, Int.add_assoc, Int.add_comm millis]

/-- Startup and the timer agree, except between the first occurrence and the second: there startup
takes the anchor for an occurrence too. -/
theorem recent_eq_live_iff {fuel : Nat} (hobserved : anchorAt ≤ observedAt)
    (hfuel : (observedAt - anchorAt).toNat ≤ fuel) :
    recentScheduledOccurrences calendar task observedAt =
        (let live := task.schedule.liveTicks anchorAt observedAt fuel anchorAt
        live.drop (live.length - 2)) ↔
      observedAt < anchorAt + millis ∨ anchorAt + 2 * millis ≤ observedAt := by
  obtain ⟨hhour, hmillis_le, hneg⟩ := millis_bounds positive bounded hmillis
  obtain ⟨last, hquotient⟩ := Int.eq_ofNat_of_zero_le
    (Int.ediv_nonneg (Int.sub_nonneg_of_le hobserved) (by omega : 0 ≤ millis))
  obtain ⟨hlast, hnext⟩ := (Int.ediv_eq_iff_of_pos (by omega)).mp hquotient
  have hmany : (last : Int) * 1 ≤ last * millis :=
    Int.mul_le_mul_of_nonneg_left (by omega) (Int.natCast_nonneg last)
  have hlive : (Schedule.everyHours interval positive bounded).liveTicks anchorAt observedAt fuel
      (anchorAt + (0 : Nat) * millis) = _ :=
    liveTicks_eq hmillis hmin hmax helapsed hlast hnext (by omega) (Nat.zero_add last)
  rw [Int.natCast_zero, Int.zero_mul, Int.add_zero] at hlive
  rw [hschedule, hlive]
  cases last with
  | zero =>
    rw [Int.natCast_zero, Int.zero_mul] at hnext
    rw [recentScheduledOccurrences, hschedule, hanchor]
    simp only [hmillis]
    rw [saturate_eq_self (by omega) hmillis_le, if_neg (by omega),
      saturate_eq_self (by omega) hfirst, if_pos (by omega)]
    exact iff_of_true rfl (by omega)
  | succ count =>
    have hsum := Int.add_mul count 1 millis
    rw [Int.natCast_succ] at hlast hnext
    rw [recent_eq hmillis hmin hmax helapsed hschedule hanchor hfirst
      (by omega : count * millis ≤ _) (by omega)]
    cases count with
    | zero =>
      refine iff_of_false (fun heq => ?_) (by omega)
      have hlength := congrArg List.length heq
      simp at hlength
    | succ count =>
      have hnonneg : 0 ≤ count * millis := Int.mul_nonneg (Int.natCast_nonneg count) (by omega)
      have hmore := Int.add_mul count 1 millis
      rw [Int.natCast_succ] at hsum hlast
      refine iff_of_true ?_ (by omega)
      rw [List.range'_1_concat, List.range'_1_concat, List.map_append, List.map_append,
        List.append_assoc]
      simp [Int.add_comm]

end Hourly

/-- A task to run every hour, enabled at time zero. -/
def everyHour : Definition := ⟨"task", .everyHours 1 (by decide) (by decide), some 0, 0⟩

theorem recent_eq_live_three_hours :
    recentScheduledOccurrences ⟨fun _ _ _ => [], by simp⟩ everyHour (3 * hour) =
      (let live := everyHour.schedule.liveTicks 0 (3 * hour) 10800000 0
      live.drop (live.length - 2)) :=
  (recent_eq_live_iff (rfl : (1 : Nat) * hour = hour) (by decide) (by decide) (by decide) rfl rfl
    (by decide) (by decide) (by decide)).mpr (.inr (by decide))

/-- One hour after it was enabled, the task has had one occurrence. -/
theorem recent_offers_anchor :
    recentScheduledOccurrences ⟨fun _ _ _ => [], by simp⟩ everyHour hour = [0, hour] ∧
      everyHour.schedule.liveTicks 0 hour 3600000 0 = [hour] := by
  decide +kernel

end OraDesktop.Scheduled
