import OpenHsm.Platform.Sync

/-!
The timers of `platform/linux/osa_timer.c`, over POSIX timers.

* `OsaTimerImpl`: `struct osa_timer_impl` with the POSIX timer it owns; the handles are
  positions in the list of all that were created.
* `TimerOutcome`: which of the calls below fail, and with what `errno`.
* `osaTimerCreate`, `osaTimerStop`: `osa_timer_create` and `osa_timer_stop`.
* `tickers`: the periods with which the armed timers call back for one argument, and what
  the two functions do to them.
-/

namespace OpenHsm

/-- `struct itimerspec`, its two times in whole seconds and nanoseconds. -/
structure Itimerspec where
  value : ℕ × ℕ
  interval : ℕ × ℕ
  deriving DecidableEq, Repr

/-- A timer that was created and not freed.  `armed` is what the POSIX timer runs with. -/
structure OsaTimerImpl where
  arg : ℕ
  active : Bool
  armed : Option Itimerspec
  deriving DecidableEq, Repr

/-- What the calls of a platform function do: whether `calloc` succeeds, and the `errno` with
which `timer_create` and `timer_settime` fail, if they do. -/
structure TimerOutcome where
  calloc : Bool
  timerCreate : Option Int
  timerSettime : Option Int
  deriving DecidableEq, Repr

/-- An `errno` is positive. -/
def TimerOutcome.Valid (o : TimerOutcome) : Prop :=
  (∀ e ∈ o.timerCreate, 0 < e) ∧ ∀ e ∈ o.timerSettime, 0 < e

instance (o : TimerOutcome) : Decidable o.Valid := inferInstanceAs (Decidable (_ ∧ _))

/-- All calls of `osa_timer_create` succeed. -/
def TimerOutcome.Creates (o : TimerOutcome) : Prop :=
  o.calloc = true ∧ o.timerCreate = none ∧ o.timerSettime = none

instance (o : TimerOutcome) : Decidable o.Creates := inferInstanceAs (Decidable (_ ∧ _))

/-- What `timer_settime` leaves running: a zero value disarms. -/
def timerSettime (its : Itimerspec) : Option Itimerspec :=
  if its.value = (0, 0) then none else some its

/-- A period in milliseconds as seconds and nanoseconds. -/
def timespecOfMs (periodMs : UInt32) : ℕ × ℕ :=
  ((periodMs / 1000).toNat, (periodMs % 1000 * 1000000).toNat)

/-- The settings of a timer. -/
def timerSettings (periodMs : UInt32) (cycle : Bool) : Itimerspec where
  value := timespecOfMs periodMs
  interval := if cycle then timespecOfMs periodMs else (0, 0)

/-- `osa_timer_create`: the result, the handle stored in `*timer` if there is one, and the
timers after the call. -/
def osaTimerCreate (ts : List OsaTimerImpl) (periodMs : UInt32) (cycle : Bool) (arg : ℕ)
    (o : TimerOutcome) : Int × Option ℕ × List OsaTimerImpl :=
  if periodMs = 0 then (-eINVAL, none, ts)
  else if o.calloc = false then (-eNOMEM, none, ts)
  else
    match o.timerCreate with
    | some e => (-e, none, ts)
    | none =>
        match o.timerSettime with
        | some e => (-e, none, ts)
        | none =>
            (0, some ts.length, ts ++ [⟨arg, true, timerSettime (timerSettings periodMs cycle)⟩])

/-- `osa_timer_stop`. -/
def osaTimerStop (ts : List OsaTimerImpl) (timer : Option ℕ) (o : TimerOutcome) :
    Int × List OsaTimerImpl :=
  match timer with
  | none => (-eINVAL, ts)
  | some i =>
      match o.timerSettime with
      | some e => (-e, ts)
      | none =>
          (0, ts.modify i fun t =>
            { t with armed := timerSettime ⟨(0, 0), (0, 0)⟩, active := false })

/-! ### Armed timers -/

/-- The period of a running timer in milliseconds. -/
def Itimerspec.periodMs (its : Itimerspec) : ℕ := its.interval.1 * 1000 + its.interval.2 / 1000000

/-- The period with which a timer calls back for `arg`. -/
def OsaTimerImpl.ticks (arg : ℕ) (t : OsaTimerImpl) : Option ℕ :=
  if t.arg = arg then t.armed.map Itimerspec.periodMs else none

/-- The periods of the timers that call back for `arg`. -/
def tickers (ts : List OsaTimerImpl) (arg : ℕ) : List ℕ := ts.filterMap (OsaTimerImpl.ticks arg)

variable {ts : List OsaTimerImpl} {arg : ℕ}

lemma ticks_eq_none_iff {t : OsaTimerImpl} :
    t.ticks arg = none ↔ (t.arg = arg → t.armed = none) := by
  rw [OsaTimerImpl.ticks]
  split
  · next h => simp [h]
  · next h => simp [h]

lemma tickers_eq_nil_iff :
    tickers ts arg = [] ↔ ∀ t ∈ ts, t.arg = arg → t.armed = none := by
  rw [tickers, List.filterMap_eq_nil_iff]
  simp only [ticks_eq_none_iff]

/-- No step of the conversion wraps around. -/
lemma timespecOfMs_eq (periodMs : UInt32) :
    timespecOfMs periodMs = (periodMs.toNat / 1000, periodMs.toNat % 1000 * 1000000) := by
  have hsec : (periodMs / 1000).toNat = periodMs.toNat / 1000 := by
    rw [UInt32.toNat_div]; rfl
  have hms : (periodMs % 1000).toNat = periodMs.toNat % 1000 := by
    rw [UInt32.toNat_mod]; rfl
  have hnsec : (periodMs % 1000 * 1000000).toNat = periodMs.toNat % 1000 * 1000000 := by
    rw [UInt32.toNat_mul, hms]
    exact Nat.mod_eq_of_lt (by simp; omega)
  rw [timespecOfMs, hsec, hnsec]

/-- A created timer runs with its period. -/
lemma ticks_created {periodMs : UInt32} (h : periodMs ≠ 0) (a : ℕ) :
    (OsaTimerImpl.mk a true (timerSettime (timerSettings periodMs true))).ticks arg
      = if a = arg then some periodMs.toNat else none := by
  have hpos : periodMs.toNat ≠ 0 := fun h0 => h (UInt32.toNat_inj.mp h0)
  have hvalue : timespecOfMs periodMs ≠ (0, 0) := by
    rw [timespecOfMs_eq, ne_eq, Prod.mk.injEq]
    omega
  have hperiod : (timerSettings periodMs true).periodMs = periodMs.toNat := by
    simp only [timerSettings, Itimerspec.periodMs, timespecOfMs_eq, if_true]
    omega
  have harmed : timerSettime (timerSettings periodMs true) = some (timerSettings periodMs true) :=
    if_neg hvalue
  simp only [OsaTimerImpl.ticks, harmed, Option.map_some, hperiod]

/-! ### The two functions -/

section Calls

variable {periodMs : UInt32} {a i : ℕ} {o : TimerOutcome}

/-- A timer that `osa_timer_create` makes. -/
def createdTimer (periodMs : UInt32) (a : ℕ) : OsaTimerImpl :=
  ⟨a, true, timerSettime (timerSettings periodMs true)⟩

/-- What `osa_timer_stop` leaves of a timer. -/
def stoppedTimer (t : OsaTimerImpl) : OsaTimerImpl :=
  { t with armed := timerSettime ⟨(0, 0), (0, 0)⟩, active := false }

lemma osaTimerCreate_of_creates (h : periodMs ≠ 0) (ho : o.Creates) :
    osaTimerCreate ts periodMs true a o
      = (0, some ts.length, ts ++ [createdTimer periodMs a]) := by
  obtain ⟨h1, h2, h3⟩ := ho
  simp [osaTimerCreate, h, h1, h2, h3, createdTimer]

lemma osaTimerCreate_of_fails (h : periodMs ≠ 0) (hv : o.Valid) (ho : ¬ o.Creates) :
    ∃ e : Int, e < 0 ∧ osaTimerCreate ts periodMs true a o = (e, none, ts) := by
  cases hcalloc : o.calloc with
  | false => exact ⟨-eNOMEM, by decide, by simp [osaTimerCreate, h, hcalloc]⟩
  | true =>
      cases hcreate : o.timerCreate with
      | some e =>
          have := hv.1 e hcreate
          exact ⟨-e, by omega, by simp [osaTimerCreate, h, hcalloc, hcreate]⟩
      | none =>
          cases hset : o.timerSettime with
          | some e =>
              have := hv.2 e hset
              exact ⟨-e, by omega, by simp [osaTimerCreate, h, hcalloc, hcreate, hset]⟩
          | none => exact absurd ⟨hcalloc, hcreate, hset⟩ ho

lemma osaTimerStop_of_stops (ho : o.timerSettime = none) :
    osaTimerStop ts (some i) o = (0, ts.modify i stoppedTimer) := by
  simp only [osaTimerStop, ho]
  rfl

lemma osaTimerStop_of_fails {e : Int} (ho : o.timerSettime = some e) :
    osaTimerStop ts (some i) o = (-e, ts) := by
  simp only [osaTimerStop, ho]

/-- A new timer is one more that calls back for its argument. -/
lemma tickers_create (h : periodMs ≠ 0) :
    tickers (ts ++ [createdTimer periodMs a]) arg
      = tickers ts arg ++ if a = arg then [periodMs.toNat] else [] := by
  have hnew : [createdTimer periodMs a].filterMap (OsaTimerImpl.ticks arg)
      = if a = arg then [periodMs.toNat] else [] := by
    rw [List.filterMap_cons, createdTimer, ticks_created h]
    by_cases ha : a = arg
    · rw [if_pos ha, if_pos ha]; rfl
    · rw [if_neg ha, if_neg ha]; rfl
  rw [tickers, List.filterMap_append, hnew, tickers]

/-- A stopped timer calls back for nobody. -/
lemma ticks_stopped (t : OsaTimerImpl) : (stoppedTimer t).ticks arg = none :=
  ticks_eq_none_iff.mpr fun _ => rfl

/-- The timers after one was stopped. -/
lemma getElem?_stopped {k : ℕ} {t : OsaTimerImpl}
    (h : (ts.modify i stoppedTimer)[k]? = some t) :
    (k = i ∧ ∃ u, ts[k]? = some u ∧ t = stoppedTimer u) ∨ (k ≠ i ∧ ts[k]? = some t) := by
  rw [List.getElem?_modify] at h
  by_cases hik : i = k
  · obtain ⟨u, hu, rfl⟩ : ∃ u, ts[k]? = some u ∧ stoppedTimer u = t := by simpa [hik] using h
    exact .inl ⟨hik.symm, u, hu, rfl⟩
  · exact .inr ⟨fun he => hik he.symm, by simpa [hik] using h⟩

/-- Stopping a timer that does not call back for the argument changes nothing for it. -/
lemma tickers_stop_of_quiet {t : OsaTimerImpl} (hi : ts[i]? = some t) (ht : t.ticks arg = none) :
    tickers (ts.modify i stoppedTimer) arg = tickers ts arg := by
  induction ts generalizing i with
  | nil => simp
  | cons u ts ih =>
      cases i with
      | zero =>
          obtain rfl : u = t := by simpa using hi
          simp [tickers, ht, ticks_stopped]
      | succ i =>
          have hrest := ih (i := i) (by simpa using hi)
          simp only [tickers] at hrest ⊢
          rw [List.modify_succ_cons, List.filterMap_cons, hrest, List.filterMap_cons]

end Calls

end OpenHsm
