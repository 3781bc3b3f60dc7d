import OpenHsm.Hsm.Dispatcher
import OpenHsm.Library.MachineInt
import OpenHsm.Platform.Timer

/-!
Milliseconds on their way to the system calls, where `int` and `unsigned` have 32 bits.

* `DataModel`, `Timespec`: the widths of `long` and `time_t`, and `struct timespec`.
* `calcTimeout`, `semDeadline`: the deadlines of `platform/linux/osa_queue.c` and of
  `osa_sem_wait`; `absTimeout_eq` says that they are the clock and the timeout in nanoseconds,
  or overflow.
* `WaitMode`, `queueWait`, `semWait`, `postWait`: whether and until when a call waits.
* `timerTimespec`, `sleepMicros`: the times given to `timer_settime` and to `usleep`.
* `Conversion`, `Conversion.Exact`, `Conversion.Fits`: the five conversions, that one is exact, and
  when; `durations_exact_iff` is the equivalence, and `long_durations_are_lost` has durations that
  do not fit.
* `blocked_post_expires_iff`: what a long timeout does to a thread in the queue.
-/

namespace OpenHsm

open MachineInt

/-- The widths in bits of `long` and `time_t`, neither narrower than `int`. -/
structure DataModel where
  long : ℕ
  timeT : ℕ
  int_le_long : 32 ≤ long
  int_le_timeT : 32 ≤ timeT

/-- Linux on a machine of 64 bits. -/
def lp64 : DataModel := ⟨64, 64, by norm_num, by norm_num⟩

/-- `struct timespec`. -/
structure Timespec where
  tvSec : ℤ
  tvNsec : ℤ
  deriving DecidableEq, Repr

namespace Timespec

/-- The time in nanoseconds. -/
def nanos (t : Timespec) : ℤ := t.tvSec * 1000000000 + t.tvNsec

/-- The timed waits accept it. -/
def Normal (t : Timespec) : Prop := 0 ≤ t.tvNsec ∧ t.tvNsec < 1000000000

/-- It is accepted, and means `n` nanoseconds. -/
def Denotes (t : Timespec) (n : ℤ) : Prop := t.Normal ∧ t.nanos = n

/-- A number of nanoseconds as a time. -/
def ofNanos (n : ℤ) : Timespec := ⟨n / 1000000000, n % 1000000000⟩

lemma denotes_ofNanos (n : ℤ) : (ofNanos n).Denotes n := by
  simp only [Denotes, Normal, nanos, ofNanos]
  omega

/-- Nothing else does. -/
lemma Denotes.eq {t : Timespec} {n : ℤ} (h : t.Denotes n) : ofNanos n = t := by
  obtain ⟨⟨h0, h1⟩, hn⟩ := h
  rw [nanos] at hn
  rw [ofNanos, show n / 1000000000 = t.tvSec by omega, show n % 1000000000 = t.tvNsec by omega]

lemma ofNanos_add {sec nsec : ℤ} (h : 0 ≤ nsec ∧ nsec < 1000000000) :
    ofNanos (sec * 1000000000 + nsec) = ⟨sec, nsec⟩ :=
  Denotes.eq ⟨h, rfl⟩

/-- A second is carried. -/
lemma ofNanos_carry {sec nsec : ℤ} (h : 1000000000 ≤ nsec ∧ nsec < 2000000000) :
    ofNanos (sec * 1000000000 + nsec) = ⟨sec + 1, nsec - 1000000000⟩ := by
  rw [← ofNanos_add (by omega)]
  congr 1
  ring

/-- What `clock_gettime` can store. -/
def Reading (D : DataModel) (t : Timespec) : Prop := InRange D.timeT t.tvSec ∧ t.Normal

instance (t : Timespec) : Decidable t.Normal := inferInstanceAs (Decidable (_ ∧ _))

instance (D : DataModel) (t : Timespec) : Decidable (t.Reading D) :=
  inferInstanceAs (Decidable (_ ∧ _))

end Timespec

/-! ### Deadlines -/

/-- The deadline `timeoutMs` after `now`, as the two functions below compute it; `none` is an
overflow. -/
def absTimeout (D : DataModel) (now : Timespec) (timeoutMs : ℤ) : Option Timespec := do
  let sec ← add D.timeT now.tvSec (← div 32 timeoutMs 1000)
  let nsec ← add D.long now.tvNsec (← mul 32 (← rem 32 timeoutMs 1000) 1000000)
  if 1000000000 ≤ nsec then
    some ⟨← add D.timeT sec 1, ← sub D.long nsec 1000000000⟩
  else some ⟨sec, nsec⟩

/-- `calc_timeout`. -/
def calcTimeout (D : DataModel) (now : Timespec) (timeoutMs : ℤ) : Option Timespec :=
  absTimeout D now timeoutMs

/-- `abs_timeout` in `osa_sem_wait`. -/
def semDeadline (D : DataModel) (now : Timespec) (timeoutMs : ℤ) : Option Timespec :=
  absTimeout D now timeoutMs

/-- How a call waits. -/
inductive WaitMode where
  | nonBlocking
  | timed (deadline : Timespec)
  | infinite
  deriving DecidableEq, Repr

/-- The wait of `osa_queue_send` and `osa_queue_receive`. -/
def queueWait (D : DataModel) (now : Timespec) (timeoutMs : ℤ) : Option WaitMode :=
  if timeoutMs = 0 then some .nonBlocking
  else if 0 < timeoutMs then (calcTimeout D now timeoutMs).map .timed
  else some .infinite

/-- The wait of `osa_sem_wait`, where the clock can be read. -/
def semWait (D : DataModel) (now : Timespec) (timeoutMs : ℤ) : Option WaitMode :=
  if timeoutMs < 0 then some .infinite
  else if timeoutMs = 0 then some .nonBlocking
  else (semDeadline D now timeoutMs).map .timed

/-- The wait of `osa_hsm_active_event_post`, with the conversion of `timeout` to `int`. -/
def postWait (D : DataModel) (now : Timespec) (timeout : UInt32) : Option WaitMode :=
  queueWait D now timeout.toInt32.toInt

/-! ### Intervals -/

/-- The time of a timer in the types of its members. -/
def timerTimespec (D : DataModel) (x : ℕ × ℕ) : Timespec :=
  ⟨convert D.timeT x.1, convert D.long x.2⟩

/-- The argument of `usleep` in `osa_thread_sleep`. -/
def sleepMicros (ms : UInt32) : UInt32 := ms * 1000

/-! ### The conversions -/

/-- The nanoseconds at which a wait of `timeoutMs` is over. -/
def dueNanos (now : Timespec) (timeoutMs : ℤ) : ℤ := now.nanos + timeoutMs * 1000000

/-- A duration in milliseconds and what is to become of it. -/
inductive Conversion where
  | calcTimeout (now : Timespec) (timeoutMs : ℤ)
  | semWait (now : Timespec) (timeoutMs : ℤ)
  | timerCreate (periodMs : UInt32) (cycle : Bool)
  | threadSleep (ms : UInt32)
  | eventPost (now : Timespec) (timeout : UInt32)
  deriving DecidableEq, Repr

namespace Conversion

/-- The arguments are those of the function, and the clock reads a time. -/
def Valid (D : DataModel) : Conversion → Prop
  | .calcTimeout now timeoutMs | .semWait now timeoutMs =>
      now.Reading D ∧ InRange 32 timeoutMs ∧ 0 < timeoutMs
  | .timerCreate periodMs _ => periodMs ≠ 0
  | .threadSleep _ => True
  | .eventPost now _ => now.Reading D

/-- **The conversion is exact**: nothing overflows or wraps around, the nanoseconds are less than
a second, and the time is the duration asked for.  A post waits without end only if that is
what it was asked. -/
def Exact (D : DataModel) : Conversion → Prop
  | .calcTimeout now timeoutMs =>
      ∃ t, OpenHsm.calcTimeout D now timeoutMs = some t ∧ t.Denotes (dueNanos now timeoutMs)
  | .semWait now timeoutMs =>
      ∃ t, OpenHsm.semWait D now timeoutMs = some (.timed t) ∧
        t.Denotes (dueNanos now timeoutMs)
  | .timerCreate periodMs cycle =>
      (periodMs % 1000 * 1000000).toNat = periodMs.toNat % 1000 * 1000000 ∧
        (timerTimespec D (timerSettings periodMs cycle).value).Denotes
          (periodMs.toNat * 1000000) ∧
        (cycle = true → (timerTimespec D (timerSettings periodMs cycle).interval).Denotes
          (periodMs.toNat * 1000000))
  | .threadSleep ms => (sleepMicros ms).toNat = ms.toNat * 1000
  | .eventPost now timeout => postWait D now timeout = some .infinite → timeout = 0xFFFFFFFF

/-- The duration is not too long: the seconds of a deadline are a `time_t`, the microseconds
of a sleep an `unsigned`, and the timeout of a post is an `int` or the one for ever. -/
def Fits (D : DataModel) : Conversion → Prop
  | .calcTimeout now timeoutMs | .semWait now timeoutMs =>
      dueNanos now timeoutMs / 1000000000 < 2 ^ (D.timeT - 1)
  | .timerCreate _ _ => True
  | .threadSleep ms => ms.toNat ≤ 4294967
  | .eventPost _ timeout => timeout.toNat < 2 ^ 31 ∨ timeout = 0xFFFFFFFF

instance (D : DataModel) (c : Conversion) : Decidable (c.Valid D) :=
  match c with
  | .calcTimeout _ _ | .semWait _ _ => inferInstanceAs (Decidable (_ ∧ _ ∧ _))
  | .timerCreate periodMs _ => inferInstanceAs (Decidable (periodMs ≠ 0))
  | .threadSleep _ => .isTrue trivial
  | .eventPost now _ => inferInstanceAs (Decidable (now.Reading D))

instance (D : DataModel) (c : Conversion) : Decidable (c.Fits D) :=
  match c with
  | .calcTimeout _ _ | .semWait _ _ => inferInstanceAs (Decidable (_ < _))
  | .timerCreate _ _ => .isTrue trivial
  | .threadSleep _ => inferInstanceAs (Decidable (_ ≤ _))
  | .eventPost _ _ => inferInstanceAs (Decidable (_ ∨ _))

end Conversion

/-! ### What the functions compute -/

section Computed

variable {D : DataModel} {now : Timespec} {timeoutMs : ℤ}

/-- **The deadline is exact, or its seconds overflow.** -/
lemma absTimeout_eq (hnow : now.Reading D) (ht : InRange 32 timeoutMs) (hpos : 0 < timeoutMs) :
    absTimeout D now timeoutMs =
      if dueNanos now timeoutMs / 1000000000 < 2 ^ (D.timeT - 1) then
        some (.ofNanos (dueNanos now timeoutMs))
      else none := by
  obtain ⟨hsec, hnsec0, hnsec1⟩ := hnow
  have hdiv := div_eq ht hpos.le (show (0 : ℤ) < 1000 by norm_num)
  have hrem := rem_eq ht hpos.le (show (0 : ℤ) < 1000 by norm_num)
  -- The nanoseconds stay below two seconds, which an `int` holds.
  have hmul : mul 32 (timeoutMs % 1000) 1000000 = some (timeoutMs % 1000 * 1000000) :=
    checked_of_inRange (inRange_int.mpr (by omega))
  have hnsec : add D.long now.tvNsec (timeoutMs % 1000 * 1000000)
      = some (now.tvNsec + timeoutMs % 1000 * 1000000) :=
    checked_of_inRange ((inRange_int.mpr (by omega)).mono D.int_le_long)
  have hsub (h : 1000000000 ≤ now.tvNsec + timeoutMs % 1000 * 1000000) :
      sub D.long (now.tvNsec + timeoutMs % 1000 * 1000000) 1000000000
        = some (now.tvNsec + timeoutMs % 1000 * 1000000 - 1000000000) :=
    checked_of_inRange ((inRange_int.mpr (by omega)).mono D.int_le_long)
  have hadd := add_eq hsec (show 0 ≤ timeoutMs / 1000 by omega)
  rw [absTimeout, hdiv, hrem]
  simp only [Option.bind_eq_bind, Option.bind_some, hmul, hnsec, hadd]
  generalize hs : now.tvSec + timeoutMs / 1000 = sec
  generalize hn : now.tvNsec + timeoutMs % 1000 * 1000000 = nsec at hsub ⊢
  have hdue : dueNanos now timeoutMs = sec * 1000000000 + nsec := by
    rw [dueNanos, Timespec.nanos]
    omega
  have hlow : -2 ^ (D.timeT - 1) ≤ sec := by linarith [hsec.1, show 0 ≤ timeoutMs / 1000 by omega]
  by_cases hcarry : 1000000000 ≤ nsec
  · have hof : Timespec.ofNanos (dueNanos now timeoutMs) = ⟨sec + 1, nsec - 1000000000⟩ := by
      rw [hdue, Timespec.ofNanos_carry (by omega)]
    rw [hof, show dueNanos now timeoutMs / 1000000000 = sec + 1 from congrArg Timespec.tvSec hof]
    by_cases hfirst : sec < 2 ^ (D.timeT - 1)
    · simp only [if_pos hfirst, Option.bind_some, if_pos hcarry, hsub hcarry,
        add_eq ⟨hlow, hfirst⟩ (show (0 : ℤ) ≤ 1 by norm_num)]
      split <;> rfl
    · rw [if_neg hfirst, if_neg (by omega)]
      rfl
  · have hof : Timespec.ofNanos (dueNanos now timeoutMs) = ⟨sec, nsec⟩ := by
      rw [hdue, Timespec.ofNanos_add (by omega)]
    rw [hof, show dueNanos now timeoutMs / 1000000000 = sec from congrArg Timespec.tvSec hof]
    simp only [if_neg hcarry]
    split <;> rfl

/-- A deadline that is computed is the right one. -/
lemma exists_absTimeout_iff (hnow : now.Reading D) (ht : InRange 32 timeoutMs)
    (hpos : 0 < timeoutMs) :
    (∃ t, absTimeout D now timeoutMs = some t ∧ t.Denotes (dueNanos now timeoutMs)) ↔
      dueNanos now timeoutMs / 1000000000 < 2 ^ (D.timeT - 1) := by
  rw [absTimeout_eq hnow ht hpos]
  constructor
  · rintro ⟨t, h, -⟩
    by_contra hlate
    rw [if_neg hlate] at h
    cases h
  · exact fun h => ⟨_, if_pos h, Timespec.denotes_ofNanos _⟩

/-- The wait of a semaphore with a timeout. -/
lemma semWait_eq_timed_iff (hpos : 0 < timeoutMs) {t : Timespec} :
    semWait D now timeoutMs = some (.timed t) ↔ absTimeout D now timeoutMs = some t := by
  rw [semWait, if_neg (by omega), if_neg (by omega), Option.map_eq_some_iff]
  constructor
  · rintro ⟨d, hd, ht⟩
    rwa [← WaitMode.timed.inj ht]
  · exact fun h => ⟨t, h, rfl⟩

/-- **The queue waits without end exactly for a negative timeout.** -/
lemma queueWait_eq_infinite_iff : queueWait D now timeoutMs = some .infinite ↔ timeoutMs < 0 := by
  rw [queueWait]
  split
  · next h => simp [h]
  · next h =>
      split
      · next hpos =>
          have hne : (calcTimeout D now timeoutMs).map WaitMode.timed ≠ some .infinite := by
            cases calcTimeout D now timeoutMs <;> simp
          exact ⟨fun h => absurd h hne, fun hneg => absurd hpos hneg.le.not_gt⟩
      · next hpos => exact ⟨fun _ => by omega, fun _ => rfl⟩

/-- The interval of a timer is its period. -/
lemma timerTimespec_denotes (D : DataModel) (periodMs : UInt32) :
    (timerTimespec D (timespecOfMs periodMs)).Denotes (periodMs.toNat * 1000000) := by
  have hlt := periodMs.toNat_lt
  have hsec : InRange D.timeT (periodMs.toNat / 1000 : ℕ) :=
    (inRange_int.mpr (by omega)).mono D.int_le_timeT
  have hnsec : InRange D.long (periodMs.toNat % 1000 * 1000000 : ℕ) :=
    (inRange_int.mpr (by omega)).mono D.int_le_long
  have hlong := D.int_le_long
  have htime := D.int_le_timeT
  rw [timespecOfMs_eq, timerTimespec, convert_eq (by omega) hsec, convert_eq (by omega) hnsec]
  simp only [Timespec.Denotes, Timespec.Normal, Timespec.nanos]
  omega

/-- A sleep is exact up to 4294967 ms, over an hour. -/
lemma sleepMicros_eq_iff (ms : UInt32) :
    (sleepMicros ms).toNat = ms.toNat * 1000 ↔ ms.toNat ≤ 4294967 := by
  have h := toNat_mul_eq_iff ms 1000
  rw [show (1000 : UInt32).toNat = 1000 by rfl] at h
  rw [sleepMicros, h]
  omega

lemma postWait_eq_infinite_iff (timeout : UInt32) :
    postWait D now timeout = some .infinite ↔ 2 ^ 31 ≤ timeout.toNat := by
  rw [postWait, queueWait_eq_infinite_iff, toInt_toInt32_neg_iff]

end Computed

/-! ### Posts in the queue -/

/-- A send with timeout `0` does not block. -/
lemma sendEnter_zero_ne_none (q : OsaQueue) (msg : Option (List UInt8)) (msgLen : ℕ) :
    sendEnter q msg msgLen 0 ≠ none := by
  cases msg with
  | none => simp [sendEnter]
  | some m =>
      simp only [sendEnter, if_true]
      split_ifs <;> simp

/-- **A post that blocks gives up after its timeout exactly below 2³¹ ms.** -/
theorem blocked_post_expires_iff {k : ℕ} (s : QueueSys k) (i : Fin k) (r : RawEvent)
    (timeout : UInt32) (wake : Finset (Fin k))
    (hfull : sendEnter s.queue (some r.bytes) sizeofHsmEvent timeout.toInt32.toInt = none) :
    queueEnabled (queueNext s (sendOf i r timeout wake)) (.expire i) ↔ timeout.toNat < 2 ^ 31 := by
  have hne : timeout.toInt32.toInt ≠ 0 := fun h0 =>
    sendEnter_zero_ne_none s.queue (some r.bytes) sizeofHsmEvent (h0 ▸ hfull)
  have hwait : ((queueNext s (sendOf i r timeout wake)).pc i).wait
      = some (.condSend, .blocked, timeout.toInt32.toInt) := by
    simp only [sendOf, queueNext, hfull, afterSend, Function.update_self, CallPc.wait]
  have hneg := toInt_toInt32_neg_iff timeout
  simp only [queueEnabled, hwait]
  omega

/-- **A conversion is exact exactly if the duration fits**, on every machine. -/
theorem durations_exact_iff (D : DataModel) (c : Conversion) (h : c.Valid D) :
    c.Exact D ↔ c.Fits D := by
  cases c with
  | calcTimeout now timeoutMs => exact exists_absTimeout_iff h.1 h.2.1 h.2.2
  | semWait now timeoutMs =>
      simp only [Conversion.Exact, semWait_eq_timed_iff h.2.2]
      exact exists_absTimeout_iff h.1 h.2.1 h.2.2
  | timerCreate periodMs cycle =>
      refine iff_of_true ⟨congrArg Prod.snd (timespecOfMs_eq periodMs), ?_, fun hc => ?_⟩ trivial
      · exact timerTimespec_denotes D periodMs
      · rw [timerSettings, if_pos hc]
        exact timerTimespec_denotes D periodMs
  | threadSleep ms => exact sleepMicros_eq_iff ms
  | eventPost now timeout =>
      rw [Conversion.Exact, Conversion.Fits, postWait_eq_infinite_iff, ← not_lt]
      exact or_iff_not_imp_left.symm

/-- A timeout of `INT_MAX` ms, read in the last nanosecond of a second. -/
theorem longest_timeout_is_exact :
    (Conversion.calcTimeout ⟨1767225600, 999999999⟩ 2147483647).Exact lp64 :=
  (durations_exact_iff lp64 _ (by decide)).mpr (by decide)

/-- **An hour and twelve minutes of sleep are 704 µs**, and a post with a timeout of 25 days waits
for ever. -/
theorem long_durations_are_lost :
    ¬ (∀ c : Conversion, c.Valid lp64 → c.Exact lp64) ∧ sleepMicros 4294968 = 704 ∧
      ∀ now, postWait lp64 now 2147483648 = some .infinite := by
  refine ⟨fun h => ?_, by decide, fun now => postWait_eq_infinite_iff _ |>.mpr (by decide)⟩
  have hsleep := h (.threadSleep 4294968) trivial
  exact absurd ((sleepMicros_eq_iff _).mp hsleep) (by decide)

end OpenHsm
