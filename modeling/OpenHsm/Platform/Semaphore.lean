import OpenHsm.Library.Counter
import OpenHsm.Library.Runs
import OpenHsm.Platform.Sync

/-!
The counting semaphores of the two platforms side by side.

* `RtosSem`, `espSemCreate`, `espSemPost`, `espSemTake`: `platform/esp32/osa_sync.c` over the
  semaphores of FreeRTOS, which keep to their maximum.
* `SemOp`, `linuxOp`, `espOp`, `counterOp`: what an operation does to the semaphore of
  `platform/linux/osa_sync.c`, to that one, and to the bounded counter that both are to be.
* `SemSys`, `semSystem`: any number of threads that post, wait and ask for the count.
* `Agrees`, `SameResult`: the three have the same count, and an operation the same result.
* `agrees_next_iff`, `semaphore_bounded_iff`: they agree exactly as long as no post meets a
  semaphore at its maximum.  `binary_semaphore_counts_two` is one that does.
-/

namespace OpenHsm

open Bounded Runs

/-! ### FreeRTOS -/

/-- `OSA_ERR_GENERIC` and `OSA_ERR_TIMEOUT`. -/
def osaErrGeneric : ℤ := -1
def osaErrTimeout : ℤ := -9

/-- A semaphore of FreeRTOS: its count and its maximum. -/
structure RtosSem where
  count : ℕ
  maxCount : ℕ
  deriving DecidableEq, Repr

/-- `xSemaphoreGive`: `false` is `errQUEUE_FULL`. -/
def xSemaphoreGive (s : RtosSem) : Bool × RtosSem :=
  if s.count < s.maxCount then (true, { s with count := s.count + 1 }) else (false, s)

/-- `xSemaphoreTake` at the end of its delay, or when there is something to take. -/
def xSemaphoreTake (s : RtosSem) : Bool × RtosSem :=
  if 0 < s.count then (true, { s with count := s.count - 1 }) else (false, s)

/-- `osa_sem_create`, past the search for a slot: a binary semaphore is created empty. -/
def espSemCreate (initCount maxCount : ℤ) : RtosSem :=
  if maxCount = 1 then
    if 0 < initCount then (xSemaphoreGive ⟨0, 1⟩).2 else ⟨0, 1⟩
  else ⟨initCount.toNat, maxCount.toNat⟩

/-- `osa_sem_post`. -/
def espSemPost (s : RtosSem) : ℤ × RtosSem :=
  let r := xSemaphoreGive s
  (if r.1 then 0 else osaErrGeneric, r.2)

/-- `osa_sem_wait` when its take returns; `timeoutMs` is its argument. -/
def espSemTake (s : RtosSem) (timeoutMs : ℤ) : ℤ × RtosSem :=
  let r := xSemaphoreTake s
  (if r.1 then 0 else if timeoutMs = 0 then osaErrTimeout else osaErrGeneric, r.2)

/-! ### The operations -/

/-- What happens to a semaphore in one step. -/
inductive SemOp where
  | post
  /-- A wait with timeout `0`. -/
  | tryWait
  /-- A wait that has blocked finds something to take. -/
  | take
  /-- It ends with an error, `ETIMEDOUT`, `EINTR` or another. -/
  | giveUp (errno : ℤ)
  | getCount
  deriving DecidableEq, Repr

/-- The operation is the end of a wait. -/
def SemOp.waits : SemOp → Bool
  | .tryWait | .take | .giveUp _ => true
  | .post | .getCount => false

/-- The operation on the semaphore of Linux: what it returns, and what it leaves. -/
def linuxOp (s : OsaSem) : SemOp → ℤ × OsaSem
  | .post => (0, osaSemPost s)
  | .tryWait => if 0 < s.posixSem then (0, osaSemTake s) else (-eAGAIN, s)
  | .take => (0, osaSemTake s)
  | .giveUp errno => (-errno, s)
  | .getCount => (osaSemGetCount s, s)

/-- The operation on the semaphore of FreeRTOS. -/
def espOp (s : RtosSem) : SemOp → ℤ × RtosSem
  | .post => espSemPost s
  | .tryWait => espSemTake s 0
  | .take => espSemTake s (-1)
  | .giveUp _ => (osaErrGeneric, s)
  | .getCount => (s.count, s)

/-- The counter after an operation that returned `ret`: a post counts up below the maximum, and
a wait that returned `0` counts down. -/
def counterOp {max : ℕ} (c : Counter max) (op : SemOp) (ret : ℤ) : Counter max :=
  match op with
  | .post => c.up
  | .tryWait | .take | .giveUp _ => if ret = 0 then c.down else c
  | .getCount => c

/-! ### The threads -/

/-- The two semaphores and the counter, and the timeouts of the threads that are blocked. -/
structure SemSys (maxCount : ℤ) where
  linux : OsaSem
  esp : RtosSem
  counter : Counter maxCount.toNat
  blocked : ℕ → Option ℤ

/-- One step of thread `i`. -/
inductive SemAct where
  | post (i : ℕ)
  | wait (i : ℕ) (timeoutMs : ℤ)
  | take (i : ℕ)
  | giveUp (i : ℕ) (errno : ℤ)
  | getCount (i : ℕ)
  deriving DecidableEq, Repr

/-- What the step does to the semaphore; a wait that blocks does nothing. -/
def SemAct.op : SemAct → Option SemOp
  | .post _ => some .post
  | .wait _ timeoutMs => if timeoutMs = 0 then some .tryWait else none
  | .take _ => some .take
  | .giveUp _ errno => some (.giveUp errno)
  | .getCount _ => some .getCount

variable {maxCount : ℤ}

/-- When a step can be taken on Linux. -/
def semEnabled (s : SemSys maxCount) : SemAct → Prop
  | .post i | .getCount i | .wait i _ => s.blocked i = none
  | .take i => s.blocked i ≠ none ∧ 0 < s.linux.posixSem
  | .giveUp i errno => s.blocked i ≠ none ∧ 0 < errno

instance (s : SemSys maxCount) (a : SemAct) : Decidable (semEnabled s a) :=
  match a with
  | .post i | .getCount i | .wait i _ => inferInstanceAs (Decidable (s.blocked i = none))
  | .take i => inferInstanceAs (Decidable (s.blocked i ≠ none ∧ 0 < s.linux.posixSem))
  | .giveUp i errno => inferInstanceAs (Decidable (s.blocked i ≠ none ∧ 0 < errno))

/-- Who is blocked after a step. -/
def blockedAfter (blocked : ℕ → Option ℤ) : SemAct → ℕ → Option ℤ
  | .wait i timeoutMs =>
      if timeoutMs = 0 then blocked else Function.update blocked i (some timeoutMs)
  | .take i | .giveUp i _ => Function.update blocked i none
  | .post _ | .getCount _ => blocked

/-- The effect of a step. -/
def semNext (s : SemSys maxCount) (a : SemAct) : SemSys maxCount :=
  match a.op with
  | some op =>
      { linux := (linuxOp s.linux op).2
        esp := (espOp s.esp op).2
        counter := counterOp s.counter op (linuxOp s.linux op).1
        blocked := blockedAfter s.blocked a }
  | none => { s with blocked := blockedAfter s.blocked a }

/-- Both semaphores were created with the same arguments, 32-bit `int`s. -/
def SemInitial (s : SemSys maxCount) : Prop :=
  1 ≤ maxCount ∧ maxCount ≤ semValueMax ∧
    ∃ initialCount, 0 ≤ initialCount ∧ initialCount ≤ maxCount ∧
      osaSemCreate initialCount maxCount = .ok s.linux ∧
      s.esp = espSemCreate initialCount maxCount ∧ s.counter.value = initialCount.toNat ∧
      s.blocked = fun _ => none

/-- The semaphores and their threads. -/
def semSystem (maxCount : ℤ) : System (SemSys maxCount) SemAct where
  init := SemInitial
  enabled := semEnabled
  next := semNext

instance (s : SemSys maxCount) (a : SemAct) : Decidable ((semSystem maxCount).enabled s a) :=
  inferInstanceAs (Decidable (semEnabled s a))

/-! ### What is asked -/

/-- The count of the Linux semaphore is within its bounds, and that of the counter and of the
FreeRTOS semaphore. -/
structure Agrees (s : SemSys maxCount) : Prop where
  bounds : 0 ≤ osaSemGetCount s.linux ∧ osaSemGetCount s.linux ≤ maxCount
  counter : s.counter.Tracks s.linux.posixSem
  esp : s.counter.Tracks s.esp.count

/-- The operation of the step has the same result on both platforms, and a wait that fails
leaves the count. -/
structure SameResult (s : SemSys maxCount) (a : SemAct) : Prop where
  wait : ∀ op ∈ a.op, op.waits = true → ((linuxOp s.linux op).1 = 0 ↔ (espOp s.esp op).1 = 0)
  failed : ∀ op ∈ a.op, op.waits = true → (linuxOp s.linux op).1 ≠ 0 →
    (linuxOp s.linux op).2 = s.linux
  count : ∀ op ∈ a.op, op = .getCount → (linuxOp s.linux op).1 = (espOp s.esp op).1

/-- A post finds the Linux semaphore below its maximum, or that is as high as `sem_post` goes. -/
def PostsBelow (s : SemSys maxCount) (a : SemAct) : Prop :=
  a.op = some .post → osaSemGetCount s.linux < maxCount ∨ maxCount = semValueMax

instance (s : SemSys maxCount) (a : SemAct) : Decidable (PostsBelow s a) :=
  inferInstanceAs (Decidable (_ → _ ∨ _))

/-! ### One step -/

/-- The maximum is one that both semaphores were created with. -/
structure Bound (s : SemSys maxCount) : Prop where
  pos : 1 ≤ maxCount
  le : maxCount ≤ semValueMax
  esp : s.esp.maxCount = maxCount.toNat

lemma espOp_maxCount (s : RtosSem) (op : SemOp) : (espOp s op).2.maxCount = s.maxCount := by
  cases op with
  | post =>
      simp only [espOp, espSemPost, xSemaphoreGive]
      split <;> rfl
  | tryWait | take =>
      simp only [espOp, espSemTake, xSemaphoreTake]
      split <;> rfl
  | giveUp | getCount => rfl

lemma bound_step {s : SemSys maxCount} (h : Bound s) (a : SemAct) : Bound (semNext s a) := by
  refine ⟨h.pos, h.le, ?_⟩
  rw [semNext]
  split
  · exact (espOp_maxCount ..).trans h.esp
  · exact h.esp

/-- The semaphore of FreeRTOS counts up with its maximum in view. -/
lemma espSemPost_count (s : RtosSem) :
    (espSemPost s).2.count = if s.count < s.maxCount then s.count + 1 else s.count := by
  simp only [espSemPost, xSemaphoreGive]
  split <;> rfl

lemma espSemTake_count (s : RtosSem) (timeoutMs : ℤ) :
    (espSemTake s timeoutMs).2.count = s.count - 1 := by
  simp only [espSemTake, xSemaphoreTake]
  split
  · rfl
  · next h =>
      show s.count = s.count - 1
      omega

/-- The take of FreeRTOS succeeds where there is something to take. -/
lemma espSemTake_ret (s : RtosSem) (timeoutMs : ℤ) :
    (espSemTake s timeoutMs).1 = 0 ↔ 0 < s.count := by
  simp only [espSemTake, xSemaphoreTake]
  by_cases h : 0 < s.count
  · simp [h]
  · by_cases ht : timeoutMs = 0 <;> simp [h, ht, osaErrTimeout, osaErrGeneric]

/-- **A post keeps the agreement exactly below the maximum.** -/
lemma agrees_post_iff {s : SemSys maxCount} (h : Agrees s) (hb : Bound s) (i : ℕ) :
    Agrees (semNext s (.post i)) ↔ PostsBelow s (.post i) := by
  have hcount := h.counter
  have hle := hcount.le
  obtain ⟨hpos, hmax, hesp⟩ := hb
  have hbelow : PostsBelow s (.post i) ↔ s.linux.posixSem < maxCount.toNat ∨
      maxCount = semValueMax := by
    simp only [PostsBelow, SemAct.op, forall_const, osaSemGetCount]
    exact or_congr_left ⟨fun _ => by omega, fun _ => by omega⟩
  have hespTracks : s.counter.up.Tracks (espSemPost s.esp).2.count := by
    rw [espSemPost_count, hesp]
    exact h.esp.saturate
  rw [hbelow]
  by_cases hroom : s.linux.posixSem < semValueMax
  · have hlinux : (semNext s (.post i)).linux.posixSem = s.linux.posixSem + 1 :=
      osaSemPost_posixSem hroom
    constructor
    · intro hnext
      have htracks := hnext.counter
      rw [hlinux] at htracks
      exact Or.inl (hcount.up_iff.mp htracks)
    · intro hpost
      have hlt : s.linux.posixSem < maxCount.toNat := by
        rcases hpost with hlt | heq
        · exact hlt
        · omega
      refine ⟨?_, ?_, hespTracks⟩
      · rw [osaSemGetCount, hlinux]
        omega
      · rw [hlinux]
        exact hcount.up_iff.mpr hlt
  · -- the POSIX semaphore is at its own maximum, which is then the other one too
    have heq : maxCount = semValueMax := by omega
    have hlinux : (semNext s (.post i)).linux.posixSem = s.linux.posixSem :=
      congrArg OsaSem.posixSem (if_neg hroom)
    refine iff_of_true ⟨?_, ?_, hespTracks⟩ (Or.inr heq)
    · rw [osaSemGetCount, hlinux]
      exact h.bounds
    · rw [hlinux]
      exact hcount.same_iff.mpr (by omega)

/-- A wait that takes keeps the agreement. -/
lemma agrees_taken {s t : SemSys maxCount} (h : Agrees s)
    (hlinux : t.linux.posixSem = s.linux.posixSem - 1) (hcounter : t.counter = s.counter.down)
    (hesp : t.esp.count = s.esp.count - 1) : Agrees t := by
  have hle := h.bounds
  refine ⟨?_, ?_, ?_⟩
  · rw [osaSemGetCount] at hle ⊢
    rw [hlinux]
    omega
  · rw [hlinux, hcounter]
    exact h.counter.down
  · rw [hesp, hcounter]
    exact h.esp.down

/-- **The semaphores and the counter keep agreeing exactly if the step is no post at the
maximum.** -/
lemma agrees_next_iff {s : SemSys maxCount} {a : SemAct} (h : Agrees s) (hb : Bound s)
    (ha : semEnabled s a) : Agrees (semNext s a) ↔ PostsBelow s a := by
  have hno : a.op ≠ some .post → PostsBelow s a := fun hne heq => absurd heq hne
  cases a with
  | post i => exact agrees_post_iff h hb i
  | wait i timeoutMs =>
      refine iff_of_true ?_ (hno (by simp only [SemAct.op]; split <;> simp))
      by_cases ht : timeoutMs = 0
      · subst ht
        by_cases hpos : 0 < s.linux.posixSem
        · refine agrees_taken h ?_ ?_ (espSemTake_count s.esp 0)
          · simp [semNext, SemAct.op, linuxOp, hpos]
          · simp [semNext, SemAct.op, linuxOp, counterOp, hpos]
        · have hempty : s.esp.count = 0 := by
            have hc := h.counter
            have he := h.esp
            rw [Counter.Tracks] at hc he
            omega
          have hesp : (semNext s (.wait i 0)).esp.count = s.esp.count := by
            refine (espSemTake_count s.esp 0).trans ?_
            omega
          refine ⟨?_, ?_, ?_⟩
          · simpa [semNext, SemAct.op, linuxOp, hpos] using h.bounds
          · simpa [semNext, SemAct.op, linuxOp, counterOp, hpos, eAGAIN] using h.counter
          · rw [hesp]
            simpa [semNext, SemAct.op, linuxOp, counterOp, hpos, eAGAIN] using h.esp
      · simp only [semNext, SemAct.op, if_neg ht]
        exact ⟨h.bounds, h.counter, h.esp⟩
  | take i =>
      refine iff_of_true ?_ (hno (by simp [SemAct.op]))
      refine agrees_taken h rfl ?_ (espSemTake_count s.esp (-1))
      simp [semNext, SemAct.op, linuxOp, counterOp]
  | giveUp i errno =>
      refine iff_of_true ?_ (hno (by simp [SemAct.op]))
      have hne : -errno ≠ 0 := by
        have := ha.2
        omega
      have hcounter : (semNext s (.giveUp i errno)).counter = s.counter := if_neg hne
      exact ⟨h.bounds, by rw [hcounter]; exact h.counter, by rw [hcounter]; exact h.esp⟩
  | getCount i => exact iff_of_true ⟨h.bounds, h.counter, h.esp⟩ (hno (by simp [SemAct.op]))

/-- Semaphores that agree give the same results. -/
lemma Agrees.sameResult {s : SemSys maxCount} {a : SemAct} (h : Agrees s)
    (ha : semEnabled s a) : SameResult s a := by
  have hsame : s.linux.posixSem = s.esp.count := h.counter.trans h.esp.symm
  have hop : ∀ op ∈ a.op, (op.waits = true →
      ((linuxOp s.linux op).1 = 0 ↔ (espOp s.esp op).1 = 0) ∧
        ((linuxOp s.linux op).1 ≠ 0 → (linuxOp s.linux op).2 = s.linux)) ∧
      (op = .getCount → (linuxOp s.linux op).1 = (espOp s.esp op).1) := by
    intro op hmem
    cases op with
    | post => exact ⟨fun hw => (by cases hw), fun hc => (by cases hc)⟩
    | tryWait =>
        refine ⟨fun _ => ?_, fun hc => (by cases hc)⟩
        by_cases hpos : 0 < s.linux.posixSem
        · simp [linuxOp, espOp, espSemTake_ret, hpos, ← hsame]
        · simp [linuxOp, espOp, espSemTake_ret, hpos, ← hsame, eAGAIN]
    | take =>
        have hpos : 0 < s.linux.posixSem := by
          cases a with
          | take i => exact ha.2
          | wait i timeoutMs => simp [SemAct.op] at hmem
          | post i | giveUp i errno | getCount i => simp [SemAct.op] at hmem
        refine ⟨fun _ => ?_, fun hc => (by cases hc)⟩
        simp [linuxOp, espOp, espSemTake_ret, ← hsame, hpos]
    | giveUp errno =>
        have hpos : 0 < errno := by
          cases a with
          | giveUp i e =>
              obtain rfl : e = errno := by simpa [SemAct.op] using hmem
              exact ha.2
          | wait i timeoutMs => simp [SemAct.op] at hmem
          | post i | take i | getCount i => simp [SemAct.op] at hmem
        refine ⟨fun _ => ?_, fun hc => (by cases hc)⟩
        have hne : errno ≠ 0 := by omega
        simp [linuxOp, espOp, osaErrGeneric, hne]
    | getCount =>
        refine ⟨fun hw => (by cases hw), fun _ => ?_⟩
        simp [linuxOp, espOp, osaSemGetCount, hsame]
  exact ⟨fun op hmem hw => ((hop op hmem).1 hw).1, fun op hmem hw => ((hop op hmem).1 hw).2,
    fun op hmem => (hop op hmem).2⟩

/-! ### Runs -/

lemma SemInitial.agrees {s : SemSys maxCount} (h : SemInitial s) : Agrees s ∧ Bound s := by
  obtain ⟨hpos, hmax, initial, h0, hle, hlinux, hesp, hcounter, -⟩ := h
  have hcreate : s.linux = ⟨initial.toNat, maxCount⟩ := by
    rw [osaSemCreate, if_neg (by omega)] at hlinux
    exact (Except.ok.inj hlinux).symm
  have hrtos : s.esp = ⟨initial.toNat, maxCount.toNat⟩ := by
    rw [hesp, espSemCreate]
    by_cases hone : maxCount = 1
    · subst hone
      obtain rfl | rfl : initial = 0 ∨ initial = 1 := by omega
      · rfl
      · rfl
    · rw [if_neg hone]
  refine ⟨⟨?_, ?_, ?_⟩, hpos, hmax, by rw [hrtos]⟩
  · rw [hcreate]
    show (0 : ℤ) ≤ (initial.toNat : ℤ) ∧ (initial.toNat : ℤ) ≤ maxCount
    omega
  · rw [hcreate, Counter.Tracks, hcounter]
  · rw [hrtos, Counter.Tracks, hcounter]

/-- **The Linux semaphore is the bounded counter of its interface exactly as long as no post
meets it at its maximum.**  In every state of a run its count is within its bounds, that of the
counter and that of the FreeRTOS semaphore, exactly if each post finds it below its maximum, or
that is the maximum of POSIX; and where the counts agree the results do. -/
theorem semaphore_bounded_iff {s t : SemSys maxCount} {l : List (SemSys maxCount × SemAct)}
    (hs : (semSystem maxCount).init s) (hl : (semSystem maxCount).RunFrom s l t) :
    ((Agrees t ∧ ∀ p ∈ l, Agrees p.1) ↔ ∀ p ∈ l, PostsBelow p.1 p.2) ∧
      ∀ p ∈ l, Agrees p.1 → SameResult p.1 p.2 := by
  obtain ⟨hagrees, hbound⟩ := SemInitial.agrees hs
  refine ⟨hl.forall_iff hagrees hbound (fun u a hP hJ ha => agrees_next_iff hP hJ ha)
    (fun u a _ hJ _ _ => bound_step hJ a), fun p hp h => ?_⟩
  have hall := hl.forall_mem (P := fun _ => True) (fun _ _ _ _ => trivial) trivial
  exact h.sameResult (hall p hp).2

/-- Right after both creates, with `initialCount` tokens. -/
def semStart (maxCount : ℤ) (initialCount : ℕ) (h : initialCount ≤ maxCount.toNat) :
    SemSys maxCount :=
  ⟨⟨initialCount, maxCount⟩, espSemCreate initialCount maxCount, ⟨initialCount, h⟩,
    fun _ => none⟩

lemma semStart_initial {initialCount : ℕ} (h : initialCount ≤ maxCount.toNat)
    (hpos : 1 ≤ maxCount) (hmax : maxCount ≤ semValueMax) :
    SemInitial (semStart maxCount initialCount h) := by
  refine ⟨hpos, hmax, initialCount, by omega, by omega, ?_, rfl, rfl, rfl⟩
  rw [osaSemCreate, if_neg (by omega)]
  rfl

/-- A producer and a consumer that waits in turn keep within a maximum of one. -/
theorem turns_keep_the_bound :
    ∃ t l, (semSystem 1).RunFrom (semStart 1 0 (by decide)) l t ∧ t.linux.posixSem = 1 ∧
      Agrees t := by
  obtain ⟨t, ht, hcount, hpost⟩ : ∃ t ∈ (semSystem 1).replay (semStart 1 0 (by decide))
      [.wait 0 (-1), .post 1, .take 0, .wait 0 20, .giveUp 0 110, .post 1, .getCount 0],
      t.linux.posixSem = 1 ∧
      ∀ p ∈ (semSystem 1).history (semStart 1 0 (by decide))
        [.wait 0 (-1), .post 1, .take 0, .wait 0 20, .giveUp 0 110, .post 1, .getCount 0],
        PostsBelow p.1 p.2 := by decide +kernel
  have hrun := System.runFrom_of_replay ht
  exact ⟨t, _, hrun, hcount,
    ((semaphore_bounded_iff (semStart_initial _ le_rfl (by decide)) hrun).1.mpr hpost).1⟩

/-- **A binary semaphore counts two**: it is created full and posted once more. -/
theorem binary_semaphore_counts_two :
    ∃ t, (semSystem 1).Reachable t ∧ osaSemGetCount t.linux = 2 ∧ t.esp.count = 1 ∧
      t.counter.value = 1 ∧ ¬ Agrees t := by
  obtain ⟨t, ht, hlinux, hesp, hcounter⟩ : ∃ t, (semSystem 1).Reachable t ∧
      osaSemGetCount t.linux = 2 ∧ t.esp.count = 1 ∧ t.counter.value = 1 :=
    System.reachable_of_replay (s := semStart 1 1 (by decide))
      (semStart_initial _ le_rfl (by decide)) [.post 0] (by decide +kernel)
  refine ⟨t, ht, hlinux, hesp, hcounter, fun h => ?_⟩
  have hle := h.bounds.2
  omega

end OpenHsm
