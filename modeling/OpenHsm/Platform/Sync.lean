import Mathlib.Tactic

/-!
The counting semaphores of `platform/linux/osa_sync.c`, over POSIX `sem_t`.

* `OsaSem`: `struct osa_sem_internal`, the value of the POSIX semaphore and the
  recorded maximum, which no operation reads.
* `osaSemPost`: `osa_sem_post`; `sem_post` fails at `SEM_VALUE_MAX` and leaves the
  value, and the code drops its result.
* `osaSemTake`: the successful end of the three branches of `osa_sem_wait`; a
  caller that finds no token blocks, or returns with one of the error codes.
-/

namespace OpenHsm

/-- The `errno` values the code compares with or returns negated. -/
def eAGAIN : Int := 11
def eNOMEM : Int := 12
def eINVAL : Int := 22
def ePIPE : Int := 32
def eTIMEDOUT : Int := 110

/-- `SEM_VALUE_MAX` of Linux. -/
def semValueMax : ℕ := 2147483647

/-- `struct osa_sem_internal`. -/
structure OsaSem where
  posixSem : ℕ
  maxCount : Int
  deriving DecidableEq, Repr

/-- `osa_sem_create`, past the allocation: `sem_init` refuses a value above
`SEM_VALUE_MAX`, a negative count being read as an unsigned one. -/
def osaSemCreate (initialCount maxCount : Int) : Except Int OsaSem :=
  if initialCount < 0 ∨ (semValueMax : Int) < initialCount then .error (-eINVAL)
  else .ok ⟨initialCount.toNat, maxCount⟩

/-- `osa_sem_post`. -/
def osaSemPost (s : OsaSem) : OsaSem :=
  if s.posixSem < semValueMax then { s with posixSem := s.posixSem + 1 } else s

/-- `osa_sem_wait` where it returns `0`: a token is taken. -/
def osaSemTake (s : OsaSem) : OsaSem := { s with posixSem := s.posixSem - 1 }

/-- `osa_sem_get_count`. -/
def osaSemGetCount (s : OsaSem) : Int := s.posixSem

lemma osaSemPost_posixSem {s : OsaSem} (h : s.posixSem < semValueMax) :
    (osaSemPost s).posixSem = s.posixSem + 1 := by
  rw [osaSemPost, if_pos h]

@[simp] lemma osaSemTake_posixSem (s : OsaSem) :
    (osaSemTake s).posixSem = s.posixSem - 1 := rfl

end OpenHsm
