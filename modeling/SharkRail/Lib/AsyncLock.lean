import Mathlib

/-!
# Locks of an event loop

`asyncio.Lock`. Tasks wait in the order in which they came; `release` completes the future of the first one, which takes the lock only
when the loop runs it again, and until then a task that comes newly waits too. A cancelled task leaves the queue when the loop runs it, and
wakes the next one if the lock is free. The key of a waiter says which task it is. `Exclusive` is the reason why a woken task finds the lock
free.
-/

/-- A task that waits: whether the lock completed its future, and whether it was cancelled. -/
structure LockWaiter (κ : Type*) where
  key : κ
  woken : Bool := false
  cancelled : Bool := false
  deriving DecidableEq

namespace LockWaiter

variable {κ : Type*}

/-- `fut.done()`. -/
def done (waiter : LockWaiter κ) : Bool := waiter.woken || waiter.cancelled

/-- `fut.cancelled()`: a future that was completed first stays completed when its task is cancelled. -/
def futureCancelled (waiter : LockWaiter κ) : Bool := waiter.cancelled && !waiter.woken

/-- `fut.set_result(True)`, where the future is not done. -/
def wake (waiter : LockWaiter κ) : LockWaiter κ := if waiter.done then waiter else { waiter with woken := true }

end LockWaiter

structure AsyncLock (κ : Type*) where
  locked : Bool := false
  waiters : List (LockWaiter κ) := []
  deriving DecidableEq

namespace AsyncLock

variable {κ : Type*} {lock : AsyncLock κ} {waiter : LockWaiter κ}

/-- `acquire` takes the lock at once. -/
def enters (lock : AsyncLock κ) : Bool := !lock.locked && lock.waiters.all (·.futureCancelled)

/-- `acquire` up to where it returns or waits. -/
def acquire (lock : AsyncLock κ) (key : κ) : AsyncLock κ :=
  if lock.enters then { lock with locked := true } else { lock with waiters := lock.waiters ++ [{ key }] }

/-- `_wake_up_first`. -/
def wakeUpFirst (lock : AsyncLock κ) : AsyncLock κ :=
  match lock.waiters with
  | [] => lock
  | waiter :: waiters => { lock with waiters := waiter.wake :: waiters }

/-- `release`. -/
def release (lock : AsyncLock κ) : AsyncLock κ := wakeUpFirst { lock with locked := false }

/-- `task.cancel()` of the tasks `p` names. -/
def cancel (lock : AsyncLock κ) (p : κ → Bool) : AsyncLock κ :=
  { lock with waiters := lock.waiters.map fun waiter => if p waiter.key then { waiter with cancelled := true } else waiter }

/-- `self._waiters.remove(fut)`. -/
def remove [DecidableEq κ] (lock : AsyncLock κ) (waiter : LockWaiter κ) : AsyncLock κ := { lock with waiters := lock.waiters.erase waiter }

/-- What the loop does with a waiter whose future is done: `acquire` returns, or it raises `CancelledError`. -/
def resume [DecidableEq κ] (lock : AsyncLock κ) (waiter : LockWaiter κ) : AsyncLock κ :=
  if waiter.cancelled then
    if lock.locked then lock.remove waiter else (lock.remove waiter).wakeUpFirst
  else { lock.remove waiter with locked := true }

/-- Only the first waiter was woken, and none while the lock is held. -/
structure Exclusive (lock : AsyncLock κ) : Prop where
  held : lock.locked = true → ∀ waiter ∈ lock.waiters, waiter.woken = false
  first : ∀ waiter ∈ lock.waiters.tail, waiter.woken = false

/-- A new lock is exclusive. -/
theorem exclusive_new : Exclusive ({} : AsyncLock κ) := ⟨by simp, by simp⟩

/-- A lock that is entered at once is free, and no task was woken. -/
theorem enters_iff : lock.enters = true ↔
    lock.locked = false ∧ ∀ waiter ∈ lock.waiters, waiter.cancelled = true ∧ waiter.woken = false := by
  simp [enters, LockWaiter.futureCancelled]

/-- A lock is held after an acquisition where it was before, or where it is entered at once. -/
theorem locked_acquire (key : κ) : (lock.acquire key).locked = (lock.locked || lock.enters) := by
  unfold acquire
  split <;> simp_all

/-- To wake up a waiter does not take the lock. -/
@[simp] theorem locked_wakeUpFirst : lock.wakeUpFirst.locked = lock.locked := by
  unfold wakeUpFirst
  split <;> rfl

/-- Only the first waiter is woken. -/
@[simp] theorem tail_wakeUpFirst : lock.wakeUpFirst.waiters.tail = lock.waiters.tail := by
  unfold wakeUpFirst
  split <;> simp_all

/-- A lock that is released is free. -/
@[simp] theorem locked_release : lock.release.locked = false := by simp [release]

/-- A waiter that resumes takes the lock, unless it was cancelled. -/
theorem locked_resume [DecidableEq κ] : (lock.resume waiter).locked = (lock.locked || !waiter.cancelled) := by
  unfold resume remove
  split
  · split <;> simp_all
  · simp_all

namespace Exclusive

/-- An acquisition keeps the lock exclusive. -/
theorem acquire (h : Exclusive lock) (key : κ) : Exclusive (lock.acquire key) := by
  unfold AsyncLock.acquire
  split
  · rename_i henters
    refine ⟨?_, h.first⟩
    intro _ waiter hwaiter
    exact ((enters_iff.1 henters).2 waiter hwaiter).2
  · constructor
    · intro hlocked waiter hwaiter
      rcases List.mem_append.1 hwaiter with hwaiter | hwaiter
      · exact h.held hlocked waiter hwaiter
      · rw [List.mem_singleton.1 hwaiter]
    · intro waiter hwaiter
      cases hwaiters : lock.waiters with
      | nil => simp [hwaiters] at hwaiter
      | cons head tail =>
        have hfirst := h.first
        simp only [hwaiters, List.cons_append, List.tail_cons] at hwaiter hfirst
        rcases List.mem_append.1 hwaiter with hwaiter | hwaiter
        · exact hfirst waiter hwaiter
        · rw [List.mem_singleton.1 hwaiter]

/-- Waking the first task of a free lock keeps it exclusive. -/
theorem wakeUpFirst (hfree : lock.locked = false) (hfirst : ∀ waiter ∈ lock.waiters.tail, waiter.woken = false) :
    Exclusive lock.wakeUpFirst := by
  constructor
  · simp [hfree]
  · simpa using hfirst

/-- A release keeps the lock exclusive. -/
theorem release (h : Exclusive lock) : Exclusive lock.release := wakeUpFirst rfl h.first

/-- A cancellation keeps the lock exclusive. -/
theorem cancel (h : Exclusive lock) (p : κ → Bool) : Exclusive (lock.cancel p) := by
  constructor
  · intro hlocked waiter hwaiter
    obtain ⟨old, hold, rfl⟩ := List.mem_map.1 hwaiter
    have := h.held hlocked old hold
    split <;> exact this
  · intro waiter hwaiter
    rw [AsyncLock.cancel, ← List.map_tail] at hwaiter
    obtain ⟨old, hold, rfl⟩ := List.mem_map.1 hwaiter
    have := h.first old hold
    split <;> exact this

/-- A woken task finds the lock free, and it is the first in the queue. -/
theorem of_woken (h : Exclusive lock) (hwaiter : waiter ∈ lock.waiters) (hwoken : waiter.woken = true) :
    lock.locked = false ∧ ∃ others, lock.waiters = waiter :: others := by
  constructor
  · by_contra hlocked
    have := h.held (by simpa using hlocked) waiter hwaiter
    simp [hwoken] at this
  · cases hwaiters : lock.waiters with
    | nil => simp [hwaiters] at hwaiter
    | cons head tail =>
      rw [hwaiters] at hwaiter
      rcases List.mem_cons.1 hwaiter with rfl | htail
      · exact ⟨tail, rfl⟩
      · have := h.first waiter (by simpa [hwaiters] using htail)
        simp [hwoken] at this

variable [DecidableEq κ]

/-- A waiter behind the first one was so before one left. -/
theorem mem_tail_of_erase {waiters : List (LockWaiter κ)} {other : LockWaiter κ}
    (h : other ∈ (waiters.erase waiter).tail) : other ∈ waiters.tail := by
  cases waiters with
  | nil => simp at h
  | cons head tail =>
    rw [List.erase_cons] at h
    split at h
    · exact List.mem_of_mem_tail h
    · exact List.mem_of_mem_erase h

/-- A woken waiter that resumes keeps the lock exclusive. -/
theorem resume (h : Exclusive lock) (hwaiter : waiter ∈ lock.waiters) (hdone : waiter.done = true) :
    Exclusive (lock.resume waiter) := by
  have hfirst : ∀ other ∈ (lock.remove waiter).waiters.tail, other.woken = false := fun other hother =>
    h.first other (mem_tail_of_erase hother)
  unfold AsyncLock.resume
  split
  · split
    · rename_i hlocked
      exact ⟨fun _ other hother => h.held hlocked other (List.mem_of_mem_erase hother), hfirst⟩
    · rename_i hlocked
      exact wakeUpFirst (by simpa [remove] using hlocked) hfirst
  · rename_i hcancelled
    have hwoken : waiter.woken = true := by simpa [LockWaiter.done, hcancelled] using hdone
    obtain ⟨_, others, hwaiters⟩ := h.of_woken hwaiter hwoken
    -- the woken task was the first one, and behind it none is woken
    refine ⟨fun _ other hother => ?_, hfirst⟩
    have hothers : other ∈ lock.waiters.tail := by simpa [remove, hwaiters] using hother
    exact h.first other hothers

end Exclusive

end AsyncLock
