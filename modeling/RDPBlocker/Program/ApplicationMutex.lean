import RDPBlocker.Foundation.HandleTable

/-! The mutex by which an instance finds out whether another one runs. The named object exists
while some handle to it is open. -/
namespace RDPBlocker
open Foundation Function

/-- `GetLastError` after `OpenMutexW`. -/
inductive OpenError
  | fileNotFound
  | other
deriving DecidableEq, Repr

/-- The system calls of one `lock` that would fail of themselves, whether the object exists or
not. -/
structure MutexCalls where
  openFails : Bool := false
  createFails : Bool := false
deriving DecidableEq, Repr

def openMutexW (calls : MutexCalls) (object : HandleTable) :
    Except OpenError ℕ × HandleTable :=
  if calls.openFails = true then (.error .other, object)
  else if object.opened = ∅ then (.error .fileNotFound, object)
  else (.ok object.next, object.alloc)

/-- `CreateMutexW` opens the object when it exists already. -/
def createMutexW (calls : MutexCalls) (object : HandleTable) : Option ℕ × HandleTable :=
  if calls.createFails = true then (none, object) else (some object.next, object.alloc)

/-- `none` is `NULL`. -/
structure ApplicationMutex where
  mHandle : Option ℕ := none
deriving DecidableEq, Repr

namespace ApplicationMutex

/-- The methods also return the mutex and the named object. -/
def create (calls : MutexCalls) (_ : ApplicationMutex) (object : HandleTable) :
    Bool × ApplicationMutex × HandleTable :=
  let (handle, object) := createMutexW calls object
  if handle = none then (false, ⟨handle⟩, object) else (true, ⟨handle⟩, object)

/-- The result is `false` with an error in place of `NULL`. -/
def openExisting (calls : MutexCalls) (_ : ApplicationMutex) (object : HandleTable) :
    Except OpenError Unit × ApplicationMutex × HandleTable :=
  match openMutexW calls object with
  | (.error code, object) => (.error code, ⟨none⟩, object)
  | (.ok handle, object) => (.ok (), ⟨some handle⟩, object)

def close (m : ApplicationMutex) (object : HandleTable) : ApplicationMutex × HandleTable :=
  match m.mHandle with
  | some handle => (⟨none⟩, object.close handle)
  | none => (m, object)

def isExist (calls : MutexCalls) (m : ApplicationMutex) (object : HandleTable) :
    Bool × ApplicationMutex × HandleTable :=
  if m.mHandle ≠ none then (true, m, object)
  else
    match m.openExisting calls object with
    | (.error code, m, object) =>
      if code = .fileNotFound then (false, m, object) else (true, m, object)
    | (.ok (), m, object) => (true, m, object)

def lock (calls : MutexCalls) (m : ApplicationMutex) (object : HandleTable) :
    Bool × ApplicationMutex × HandleTable :=
  match m.isExist calls object with
  | (true, m, object) => (false, m, object)
  | (false, m, object) => m.create calls object

def unlock (m : ApplicationMutex) (object : HandleTable) : ApplicationMutex × HandleTable :=
  m.close object

/-- The destructor; what comes after it under the same name is a new object. -/
def destroy (m : ApplicationMutex) (object : HandleTable) : ApplicationMutex × HandleTable :=
  m.close object

variable {calls : MutexCalls} {m : ApplicationMutex} {object : HandleTable}

theorem isExist_of_handle (h : m.mHandle ≠ none) :
    m.isExist calls object = (true, m, object) := if_pos h

theorem isExist_of_fails (h : m.mHandle = none) (hopen : calls.openFails = true) :
    m.isExist calls object = (true, m, object) := by
  obtain ⟨handle⟩ := m
  cases h
  simp [isExist, openExisting, openMutexW, hopen]

/-- A probe that finds the object keeps the handle that it opened. -/
theorem isExist_of_exists (h : m.mHandle = none) (hopen : calls.openFails = false)
    (hexists : object.opened ≠ ∅) :
    m.isExist calls object = (true, ⟨some object.next⟩, object.alloc) := by
  simp [isExist, openExisting, openMutexW, h, hopen, hexists]

theorem isExist_of_absent (h : m.mHandle = none) (hopen : calls.openFails = false)
    (habsent : object.opened = ∅) : m.isExist calls object = (false, m, object) := by
  obtain ⟨handle⟩ := m
  cases h
  simp [isExist, openExisting, openMutexW, hopen, habsent]

theorem isExist_eq_false (h : (m.isExist calls object).1 = false) :
    m.mHandle = none ∧ object.opened = ∅ ∧ m.isExist calls object = (false, m, object) := by
  by_cases hhandle : m.mHandle = none
  · cases hopen : calls.openFails with
    | true =>
      rw [isExist_of_fails hhandle hopen] at h
      cases h
    | false =>
      by_cases hempty : object.opened = ∅
      · exact ⟨hhandle, hempty, isExist_of_absent hhandle hopen hempty⟩
      · rw [isExist_of_exists hhandle hopen hempty] at h
        cases h
  · rw [isExist_of_handle hhandle] at h
    cases h

theorem create_of_fails (h : m.mHandle = none) (hcreate : calls.createFails = true) :
    m.create calls object = (false, m, object) := by
  obtain ⟨handle⟩ := m
  cases h
  simp [create, createMutexW, hcreate]

theorem create_of_succeeds (hcreate : calls.createFails = false) :
    m.create calls object = (true, ⟨some object.next⟩, object.alloc) := by
  simp [create, createMutexW, hcreate]

theorem lock_of_handle (h : m.mHandle ≠ none) : m.lock calls object = (false, m, object) := by
  simp only [lock, isExist_of_handle h]

theorem lock_of_fails (h : m.mHandle = none) (hopen : calls.openFails = true) :
    m.lock calls object = (false, m, object) := by
  simp only [lock, isExist_of_fails h hopen]

theorem lock_of_exists (h : m.mHandle = none) (hopen : calls.openFails = false)
    (hexists : object.opened ≠ ∅) :
    m.lock calls object = (false, ⟨some object.next⟩, object.alloc) := by
  simp only [lock, isExist_of_exists h hopen hexists]

theorem lock_of_absent (h : m.mHandle = none) (hopen : calls.openFails = false)
    (habsent : object.opened = ∅) : m.lock calls object = m.create calls object := by
  simp only [lock, isExist_of_absent h hopen habsent]

theorem close_handle (m : ApplicationMutex) (object : HandleTable) :
    (m.close object).1.mHandle = none := by
  unfold close
  cases hm : m.mHandle with
  | none => exact hm
  | some handle => rfl

theorem close_effect (m : ApplicationMutex) (object : HandleTable) :
    HandleTable.Effect object m.mHandle (m.close object).1.mHandle (m.close object).2 := by
  unfold close
  cases hm : m.mHandle with
  | none =>
    dsimp only
    rw [hm]
    exact HandleTable.Effect.keep
  | some handle => exact HandleTable.Effect.close handle rfl

theorem isExist_effect (calls : MutexCalls) (m : ApplicationMutex) (object : HandleTable) :
    HandleTable.Effect object m.mHandle (m.isExist calls object).2.1.mHandle
      (m.isExist calls object).2.2 := by
  by_cases h : m.mHandle = none
  · cases hopen : calls.openFails with
    | true =>
      rw [isExist_of_fails h hopen]
      exact HandleTable.Effect.keep
    | false =>
      by_cases hempty : object.opened = ∅
      · rw [isExist_of_absent h hopen hempty]
        exact HandleTable.Effect.keep
      · rw [isExist_of_exists h hopen hempty]
        exact HandleTable.Effect.alloc h
  · rw [isExist_of_handle h]
    exact HandleTable.Effect.keep

theorem create_effect (calls : MutexCalls) (h : m.mHandle = none) :
    HandleTable.Effect object m.mHandle (m.create calls object).2.1.mHandle
      (m.create calls object).2.2 := by
  cases hcreate : calls.createFails with
  | true =>
    rw [create_of_fails h hcreate]
    exact HandleTable.Effect.keep
  | false =>
    rw [create_of_succeeds hcreate]
    exact HandleTable.Effect.alloc h

theorem lock_effect (calls : MutexCalls) (m : ApplicationMutex) (object : HandleTable) :
    HandleTable.Effect object m.mHandle (m.lock calls object).2.1.mHandle
      (m.lock calls object).2.2 := by
  by_cases h : m.mHandle = none
  · cases hopen : calls.openFails with
    | true =>
      rw [lock_of_fails h hopen]
      exact HandleTable.Effect.keep
    | false =>
      by_cases hempty : object.opened = ∅
      · rw [lock_of_absent h hopen hempty]
        exact create_effect calls h
      · rw [lock_of_exists h hopen hempty]
        exact HandleTable.Effect.alloc h
  · rw [lock_of_handle h]
    exact HandleTable.Effect.keep

/-- A lock that returns `true` has created the object. -/
theorem lock_handle (h : (m.lock calls object).1 = true) :
    (m.lock calls object).2.1.mHandle ≠ none := by
  by_cases hnone : m.mHandle = none
  · cases hopen : calls.openFails with
    | true =>
      rw [lock_of_fails hnone hopen] at h
      cases h
    | false =>
      by_cases hempty : object.opened = ∅
      · rw [lock_of_absent hnone hopen hempty] at h ⊢
        cases hcreate : calls.createFails with
        | true =>
          rw [create_of_fails hnone hcreate] at h
          cases h
        | false =>
          rw [create_of_succeeds hcreate]
          exact Option.some_ne_none _
      · rw [lock_of_exists hnone hopen hempty] at h
        cases h
  · rw [lock_of_handle hnone] at h
    cases h

end ApplicationMutex
end RDPBlocker
