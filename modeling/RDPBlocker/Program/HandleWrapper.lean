import Mathlib.Data.List.Induction
import Mathlib.Logic.Function.Basic
import RDPBlocker.Foundation.History

/-! `HandleWrapper`, and programs over any number of wrappers. Of a handle only its value is
known, and the system may use the value again after it was closed. -/
namespace RDPBlocker
open Foundation Function
variable {P HandleType : Type*}

/-- The calls that open a handle, and the calls of `Traits::Close`. -/
inductive HandleCall (HandleType : Type*)
  | opened (handle : HandleType)
  | closed (handle : HandleType)
deriving DecidableEq, Repr

/-- The second argument of the template. -/
structure HandleTraits (HandleType : Type*) where
  invalidValue : HandleType

/-- `EventLogHandleTraits`, whose invalid value is `NULL`. -/
def eventLogHandleTraits : HandleTraits ℕ := ⟨0⟩

structure HandleWrapper (HandleType : Type*) where
  mHandle : HandleType
deriving DecidableEq, Repr

namespace HandleWrapper
variable [DecidableEq HandleType] (T : HandleTraits HandleType)

/-- The default constructor. -/
def new : HandleWrapper HandleType := ⟨T.invalidValue⟩

/-- The constructor from a handle. -/
def ofHandle (value : HandleType) : HandleWrapper HandleType := ⟨value⟩

def attach (_ : HandleWrapper HandleType) (value : HandleType) : HandleWrapper HandleType := ⟨value⟩

def get (w : HandleWrapper HandleType) : HandleType := w.mHandle

def isVaild (w : HandleWrapper HandleType) : Bool := decide (w.mHandle ≠ T.invalidValue)

/-- The methods also return their calls of `Traits::Close`. -/
def close (w : HandleWrapper HandleType) :
    HandleWrapper HandleType × List (HandleCall HandleType) :=
  if w.mHandle ≠ T.invalidValue then (⟨T.invalidValue⟩, [.closed w.mHandle]) else (w, [])

/-- The destructor. -/
def destroy (w : HandleWrapper HandleType) : List (HandleCall HandleType) := (w.close T).2

/-- `operator=(const HandleType&)`. -/
def assignHandle (w : HandleWrapper HandleType) (src : HandleType) :
    HandleWrapper HandleType × List (HandleCall HandleType) :=
  let (w, calls) := w.close T
  (w.attach src, calls)

/-- The handle in a wrapper, if it has one. -/
def owned (w : HandleWrapper HandleType) : Option HandleType :=
  if w.isVaild T = true then some w.get else none

variable {T} {w : HandleWrapper HandleType}

theorem owned_new : (new T).owned T = none := by
  simp [owned, isVaild, new]

theorem owned_mk {value : HandleType} (h : value ≠ T.invalidValue) :
    (⟨value⟩ : HandleWrapper HandleType).owned T = some value := by
  simp [owned, isVaild, get, h]

theorem close_of_owned {value : HandleType} (h : w.owned T = some value) :
    w.close T = (new T, [.closed value]) := by
  unfold owned isVaild at h
  split_ifs at h with hvalid
  have hvalue : w.mHandle = value := Option.some.inj h
  rw [close, if_pos (of_decide_eq_true hvalid), hvalue, new]

theorem mHandle_of_not_owned (h : w.owned T = none) : w.mHandle = T.invalidValue := by
  unfold owned isVaild at h
  split_ifs at h with hvalid
  simpa using hvalid

theorem close_of_not_owned (h : w.owned T = none) : w.close T = (w, []) :=
  if_neg (not_not.mpr (mHandle_of_not_owned h))

theorem owned_close (w : HandleWrapper HandleType) : (w.close T).1.owned T = none := by
  cases h : w.owned T with
  | none =>
    rw [close_of_not_owned h]
    exact h
  | some value =>
    rw [close_of_owned h]
    exact owned_new

end HandleWrapper

/-- The wrappers that have been constructed and not destroyed. -/
abbrev WrapperMemory (P HandleType : Type*) := P → Option (HandleWrapper HandleType)

namespace WrapperMemory
variable [DecidableEq P] (T : HandleTraits HandleType)

/-- The two assignments by which a wrapper takes the handle of another one, or of itself. -/
def takeHandle (memory : WrapperMemory P HandleType) (this src : P)
    (w : HandleWrapper HandleType) : WrapperMemory P HandleType :=
  update (update memory this (some ⟨w.mHandle⟩)) src (some ⟨T.invalidValue⟩)

/-- The move constructor. -/
def moveConstruct (memory : WrapperMemory P HandleType) (this src : P)
    (w : HandleWrapper HandleType) : WrapperMemory P HandleType :=
  takeHandle T memory this src w

/-- `operator=(HandleWrapper&)`. -/
def transferAssign (memory : WrapperMemory P HandleType) (this src : P)
    (w : HandleWrapper HandleType) : WrapperMemory P HandleType :=
  takeHandle T memory this src w

end WrapperMemory

/-- An operation of a program on its wrappers. A handle that is given to a wrapper has just been
opened. -/
inductive WrapperAction (P HandleType : Type*)
  | construct (this : P)
  | constructFrom (this : P) (value : HandleType)
  | assignHandle (this : P) (value : HandleType)
  | moveConstruct (this src : P)
  | transferAssign (this src : P)
  | close (this : P)
  | destroy (this : P)
deriving DecidableEq, Repr

def HandleCall.handle : HandleCall HandleType → HandleType
  | opened handle | closed handle => handle

variable [DecidableEq HandleType]

/-- The last call with this value has opened it. -/
def IsOpen (calls : List (HandleCall HandleType)) (handle : HandleType) : Prop :=
  lastOf (fun c => decide (c.handle = handle)) calls = some (.opened handle)

instance (calls : List (HandleCall HandleType)) (handle : HandleType) :
    Decidable (IsOpen calls handle) := inferInstanceAs (Decidable (_ = _))

theorem isOpen_opened (calls : List (HandleCall HandleType)) (handle other : HandleType) :
    IsOpen (calls ++ [.opened handle]) other ↔ other = handle ∨ IsOpen calls other := by
  unfold IsOpen
  rw [lastOf_concat]
  by_cases h : handle = other
  · simp [HandleCall.handle, h]
  · simp [HandleCall.handle, h, Ne.symm h]

theorem isOpen_closed (calls : List (HandleCall HandleType)) (handle other : HandleType) :
    IsOpen (calls ++ [.closed handle]) other ↔ other ≠ handle ∧ IsOpen calls other := by
  unfold IsOpen
  rw [lastOf_concat]
  by_cases h : handle = other
  · simp [HandleCall.handle, h]
  · simp [HandleCall.handle, h, Ne.symm h]

structure Wrappers (P HandleType : Type*) where
  memory : WrapperMemory P HandleType
  /-- History: the calls that opened or closed a handle, oldest first. -/
  calls : List (HandleCall HandleType)

namespace Wrappers
variable [DecidableEq P] (T : HandleTraits HandleType)

def start : Wrappers P HandleType := ⟨fun _ => none, []⟩

/-- A value that a call which opens a handle may return. -/
def Fresh (s : Wrappers P HandleType) (value : HandleType) : Prop :=
  value ≠ T.invalidValue ∧ ¬ IsOpen s.calls value

instance (s : Wrappers P HandleType) (value : HandleType) : Decidable (s.Fresh T value) :=
  inferInstanceAs (Decidable (_ ∧ _))

/-- `none` where the program uses a wrapper that is not there, constructs one that is, or has
not opened the handle. -/
def step (s : Wrappers P HandleType) : WrapperAction P HandleType → Option (Wrappers P HandleType)
  | .construct this =>
    match s.memory this with
    | none => some { s with memory := update s.memory this (some (.new T)) }
    | some _ => none
  | .constructFrom this value =>
    match s.memory this with
    | none =>
      if s.Fresh T value then
        some ⟨update s.memory this (some (.ofHandle value)), s.calls ++ [.opened value]⟩
      else none
    | some _ => none
  | .assignHandle this value =>
    match s.memory this with
    | none => none
    | some w =>
      if s.Fresh T value then
        let (w, closed) := w.assignHandle T value
        some ⟨update s.memory this (some w), s.calls ++ .opened value :: closed⟩
      else none
  | .moveConstruct this src =>
    match s.memory this, s.memory src with
    | none, some w => some { s with memory := s.memory.moveConstruct T this src w }
    | _, _ => none
  | .transferAssign this src =>
    match s.memory this, s.memory src with
    | some _, some w => some { s with memory := s.memory.transferAssign T this src w }
    | _, _ => none
  | .close this =>
    match s.memory this with
    | none => none
    | some w =>
      let (w, closed) := w.close T
      some ⟨update s.memory this (some w), s.calls ++ closed⟩
  | .destroy this =>
    match s.memory this with
    | none => none
    | some w => some ⟨update s.memory this none, s.calls ++ w.destroy T⟩

def run (s : Wrappers P HandleType) (actions : List (WrapperAction P HandleType)) :
    Option (Wrappers P HandleType) := actions.foldlM (step T) s

/-- What a step does, operation by operation. -/
inductive Effect (s : Wrappers P HandleType) :
    WrapperAction P HandleType → Wrappers P HandleType → Prop
  | construct {this : P} (hthis : s.memory this = none) :
      Effect s (.construct this) { s with memory := update s.memory this (some (.new T)) }
  | constructFrom {this : P} {value : HandleType} (hthis : s.memory this = none)
      (hfresh : s.Fresh T value) : Effect s (.constructFrom this value)
        ⟨update s.memory this (some (.ofHandle value)), s.calls ++ [.opened value]⟩
  | assignHandle {this : P} {value : HandleType} {w : HandleWrapper HandleType}
      (hthis : s.memory this = some w) (hfresh : s.Fresh T value) :
      Effect s (.assignHandle this value) ⟨update s.memory this (some (w.assignHandle T value).1),
        s.calls ++ .opened value :: (w.assignHandle T value).2⟩
  | moveConstruct {this src : P} {w : HandleWrapper HandleType} (hthis : s.memory this = none)
      (hsrc : s.memory src = some w) : Effect s (.moveConstruct this src)
        { s with memory := s.memory.moveConstruct T this src w }
  | transferAssign {this src : P} {v w : HandleWrapper HandleType}
      (hthis : s.memory this = some v) (hsrc : s.memory src = some w) :
      Effect s (.transferAssign this src)
        { s with memory := s.memory.transferAssign T this src w }
  | close {this : P} {w : HandleWrapper HandleType} (hthis : s.memory this = some w) :
      Effect s (.close this)
        ⟨update s.memory this (some (w.close T).1), s.calls ++ (w.close T).2⟩
  | destroy {this : P} {w : HandleWrapper HandleType} (hthis : s.memory this = some w) :
      Effect s (.destroy this) ⟨update s.memory this none, s.calls ++ w.destroy T⟩

variable {T} {s t : Wrappers P HandleType}

theorem step_effect {a : WrapperAction P HandleType} (h : s.step T a = some t) :
    s.Effect T a t := by
  cases a with
  | construct this =>
    simp only [step] at h
    split at h
    · cases h
      exact Effect.construct ‹_›
    · cases h
  | constructFrom this value =>
    simp only [step] at h
    split at h
    · split_ifs at h with hfresh
      cases h
      exact Effect.constructFrom ‹_› hfresh
    · cases h
  | assignHandle this value =>
    simp only [step] at h
    split at h
    · cases h
    · split_ifs at h with hfresh
      cases h
      exact Effect.assignHandle ‹_› hfresh
  | moveConstruct this src =>
    simp only [step] at h
    split at h
    · cases h
      exact Effect.moveConstruct ‹_› ‹_›
    · cases h
  | transferAssign this src =>
    simp only [step] at h
    split at h
    · cases h
      exact Effect.transferAssign ‹_› ‹_›
    · cases h
  | close this =>
    simp only [step] at h
    split at h
    · cases h
    · cases h
      exact Effect.close ‹_›
  | destroy this =>
    simp only [step] at h
    split at h
    · cases h
    · cases h
      exact Effect.destroy ‹_›

theorem run_append_eq_some {before after : List (WrapperAction P HandleType)} :
    s.run T (before ++ after) = some t ↔ ∃ u, s.run T before = some u ∧ u.run T after = some t := by
  unfold run
  rw [List.foldlM_append]
  exact Option.bind_eq_some_iff

theorem run_concat_eq_some {actions : List (WrapperAction P HandleType)}
    {a : WrapperAction P HandleType} :
    s.run T (actions ++ [a]) = some t ↔ ∃ u, s.run T actions = some u ∧ u.step T a = some t := by
  rw [run_append_eq_some]
  simp only [run, List.foldlM_cons, List.foldlM_nil, bind_pure]

end Wrappers
end RDPBlocker
