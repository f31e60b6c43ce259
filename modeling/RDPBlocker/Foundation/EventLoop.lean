import Mathlib.Data.List.Basic
import Mathlib.Data.List.Perm.Basic
import Mathlib.Order.Lattice
import Mathlib.Order.Defs.LinearOrder

/-! A single-threaded event loop: a first-in first-out queue of ready handlers, and timers
that append theirs once their deadline has passed. -/
namespace Foundation
variable {T H : Type*}

structure EventLoop (T H : Type*) where
  now : T
  ready : List H
  timers : List (T × H)
  /-- History: the handlers that have run, oldest first, with the time of each. -/
  ran : List (T × H)

namespace EventLoop

def start (now : T) : EventLoop T H := ⟨now, [], [], []⟩

def post (l : EventLoop T H) (h : H) : EventLoop T H := { l with ready := l.ready ++ [h] }

def wait (l : EventLoop T H) (deadline : T) (h : H) : EventLoop T H :=
  { l with timers := l.timers ++ [(deadline, h)] }

/-- Take the oldest ready handler for execution. -/
def next? (l : EventLoop T H) : Option (H × EventLoop T H) :=
  match l.ready with
  | [] => none
  | h :: rest => some (h, { l with ready := rest, ran := l.ran ++ [(l.now, h)] })

section Clock
variable [LinearOrder T]

/-- The clock never goes back. -/
def advance (l : EventLoop T H) (t : T) : EventLoop T H := { l with now := max l.now t }

/-- The `k`-th pending timer fires, if it is due. -/
def expire (l : EventLoop T H) (k : ℕ) : EventLoop T H :=
  match l.timers[k]? with
  | none => l
  | some (deadline, h) =>
    if deadline ≤ l.now then { l with ready := l.ready ++ [h], timers := l.timers.eraseIdx k }
    else l

/-- Nothing is ready and no timer is due. -/
def Quiescent (l : EventLoop T H) : Prop := l.ready = [] ∧ ∀ x ∈ l.timers, l.now < x.1

end Clock

/-- The handlers in the order in which the thread runs them: those that have run, then
those that are ready. Every operation leaves it alone or appends to it. -/
def schedule (l : EventLoop T H) : List H := l.ran.map Prod.snd ++ l.ready

/-- Every handler ever given to the loop. -/
def handlers (l : EventLoop T H) : List H := l.schedule ++ l.timers.map Prod.snd

@[simp] theorem schedule_post (l : EventLoop T H) (h : H) :
    (l.post h).schedule = l.schedule ++ [h] := by
  simp [schedule, post]

@[simp] theorem schedule_wait (l : EventLoop T H) (d : T) (h : H) :
    (l.wait d h).schedule = l.schedule := rfl

theorem next?_eq_none {l : EventLoop T H} : l.next? = none ↔ l.ready = [] := by
  unfold next?
  cases l.ready <;> simp

theorem next?_eq_some {l l' : EventLoop T H} {h : H} (hn : l.next? = some (h, l')) :
    ∃ rest, l.ready = h :: rest ∧
      l' = { l with ready := rest, ran := l.ran ++ [(l.now, h)] } := by
  unfold next? at hn
  cases hr : l.ready with
  | nil => simp [hr] at hn
  | cons g rest =>
    simp only [hr, Option.some.injEq, Prod.mk.injEq] at hn
    obtain ⟨rfl, rfl⟩ := hn
    exact ⟨rest, rfl, rfl⟩

/-- Running a handler moves the boundary inside the schedule and nothing else. -/
theorem schedule_next {l l' : EventLoop T H} {h : H} (hn : l.next? = some (h, l')) :
    l'.schedule = l.schedule := by
  obtain ⟨rest, hr, rfl⟩ := next?_eq_some hn
  simp [schedule, hr]

theorem handlers_post_wait (l : EventLoop T H) (h g : H) (d : T) :
    ((l.post h).wait d g).handlers.Perm (l.handlers ++ [h, g]) := by
  have hl : ((l.post h).wait d g).handlers =
      l.schedule ++ [h] ++ l.timers.map Prod.snd ++ [g] := by
    simp [handlers, wait, post, schedule]
  rw [hl]
  have hp : (l.schedule ++ [h] ++ l.timers.map Prod.snd).Perm
      (l.schedule ++ l.timers.map Prod.snd ++ [h]) := by
    rw [List.append_assoc, List.append_assoc]
    exact List.Perm.append_left _ List.perm_append_comm
  simpa [handlers] using hp.append_right [g]

theorem handlers_next {l l' : EventLoop T H} {h : H} (hn : l.next? = some (h, l')) :
    l'.handlers = l.handlers := by
  have hs := schedule_next hn
  obtain ⟨rest, _, rfl⟩ := next?_eq_some hn
  simp only [handlers, hs]

section Clock
variable [LinearOrder T]

theorem le_now_advance (l : EventLoop T H) (t : T) : l.now ≤ (l.advance t).now := le_max_left _ _

/-- What a firing can do, said once: nothing, or one due timer moves to the end of the queue. -/
theorem expire_cases (l : EventLoop T H) (k : ℕ) :
    l.expire k = l ∨ ∃ before x after, l.timers = before ++ x :: after ∧ x.1 ≤ l.now ∧
      l.expire k = { l with ready := l.ready ++ [x.2], timers := before ++ after } := by
  unfold expire
  cases hk : l.timers[k]? with
  | none => exact Or.inl rfl
  | some x =>
    by_cases hd : x.1 ≤ l.now
    · right
      obtain ⟨hlt, hx⟩ := List.getElem?_eq_some_iff.mp hk
      refine ⟨l.timers.take k, x, l.timers.drop (k + 1), ?_, hd, ?_⟩
      · rw [← hx, List.getElem_cons_drop, List.take_append_drop]
      · simp [hd, List.eraseIdx_eq_take_drop_succ]
    · exact Or.inl (by simp [hd])

@[simp] theorem now_expire (l : EventLoop T H) (k : ℕ) : (l.expire k).now = l.now := by
  rcases expire_cases l k with h | ⟨_, _, _, _, _, h⟩ <;> rw [h]

@[simp] theorem ran_expire (l : EventLoop T H) (k : ℕ) : (l.expire k).ran = l.ran := by
  rcases expire_cases l k with h | ⟨_, _, _, _, _, h⟩ <;> rw [h]

theorem handlers_expire (l : EventLoop T H) (k : ℕ) : (l.expire k).handlers.Perm l.handlers := by
  rcases expire_cases l k with h | ⟨before, x, after, ht, _, h⟩
  · rw [h]
  · rw [h]
    simp only [handlers, schedule, ht, List.map_append, List.map_cons, List.append_assoc]
    refine List.Perm.append_left _ (List.Perm.append_left _ ?_)
    rw [List.singleton_append]
    exact (List.perm_middle).symm

/-- No handler enters the queue, or runs, before its release time. -/
structure Timely (release : H → T) (l : EventLoop T H) : Prop where
  timers : ∀ x ∈ l.timers, release x.2 ≤ x.1
  ready : ∀ h ∈ l.ready, release h ≤ l.now
  ran : ∀ x ∈ l.ran, release x.2 ≤ x.1 ∧ x.1 ≤ l.now

namespace Timely
variable {release : H → T} {l : EventLoop T H}

theorem start (now : T) : Timely release (EventLoop.start now) := by
  constructor <;> intro x hx <;> cases hx

theorem post_wait (hl : Timely release l) {h g : H} {d : T} (hh : release h ≤ l.now)
    (hg : release g ≤ d) : Timely release ((l.post h).wait d g) where
  timers x hx := by
    rcases List.mem_append.mp hx with hx | hx
    · exact hl.timers x hx
    · rw [List.mem_singleton.mp hx]
      exact hg
  ready x hx := by
    rcases List.mem_append.mp hx with hx | hx
    · exact hl.ready x hx
    · rw [List.mem_singleton.mp hx]
      exact hh
  ran := hl.ran

theorem advance (hl : Timely release l) (t : T) : Timely release (l.advance t) where
  timers := hl.timers
  ready h hh := (hl.ready h hh).trans (le_now_advance l t)
  ran x hx := ⟨(hl.ran x hx).1, (hl.ran x hx).2.trans (le_now_advance l t)⟩

theorem expire (hl : Timely release l) (k : ℕ) : Timely release (l.expire k) := by
  rcases expire_cases l k with h | ⟨before, x, after, ht, hd, h⟩
  · rw [h]
    exact hl
  · rw [h]
    have hx : x ∈ l.timers := by simp [ht]
    refine ⟨fun y hy => hl.timers y ?_, fun g hg => ?_, hl.ran⟩
    · rw [ht]
      rcases List.mem_append.mp hy with hy | hy
      · exact List.mem_append_left _ hy
      · exact List.mem_append_right _ (List.mem_cons_of_mem _ hy)
    · rcases List.mem_append.mp hg with hg | hg
      · exact hl.ready g hg
      · rw [List.mem_singleton.mp hg]
        exact (hl.timers x hx).trans hd

theorem next (hl : Timely release l) {l' : EventLoop T H} {h : H} (hn : l.next? = some (h, l')) :
    Timely release l' := by
  obtain ⟨rest, hr, rfl⟩ := next?_eq_some hn
  refine ⟨hl.timers, fun g hg => hl.ready g (by rw [hr]; exact List.mem_cons_of_mem _ hg),
    fun x hx => ?_⟩
  rcases List.mem_append.mp hx with hx | hx
  · exact hl.ran x hx
  · rw [List.mem_singleton.mp hx]
    exact ⟨hl.ready h (by simp [hr]), le_rfl⟩

end Timely
end Clock
end EventLoop
end Foundation
