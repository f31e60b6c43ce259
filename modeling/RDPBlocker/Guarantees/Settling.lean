import Mathlib.Data.Finset.Order
import RDPBlocker.Guarantees.FailingCalls

/-! From every reachable state the io thread can bring every ban to its end. -/
namespace RDPBlocker
open Foundation
variable {B : Boost} {T : Type*} [LinearOrder T]

namespace IoState
variable {mode : RemoveMode} {s t : IoState T}

/-- The steps of the io thread and its clock lead from one state to another, with no call failing
and no task created. -/
def Settles (mode : RemoveMode) (s t : IoState T) (steps : List (IoStep T)) : Prop :=
  steps.foldl (step mode) s = t ∧ (∀ hr, IoStep.run hr ∈ steps → hr = allSucceed) ∧
    t.alive = s.alive ∧ t.tasks = s.tasks

theorem Settles.refl (mode : RemoveMode) (s : IoState T) : s.Settles mode s [] := by
  refine ⟨rfl, fun hr h => ?_, rfl, rfl⟩
  cases h

theorem Settles.trans {u : IoState T} {first second : List (IoStep T)}
    (h : s.Settles mode t first) (h' : t.Settles mode u second) :
    s.Settles mode u (first ++ second) := by
  obtain ⟨rfl, hsucceed, halive, htasks⟩ := h
  obtain ⟨rfl, hsucceed', halive', htasks'⟩ := h'
  refine ⟨List.foldl_append, fun hr hmem => ?_, halive'.trans halive, htasks'.trans htasks⟩
  exact (List.mem_append.mp hmem).elim (hsucceed hr) (hsucceed' hr)

theorem settles_advance (halive : s.alive = true) (mode : RemoveMode) (now : T) :
    s.Settles mode { s with loop := s.loop.advance now } [.advance now] :=
  ⟨if_pos halive, fun hr h => by simp at h, rfl, rfl⟩

/-- Every timer that is due can fire. -/
theorem exists_settles_expire (halive : s.alive = true) (mode : RemoveMode) :
    ∃ t steps, s.Settles mode t steps ∧ (∀ x ∈ t.loop.timers, t.loop.now < x.1) ∧
      t.loop.now = s.loop.now := by
  generalize hlength : s.loop.timers.length = n
  induction n generalizing s with
  | zero =>
    refine ⟨s, [], .refl mode s, fun x hx => ?_, rfl⟩
    rw [List.length_eq_zero_iff.mp hlength] at hx
    cases hx
  | succ n ih =>
    by_cases hdue : ∃ (k : ℕ) (x : T × Handler T), s.loop.timers[k]? = some x ∧ x.1 ≤ s.loop.now
    · obtain ⟨k, x, hk, hle⟩ := hdue
      have hexpire : s.loop.expire k = { s.loop with
          ready := s.loop.ready ++ [x.2], timers := s.loop.timers.eraseIdx k } := by
        unfold EventLoop.expire
        rw [hk]
        exact if_pos hle
      have hfirst : s.Settles mode { s with loop := s.loop.expire k } [.expire k] :=
        ⟨if_pos halive, fun hr h => by simp at h, rfl, rfl⟩
      have hlt := (List.getElem?_eq_some_iff.mp hk).1
      obtain ⟨t, steps, hsettles, hlater, hnow⟩ :=
        ih (s := { s with loop := s.loop.expire k }) halive (by
          rw [hexpire, List.length_eraseIdx_of_lt hlt, hlength]
          rfl)
      exact ⟨t, [.expire k] ++ steps, hfirst.trans hsettles, hlater,
        hnow.trans (EventLoop.now_expire _ k)⟩
    · refine ⟨s, [], .refl mode s, fun x hx => not_le.mp fun hle => ?_, rfl⟩
      obtain ⟨k, hk⟩ := List.getElem?_of_mem hx
      exact hdue ⟨k, x, hk, hle⟩

/-- Every handler that is ready can run. -/
theorem exists_settles_run (halive : s.alive = true) (mode : RemoveMode) :
    ∃ t steps, s.Settles mode t steps ∧ t.loop.ready = [] ∧ t.loop.timers = s.loop.timers ∧
      t.loop.now = s.loop.now := by
  generalize hready : s.loop.ready = ready
  induction ready generalizing s with
  | nil => exact ⟨s, [], .refl mode s, hready, rfl, rfl⟩
  | cons h ready ih =>
    have hnext : s.loop.next? = some (h, { s.loop with
        ready := ready, ran := s.loop.ran ++ [(s.loop.now, h)] }) := by
      unfold EventLoop.next?
      rw [hready]
    have hexec : ∃ rules, h.exec mode allSucceed s.rules = .ok rules := by
      cases h with
      | block task => exact ⟨_, task.exec_block mode s.rules⟩
      | unblock task => exact ⟨_, task.exec_unblock mode s.rules⟩
    obtain ⟨rules, hrules⟩ := hexec
    have hfirst : s.Settles mode (s.runHandler mode allSucceed) [.run allSucceed] :=
      ⟨if_pos halive, fun hr h => by simpa using h, s.alive_runHandler mode,
        s.tasks_runHandler mode allSucceed⟩
    rw [IoState.runHandler_of_exec hnext hrules] at hfirst
    obtain ⟨t, steps, hsettles, hnone, htimers, hnow⟩ := ih (s := { s with
      loop := { s.loop with ready := ready, ran := s.loop.ran ++ [(s.loop.now, h)] }
      rules := rules }) halive rfl
    exact ⟨t, [.run allSucceed] ++ steps, hfirst.trans hsettles, hnone, htimers, hnow⟩

/-- A living io thread can come to rest without the clock. -/
theorem exists_settles_now (halive : s.alive = true) (mode : RemoveMode) :
    ∃ t steps, s.Settles mode t steps ∧ t.loop.Quiescent ∧ t.loop.now = s.loop.now := by
  obtain ⟨fired, expires, hfired, hlater, hnow⟩ := exists_settles_expire halive mode
  obtain ⟨t, runs, hruns, hready, htimers, hnow'⟩ :=
    exists_settles_run (hfired.2.2.1.trans halive) mode
  refine ⟨t, _, hfired.trans hruns, ⟨hready, ?_⟩, hnow'.trans hnow⟩
  rw [htimers, hnow']
  exact hlater

variable [AddGroupWithOne T]

/-- A living io thread can come to rest after every deadline. -/
theorem exists_rest (halive : s.alive = true) (mode : RemoveMode) :
    ∃ t steps, s.Settles mode t steps ∧ t.loop.Quiescent ∧
      ∀ task ∈ t.tasks, task.deadline ≤ t.loop.now := by
  have hnonempty : Nonempty T := ⟨s.loop.now⟩
  obtain ⟨late, hlate⟩ :=
    Finset.exists_le (s.tasks.map BlockRemoteAddressTask.deadline).toFinset
  have hadvance := settles_advance halive mode late
  obtain ⟨t, steps, hsettles, hquiescent, hnow⟩ :=
    exists_settles_now (s := { s with loop := s.loop.advance late }) halive mode
  have hall := hadvance.trans hsettles
  refine ⟨t, _, hall, hquiescent, fun task ht => ?_⟩
  rw [hall.2.2.2] at ht
  rw [hnow]
  exact (hlate _ (List.mem_toFinset.mpr (List.mem_map_of_mem ht))).trans (le_max_right _ _)

end IoState

namespace System
variable [AddGroupWithOne T] {mode : RemoveMode} {s : System B T}

theorem run_append (mode : RemoveMode) (s : System B T) (actions more : List (SystemAction T)) :
    s.run mode (actions ++ more) = (s.run mode actions).run mode more := List.foldl_append

theorem handled_append (mode : RemoveMode) (s : System B T)
    (actions more : List (SystemAction T)) : s.handled mode (actions ++ more) =
      s.handled mode actions ++ (s.run mode actions).handled mode more := by
  unfold handled
  rw [Mealy.trace_append, List.filterMap_append]
  rfl

theorem io_run (mode : RemoveMode) (s : System B T) (steps : List (IoStep T)) :
    (s.run mode (steps.map .io)).io = steps.foldl (IoState.step mode) s.io := by
  induction steps generalizing s with
  | nil => rfl
  | cons step steps ih => exact ih (s.step mode (.io step))

end System

/-- Whatever has happened since a cleaning whose calls all succeeded, a process that lives can go on
so that every ban ends and the rules are those with which it started, when no removal has failed so
far. Between two steps every task is posted and armed, since its creation is one step. -/
theorem every_ban_can_end [AddGroupWithOne T] (hB : B.SearchesLiterals) {g : ApplicationConfig B}
    (hfree : MetacharacterFree g.mRulePrefix) {mode : RemoveMode} {now : T}
    {present enumerated : List FirewallRule} (henum : enumerated.Perm present) {s : System B T}
    (hstart : System.startUp mode allSucceed {} enumerated g now present = .ok s)
    {actions : List (SystemAction T)} (halive : (s.run mode actions).io.alive = true)
    (hremoves : ∀ task hr, (Handler.unblock task, hr) ∈ s.handled mode actions →
      removes hr = true) :
    ∃ steps : List (IoStep T), (∀ hr, IoStep.run hr ∈ steps → hr = allSucceed) ∧
      (s.run mode (actions ++ steps.map .io)).io.alive = true ∧
      (s.run mode (actions ++ steps.map .io)).io.rules.present = s.io.rules.present := by
  obtain ⟨cleaned, rfl, hapart⟩ := System.start_of_cleaned hB hfree henum hstart
  obtain ⟨rest, steps, ⟨hsteps, hsucceed, hlives, htasks⟩, hquiescent, hdue⟩ :=
    IoState.exists_rest halive mode
  have hrest : ((System.start g now cleaned).run mode (actions ++ steps.map .io)).io = rest := by
    rw [System.run_append, System.io_run, hsteps]
  have hremoves' : ∀ task hr, (Handler.unblock task, hr) ∈
      (System.start g now cleaned).handled mode (actions ++ steps.map .io) → removes hr = true := by
    intro task hr hmem
    rw [System.handled_append] at hmem
    rcases List.mem_append.mp hmem with hmem | hmem
    · exact hremoves task hr hmem
    · obtain ⟨step, hstep, heq⟩ := List.mem_map.mp (System.run_mem_of_handled hmem)
      cases heq
      rw [hsucceed hr hstep]
      rfl
  refine ⟨steps, hsucceed, ?_,
    System.present_run_of_over hapart hremoves' (hrest ▸ hquiescent) ?_⟩
  · rw [hrest, hlives]
    exact halive
  · rw [hrest]
    exact hdue

/-- Two bans with one name, of which one has ended. -/
theorem every_ban_can_end_sameNameTwice :
    let s := System.start threeInTen 0 [({ name := "Core" } : FirewallRule)]
    ∃ steps : List (IoStep ℤ), (∀ hr, IoStep.run hr ∈ steps → hr = allSucceed) ∧
      (s.run .first (sameNameTwice ++ steps.map .io)).io.alive = true ∧
      (s.run .first (sameNameTwice ++ steps.map .io)).io.rules.present = s.io.rules.present := by
  refine every_ban_can_end Boost.plain_searchesLiterals (g := threeInTen) (by decide)
    (List.Perm.refl [({ name := "Core" } : FirewallRule)]) rfl rfl fun task hr hmem => ?_
  have hrun : hr = allSucceed := by
    simpa [sameNameTwice] using System.run_mem_of_handled hmem
  rw [hrun]
  rfl

end RDPBlocker
