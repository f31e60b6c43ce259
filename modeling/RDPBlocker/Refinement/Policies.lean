import RDPBlocker.Guarantees.EventDecoding
import RDPBlocker.Refinement.FailBan
import RDPBlocker.Refinement.Service
import RDPBlocker.Spec.Bans

/-! The requests that the event threads make on the texts they pop are what the two policies ask
for on the decoded events. -/
namespace RDPBlocker
open Foundation Spec
variable {B : Boost} {g : ApplicationConfig B} {A : String}

/-- The block times of the requests against one address. -/
def blockTimes (A : String) (requests : List BlockRequest) : List ℤ :=
  (requests.filter fun r => decide (r.remoteAddress = A)).map (·.blockTime)

theorem blockTimes_append (A : String) (l m : List BlockRequest) :
    blockTimes A (l ++ m) = blockTimes A l ++ blockTimes A m := by
  unfold blockTimes
  rw [List.filter_append, List.map_append]

theorem blockTimes_positive (A : String) (requests : List BlockRequest) :
    blockTimes A (positive requests) = (blockTimes A requests).filter fun d => decide (0 < d) := by
  unfold blockTimes positive
  rw [List.filter_map, List.filter_filter, List.filter_filter]
  congr 2
  funext r
  exact Bool.and_comm _ _

section FailedLogins
variable (readXml : String → Option PTree)

/-- On texts that can be decoded, the thread is the loop over the decoded events. -/
theorem authFailedThread_of_decodable {events : List AuthFailedEvent}
    (h : ∀ e ∈ events, Decodable readXml e.eventXmlData) :
    authFailedThread readXml g events =
        authFailedState g (events.map (AuthFailedEvent.input readXml)) ∧
      failedRequests readXml g events =
        (authFailedTrace g (events.map (AuthFailedEvent.input readXml))).filterMap (·.output) := by
  induction events using List.reverseRecOn with
  | nil => exact ⟨rfl, rfl⟩
  | append_singleton events e ih =>
    rw [List.forall_mem_append, List.forall_mem_singleton] at h
    obtain ⟨hthread, hrequests⟩ := ih h.1
    rw [authFailedThread_snoc, failedRequests_snoc, hthread,
      AuthFailedState.stepEvent_of_decodable readXml _ h.2, List.map_append, List.map_singleton,
      authFailedState_snoc, authFailedTrace_snoc, hrequests, List.filterMap_append]
    exact ⟨rfl, rfl⟩

/-- The request of an event of a counted address is the ban that its own history starts there. -/
theorem map_blockTime_request (hA : Counted g A) {events : List AuthFailedInput}
    {i : AuthFailedInput} (hlives : (authFailedState g events).alive = true)
    (hs : Nondecreasing (events ++ [i])) (hi : i.ipAddress = A) :
    ((authFailedState g events).step g i).2.map BlockRequest.blockTime =
      (ownHistory g A (events ++ [i])).head?.bind Failure.ban := by
  refine Option.ext fun d => ?_
  rw [Option.map_eq_some_iff, Option.bind_eq_some_iff]
  refine Iff.trans ?_ (request_iff hA hlives hs hi d)
  constructor
  · rintro ⟨r, hr, rfl⟩
    rw [hr, ← hi, ← (request_process (request_step hr).2).2.1]
  · exact fun hr => ⟨_, hr, rfl⟩

/-- The requests against a counted address are the bans of its own history. -/
theorem blockTimes_authFailedTrace (hA : Counted g A) {events : List AuthFailedInput}
    (hlives : (authFailedState g events).alive = true) (hs : Nondecreasing events) :
    blockTimes A ((authFailedTrace g events).filterMap (·.output)) =
      (failBan g).bans (ownFailures g A events) := by
  induction events using List.reverseRecOn with
  | nil => rfl
  | append_singleton events i ih =>
    rw [authFailedState_snoc, AuthFailedState.alive_step] at hlives
    have hone : [Mealy.transition (AuthFailedState.step g) (authFailedState g events) i].filterMap
        (·.output) = ((authFailedState g events).step g i).2.toList := rfl
    rw [authFailedTrace_snoc, List.filterMap_append, blockTimes_append, ih hlives.1 hs.snoc.1, hone,
      ownFailures_snoc]
    have haddress : ∀ r ∈ ((authFailedState g events).step g i).2,
        r.remoteAddress = i.ipAddress := fun r hr => (request_process (request_step hr).2).2.1
    by_cases hi : i.ipAddress = A
    · have hban := map_blockTime_request hA hlives.1 hs hi
      rw [ownHistory_snoc, if_pos hi] at hban
      rw [if_pos hi, FailBan.bans_snoc, List.append_cancel_left_eq]
      refine Eq.trans ?_ (congrArg Option.toList hban)
      cases hreq : ((authFailedState g events).step g i).2 with
      | none => rfl
      | some r => simp [blockTimes, haddress r hreq, hi]
    · rw [if_neg hi, List.append_nil, List.append_right_eq_self]
      cases hreq : ((authFailedState g events).step g i).2 with
      | none => rfl
      | some r => simp [blockTimes, haddress r hreq, hi]

end FailedLogins

section SucceededLogins
variable (readXml : String → Option PTree)

/-- The requests of a thread that lives are the rejections of the policy. -/
theorem authSucceedTrace_of_alive {events : List AuthSucceedInput}
    (halive : (authSucceedState g events).alive = true) :
    (authSucceedTrace g events).filterMap (·.output) =
      ((loginPolicy g).rejected AuthSucceedInput.login events).filterMap
        fun i => (rejection g i).toOption.join := by
  induction events using List.reverseRecOn with
  | nil => rfl
  | append_singleton events i ih =>
    have hpast := alive_of_snoc halive
    have hone : [Mealy.transition AuthSucceedState.step (authSucceedState g events) i].filterMap
        (·.output) = ((authSucceedState g events).step i).2.toList := rfl
    rw [authSucceedTrace_snoc, List.filterMap_append, hone, ih hpast, LoginPolicy.rejected_snoc,
      List.filterMap_append, request_of_alive hpast, List.append_cancel_left_eq]
    have hname : NameReturns g (logins events) i :=
      (loginReturns_iff.mp ((alive_snoc_iff hpast).mp halive)).1
    unfold logins at hname ⊢
    rcases decision_of_nameReturns hname with ⟨hrej, hd⟩ | ⟨hacc, hd⟩
    · rw [hd, if_pos hrej]
      cases hr : (rejection g i).toOption.join <;> simp [hr]
    · rw [hd, if_neg hacc]
      rfl

/-- On texts that can be decoded, the requests of the thread are those of the decoded events. -/
theorem succeedRequests_of_decodable {events : List AuthSucceedEvent}
    (h : ∀ e ∈ events, Decodable readXml e.eventXmlData) :
    succeedRequests readXml g events =
      (authSucceedTrace g (events.map (AuthSucceedEvent.input readXml))).filterMap (·.output) := by
  induction events using List.reverseRecOn with
  | nil => rfl
  | append_singleton events e ih =>
    rw [List.forall_mem_append, List.forall_mem_singleton] at h
    rw [succeedRequests_snoc, authSucceedThread_of_decodable readXml h.1,
      AuthSucceedState.stepEvent_of_decodable readXml _ h.2, ih h.1, List.map_append,
      List.map_singleton, authSucceedTrace_snoc, List.filterMap_append]
    rfl

/-- A rejected login costs a counted address the block time that it draws. -/
theorem blockTimes_rejections (hA : Counted g A) (is : List AuthSucceedInput) :
    blockTimes A (is.filterMap fun i => (rejection g i).toOption.join) =
      (is.filter fun i => decide (i.ipAddress = A)).map
        fun i => g.mBlock.blockTime i.randomDelay := by
  induction is with
  | nil => rfl
  | cons i is ih =>
    have hsplit : ((i :: is).filterMap fun i => (rejection g i).toOption.join) =
        (rejection g i).toOption.join.toList ++
          is.filterMap fun i => (rejection g i).toOption.join := by
      cases hr : (rejection g i).toOption.join <;> simp [hr]
    rw [hsplit, blockTimes_append, ih]
    by_cases hi : i.ipAddress = A
    · have hr : rejection g i = .ok (some ⟨i.ipAddress, g.mBlock.blockTime i.randomDelay⟩) :=
        rejection_eq_some.mpr ⟨hi ▸ hA.1, hi ▸ hA.2, rfl⟩
      simp [hr, hi, blockTimes, Except.toOption]
    · have hnone : blockTimes A (rejection g i).toOption.join.toList = [] := by
        cases hr : (rejection g i).toOption.join with
        | none => rfl
        | some r =>
          obtain ⟨-, -, rfl⟩ := rejection_eq_some.mp (eq_ok_some_of_join hr)
          simp [blockTimes, hi]
      simp [hnone, hi]

end SucceededLogins

namespace Service
variable {T : Type*} (readXml : String → Option PTree)

/-- The bans that the failed logins of an address ask for, on the events popped so far. -/
noncomputable def bansOf (g : ApplicationConfig B) (s : Service B T) (A : String) : List ℤ :=
  (failBan g).bans (ownFailures g A (s.failures.map (AuthFailedEvent.input readXml)))

/-- The block times that the rejected logins from an address draw, on the events popped so far. -/
noncomputable def rejectionsOf (g : ApplicationConfig B) (s : Service B T) (A : String) : List ℤ :=
  (((loginPolicy g).rejected AuthSucceedInput.login
    (s.successes.map (AuthSucceedEvent.input readXml))).filter
      fun i => decide (i.ipAddress = A)).map fun i => g.mBlock.blockTime i.randomDelay

/-- The clock readings of the failed-login thread do not go back. -/
def SteadyClock (s : Service B T) : Prop :=
  Nondecreasing (s.failures.map (AuthFailedEvent.input readXml))

/-- The tasks against a counted address are what the two policies ask for, merged in order. -/
theorem IsItsThreads.blockTimes_tasks {s : Service B T} (hs : IsItsThreads readXml g s)
    (halive : s.system.io.alive = true) (hclock : s.SteadyClock readXml) (hA : Counted g A) :
    Interleaves ((s.bansOf readXml g A).filter fun d => decide (0 < d))
      ((s.rejectionsOf readXml g A).filter fun d => decide (0 < d))
      ((s.system.io.tasks.filter fun task => decide (task.blockAddress = A)).map
        (·.blockTime)) := by
  obtain ⟨hfailed, hsucceeded⟩ := hs.alive halive
  have hfailures : ∀ e ∈ s.failures, Decodable readXml e.eventXmlData :=
    fun e he => ((alive_authFailedThread readXml g s.failures).mp hfailed e he).1
  rw [(authFailedThread_of_decodable readXml hfailures).1] at hfailed
  have hsuccesses := decodable_of_alive readXml hsucceeded
  rw [authSucceedThread_of_decodable readXml hsuccesses] at hsucceeded
  have htasks : blockTimes A (s.system.io.tasks.map (·.request)) =
      (s.system.io.tasks.filter fun task => decide (task.blockAddress = A)).map (·.blockTime) := by
    unfold blockTimes
    rw [List.filter_map, List.map_map]
    rfl
  have hmerge := (hs.tasks.filter fun r => decide (r.remoteAddress = A)).map BlockRequest.blockTime
  change Interleaves (blockTimes A (positive _)) (blockTimes A (positive _)) (blockTimes A _)
    at hmerge
  rw [blockTimes_positive, blockTimes_positive, (authFailedThread_of_decodable readXml hfailures).2,
    blockTimes_authFailedTrace hA hfailed hclock, succeedRequests_of_decodable readXml hsuccesses,
    authSucceedTrace_of_alive hsucceeded, blockTimes_rejections hA, htasks] at hmerge
  exact hmerge

end Service
end RDPBlocker
