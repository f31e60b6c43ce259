import RDPBlocker.Guarantees.FailBan
import RDPBlocker.Guarantees.Intervals
import RDPBlocker.Program.System

/-! On one clock, the records of the failed-login thread and the rules of the firewall agree,
except at the second at which a ban ends. -/
namespace RDPBlocker
open Foundation Spec
variable {B : Boost} {g : ApplicationConfig B} {foreign : List FirewallRule} {A : String}

/-- The events of the failed-login thread. -/
def failureEvents (g : ApplicationConfig B) (actions : List (SystemAction ℤ)) :
    List AuthFailedInput :=
  threadEvents g.mFailBan.mEnable SystemAction.failure? actions

/-- The tracker believes that the address is blocked. -/
def Believes (s : System B ℤ) (A : String) : Prop :=
  ∃ st, s.remoteAddressMap.lookup A = some st ∧ st.isBlocked s.io.loop.now = true

/-- A rule of the program for the address is present. -/
def RuleInPlace (foreign : List FirewallRule) (s : System B ℤ) (A : String) : Prop :=
  ∃ r ∈ s.io.rules.present, r ∉ foreign ∧ r.remoteAddresses = A

/-- A ban of the address ends at the current second. -/
def EndsNow (s : System B ℤ) (A : String) : Prop :=
  ∃ task ∈ s.io.tasks, task.blockAddress = A ∧ task.createdAt + task.blockTime = s.io.loop.now

/-- The failure reaches the threshold, and the thread takes its address for blocked already. -/
def Ignored (s : System B ℤ) (i : AuthFailedInput) : Prop :=
  (processRdpAuthFailedEvent s.gConfig s.remoteAddressMap i).2 = .ok none ∧
    ∃ st, (processRdpAuthFailedEvent s.gConfig s.remoteAddressMap i).1.lookup i.ipAddress =
      some st ∧ s.gConfig.mFailBan.mThreshold ≤ st.getCount

/-- The failed-login thread reads the clock of the io thread. -/
def SharesClock (mode : RemoveMode) : System B ℤ → List (SystemAction ℤ) → Prop
  | _, [] => True
  | s, .authFailed i letters :: actions =>
    i.now = s.io.loop.now ∧ SharesClock mode (s.step mode (.authFailed i letters)) actions
  | s, a :: actions => SharesClock mode (s.step mode a) actions

/-- A run of the failed-login thread with the io thread, from rules that the start of the
program has cleaned of its prefix. The process has not ended. -/
structure FailureRun (mode : RemoveMode) (g : ApplicationConfig B) (start : ℤ)
    (foreign : List FirewallRule) (actions : List (SystemAction ℤ)) : Prop where
  failures_only : ∀ i letters, SystemAction.authSucceed i letters ∉ actions
  shared_clock : SharesClock mode (System.start g start foreign) actions
  drawn : ∀ i letters, SystemAction.authFailed i letters ∈ actions →
    0 < g.mBlock.blockTime i.randomDelay
  succeed : ∀ hr, SystemAction.io (.run hr) ∈ actions → hr = allSucceed
  distinct : (((System.start g start foreign).run mode actions).io.tasks.map (·.ruleName)).Nodup
  cleaned : ∀ r ∈ foreign, ¬ g.mRulePrefix.toList <+: r.name.toList
  lives : ((System.start g start foreign).run mode actions).io.alive = true

/-- What the run keeps: the map and the tasks are those of the failures so far. -/
structure InStep (g : ApplicationConfig B) (foreign : List FirewallRule)
    (events : List AuthFailedInput) (s : System B ℤ) : Prop where
  config : s.gConfig = g
  map : s.remoteAddressMap = authFailedMap g events
  lives : (authFailedState g events).alive = true
  sync : s.io.InSync foreign
  ordered : Nondecreasing events
  past : ∀ e ∈ events, e.now ≤ s.io.loop.now
  named : ∀ task ∈ s.io.tasks, g.mRulePrefix.toList <+: task.ruleName.toList
  positive : ∀ task ∈ s.io.tasks, 0 < task.blockTime
  requested : ∀ A d t, (∃ task ∈ s.io.tasks, task.blockAddress = A ∧ task.blockTime = d ∧
    task.createdAt = t) ↔ ∃ x ∈ authFailedTrace g events, x.output = some ⟨A, d⟩ ∧ x.input.now = t
  separate : s.io.tasks.Pairwise fun t u => t.blockAddress = u.blockAddress →
    t.createdAt + t.blockTime < u.createdAt

namespace InStep
variable {events : List AuthFailedInput} {s : System B ℤ}

theorem start (start : ℤ) : InStep g foreign [] (System.start g start foreign) where
  config := rfl
  map := rfl
  lives := rfl
  sync := IoState.InSync.start start
  ordered := List.Pairwise.nil
  past e he := by cases he
  named task ht := by cases ht
  positive task ht := by cases ht
  requested A d t := by simp [System.start, IoState.start, authFailedTrace]
  separate := List.Pairwise.nil

/-- A step that neither adds tasks nor takes the clock back keeps all of it. -/
theorem of_io (hs : InStep g foreign events s) {io : IoState ℤ} (hsync : io.InSync foreign)
    (htasks : io.tasks = s.io.tasks) (hnow : s.io.loop.now ≤ io.loop.now) :
    InStep g foreign events { s with io := io } where
  config := hs.config
  map := hs.map
  lives := hs.lives
  sync := hsync
  ordered := hs.ordered
  past e he := (hs.past e he).trans hnow
  named := by
    rw [htasks]
    exact hs.named
  positive := by
    rw [htasks]
    exact hs.positive
  requested := by
    rw [htasks]
    exact hs.requested
  separate := by
    rw [htasks]
    exact hs.separate

theorem ordered_snoc (hs : InStep g foreign events s) {i : AuthFailedInput}
    (hnow : i.now = s.io.loop.now) : Nondecreasing (events ++ [i]) := by
  apply List.pairwise_append.mpr
  refine ⟨hs.ordered, List.pairwise_singleton _ _, fun e he j hj => ?_⟩
  rw [List.mem_singleton.mp hj, hnow]
  exact hs.past e he

/-- A failure that requests nothing. -/
theorem quiet (hs : InStep g foreign events s) {i : AuthFailedInput}
    (hnow : i.now = s.io.loop.now) (hreturns : WhitelistReturns g i.ipAddress)
    (hnone : ((authFailedState g events).step g i).2 = none) :
    InStep g foreign (events ++ [i]) { s with remoteAddressMap := authFailedMap g (events ++ [i]) }
    where
  config := hs.config
  map := rfl
  lives := by
    rw [authFailedState_snoc]
    exact AuthFailedState.alive_step.mpr ⟨hs.lives, hreturns⟩
  sync := hs.sync
  ordered := hs.ordered_snoc hnow
  past e he := by
    rcases List.mem_append.mp he with he | he
    · exact hs.past e he
    · rw [List.mem_singleton.mp he]
      exact hnow.le
  named := hs.named
  positive := hs.positive
  requested A d t := by
    rw [hs.requested, authFailedTrace_snoc]
    simp only [List.mem_append, List.mem_singleton, or_and_right, exists_or, exists_eq_left,
      Mealy.transition, hnone]
    simp
  separate := hs.separate

/-- A failure that requests a ban: its task is the only new one. -/
theorem ban (hs : InStep g foreign events s) {i : AuthFailedInput}
    (hnow : i.now = s.io.loop.now) (letters : RandomLetters) {r : BlockRequest}
    (hpos : 0 < r.blockTime) (hr : ((authFailedState g events).step g i).2 = some r) :
    InStep g foreign (events ++ [i])
      { s with
        remoteAddressMap := authFailedMap g (events ++ [i])
        io := createBlockRemoteAddressTasks g.mRulePrefix letters r.remoteAddress r.blockTime s.io }
    where
  config := hs.config
  map := rfl
  lives := alive_of_counted hs.lives (request_process (request_step hr).2).1
  sync := hs.sync.create g.mRulePrefix letters r.remoteAddress r.blockTime
  ordered := hs.ordered_snoc hnow
  past e he := by
    rw [now_createBlockRemoteAddressTasks]
    rcases List.mem_append.mp he with he | he
    · exact hs.past e he
    · rw [List.mem_singleton.mp he]
      exact hnow.le
  named task ht := by
    rw [tasks_createBlockRemoteAddressTasks s.io hpos] at ht
    rcases List.mem_append.mp ht with ht | ht
    · exact hs.named task ht
    · rw [List.mem_singleton.mp ht, newTask, String.toList_append]
      exact List.prefix_append _ _
  positive task ht := by
    rw [tasks_createBlockRemoteAddressTasks s.io hpos] at ht
    rcases List.mem_append.mp ht with ht | ht
    · exact hs.positive task ht
    · rw [List.mem_singleton.mp ht]
      exact hpos
  requested A d t := by
    rw [tasks_createBlockRemoteAddressTasks s.io hpos, authFailedTrace_snoc]
    simp only [List.mem_append, List.mem_singleton, or_and_right, exists_or, exists_eq_left,
      hs.requested]
    refine or_congr_right ?_
    change r.remoteAddress = A ∧ r.blockTime = d ∧ s.io.loop.now = t ↔
      ((authFailedState g events).step g i).2 = some ⟨A, d⟩ ∧ i.now = t
    rw [hr, hnow, Option.some.injEq, BlockRequest.mk.injEq, and_assoc]
  separate := by
    rw [tasks_createBlockRemoteAddressTasks s.io hpos]
    refine List.pairwise_append.mpr ⟨hs.separate, List.pairwise_singleton _ _, ?_⟩
    intro t ht u hu haddr
    rw [List.mem_singleton.mp hu] at haddr ⊢
    obtain ⟨x, hx, hout, htime⟩ := (hs.requested _ _ _).mp ⟨t, ht, rfl, rfl, rfl⟩
    rw [haddr] at hout
    have hlt := ban_lt_request (hs.ordered_snoc hnow) hx hout (hs.positive t ht) hr
    rw [htime, hnow] at hlt
    exact hlt

end InStep

/-- A request draws its block time. -/
theorem blockTime_of_request {s : AuthFailedState} {i : AuthFailedInput} {r : BlockRequest}
    (hr : (s.step g i).2 = some r) : r.blockTime = g.mBlock.blockTime i.randomDelay := by
  obtain ⟨_, _, hresult⟩ := request_process (request_step hr).2
  unfold failureResult at hresult
  dsimp only at hresult
  split_ifs at hresult
  exact (Option.some.inj hresult).symm

/-- One failure that the process survives, whether or not the thread runs. -/
theorem InStep.authFailed {actions : List (SystemAction ℤ)} {s : System B ℤ}
    (hs : InStep g foreign (failureEvents g actions) s) (mode : RemoveMode) {i : AuthFailedInput}
    (letters : RandomLetters) (hnow : i.now = s.io.loop.now)
    (hpos : 0 < g.mBlock.blockTime i.randomDelay)
    (hlives : (s.step mode (.authFailed i letters)).io.alive = true) :
    InStep g foreign (failureEvents g (actions ++ [.authFailed i letters]))
      (s.step mode (.authFailed i letters)) := by
  have hg := hs.config
  subst hg
  by_cases henable : s.gConfig.mFailBan.mEnable = true
  · have hsnoc : failureEvents s.gConfig (actions ++ [.authFailed i letters]) =
        failureEvents s.gConfig actions ++ [i] := threadEvents_snoc_of_some henable actions rfl
    have hrequest := request_of_lives hs.lives i
    rw [System.step_authFailed ⟨hs.sync.alive, henable⟩, hs.map,
      ← authFailedMap_snoc hs.lives] at hlives ⊢
    rw [hsnoc]
    cases hr : (processRdpAuthFailedEvent s.gConfig
        (authFailedMap s.gConfig (failureEvents s.gConfig actions)) i).2 with
    | error err =>
      rw [hr] at hlives
      cases hlives
    | ok request =>
      have hreturns : WhitelistReturns s.gConfig i.ipAddress := by
        rw [← process_isOk_iff, hr]
        rfl
      rw [hr] at hrequest
      cases request with
      | none => exact hs.quiet hnow hreturns hrequest
      | some r =>
        rw [← blockTime_of_request hrequest] at hpos
        exact hs.ban hnow letters hpos hrequest
  · rw [System.step_authFailed_idle (fun hr => henable hr.2)]
    unfold failureEvents at hs ⊢
    rw [threadEvents_disabled henable] at hs ⊢
    exact hs

theorem sharesClock_append {mode : RemoveMode} {s : System B ℤ}
    {actions later : List (SystemAction ℤ)} : SharesClock mode s (actions ++ later) ↔
      SharesClock mode s actions ∧ SharesClock mode (s.run mode actions) later := by
  induction actions generalizing s with
  | nil => exact (and_iff_right trivial).symm
  | cons a actions ih =>
    cases a with
    | authFailed i letters => exact (and_congr_right fun _ => ih).trans and_assoc.symm
    | authSucceed i letters => exact ih
    | io step => exact ih

namespace FailureRun
variable {mode : RemoveMode} {start : ℤ} {actions : List (SystemAction ℤ)}

theorem of_snoc {a : SystemAction ℤ} (h : FailureRun mode g start foreign (actions ++ [a])) :
    FailureRun mode g start foreign actions where
  failures_only i letters hmem := h.failures_only i letters (List.mem_append_left _ hmem)
  shared_clock := (sharesClock_append.mp h.shared_clock).1
  drawn i letters hmem := h.drawn i letters (List.mem_append_left _ hmem)
  succeed hr hmem := h.succeed hr (List.mem_append_left _ hmem)
  distinct := by
    have hd := h.distinct
    rw [System.run_snoc] at hd
    rcases System.tasks_step mode ((System.start g start foreign).run mode actions) a with
      heq | ⟨_, _, _, _, _, heq⟩
    · rw [heq] at hd
      exact hd
    · rw [heq, List.map_append] at hd
      exact (List.nodup_append.mp hd).1
  cleaned := h.cleaned
  lives := by
    have hlives := h.lives
    rw [System.run_snoc] at hlives
    exact System.alive_of_step hlives

theorem freshNames {events : List AuthFailedInput}
    (h : FailureRun mode g start foreign actions)
    (hs : InStep g foreign events ((System.start g start foreign).run mode actions)) :
    FreshNames foreign ((System.start g start foreign).run mode actions).io.tasks where
  distinct := h.distinct
  apart task ht r hr heq := by
    have hprefix := hs.named task ht
    rw [← heq] at hprefix
    exact h.cleaned r hr hprefix

theorem inStep (h : FailureRun mode g start foreign actions) :
    InStep g foreign (failureEvents g actions)
      ((System.start g start foreign).run mode actions) := by
  induction actions using List.reverseRecOn with
  | nil =>
    unfold failureEvents
    rw [threadEvents_nil]
    exact InStep.start start
  | append_singleton actions a ih =>
    have hpast := ih h.of_snoc
    have hlives := h.lives
    rw [System.run_snoc] at hlives ⊢
    cases a with
    | authFailed i letters =>
      have hnow := (sharesClock_append.mp h.shared_clock).2.1
      exact hpast.authFailed mode letters hnow (h.drawn i letters (by simp)) hlives
    | authSucceed i letters =>
      exact absurd (by simp) (h.failures_only i letters)
    | io step =>
      have hevents : failureEvents g (actions ++ [.io step]) = failureEvents g actions :=
        threadEvents_snoc_of_none _ _ rfl
      rw [hevents]
      apply hpast.of_io
      · apply IoState.InSync.act (a := .io step) hpast.sync
          (System.invariant_run mode g start foreign actions) (h.of_snoc.freshNames hpast)
          g.mRulePrefix mode
        intro hr heq
        cases heq
        exact h.succeed hr (by simp)
      · exact IoState.tasks_step mode _ step
      · exact IoState.le_now_step mode _ step

end FailureRun

/-- A failure at the threshold without a request found its record blocked. -/
theorem isBlocked_of_failureResult {i : AuthFailedInput} {record : Option RemoteAddressStatus}
    (hnone : (failureResult g i record).2 = none)
    (hcount : g.mFailBan.mThreshold ≤ (failureResult g i record).1.getCount) :
    (record.getD (freshStatus g i.now)).isBlocked i.now = true := by
  unfold failureResult at hnone hcount
  dsimp only at hnone hcount
  split_ifs at hnone hcount with hc
  rw [not_and, Bool.not_eq_false, isBlocked_failedStatus] at hc
  exact hc hcount

namespace InStep
variable {events : List AuthFailedInput} {s : System B ℤ}

/-- The belief lasts until the second at which the ban ends, this second included. -/
theorem believes_iff (hs : InStep g foreign events s) :
    Believes s A ↔ ∃ task ∈ s.io.tasks, task.blockAddress = A ∧
      s.io.loop.now ≤ task.createdAt + task.blockTime := by
  unfold Believes
  rw [hs.map]
  by_cases hA : Counted g A
  · rw [blocked_iff_inForce hA hs.lives hs.ordered hs.past,
      inForce_iff_trace hA hs.lives hs.ordered]
    constructor
    · intro h
      obtain ⟨x, hx, d, hout, _, hle⟩ := h
      obtain ⟨task, ht, haddr, rfl, htime⟩ := (hs.requested _ _ _).mpr ⟨x, hx, hout, rfl⟩
      exact ⟨task, ht, haddr, by rw [htime]; exact hle⟩
    · intro h
      obtain ⟨task, ht, haddr, hle⟩ := h
      obtain ⟨x, hx, hout, htime⟩ := (hs.requested _ _ _).mp ⟨task, ht, haddr, rfl, rfl⟩
      exact ⟨x, hx, task.blockTime, hout, hs.positive task ht, by rw [htime]; exact hle⟩
  · constructor
    · intro h
      obtain ⟨st, hst, _⟩ := h
      rw [lookup_of_not_counted hA] at hst
      cases hst
    · intro h
      obtain ⟨task, ht, haddr, _⟩ := h
      obtain ⟨x, hx, hout, _⟩ := (hs.requested _ _ _).mp ⟨task, ht, haddr, rfl, rfl⟩
      exact absurd (counted_of_mem_trace hx hout) hA

/-- Of two bans of one address, one ends before the other is created. -/
theorem separate_of_mem (hs : InStep g foreign events s) {t u : BlockRemoteAddressTask ℤ}
    (ht : t ∈ s.io.tasks) (hu : u ∈ s.io.tasks) (haddr : t.blockAddress = u.blockAddress) :
    t = u ∨ t.createdAt + t.blockTime < u.createdAt ∨ u.createdAt + u.blockTime < t.createdAt := by
  let R := fun t u : BlockRemoteAddressTask ℤ => t.blockAddress = u.blockAddress →
    t = u ∨ t.createdAt + t.blockTime < u.createdAt ∨ u.createdAt + u.blockTime < t.createdAt
  have hpair : s.io.tasks.Pairwise R :=
    hs.separate.imp fun h heq => Or.inr (Or.inl (h heq))
  have hflip : s.io.tasks.Pairwise (flip R) :=
    hs.separate.imp fun h heq => Or.inr (Or.inr (h heq.symm))
  exact hpair.forall_of_forall_of_flip (fun t _ _ => Or.inl rfl) hflip ht hu haddr

theorem ruleInPlace_iff (hs : InStep g foreign events s) (hi : s.io.Invariant)
    (hn : FreshNames foreign s.io.tasks) (hq : s.io.loop.Quiescent) :
    RuleInPlace foreign s A ↔ ∃ task ∈ s.io.tasks, task.blockAddress = A ∧
      s.io.loop.now < task.createdAt + task.blockTime := by
  unfold RuleInPlace
  rw [hs.sync.address_at_rest hi hn hq]
  constructor
  · intro h
    obtain ⟨task, ht, haddr, _, hlt⟩ := h
    exact ⟨task, ht, haddr, hlt⟩
  · intro h
    obtain ⟨task, ht, haddr, hlt⟩ := h
    exact ⟨task, ht, haddr, hi.createdAt_le_now hq ht, hlt⟩

/-- When a ban of the address ends now, no other one is in force. -/
theorem not_ruleInPlace_of_endsNow (hs : InStep g foreign events s) (hi : s.io.Invariant)
    (hn : FreshNames foreign s.io.tasks) (hq : s.io.loop.Quiescent) (he : EndsNow s A) :
    ¬ RuleInPlace foreign s A := by
  rw [hs.ruleInPlace_iff hi hn hq]
  intro h
  obtain ⟨u, hu, hua, hlt⟩ := h
  obtain ⟨t, ht, hta, hend⟩ := he
  have htime := hi.createdAt_le_now hq ht
  have hutime := hi.createdAt_le_now hq hu
  rcases hs.separate_of_mem ht hu (hta.trans hua.symm) with rfl | h | h <;> omega

/-- A failure that the thread ignores, the tracker believes to be covered. -/
theorem believes_of_ignored (hs : InStep g foreign events s) {i : AuthFailedInput}
    (hnow : i.now = s.io.loop.now) (hi : Ignored s i) : Believes s i.ipAddress := by
  obtain ⟨hnone, st, hst, hcount⟩ := hi
  rw [hs.config, hs.map] at hnone hst
  rw [hs.config] at hcount
  by_cases hA : Counted g i.ipAddress
  · have hlookup := lookup_process hA (authFailedMap g events) i
    rw [if_pos rfl, hst] at hlookup
    rw [process_of_counted hA] at hnone
    rw [Option.some.inj hlookup] at hcount
    have hblocked :=
      isBlocked_of_failureResult (Option.map_eq_none_iff.mp (Except.ok.inj hnone)) hcount
    unfold Believes
    rw [hs.map, ← hnow]
    cases hrec : ((authFailedMap g events).lookup i.ipAddress).filter (survives i.now) with
    | none =>
      rw [hrec] at hblocked
      exact absurd hblocked Bool.false_ne_true
    | some record =>
      rw [hrec] at hblocked
      exact ⟨record, (Option.filter_eq_some_iff.mp hrec).1, hblocked⟩
  · rw [← authFailedMap_snoc hs.lives, lookup_of_not_counted hA] at hst
    cases hst

end InStep

/-- At rest, the belief about an address and its rule agree exactly when no ban of the address
ends at this second, and then a failure that is ignored as already blocked finds its rule. -/
theorem belief_agrees_iff_no_ban_ends {mode : RemoveMode} {start : ℤ}
    {actions : List (SystemAction ℤ)} {s : System B ℤ}
    (hs : s = (System.start g start foreign).run mode actions)
    (h : FailureRun mode g start foreign actions) (hq : s.io.loop.Quiescent) (A : String) :
    ((Believes s A ↔ RuleInPlace foreign s A) ↔ ¬ EndsNow s A) ∧
      ∀ i : AuthFailedInput, i.now = s.io.loop.now → i.ipAddress = A → Ignored s i →
        (RuleInPlace foreign s A ↔ ¬ EndsNow s A) := by
  subst hs
  have hstep := h.inStep
  have hi := System.invariant_run mode g start foreign actions
  have hn := h.freshNames hstep
  have hiff : (Believes ((System.start g start foreign).run mode actions) A ↔
      RuleInPlace foreign ((System.start g start foreign).run mode actions) A) ↔
      ¬ EndsNow ((System.start g start foreign).run mode actions) A := by
    constructor
    · intro hagree hends
      apply hstep.not_ruleInPlace_of_endsNow hi hn hq hends
      obtain ⟨task, ht, haddr, hend⟩ := hends
      exact hagree.mp (hstep.believes_iff.mpr ⟨task, ht, haddr, hend.ge⟩)
    · intro hends
      rw [hstep.believes_iff, hstep.ruleInPlace_iff hi hn hq]
      constructor
      · intro h
        obtain ⟨task, ht, haddr, hle⟩ := h
        refine ⟨task, ht, haddr, lt_of_le_of_ne hle fun heq => ?_⟩
        exact hends ⟨task, ht, haddr, heq.symm⟩
      · intro h
        obtain ⟨task, ht, haddr, hlt⟩ := h
        exact ⟨task, ht, haddr, hlt.le⟩
  refine ⟨hiff, fun i hnow haddr hignored => ?_⟩
  have hbelieves := hstep.believes_of_ignored hnow hignored
  rw [haddr] at hbelieves
  rw [← hiff]
  exact ⟨fun hrule => iff_of_true hbelieves hrule, fun hagree => hagree.mp hbelieves⟩

/-- Three failures lead to a ban of sixty seconds; then the clock stands at its end. -/
def banToItsEnd : List (SystemAction ℤ) :=
  [.authFailed (failureAt 0 "1.2.3.4") (sameLetter 0),
    .authFailed (failureAt 0 "1.2.3.4") (sameLetter 0),
    .authFailed (failureAt 0 "1.2.3.4") (sameLetter 0),
    .io (.run allSucceed), .io (.advance 60), .io (.expire 0), .io (.run allSucceed)]

theorem failureRun_banToItsEnd : FailureRun .first threeInTen 0 [] banToItsEnd where
  failures_only i letters h := by simp [banToItsEnd] at h
  shared_clock := ⟨rfl, rfl, rfl, trivial⟩
  drawn i letters h := by
    have hi : i = failureAt 0 "1.2.3.4" := by
      simp [banToItsEnd] at h
      exact h.1
    rw [hi]
    decide
  succeed hr h := by simpa [banToItsEnd] using h
  distinct := by decide
  cleaned r hr := by cases hr
  lives := by decide

theorem quiescent_banToItsEnd :
    ((System.start threeInTen 0 []).run .first banToItsEnd).io.loop.Quiescent :=
  ⟨by decide, by decide⟩

theorem belief_agrees_iff_no_ban_ends_banToItsEnd :
    ((Believes ((System.start threeInTen 0 []).run .first banToItsEnd) "1.2.3.4" ↔
          RuleInPlace [] ((System.start threeInTen 0 []).run .first banToItsEnd) "1.2.3.4") ↔
        ¬ EndsNow ((System.start threeInTen 0 []).run .first banToItsEnd) "1.2.3.4") ∧
      ∀ i : AuthFailedInput,
        i.now = ((System.start threeInTen 0 []).run .first banToItsEnd).io.loop.now →
          i.ipAddress = "1.2.3.4" →
          Ignored ((System.start threeInTen 0 []).run .first banToItsEnd) i →
            (RuleInPlace [] ((System.start threeInTen 0 []).run .first banToItsEnd) "1.2.3.4" ↔
              ¬ EndsNow ((System.start threeInTen 0 []).run .first banToItsEnd) "1.2.3.4") :=
  belief_agrees_iff_no_ban_ends rfl failureRun_banToItsEnd quiescent_banToItsEnd "1.2.3.4"

/-- At the last second of a ban its rule is gone, and the tracker still ignores failures. -/
theorem rule_gone_while_believed :
    FailureRun .first threeInTen 0 [] banToItsEnd ∧
      ((System.start threeInTen 0 []).run .first banToItsEnd).io.loop.Quiescent ∧
      Believes ((System.start threeInTen 0 []).run .first banToItsEnd) "1.2.3.4" ∧
      ¬ RuleInPlace [] ((System.start threeInTen 0 []).run .first banToItsEnd) "1.2.3.4" ∧
      Ignored ((System.start threeInTen 0 []).run .first banToItsEnd) (failureAt 60 "1.2.3.4") := by
  refine ⟨failureRun_banToItsEnd, quiescent_banToItsEnd, ?_, ?_, ?_⟩
  · exact ⟨_, rfl, by decide⟩
  · have hnone : ((System.start threeInTen 0 []).run .first banToItsEnd).io.rules.present = [] := by
      decide
    intro h
    obtain ⟨r, hr, _⟩ := h
    rw [hnone] at hr
    cases hr
  · exact ⟨by decide, _, rfl, by decide⟩

end RDPBlocker
