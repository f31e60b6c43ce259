import RDPBlocker.Guarantees.FailBan
import RDPBlocker.Guarantees.Intervals
import RDPBlocker.Guarantees.Service
import RDPBlocker.Refinement.Policies

/-! What the running program is for: the firewall blocks an address exactly while a ban lasts that
one of the two policies asks for. -/
namespace RDPBlocker
open Foundation Spec
variable {B : Boost} {T : Type*} [AddGroupWithOne T] [LinearOrder T]

/-- The bans of a state are what the policies ask for on the events popped so far, and the rules
besides the foreign ones are those of the bans that last. -/
structure Service.CarriesOut (readXml : String → Option PTree) (g : ApplicationConfig B)
    (foreign : List FirewallRule) (s : Service B T) : Prop where
  asked : ∀ A, Counted g A → Interleaves
    ((s.bansOf readXml g A).filter fun d => decide (0 < d))
    ((s.rejectionsOf readXml g A).filter fun d => decide (0 < d))
    ((s.system.io.tasks.filter fun task => decide (task.blockAddress = A)).map (·.blockTime))
  spared : ∀ task ∈ s.system.io.tasks, Counted g task.blockAddress
  in_place : s.system.io.loop.Quiescent → ∀ A,
    (∃ r ∈ s.system.io.rules.present, r ∉ foreign ∧ r.remoteAddresses = A) ↔
      ∃ task ∈ s.system.io.tasks, task.blockAddress = A ∧
        task.createdAt ≤ s.system.io.loop.now ∧
          s.system.io.loop.now < task.createdAt + task.blockTime

/-- While the program lives and no call fails, each counted address gets the bans of its failures
and of its rejected logins, in the order of each thread, and at rest it has a rule exactly while
one of them lasts. -/
theorem service_carries_out_policies {readXml : String → Option PTree} {mode : RemoveMode}
    {g : ApplicationConfig B} {now : T} {foreign : List FirewallRule}
    {actions : List (ServiceAction T)} {s : Service B T}
    (hrun : (Service.start g now foreign).run readXml mode actions = s)
    (halive : s.system.io.alive = true) (hclock : s.SteadyClock readXml)
    (hsucceed : ∀ hr, ServiceAction.io (.run hr) ∈ actions → hr = allSucceed)
    (hn : FreshNames foreign s.system.io.tasks) : s.CarriesOut readXml g foreign := by
  subst hrun
  have hthreads : Service.IsItsThreads readXml g
      ((Service.start g now foreign).run readXml mode actions) :=
    (Service.IsItsThreads.start g now foreign).run mode actions
  obtain ⟨steps, hsteps, hio⟩ :=
    (Service.start g now foreign).exists_system_run readXml mode actions halive
  have hi := System.invariant_run mode g now foreign steps
  have hsync : (((Service.start g now foreign).run readXml mode actions).system.io).InSync
      foreign := by
    rw [hsteps] at halive hn ⊢
    exact System.inSync_run halive (fun hr h => hsucceed hr (hio _ h)) hn
  refine ⟨fun A hA => hthreads.blockTimes_tasks readXml halive hclock hA, fun task ht => ?_,
    fun hq A => ?_⟩
  · obtain ⟨_, _, _, _, _, _, _, _, _, -, -, -, haccuses, -⟩ := Service.comesFrom_of_mem ht
    exact haccuses.counted
  · rw [hsteps] at hsync hn hq ⊢
    exact hsync.address_at_rest hi hn hq A

/-- Three failures of one address, with nothing else in between. -/
def threeFailures : List (ServiceAction ℤ) :=
  let failure : EvtNotification := .deliver { renderedContent := "<Event/>" }
  let i : Iteration := ⟨0, 0, sameLetter (Fin.last _)⟩
  [.subscribe .authFailed fun _ _ => { handle := 1 }, .callback .authFailed failure,
    .callback .authFailed failure, .iterate .authFailed i, .iterate .authFailed i,
    .callback .authFailed failure, .iterate .authFailed i, .io (.run allSucceed)]

theorem service_carries_out_policies_threeFailures :
    ((Service.start threeInTen 0 [({ name := "Core" } : FirewallRule)]).run
      (readSample "<Event/>" [ipAddressElement.child]) .first threeFailures).CarriesOut
        (readSample "<Event/>" [ipAddressElement.child]) threeInTen [{ name := "Core" }] := by
  refine service_carries_out_policies rfl ?_ ?_ ?_ ?_
  · decide
  · unfold Service.SteadyClock Nondecreasing
    decide
  · intro hr h
    simpa [threeFailures] using h
  · exact ⟨by decide, by decide⟩

end RDPBlocker
