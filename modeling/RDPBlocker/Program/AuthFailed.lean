import RDPBlocker.Program.Config
import RDPBlocker.Foundation.Mealy

/-! The failed-login thread: one record for each address, purged at every event. -/
namespace RDPBlocker
open Foundation
variable {B : Boost}

abbrev AddressMap := AList fun _ : String => RemoteAddressStatus

/-- What one iteration of the loop reads: the clock, the random delay it would draw, and the
decoded event. -/
structure AuthFailedInput where
  now : ℤ
  randomDelay : ℤ
  eventAttr : EventAttr

def AuthFailedInput.ipAddress (i : AuthFailedInput) : String := i.eventAttr.get "IpAddress"

def blockRemoteAddressesWhenLoginFailed (g : ApplicationConfig B) (now : ℤ) (randomDelay : ℤ)
    (remoteAddressMap : AddressMap) (remoteAddress : String) :
    AddressMap × Except MatchException (Option BlockRequest) :=
  if isVaildIpAddress B remoteAddress = false then (remoteAddressMap, .ok none)
  else
    match g.mIpConfig.isWhiteAddress remoteAddress with
    | .error err => (remoteAddressMap, .error err)
    | .ok true => (remoteAddressMap, .ok none)
    | .ok false =>
      let st := match remoteAddressMap.lookup remoteAddress with
        | some st => st
        | none => (RemoteAddressStatus.new now).setExpireTime now g.mFailBan.expireTime
      let st := st.resetExpireTimer now
      let st := st.setCount (toInt32 (st.getCount + 1))
      if st.getCount ≥ g.mFailBan.mThreshold then
        if st.isBlocked now = false then
          let blockTime := g.mBlock.blockTime randomDelay
          (remoteAddressMap.insert remoteAddress (st.setBlockTime now blockTime),
            .ok (some ⟨remoteAddress, blockTime⟩))
        else (remoteAddressMap.insert remoteAddress st, .ok none)
      else (remoteAddressMap.insert remoteAddress st, .ok none)

/-- The body of the purge loop for one key. -/
def deleteIfExpired (now : ℤ) (map : AddressMap) (key : String) : AddressMap :=
  match map.lookup key with
  | none => map
  | some st =>
    if st.isBlocked now = true then map
    else if st.isExpired now = true then map.erase key
    else map

def deleteExpireRemoteAddress (now : ℤ) (map : AddressMap) : AddressMap :=
  map.keys.foldl (deleteIfExpired now) map

/-- One iteration of `process_rdp_auth_failed_event`, from the decoded event on. An exception comes
after the purge. -/
def processRdpAuthFailedEvent (g : ApplicationConfig B) (remoteAddressMap : AddressMap)
    (i : AuthFailedInput) : AddressMap × Except MatchException (Option BlockRequest) :=
  let remoteAddressMap := deleteExpireRemoteAddress i.now remoteAddressMap
  let remoteIpAddress := i.ipAddress
  if remoteIpAddress = "-" ∨ remoteIpAddress = "" then (remoteAddressMap, .ok none)
  else blockRemoteAddressesWhenLoginFailed g i.now i.randomDelay remoteAddressMap remoteIpAddress

/-- The thread between two iterations. -/
structure AuthFailedState where
  remoteAddressMap : AddressMap
  alive : Bool

/-- An exception leaves the loop and ends the process. -/
def AuthFailedState.step (g : ApplicationConfig B) (s : AuthFailedState) (i : AuthFailedInput) :
    AuthFailedState × Option BlockRequest :=
  if s.alive = true then
    match processRdpAuthFailedEvent g s.remoteAddressMap i with
    | (map, .ok request) => (⟨map, true⟩, request)
    | (map, .error _) => (⟨map, false⟩, none)
  else (s, none)

/-- The thread after a run of the loop. -/
def authFailedState (g : ApplicationConfig B) (events : List AuthFailedInput) : AuthFailedState :=
  Mealy.final (AuthFailedState.step g) ⟨∅, true⟩ events

/-- The map after a run of the loop. -/
def authFailedMap (g : ApplicationConfig B) (events : List AuthFailedInput) : AddressMap :=
  (authFailedState g events).remoteAddressMap

abbrev AuthFailedStep := Mealy.Transition AuthFailedState AuthFailedInput (Option BlockRequest)

def authFailedTrace (g : ApplicationConfig B) (events : List AuthFailedInput) :
    List AuthFailedStep :=
  Mealy.trace (AuthFailedState.step g) ⟨∅, true⟩ events

/-- The clock readings of a run do not go back. -/
def Nondecreasing (events : List AuthFailedInput) : Prop := events.Pairwise (·.now ≤ ·.now)

/-- What the purge of a record that reads `st` at time `now` leaves of it. -/
def survives (now : ℤ) (st : RemoteAddressStatus) : Bool := st.isBlocked now || !st.isExpired now

theorem lookup_deleteIfExpired (now : ℤ) (map : AddressMap) (key A : String) :
    (deleteIfExpired now map key).lookup A =
      if A = key then (map.lookup A).filter (survives now) else map.lookup A := by
  unfold deleteIfExpired survives
  by_cases hA : A = key
  · subst hA
    cases hl : map.lookup A with
    | none => simp [hl]
    | some st =>
      cases hb : st.isBlocked now with
      | true => simp [hl, hb, Option.filter_some]
      | false => cases he : st.isExpired now <;> simp [hl, hb, he, Option.filter_some]
  · simp only [hA, if_false]
    split
    · rfl
    · split_ifs
      · rfl
      · exact AList.lookup_erase_ne hA
      · rfl

theorem lookup_foldl_deleteIfExpired (now : ℤ) (A : String) (keys : List String) (map : AddressMap) :
    (keys.foldl (deleteIfExpired now) map).lookup A =
      if A ∈ keys then (map.lookup A).filter (survives now) else map.lookup A := by
  induction keys generalizing map with
  | nil => rfl
  | cons key keys ih =>
    rw [List.foldl_cons, ih, lookup_deleteIfExpired]
    by_cases hA : A = key <;> by_cases hk : A ∈ keys <;> simp [hA, hk, Option.filter_filter]

/-- The purge acts on every record alone. -/
theorem lookup_deleteExpireRemoteAddress (now : ℤ) (map : AddressMap) (A : String) :
    (deleteExpireRemoteAddress now map).lookup A = (map.lookup A).filter (survives now) := by
  rw [deleteExpireRemoteAddress, lookup_foldl_deleteIfExpired]
  split_ifs with hA
  · rfl
  · rw [← AList.mem_keys, ← AList.lookup_eq_none] at hA
    rw [hA]
    rfl

/-- The addresses whose failures are counted. -/
def Counted (g : ApplicationConfig B) (A : String) : Prop :=
  isVaildIpAddress B A = true ∧ g.mIpConfig.isWhiteAddress A = .ok false

def freshStatus (g : ApplicationConfig B) (now : ℤ) : RemoteAddressStatus :=
  (RemoteAddressStatus.new now).setExpireTime now g.mFailBan.expireTime

/-- A record after one more failure and before the threshold is looked at. -/
def failedStatus (now : ℤ) (st : RemoteAddressStatus) : RemoteAddressStatus :=
  (st.resetExpireTimer now).setCount (toInt32 (st.mCount + 1))

@[simp] theorem isBlocked_failedStatus (now t : ℤ) (st : RemoteAddressStatus) :
    (failedStatus now st).isBlocked t = st.isBlocked t := rfl

/-- The record and the request a counted failure leads to. -/
def failureResult (g : ApplicationConfig B) (i : AuthFailedInput)
    (record : Option RemoteAddressStatus) : RemoteAddressStatus × Option ℤ :=
  let st := failedStatus i.now (record.getD (freshStatus g i.now))
  let blockTime := g.mBlock.blockTime i.randomDelay
  if g.mFailBan.mThreshold ≤ st.mCount ∧ st.isBlocked i.now = false then
    (st.setBlockTime i.now blockTime, some blockTime)
  else (st, none)

theorem process_of_counted {g : ApplicationConfig B} {i : AuthFailedInput}
    (hi : Counted g i.ipAddress) (map : AddressMap) :
    processRdpAuthFailedEvent g map i =
      let result := failureResult g i ((map.lookup i.ipAddress).filter (survives i.now))
      ((deleteExpireRemoteAddress i.now map).insert i.ipAddress result.1,
        .ok (result.2.map (BlockRequest.mk i.ipAddress))) := by
  have hskip : ¬ (i.ipAddress = "-" ∨ i.ipAddress = "") :=
    not_or.mpr (ne_of_isVaildIpAddress hi.1)
  unfold processRdpAuthFailedEvent blockRemoteAddressesWhenLoginFailed
  simp only [hskip, if_false, hi.1, hi.2, Bool.true_eq_false, lookup_deleteExpireRemoteAddress]
  generalize (map.lookup i.ipAddress).filter (survives i.now) = record
  have hst : (match record with
      | some st => st
      | none => (RemoteAddressStatus.new i.now).setExpireTime i.now g.mFailBan.expireTime) =
      record.getD (freshStatus g i.now) := by
    cases record <;> rfl
  rw [hst]
  let st := failedStatus i.now (record.getD (freshStatus g i.now))
  let blockTime := g.mBlock.blockTime i.randomDelay
  let purged := deleteExpireRemoteAddress i.now map
  change (if g.mFailBan.mThreshold ≤ st.mCount then
      if st.isBlocked i.now = false then
        (purged.insert i.ipAddress (st.setBlockTime i.now blockTime),
          Except.ok (some (BlockRequest.mk i.ipAddress blockTime)))
      else (purged.insert i.ipAddress st, Except.ok none)
    else (purged.insert i.ipAddress st, Except.ok none)) =
    let result := if g.mFailBan.mThreshold ≤ st.mCount ∧ st.isBlocked i.now = false then
      (st.setBlockTime i.now blockTime, some blockTime) else (st, none)
    (purged.insert i.ipAddress result.1, .ok (result.2.map (BlockRequest.mk i.ipAddress)))
  by_cases hc : g.mFailBan.mThreshold ≤ st.mCount <;> by_cases hb : st.isBlocked i.now = false <;>
    simp [hc, hb]

/-- Any other event purges the map, and then the search for its address may throw. -/
theorem process_of_not_counted {g : ApplicationConfig B} {i : AuthFailedInput}
    (hi : ¬ Counted g i.ipAddress) (map : AddressMap) :
    ∃ result, processRdpAuthFailedEvent g map i = (deleteExpireRemoteAddress i.now map, result) ∧
      result.toOption.join = none ∧ (result.isOk = true ↔ WhitelistReturns g i.ipAddress) := by
  unfold processRdpAuthFailedEvent blockRemoteAddressesWhenLoginFailed WhitelistReturns
  dsimp only
  cases hv : isVaildIpAddress B i.ipAddress with
  | false =>
    refine ⟨.ok none, ?_, rfl, iff_of_true rfl fun h => absurd h Bool.false_ne_true⟩
    rw [if_pos rfl, ite_self]
  | true =>
    rw [if_neg (not_or.mpr (ne_of_isVaildIpAddress hv)), if_neg (by decide)]
    cases hw : g.mIpConfig.isWhiteAddress i.ipAddress with
    | error err => exact ⟨.error err, rfl, rfl, by simp [Except.isOk, Except.toBool]⟩
    | ok white =>
      cases white with
      | true => exact ⟨.ok none, rfl, rfl, iff_of_true rfl fun _ => ⟨true, rfl⟩⟩
      | false => exact absurd ⟨hv, hw⟩ hi

theorem process_isOk_iff {g : ApplicationConfig B} {i : AuthFailedInput} {map : AddressMap} :
    (processRdpAuthFailedEvent g map i).2.isOk = true ↔ WhitelistReturns g i.ipAddress := by
  by_cases hi : Counted g i.ipAddress
  · rw [process_of_counted hi]
    exact iff_of_true rfl fun _ => ⟨false, hi.2⟩
  · obtain ⟨result, hresult, -, hreturns⟩ := process_of_not_counted hi map
    rw [hresult]
    exact hreturns

/-- One iteration, seen from the record of one counted address. -/
theorem lookup_process {g : ApplicationConfig B} {A : String} (hA : Counted g A)
    (map : AddressMap) (i : AuthFailedInput) :
    (processRdpAuthFailedEvent g map i).1.lookup A =
      let record := (map.lookup A).filter (survives i.now)
      if i.ipAddress = A then some (failureResult g i record).1 else record := by
  by_cases hi : Counted g i.ipAddress
  · rw [process_of_counted hi]
    by_cases hA' : i.ipAddress = A
    · subst hA'
      simp
    · simp only [hA', if_false]
      rw [AList.lookup_insert_ne (Ne.symm hA'), lookup_deleteExpireRemoteAddress]
  · have hne : i.ipAddress ≠ A := fun h => hi (h ▸ hA)
    obtain ⟨result, hresult, -⟩ := process_of_not_counted hi map
    rw [hresult]
    simp only [hne, if_false, lookup_deleteExpireRemoteAddress]

/-- A request always concerns the address of the event, and that address is counted. -/
theorem request_process {g : ApplicationConfig B} {map : AddressMap} {i : AuthFailedInput}
    {request : BlockRequest}
    (hr : (processRdpAuthFailedEvent g map i).2.toOption.join = some request) :
    Counted g i.ipAddress ∧ request.remoteAddress = i.ipAddress ∧
      (failureResult g i ((map.lookup i.ipAddress).filter (survives i.now))).2 =
        some request.blockTime := by
  by_cases hi : Counted g i.ipAddress
  · rw [process_of_counted hi] at hr
    obtain ⟨d, hd, rfl⟩ := Option.map_eq_some_iff.mp hr
    exact ⟨hi, rfl, hd⟩
  · obtain ⟨result, hresult, hnone, -⟩ := process_of_not_counted hi map
    rw [hresult] at hr
    cases hnone.symm.trans hr

section Thread
variable {g : ApplicationConfig B} {s : AuthFailedState} {events : List AuthFailedInput}
  {i : AuthFailedInput}

theorem AuthFailedState.step_of_alive (hs : s.alive = true) (i : AuthFailedInput) :
    s.step g i =
      let result := processRdpAuthFailedEvent g s.remoteAddressMap i
      (⟨result.1, result.2.isOk⟩, result.2.toOption.join) := by
  unfold AuthFailedState.step
  rw [if_pos hs]
  rcases processRdpAuthFailedEvent g s.remoteAddressMap i with ⟨map, err | request⟩ <;> rfl

theorem AuthFailedState.step_of_not_alive (hs : ¬ s.alive = true) (i : AuthFailedInput) :
    s.step g i = (s, none) := if_neg hs

theorem AuthFailedState.alive_step : (s.step g i).1.alive = true ↔
    s.alive = true ∧ WhitelistReturns g i.ipAddress := by
  by_cases hs : s.alive = true
  · rw [AuthFailedState.step_of_alive hs, and_iff_right hs]
    exact process_isOk_iff
  · rw [AuthFailedState.step_of_not_alive hs]
    exact iff_of_false hs fun h => hs h.1

theorem authFailedState_snoc (g : ApplicationConfig B) (events : List AuthFailedInput)
    (i : AuthFailedInput) :
    authFailedState g (events ++ [i]) = ((authFailedState g events).step g i).1 :=
  Mealy.final_snoc _ _ _ _

theorem authFailedTrace_snoc (g : ApplicationConfig B) (events : List AuthFailedInput)
    (i : AuthFailedInput) :
    authFailedTrace g (events ++ [i]) = authFailedTrace g events ++
      [Mealy.transition (AuthFailedState.step g) (authFailedState g events) i] :=
  Mealy.trace_snoc _ _ _ _

/-- The thread lives exactly as long as no search of the white list throws. -/
theorem alive_authFailedState_iff : (authFailedState g events).alive = true ↔
    ∀ i ∈ events, WhitelistReturns g i.ipAddress := by
  induction events using List.reverseRecOn with
  | nil => exact iff_of_true rfl (by simp)
  | append_singleton events i ih =>
    rw [authFailedState_snoc, AuthFailedState.alive_step, ih, List.forall_mem_append,
      List.forall_mem_singleton]

theorem authFailedMap_snoc (hlives : (authFailedState g events).alive = true)
    (i : AuthFailedInput) : authFailedMap g (events ++ [i]) =
      (processRdpAuthFailedEvent g (authFailedMap g events) i).1 := by
  unfold authFailedMap
  rw [authFailedState_snoc, AuthFailedState.step_of_alive hlives]

theorem request_of_lives (hlives : (authFailedState g events).alive = true)
    (i : AuthFailedInput) : ((authFailedState g events).step g i).2 =
      (processRdpAuthFailedEvent g (authFailedMap g events) i).2.toOption.join := by
  rw [AuthFailedState.step_of_alive hlives]
  rfl

/-- Only a living thread requests anything. -/
theorem request_step {request : BlockRequest} (hr : (s.step g i).2 = some request) :
    s.alive = true ∧
      (processRdpAuthFailedEvent g s.remoteAddressMap i).2.toOption.join = some request := by
  by_cases hs : s.alive = true
  · rw [AuthFailedState.step_of_alive hs] at hr
    exact ⟨hs, hr⟩
  · rw [AuthFailedState.step_of_not_alive hs] at hr
    cases hr

end Thread
end RDPBlocker
