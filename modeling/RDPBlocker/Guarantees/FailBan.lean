import RDPBlocker.Refinement.FailBan

/-! What the failed-login thread guarantees about one address over whole runs: bans come when
they are due, from failures that follow each other, one at a time, and independently of all
other addresses. -/
namespace RDPBlocker
open Foundation Spec
variable {B : Boost} {g : ApplicationConfig B} {A : String}

/-- The record says that `A` is blocked exactly while a ban of its history is in force. -/
theorem blocked_iff_inForce (hA : Counted g A) {events : List AuthFailedInput}
    (hlives : (authFailedState g events).alive = true) (hs : Nondecreasing events) {now : ℤ}
    (hnow : ∀ e ∈ events, e.now ≤ now) :
    (∃ st, (authFailedMap g events).lookup A = some st ∧ st.isBlocked now = true) ↔
      InForce (ownHistory g A events) now := by
  have ht := tracks_authFailedMap hA events hlives hs now hnow
  cases hr : (authFailedMap g events).lookup A with
  | none =>
    rw [hr] at ht
    have hn : ¬ InForce (ownHistory g A events) now := fun hf => ht now le_rfl (Or.inr hf)
    simp [hn]
  | some st =>
    rw [hr] at ht
    cases hh : ownHistory g A events with
    | nil =>
      rw [hh] at ht
      exact ht.elim
    | cons f h =>
      rw [hh] at ht
      simp [ht.blocked now le_rfl]

theorem inForce_iff_trace (hA : Counted g A) {events : List AuthFailedInput}
    (hlives : (authFailedState g events).alive = true) (hs : Nondecreasing events) (t : ℤ) :
    InForce (ownHistory g A events) t ↔
      ∃ x ∈ authFailedTrace g events, ∃ d, x.output = some ⟨A, d⟩ ∧ 0 < d ∧
        t ≤ x.input.now + d := by
  constructor
  · intro h
    obtain ⟨f, hf, d, hd, hpos, hle⟩ := h
    obtain ⟨x, hx, hnow, hout⟩ := (ban_mem_ownHistory hA hlives hs f.time d).mp ⟨f, hf, rfl, hd⟩
    exact ⟨x, hx, d, hout, hpos, by rw [hnow]; exact hle⟩
  · intro h
    obtain ⟨x, hx, d, hout, hpos, hle⟩ := h
    obtain ⟨f, hf, hnow, hd⟩ :=
      (ban_mem_ownHistory hA hlives hs x.input.now d).mpr ⟨x, hx, rfl, hout⟩
    exact ⟨f, hf, d, hd, hpos, by rw [hnow]; exact hle⟩

theorem ownFailures_eq_append {events before segment : List AuthFailedInput}
    (hown : events.filter (·.ipAddress = A) = before ++ segment) :
    ownFailures g A events =
      before.map (drawn g) ++ segment.map (drawn g) := by
  rw [ownFailures, hown, List.map_append]

/-- No search for a counted address throws. -/
theorem alive_of_counted {past : List AuthFailedInput} {e : AuthFailedInput}
    (hlives : (authFailedState g past).alive = true) (he : Counted g e.ipAddress) :
    (authFailedState g (past ++ [e])).alive = true := by
  rw [authFailedState_snoc, AuthFailedState.alive_step]
  exact ⟨hlives, fun _ => ⟨false, he.2⟩⟩

/-- The last own failures, when they follow each other closely, are all in the streak. -/
theorem length_le_own_streak {events before segment : List AuthFailedInput}
    (hown : events.filter (·.ipAddress = A) = before ++ segment)
    (hgap : g.mFailBan.mExpireTime ≤ 0 ∨
      segment.IsChain fun x y => y.now - x.now ≤ g.mFailBan.mExpireTime) :
    segment.length ≤ (failBan g).streak (ownHistory g A events) := by
  have hchain : (segment.map (drawn g)).IsChain fun x y => (failBan g).Near x.1 y.1 := by
    rw [List.isChain_map]
    rcases hgap with hexp | hgap
    · exact List.Pairwise.isChain (List.pairwise_of_forall fun _ _ =>
        near_failBan.mpr (Or.inl hexp))
    · refine hgap.imp fun x y hxy => near_failBan.mpr (Or.inr ?_)
      dsimp only [drawn]
      omega
  have hle := (failBan g).length_le_streak (before.map (drawn g)) _ hchain
  rw [← ownFailures_eq_append hown, List.length_map] at hle
  exact hle

/-- Fewer failures than a 32-bit count can hold are counted as they are. -/
theorem toInt32_own_streak {events : List AuthFailedInput}
    (hfew : (events.filter (·.ipAddress = A)).length < 2 ^ 31) :
    toInt32 ((failBan g).streak (ownHistory g A events)) =
      (failBan g).streak (ownHistory g A events) := by
  have hle := (failBan g).streak_le_length (ownHistory g A events)
  have hlength : (ownHistory g A events).length = (events.filter (·.ipAddress = A)).length := by
    rw [ownHistory, FailBan.length_history, ownFailures, List.length_map]
  apply toInt32_eq (by omega)
  omega

/-- Failures that follow each other closely, at least as many as the threshold, leave the
address blocked when the loop has come to the last of them, by a ban that was really requested. -/
theorem brute_force_is_blocked (hA : Counted g A) {events past later : List AuthFailedInput}
    {e : AuthFailedInput} (hevents : events = past ++ e :: later)
    (hlives : (authFailedState g past).alive = true) (hs : Nondecreasing events)
    (hpos : ∀ i ∈ events, 0 < g.mBlock.blockTime i.randomDelay)
    (hfew : (events.filter (·.ipAddress = A)).length < 2 ^ 31) (he : e.ipAddress = A)
    {before segment : List AuthFailedInput}
    (hown : (past ++ [e]).filter (·.ipAddress = A) = before ++ segment)
    (hlen : max 1 g.mFailBan.mThreshold ≤ segment.length)
    (hgap : g.mFailBan.mExpireTime ≤ 0 ∨
      segment.IsChain fun x y => y.now - x.now ≤ g.mFailBan.mExpireTime) :
    ∃ st, (authFailedMap g (past ++ [e])).lookup A = some st ∧ st.isBlocked e.now = true ∧
      ∃ x ∈ authFailedTrace g (past ++ [e]), ∃ d, x.output = some ⟨A, d⟩ ∧
        x.input.now ≤ e.now ∧ e.now - x.input.now ≤ d := by
  have hsplit : events = (past ++ [e]) ++ later := by
    rw [hevents, List.append_assoc, List.singleton_append]
  have hs' : Nondecreasing (past ++ [e]) := by
    rw [hsplit] at hs
    exact (List.pairwise_append.mp hs).1
  have hnow := hs'.le_last
  have hlives' := alive_of_counted hlives (he ▸ hA)
  have hstreak := length_le_own_streak hown hgap
  have hcount : toInt32 ((failBan g).streak (ownHistory g A (past ++ [e]))) =
      (failBan g).streak (ownHistory g A (past ++ [e])) := by
    apply toInt32_own_streak
    rw [hsplit, List.filter_append, List.length_append] at hfew
    omega
  -- The streak reaches the threshold, so the last failure leaves a ban in force.
  have hforce : InForce (ownHistory g A (past ++ [e])) e.now := by
    rw [ownHistory_snoc, if_pos he] at hcount hstreak ⊢
    apply (failBan g).inForce_fail
    · exact hpos e (by simp [hevents])
    · rw [reaches_failBan, ← FailBan.streak_fail, hcount]
      omega
  obtain ⟨st, hst, hb⟩ := (blocked_iff_inForce hA hlives' hs' hnow).mpr hforce
  obtain ⟨x, hx, d, hout, _, hle⟩ := (inForce_iff_trace hA hlives' hs' e.now).mp hforce
  exact ⟨st, hst, hb, x, hx, d, hout,
    hnow _ (Mealy.input_mem_of_mem_trace _ _ hx), by omega⟩

/-- A configuration for closed examples: three failures within ten seconds. -/
def threeInTen : ApplicationConfig Boost.plain where
  mBlock := { mBlockTime := 60, mRandomDelayMin := 0, mRandomDelayMax := 0 }
  mFailBan := { mThreshold := 3, mExpireTime := 10 }

/-- A failure of `A` at time `now`. -/
def failureAt (now : ℤ) (A : String) : AuthFailedInput :=
  ⟨now, 0, (∅ : EventAttr).insert "IpAddress" A⟩

theorem counted_threeInTen : Counted threeInTen "1.2.3.4" := ⟨by decide, by decide⟩

theorem brute_force_is_blocked_threeInTen :
    ∃ st, (authFailedMap threeInTen ([failureAt 0 "1.2.3.4", failureAt 9 "-",
        failureAt 9 "1.2.3.4"] ++ [failureAt 18 "1.2.3.4"])).lookup "1.2.3.4" = some st ∧
      st.isBlocked 18 = true ∧ ∃ x ∈ authFailedTrace threeInTen ([failureAt 0 "1.2.3.4",
        failureAt 9 "-", failureAt 9 "1.2.3.4"] ++ [failureAt 18 "1.2.3.4"]), ∃ d,
        x.output = some ⟨"1.2.3.4", d⟩ ∧ x.input.now ≤ 18 ∧ 18 - x.input.now ≤ d :=
  @brute_force_is_blocked _ threeInTen "1.2.3.4" counted_threeInTen
    [failureAt 0 "1.2.3.4", failureAt 9 "-", failureAt 9 "1.2.3.4", failureAt 18 "1.2.3.4"]
    [failureAt 0 "1.2.3.4", failureAt 9 "-", failureAt 9 "1.2.3.4"] [] (failureAt 18 "1.2.3.4") rfl
    (by decide) (by unfold Nondecreasing; decide) (by decide) (by decide) (by decide) []
    [failureAt 0 "1.2.3.4", failureAt 9 "1.2.3.4", failureAt 18 "1.2.3.4"] rfl (by decide)
    (Or.inr (by decide))

/-- `y` follows up on `x`: it comes soon after it, or during a ban of `A` requested by then. -/
def FollowsUp (g : ApplicationConfig B) (A : String) (trace : List AuthFailedStep)
    (x y : AuthFailedInput) : Prop :=
  y.now - x.now ≤ g.mFailBan.mExpireTime ∨
    ∃ ban ∈ trace, ∃ d, ban.output = some ⟨A, d⟩ ∧ 0 < d ∧ ban.input.now ≤ x.now ∧
      y.now ≤ ban.input.now + d

theorem followsUp_of_linked (hA : Counted g A) {events : List AuthFailedInput}
    (hlives : (authFailedState g events).alive = true) (hs : Nondecreasing events)
    {x y : AuthFailedInput}
    (hl : (failBan g).Linked (ownHistory g A events) (drawn g x) (drawn g y))
    (hexp : 0 < g.mFailBan.mExpireTime) : FollowsUp g A (authFailedTrace g events) x y := by
  rcases hl with hnear | ⟨f, hf, d, hd, hpos, hfx, hyf⟩
  · rw [near_failBan] at hnear
    left
    dsimp only [drawn] at hnear
    omega
  · obtain ⟨ban, hban, hnow, hout⟩ :=
      (ban_mem_ownHistory hA hlives hs f.time d).mp ⟨f, hf, rfl, hd⟩
    rw [← hnow] at hfx hyf
    exact Or.inr ⟨ban, hban, d, hout, hpos, hfx, hyf⟩

/-- A request comes when the streak of the history, counted with 32 bits, is long enough. -/
theorem threshold_le_of_request (hA : Counted g A) {past : List AuthFailedInput}
    {e : AuthFailedInput} (hs : Nondecreasing (past ++ [e])) (he : e.ipAddress = A) {d : ℤ}
    (hreq : ((authFailedState g past).step g e).2 = some ⟨A, d⟩) :
    g.mFailBan.mThreshold ≤ (failBan g).streak (ownHistory g A (past ++ [e])) := by
  have hreach := (request_iff hA (request_step hreq).1 hs he d).mp hreq
  rw [ownHistory_snoc, if_pos he, FailBan.ban_fail, reaches_failBan, ← FailBan.streak_fail _ _ _
    (g.mBlock.blockTime e.randomDelay)] at hreach
  have hhist : ownHistory g A (past ++ [e]) =
      (failBan g).fail (ownHistory g A past) e.now (g.mBlock.blockTime e.randomDelay) := by
    rw [ownHistory_snoc, if_pos he]
  rw [hhist]
  exact hreach.1.trans (toInt32_le (Int.natCast_nonneg _))

/-- Every request comes from at least as many failures as the threshold, each following up on
the one before it; the whole run of failures may be longer than the expire time. -/
theorem request_needs_follow_ups (hexp : 0 < g.mFailBan.mExpireTime)
    (hthr : 1 ≤ g.mFailBan.mThreshold) {past : List AuthFailedInput} {e : AuthFailedInput}
    (hs : Nondecreasing (past ++ [e])) {d : ℤ}
    (hreq : ((authFailedState g past).step g e).2 = some ⟨A, d⟩) :
    ∃ before segment, (past ++ [e]).filter (·.ipAddress = A) = before ++ segment ∧
      g.mFailBan.mThreshold ≤ segment.length ∧ e ∈ segment.getLast? ∧
      segment.IsChain (FollowsUp g A (authFailedTrace g (past ++ [e]))) := by
  obtain ⟨hpast, hprocess⟩ := request_step hreq
  obtain ⟨hA, haddr, -⟩ := request_process hprocess
  have hlives := alive_of_counted hpast hA
  have he : e.ipAddress = A := haddr.symm
  rw [he] at hA
  have hsorted : (ownFailures g A (past ++ [e])).Pairwise fun x y => x.1 ≤ y.1 := by
    unfold ownFailures
    rw [List.pairwise_map]
    exact hs.filter _
  obtain ⟨before', segment', hsplit, hlen, hchain⟩ :=
    (failBan g).exists_streak_segment (ownFailures g A (past ++ [e]))
      (by simp [ownFailures, he]) hsorted
  obtain ⟨before, segment, hown, rfl, rfl⟩ := List.map_eq_append_iff.mp hsplit
  rw [List.length_map] at hlen
  have hlong : g.mFailBan.mThreshold ≤ segment.length := by
    rw [hlen]
    exact threshold_le_of_request hA hs he hreq
  have hlast : e ∈ segment.getLast? := by
    have hne : segment ≠ [] := by
      apply List.ne_nil_of_length_pos
      omega
    have hl := congrArg List.getLast? hown
    rw [List.getLast?_append_of_ne_nil _ hne] at hl
    rw [← hl]
    simp [he]
  refine ⟨before, segment, hown, hlong, hlast, ?_⟩
  rw [List.isChain_map] at hchain
  exact hchain.imp fun x y hxy => followsUp_of_linked hA hlives hs hxy hexp

theorem request_needs_follow_ups_threeInTen :
    ∃ before segment, ([failureAt 0 "1.2.3.4", failureAt 9 "1.2.3.4"] ++
        [failureAt 18 "1.2.3.4"]).filter (·.ipAddress = "1.2.3.4") = before ++ segment ∧
      3 ≤ (segment.length : ℤ) ∧ failureAt 18 "1.2.3.4" ∈ segment.getLast? ∧
      segment.IsChain (FollowsUp threeInTen "1.2.3.4" (authFailedTrace threeInTen
        ([failureAt 0 "1.2.3.4", failureAt 9 "1.2.3.4"] ++ [failureAt 18 "1.2.3.4"]))) :=
  request_needs_follow_ups (g := threeInTen) (d := 60) (by decide) (by decide)
    (by unfold Nondecreasing; decide) (by decide)

/-- A slow series is enough: the third failure in eighteen seconds is answered by a ban although
only two of them lie in the last ten. -/
theorem request_without_failures_inside_period :
    ¬ ∀ (B : Boost) (g : ApplicationConfig B) (A : String) (past : List AuthFailedInput)
      (e : AuthFailedInput) (d : ℤ), 0 < g.mFailBan.mExpireTime → 1 ≤ g.mFailBan.mThreshold →
      Nondecreasing (past ++ [e]) →
      ((authFailedState g past).step g e).2 = some ⟨A, d⟩ →
      g.mFailBan.mThreshold ≤ ((past ++ [e]).filter fun i => i.ipAddress = A ∧
        e.now - g.mFailBan.mExpireTime ≤ i.now ∧ i.now ≤ e.now).length := by
  intro h
  have hcount := h Boost.plain threeInTen "1.2.3.4" [failureAt 0 "1.2.3.4", failureAt 9 "1.2.3.4"]
    (failureAt 18 "1.2.3.4") 60 (by decide) (by decide) (by unfold Nondecreasing; decide)
    (by decide)
  revert hcount
  decide

/-- The record of `A` blocks it up to the time. -/
def BlockedUntil (A : String) (time : ℤ) (map : AddressMap) : Prop :=
  ∃ st, map.lookup A = some st ∧ ∀ t, t ≤ time → st.isBlocked t = true

theorem BlockedUntil.purge {map : AddressMap} {time now : ℤ} (h : BlockedUntil A time map)
    (hnow : now ≤ time) :
    ∃ st, map.lookup A = some st ∧ (deleteExpireRemoteAddress now map).lookup A = some st := by
  obtain ⟨st, hst, hblocked⟩ := h
  have hsurvives : survives now st = true := by simp [survives, hblocked now hnow]
  refine ⟨st, hst, ?_⟩
  rw [lookup_deleteExpireRemoteAddress, hst, Option.filter_some_pos hsurvives]

/-- A request writes the end of the ban into the record. -/
theorem blockedUntil_of_request {s : AuthFailedState} {i : AuthFailedInput} {d : ℤ}
    (hreq : (s.step g i).2 = some ⟨A, d⟩) (hpos : 0 < d) :
    BlockedUntil A (i.now + d) (s.step g i).1.remoteAddressMap := by
  obtain ⟨hs, hprocess⟩ := request_step hreq
  obtain ⟨hcounted, haddr, hresult⟩ := request_process hprocess
  have hA : A = i.ipAddress := haddr
  subst hA
  rw [AuthFailedState.step_of_alive hs]
  dsimp only
  have hlookup := lookup_process hcounted s.remoteAddressMap i
  rw [if_pos rfl] at hlookup
  refine ⟨_, hlookup, fun t ht => ?_⟩
  unfold failureResult at hresult ⊢
  dsimp only at hresult ⊢
  split_ifs at hresult ⊢ with hban
  have hd : g.mBlock.blockTime i.randomDelay = d := Option.some.inj hresult
  rw [hd, RemoteAddressStatus.isBlocked_iff]
  exact ⟨hpos, ht⟩

/-- While the record blocks the address, no step changes that, nor requests another ban. -/
theorem BlockedUntil.step (hA : Counted g A) {s : AuthFailedState} {i : AuthFailedInput} {time : ℤ}
    (h : BlockedUntil A time s.remoteAddressMap) (hnow : i.now ≤ time) :
    BlockedUntil A time (s.step g i).1.remoteAddressMap ∧
      ∀ d, (s.step g i).2 ≠ some ⟨A, d⟩ := by
  obtain ⟨st, hst, hblocked⟩ := h
  have hsurvives : survives i.now st = true := by simp [survives, hblocked i.now hnow]
  have hresult : failureResult g i (some st) = (failedStatus i.now st, none) := by
    refine if_neg fun hban => ?_
    have hfree : st.isBlocked i.now = false := hban.2
    exact Bool.false_ne_true (hfree.symm.trans (hblocked i.now hnow))
  by_cases hs : s.alive = true
  · constructor
    · have hlookup := lookup_process hA s.remoteAddressMap i
      rw [hst, Option.filter_some_pos hsurvives] at hlookup
      rw [AuthFailedState.step_of_alive hs]
      by_cases hi : i.ipAddress = A
      · rw [if_pos hi, hresult] at hlookup
        exact ⟨_, hlookup, hblocked⟩
      · rw [if_neg hi] at hlookup
        exact ⟨st, hlookup, hblocked⟩
    · intro d hreq
      obtain ⟨-, haddr, hsome⟩ := request_process (request_step hreq).2
      have hi : A = i.ipAddress := haddr
      rw [← hi, hst, Option.filter_some_pos hsurvives, hresult] at hsome
      cases hsome
  · rw [AuthFailedState.step_of_not_alive hs]
    refine ⟨⟨st, hst, hblocked⟩, fun d hreq => ?_⟩
    cases hreq

theorem counted_of_mem_trace {events : List AuthFailedInput} {x : AuthFailedStep}
    (hx : x ∈ authFailedTrace g events) {d : ℤ} (hout : x.output = some ⟨A, d⟩) : Counted g A := by
  obtain ⟨before, after, -, hx'⟩ := Mealy.mem_trace _ _ hx
  rw [hx'] at hout
  obtain ⟨hc, haddr, -⟩ := request_process (request_step hout).2
  rw [← haddr] at hc
  exact hc

/-- A ban that was requested stays in the map until it ends. -/
theorem blockedUntil_of_mem_trace {events : List AuthFailedInput} {x : AuthFailedStep}
    (hx : x ∈ authFailedTrace g events) {d : ℤ} (hout : x.output = some ⟨A, d⟩) (hpos : 0 < d)
    (hnow : ∀ e ∈ events, e.now ≤ x.input.now + d) :
    BlockedUntil A (x.input.now + d) (authFailedMap g events) := by
  have hA := counted_of_mem_trace hx hout
  unfold authFailedMap
  induction events using List.reverseRecOn with
  | nil => cases hx
  | append_singleton events i ih =>
    rw [authFailedTrace_snoc, List.mem_append, List.mem_singleton] at hx
    rw [List.forall_mem_append, List.forall_mem_singleton] at hnow
    rw [authFailedState_snoc]
    rcases hx with hx | rfl
    · exact ((ih hx hnow.1).step hA hnow.2).1
    · exact blockedUntil_of_request hout hpos

/-- A ban of `A` is requested after the one before it has ended. -/
theorem ban_lt_request {events : List AuthFailedInput} {i : AuthFailedInput}
    (hs : Nondecreasing (events ++ [i])) {x : AuthFailedStep} (hx : x ∈ authFailedTrace g events)
    {d₁ d₂ : ℤ} (hout : x.output = some ⟨A, d₁⟩) (hpos : 0 < d₁)
    (hreq : ((authFailedState g events).step g i).2 = some ⟨A, d₂⟩) :
    x.input.now + d₁ < i.now := by
  by_contra hn
  have hn := not_lt.mp hn
  have hblocked := blockedUntil_of_mem_trace hx hout hpos fun e he => (hs.snoc.2 e he).trans hn
  exact (hblocked.step (s := authFailedState g events) (counted_of_mem_trace hx hout) hn).2 d₂ hreq

/-- While a requested ban of `A` runs, both ends included, no purge removes the record of `A`
and no second ban is requested. -/
theorem bans_never_stack (g : ApplicationConfig B) (A : String) {events : List AuthFailedInput}
    (hs : Nondecreasing events) :
    (authFailedTrace g events).Pairwise fun x y => ∀ d₁, x.output = some ⟨A, d₁⟩ → 0 < d₁ →
      (∀ d₂, y.output = some ⟨A, d₂⟩ → x.input.now + d₁ < y.input.now) ∧
        (y.input.now ≤ x.input.now + d₁ → ∃ st, y.source.remoteAddressMap.lookup A = some st ∧
          (deleteExpireRemoteAddress y.input.now y.source.remoteAddressMap).lookup A =
            some st) := by
  induction events using List.reverseRecOn with
  | nil => exact List.Pairwise.nil
  | append_singleton events i ih =>
    obtain ⟨hs', hle⟩ := hs.snoc
    rw [authFailedTrace_snoc]
    refine List.pairwise_append.mpr ⟨ih hs', List.pairwise_singleton _ _, ?_⟩
    intro x hx y hy d₁ hout hpos
    rw [List.mem_singleton.mp hy]
    constructor
    · intro d₂ hreq
      exact ban_lt_request hs hx hout hpos hreq
    · intro hn
      have hblocked := blockedUntil_of_mem_trace hx hout hpos fun e he => (hle e he).trans hn
      exact hblocked.purge hn

theorem bans_never_stack_threeInTen :
    (authFailedTrace threeInTen ((List.replicate 5 20).map fun t => failureAt t "1.2.3.4")).Pairwise
      fun x y => ∀ d₁, x.output = some ⟨"1.2.3.4", d₁⟩ → 0 < d₁ →
        (∀ d₂, y.output = some ⟨"1.2.3.4", d₂⟩ → x.input.now + d₁ < y.input.now) ∧
          (y.input.now ≤ x.input.now + d₁ → ∃ st,
            y.source.remoteAddressMap.lookup "1.2.3.4" = some st ∧
              (deleteExpireRemoteAddress y.input.now y.source.remoteAddressMap).lookup "1.2.3.4" =
                some st) :=
  bans_never_stack threeInTen "1.2.3.4" (by unfold Nondecreasing; decide)

/-- What one step of the loop shows of `A`: its count and the ban it starts. -/
def outcome (A : String) (x : AuthFailedStep) : Option ℤ × Option ℤ :=
  ((x.target.remoteAddressMap.lookup A).map (·.getCount), x.output.map (·.blockTime))

theorem lookup_of_not_counted (hA : ¬ Counted g A) (events : List AuthFailedInput) :
    (authFailedMap g events).lookup A = none := by
  unfold authFailedMap
  induction events using List.reverseRecOn with
  | nil => rfl
  | append_singleton events i ih =>
    rw [authFailedState_snoc]
    by_cases hs : (authFailedState g events).alive = true
    · rw [AuthFailedState.step_of_alive hs]
      dsimp only
      by_cases hi : Counted g i.ipAddress
      · have hne : A ≠ i.ipAddress := fun h => hA (h ▸ hi)
        rw [process_of_counted hi, AList.lookup_insert_ne hne, lookup_deleteExpireRemoteAddress, ih]
        rfl
      · obtain ⟨result, hresult, -⟩ :=
          process_of_not_counted hi (authFailedState g events).remoteAddressMap
        rw [hresult, lookup_deleteExpireRemoteAddress, ih]
        rfl
    · rw [AuthFailedState.step_of_not_alive hs, ih]

section Outcome
variable {events : List AuthFailedInput} {i : AuthFailedInput}

/-- The outcome of an event of `A` is determined by the history of `A`. -/
theorem outcome_eq (hlives : (authFailedState g events).alive = true)
    (hs : Nondecreasing (events ++ [i])) (hi : i.ipAddress = A) (hA : Counted g A) :
    outcome A (Mealy.transition (AuthFailedState.step g) (authFailedState g events) i) =
      (some (toInt32 ((failBan g).streak (ownHistory g A (events ++ [i])))),
        (ownHistory g A (events ++ [i])).head?.bind (·.ban)) := by
  have hlives' := alive_of_counted hlives (hi ▸ hA)
  have ht := tracks_authFailedMap hA (events ++ [i]) hlives' hs i.now hs.le_last
  refine Prod.ext ?_ (Option.ext fun d => ?_)
  · change (((authFailedState g events).step g i).1.remoteAddressMap.lookup A).map _ = _
    rw [← authFailedState_snoc]
    change ((authFailedMap g (events ++ [i])).lookup A).map _ = _
    have hrec := lookup_process hA (authFailedMap g events) i
    rw [if_pos hi, ← authFailedMap_snoc hlives] at hrec
    rw [hrec] at ht ⊢
    cases hh : ownHistory g A (events ++ [i]) with
    | nil =>
      rw [hh] at ht
      exact ht.elim
    | cons f h =>
      rw [hh] at ht
      exact congrArg some ht.count
  · change ((authFailedState g events).step g i).2.map _ = some d ↔ _
    rw [Option.bind_eq_some_iff, ← Option.mem_def]
    refine Iff.trans ?_ (request_iff hA hlives hs hi d)
    rw [Option.mem_def, Option.map_eq_some_iff]
    constructor
    · intro h
      obtain ⟨request, hr, rfl⟩ := h
      rw [hr, ← hi, ← (request_process (request_step hr).2).2.1]
    · intro hr
      exact ⟨_, hr, rfl⟩

theorem outcome_of_not_counted (hi : i.ipAddress = A) (hA : ¬ Counted g A) :
    outcome A (Mealy.transition (AuthFailedState.step g) (authFailedState g events) i) =
      (none, none) := by
  have hl := lookup_of_not_counted hA (events ++ [i])
  unfold authFailedMap at hl
  rw [authFailedState_snoc] at hl
  have ho : ((authFailedState g events).step g i).2 = none := by
    rw [Option.eq_none_iff_forall_ne_some]
    intro request hr
    exact hA (hi ▸ (request_process (request_step hr).2).1)
  unfold outcome Mealy.transition
  rw [hl, ho]
  rfl

end Outcome

/-- Deleting all events of other addresses changes nothing that the loop does for `A`, as long as
it comes to each of the events. -/
theorem addresses_do_not_interfere (g : ApplicationConfig B) (A : String)
    {events : List AuthFailedInput} (hs : Nondecreasing events)
    (hlives : (authFailedState g events.dropLast).alive = true) :
    ((authFailedTrace g events).filter (·.input.ipAddress = A)).map (outcome A) =
      (authFailedTrace g (events.filter (·.ipAddress = A))).map (outcome A) := by
  refine Mealy.map_trace_filter (AuthFailedState.step g) _ (fun i => decide (i.ipAddress = A))
    (outcome A) fun before i after hsplit hi => ?_
  have hi : i.ipAddress = A := of_decide_eq_true hi
  have hs' : Nondecreasing (before ++ [i]) := by
    rw [hsplit, ← List.singleton_append, ← List.append_assoc] at hs
    exact (List.pairwise_append.mp hs).1
  have hreturns : ∀ e ∈ before, WhitelistReturns g e.ipAddress := by
    rw [hsplit, List.dropLast_append_cons, alive_authFailedState_iff] at hlives
    exact (List.forall_mem_append.mp hlives).1
  have hbefore : (authFailedState g before).alive = true := alive_authFailedState_iff.mpr hreturns
  have hkept : (authFailedState g (before.filter (·.ipAddress = A))).alive = true :=
    alive_authFailedState_iff.mpr fun e he => hreturns e (List.mem_filter.mp he).1
  have hown : (before.filter (·.ipAddress = A) ++ [i]).Sublist (before ++ [i]) :=
    List.Sublist.append_right List.filter_sublist [i]
  have hhist : ownHistory g A (before.filter (·.ipAddress = A) ++ [i]) =
      ownHistory g A (before ++ [i]) := by
    unfold ownHistory ownFailures
    rw [List.filter_append, List.filter_append, List.filter_filter]
    simp only [Bool.and_self]
  change outcome A (Mealy.transition (AuthFailedState.step g) (authFailedState g before) i) =
    outcome A (Mealy.transition (AuthFailedState.step g)
      (authFailedState g (before.filter (·.ipAddress = A))) i)
  by_cases hA : Counted g A
  · rw [outcome_eq hbefore hs' hi hA, outcome_eq hkept (hs'.sublist hown) hi hA, hhist]
  · rw [outcome_of_not_counted hi hA, outcome_of_not_counted hi hA]

theorem addresses_do_not_interfere_threeInTen :
    ((authFailedTrace threeInTen [failureAt 0 "1.2.3.4", failureAt 30 "5.6.7.8",
        failureAt 31 "1.2.3.4"]).filter (·.input.ipAddress = "1.2.3.4")).map (outcome "1.2.3.4") =
      (authFailedTrace threeInTen ([failureAt 0 "1.2.3.4", failureAt 30 "5.6.7.8",
        failureAt 31 "1.2.3.4"].filter (·.ipAddress = "1.2.3.4"))).map (outcome "1.2.3.4") :=
  addresses_do_not_interfere threeInTen "1.2.3.4" (by unfold Nondecreasing; decide) (by decide)

end RDPBlocker
