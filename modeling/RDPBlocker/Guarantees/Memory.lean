import RDPBlocker.Guarantees.FailBan
import RDPBlocker.Spec.Bans

/-! What the failed-login thread keeps in its map, and for how long. -/
namespace RDPBlocker
open Foundation Spec
variable {B : Boost} {g : ApplicationConfig B} {A : String}

theorem AddressMap.mem_iff {map : AddressMap} : A ∈ map ↔ (map.lookup A).isSome = true :=
  AList.lookup_isSome.symm

/-- After an event, the map has a record of a counted address exactly while its history counts. -/
theorem mem_authFailedMap_iff (hA : Counted g A) {events : List AuthFailedInput}
    {i : AuthFailedInput} (hlives : (authFailedState g events).alive = true)
    (hs : Nondecreasing (events ++ [i])) :
    A ∈ authFailedMap g (events ++ [i]) ↔
      (failBan g).Remembered (ownHistory g A (events ++ [i])) i.now := by
  obtain ⟨hpast, hle⟩ := hs.snoc
  have hpurge := (tracks_authFailedMap hA events hlives hpast i.now hle).purge.2
  rw [AddressMap.mem_iff, authFailedMap_snoc hlives, lookup_process hA, ownHistory_snoc]
  by_cases hi : i.ipAddress = A
  · simp only [hi, if_true]
    refine iff_of_true rfl (Or.inl ⟨_, rfl, near_failBan.mpr ?_⟩)
    dsimp only
    omega
  · simp only [hi, if_false]
    exact hpurge

theorem exists_of_mem_ownHistory {events : List AuthFailedInput} {f : Failure ℤ}
    (hf : f ∈ ownHistory g A events) : ∃ e ∈ events, e.ipAddress = A ∧ e.now = f.time ∧
      ∀ d, f.ban = some d → g.mBlock.blockTime e.randomDelay = d := by
  obtain ⟨x, hx, htime, hban⟩ := (failBan g).exists_of_mem_history hf
  obtain ⟨e, he, rfl⟩ := List.mem_map.mp hx
  obtain ⟨hevent, haddress⟩ := List.mem_filter.mp he
  exact ⟨e, hevent, of_decide_eq_true haddress, htime, hban⟩

/-- A history that counts has a failure in it that is recent enough, or whose ban lasts. -/
theorem exists_recent (hexp : 0 < g.mFailBan.mExpireTime) {events : List AuthFailedInput} {t : ℤ}
    (hr : (failBan g).Remembered (ownHistory g A events) t) : ∃ e ∈ events, e.ipAddress = A ∧
      t ≤ e.now + max g.mFailBan.mExpireTime (g.mBlock.blockTime e.randomDelay) := by
  rcases hr with ⟨f, hf, hnear⟩ | ⟨f, hf, d, hd, -, hle⟩
  · obtain ⟨e, he, haddress, htime, -⟩ := exists_of_mem_ownHistory (List.mem_of_mem_head? hf)
    rw [near_failBan] at hnear
    exact ⟨e, he, haddress, by omega⟩
  · obtain ⟨e, he, haddress, htime, hban⟩ := exists_of_mem_ownHistory hf
    have hlength := hban d hd
    exact ⟨e, he, haddress, by omega⟩

/-- Without an expire time, every failure is remembered. -/
theorem remembered_iff_of_forever (hexp : g.mFailBan.mExpireTime ≤ 0)
    {events : List AuthFailedInput} {t : ℤ} :
    (failBan g).Remembered (ownHistory g A events) t ↔ ∃ e ∈ events, e.ipAddress = A := by
  have hlength : (ownHistory g A events).length = (events.filter (·.ipAddress = A)).length := by
    rw [ownHistory, FailBan.length_history, ownFailures, List.length_map]
  constructor
  · intro hr
    cases hh : ownHistory g A events with
    | nil =>
      rw [hh] at hr
      exact absurd hr ((failBan g).not_remembered_nil t)
    | cons f h =>
      have hf : f ∈ ownHistory g A events := hh ▸ List.mem_cons_self
      obtain ⟨e, he, haddress, -⟩ := exists_of_mem_ownHistory hf
      exact ⟨e, he, haddress⟩
  · rintro ⟨e, he, haddress⟩
    cases hh : ownHistory g A events with
    | nil =>
      rw [hh, List.length_nil, eq_comm, List.length_eq_zero_iff, List.filter_eq_nil_iff] at hlength
      exact absurd (decide_eq_true haddress) (hlength e he)
    | cons f h => exact Or.inl ⟨f, rfl, near_failBan.mpr (Or.inl hexp)⟩

/-- What the map says at time `now`, after some events. -/
structure RemembersRecent (g : ApplicationConfig B) (events : List AuthFailedInput) (now : ℤ)
    (map : AddressMap) : Prop where
  mem_iff : ∀ A, A ∈ map ↔ Counted g A ∧ (failBan g).Remembered (ownHistory g A events) now
  bounded : 0 < g.mFailBan.mExpireTime → map.keys.length ≤ (events.filter fun e => decide
    (now ≤ e.now + max g.mFailBan.mExpireTime (g.mBlock.blockTime e.randomDelay))).length
  forever : g.mFailBan.mExpireTime ≤ 0 → ∀ A, A ∈ map ↔
    Counted g A ∧ ∃ e ∈ events, e.ipAddress = A

/-- After every event that it comes to, the thread remembers the addresses whose last failure still
counts and no others, so that it never has more records than there were failures in the last while;
only without an expire time does it remember them all. -/
theorem map_remembers_recent {events : List AuthFailedInput} {i : AuthFailedInput}
    (hlives : (authFailedState g events).alive = true) (hs : Nondecreasing (events ++ [i])) :
    RemembersRecent g (events ++ [i]) i.now (authFailedMap g (events ++ [i])) := by
  have hmem : ∀ A, A ∈ authFailedMap g (events ++ [i]) ↔ Counted g A ∧
      (failBan g).Remembered (ownHistory g A (events ++ [i])) i.now := by
    intro A
    by_cases hA : Counted g A
    · rw [mem_authFailedMap_iff hA hlives hs, and_iff_right hA]
    · rw [AddressMap.mem_iff, lookup_of_not_counted hA]
      exact iff_of_false Bool.false_ne_true fun h => hA h.1
  refine ⟨hmem, fun hexp => ?_, fun hexp A => ?_⟩
  · let recent (e : AuthFailedInput) : Bool := decide
      (i.now ≤ e.now + max g.mFailBan.mExpireTime (g.mBlock.blockTime e.randomDelay))
    have hsub : (authFailedMap g (events ++ [i])).keys ⊆
        ((events ++ [i]).filter recent).map (·.ipAddress) := by
      intro A hkey
      obtain ⟨e, he, haddress, hrecent⟩ := exists_recent hexp ((hmem A).mp hkey).2
      exact List.mem_map.mpr ⟨e, List.mem_filter.mpr ⟨he, decide_eq_true hrecent⟩, haddress⟩
    have hlength := (List.subperm_of_subset (AList.keys_nodup _) hsub).length_le
    rw [List.length_map] at hlength
    exact hlength
  · rw [hmem, remembered_iff_of_forever hexp]

theorem map_remembers_recent_threeInTen :
    RemembersRecent threeInTen ([failureAt 0 "1.2.3.4", failureAt 5 "5.6.7.8"] ++
        [failureAt 11 "5.6.7.8"]) 11
      (authFailedMap threeInTen ([failureAt 0 "1.2.3.4", failureAt 5 "5.6.7.8"] ++
        [failureAt 11 "5.6.7.8"])) :=
  map_remembers_recent (i := failureAt 11 "5.6.7.8") (by decide) (by unfold Nondecreasing; decide)

end RDPBlocker
