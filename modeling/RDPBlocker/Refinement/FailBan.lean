import RDPBlocker.Program.AuthFailed
import RDPBlocker.Spec.FailBan

/-! The record kept for a counted address represents the history of that address alone,
whatever other events and purges lie in between. -/
namespace RDPBlocker
open Foundation Spec
variable {B : Boost}

/-- The fail-ban policy that a configuration asks for. A streak is read off a 32-bit `int`. -/
def failBan (g : ApplicationConfig B) : FailBan ℤ where
  memory := if g.mFailBan.mExpireTime ≤ 0 then none else some g.mFailBan.mExpireTime
  reaches n := decide (g.mFailBan.mThreshold ≤ toInt32 n)

/-- When an event happened, and the block time it would draw. -/
def drawn (g : ApplicationConfig B) (i : AuthFailedInput) : ℤ × ℤ :=
  (i.now, g.mBlock.blockTime i.randomDelay)

def ownFailures (g : ApplicationConfig B) (A : String) (events : List AuthFailedInput) :
    List (ℤ × ℤ) :=
  (events.filter (·.ipAddress = A)).map (drawn g)

noncomputable def ownHistory (g : ApplicationConfig B) (A : String)
    (events : List AuthFailedInput) : List (Failure ℤ) :=
  (failBan g).history (ownFailures g A events)

theorem near_failBan {g : ApplicationConfig B} {t t' : ℤ} :
    (failBan g).Near t t' ↔ g.mFailBan.mExpireTime ≤ 0 ∨ t' ≤ t + g.mFailBan.mExpireTime := by
  unfold FailBan.Near failBan
  by_cases he : g.mFailBan.mExpireTime ≤ 0 <;> simp [he]

theorem reaches_failBan {g : ApplicationConfig B} {n : ℕ} :
    (failBan g).reaches n = true ↔ g.mFailBan.mThreshold ≤ toInt32 n := by
  simp only [failBan, decide_eq_true_eq]

/-- From `now` on, the record `st` says of the history `f :: h` all that the program asks. -/
structure Represents (g : ApplicationConfig B) (f : Failure ℤ) (h : List (Failure ℤ)) (now : ℤ)
    (st : RemoteAddressStatus) : Prop where
  count : st.mCount = toInt32 ((failBan g).streak (f :: h))
  expireTime : st.mExpireTime = g.mFailBan.mExpireTime
  expireTimer : st.mExpireTimer.mTime = f.time
  blocked : ∀ t, now ≤ t → (st.isBlocked t = true ↔ InForce (f :: h) t)

/-- A missing record stands for a history that no longer counts. -/
def Tracks (g : ApplicationConfig B) (now : ℤ) :
    List (Failure ℤ) → Option RemoteAddressStatus → Prop
  | h, none => ∀ t, now ≤ t → ¬ (failBan g).Remembered h t
  | f :: h, some st => Represents g f h now st
  | [], some _ => False

theorem Tracks.mono {g : ApplicationConfig B} {now now' : ℤ} {h : List (Failure ℤ)}
    {record : Option RemoteAddressStatus} (hn : now ≤ now') (ht : Tracks g now h record) :
    Tracks g now' h record := by
  cases record with
  | none => exact fun t hle => ht t (hn.trans hle)
  | some st =>
    cases h with
    | nil => exact ht
    | cons f h => exact { ht with blocked := fun t hle => ht.blocked t (hn.trans hle) }

theorem Represents.survives_iff {g : ApplicationConfig B} {f : Failure ℤ} {h : List (Failure ℤ)}
    {now : ℤ} {st : RemoteAddressStatus} (hr : Represents g f h now st) :
    survives now st = true ↔ (failBan g).Remembered (f :: h) now := by
  have hexp : st.isExpired now = false ↔ (failBan g).Near f.time now := by
    rw [← Bool.not_eq_true, st.isExpired_iff, hr.expireTime, hr.expireTimer, near_failBan]
    omega
  have hblk := hr.blocked now le_rfl
  unfold survives FailBan.Remembered
  rw [Bool.or_eq_true, Bool.not_eq_true', hblk, hexp, or_comm]
  simp

/-- The purge forgets a history exactly when it no longer counts. -/
theorem Tracks.purge {g : ApplicationConfig B} {now : ℤ} {h : List (Failure ℤ)}
    {record : Option RemoteAddressStatus} (ht : Tracks g now h record) :
    Tracks g now h (record.filter (survives now)) ∧
      ((record.filter (survives now)).isSome = true ↔ (failBan g).Remembered h now) := by
  cases record with
  | none => exact ⟨ht, by simpa using ht now le_rfl⟩
  | some st =>
    cases h with
    | nil => exact ht.elim
    | cons f h =>
      have hs := Represents.survives_iff ht
      cases hv : survives now st with
      | true =>
        rw [Option.filter_some_pos hv]
        exact ⟨ht, by simpa using hs.mp hv⟩
      | false =>
        have hn : ¬ (failBan g).Remembered (f :: h) now := by
          rw [← hs, hv]
          exact Bool.false_ne_true
        have hf : Option.filter (survives now) (some st) = none := by simp [Option.filter_some, hv]
        rw [hf]
        exact ⟨fun t hle hr => hn (hr.antitone _ hle), by simpa using hn⟩

/-- The count after one more failure is the length of the streak it belongs to. -/
theorem Tracks.count_failedStatus {g : ApplicationConfig B} {now : ℤ} {h : List (Failure ℤ)}
    {record : Option RemoteAddressStatus} (ht : Tracks g now h record)
    (hs : record.isSome = true ↔ (failBan g).Remembered h now) :
    (failedStatus now (record.getD (freshStatus g now))).mCount =
      toInt32 ((failBan g).streak (⟨now, none⟩ :: h)) := by
  cases record with
  | none =>
    have hn : ¬ (failBan g).Remembered h now := by simpa using hs
    rw [FailBan.streak_cons_of_not_remembered _ hn]
    rfl
  | some st =>
    cases h with
    | nil => exact ht.elim
    | cons f h =>
      have hr : (failBan g).Remembered (f :: h) now := by simpa using hs
      rw [FailBan.streak_cons_of_remembered _ hr]
      change toInt32 (st.mCount + 1) = _
      rw [ht.count, toInt32_add_one]
      norm_cast

theorem Tracks.isBlocked {g : ApplicationConfig B} {now : ℤ} {h : List (Failure ℤ)}
    {record : Option RemoteAddressStatus} (ht : Tracks g now h record) (t : ℤ) (hle : now ≤ t) :
    (record.getD (freshStatus g now)).isBlocked t = true ↔ InForce h t := by
  cases record with
  | none =>
    have hn := ht t hle
    constructor
    · intro hb
      cases hb
    · exact fun hf => absurd (Or.inr hf) hn
  | some st =>
    cases h with
    | nil => exact ht.elim
    | cons f h => exact ht.blocked t hle

/-- A counted failure does to the record what it does to the history. -/
theorem Tracks.failure {g : ApplicationConfig B} {i : AuthFailedInput} {h : List (Failure ℤ)}
    {record : Option RemoteAddressStatus} (ht : Tracks g i.now h record)
    (hs : record.isSome = true ↔ (failBan g).Remembered h i.now) :
    Tracks g i.now ((failBan g).fail h i.now (g.mBlock.blockTime i.randomDelay))
        (some (failureResult g i record).1) ∧
      ∀ d, (failureResult g i record).2 = some d ↔
        ∃ f ∈ ((failBan g).fail h i.now (g.mBlock.blockTime i.randomDelay)).head?,
          f.ban = some d := by
  have hcount := ht.count_failedStatus hs
  have hblk := ht.isBlocked
  have hexp : (record.getD (freshStatus g i.now)).mExpireTime = g.mFailBan.mExpireTime := by
    cases record with
    | none => rfl
    | some st =>
      cases h with
      | nil => exact ht.elim
      | cons f h => exact ht.expireTime
  let st := failedStatus i.now (record.getD (freshStatus g i.now))
  have hreach : g.mFailBan.mThreshold ≤ st.mCount ↔
      (failBan g).reaches ((failBan g).streak (⟨i.now, none⟩ :: h)) = true := by
    rw [reaches_failBan, ← hcount]
  have hfree : st.isBlocked i.now = false ↔ ¬ InForce h i.now := by
    rw [← hblk i.now le_rfl, Bool.not_eq_true]
    rfl
  let d := g.mBlock.blockTime i.randomDelay
  by_cases hban : (failBan g).reaches ((failBan g).streak (⟨i.now, none⟩ :: h)) = true ∧
      ¬ InForce h i.now
  · have hres : failureResult g i record = (st.setBlockTime i.now d, some d) :=
      if_pos ⟨hreach.mpr hban.1, hfree.mpr hban.2⟩
    have hfail : (failBan g).fail h i.now d = ⟨i.now, some d⟩ :: h := by
      unfold FailBan.fail
      dsimp only
      rw [if_pos hban]
    rw [hres, hfail]
    refine ⟨⟨hcount, hexp, rfl, fun t hle => ?_⟩, fun e => by simp⟩
    rw [RemoteAddressStatus.isBlocked_iff, inForce_cons]
    have hold : ¬ InForce h t := fun hf => hban.2 (hf.antitone hle)
    simp only [hold, or_false, Option.some.injEq, exists_eq_left']
    rfl
  · have hres : failureResult g i record = (st, none) :=
      if_neg fun hc => hban ⟨hreach.mp hc.1, hfree.mp hc.2⟩
    have hfail : (failBan g).fail h i.now d = ⟨i.now, none⟩ :: h := by
      unfold FailBan.fail
      dsimp only
      rw [if_neg hban]
    rw [hres, hfail]
    refine ⟨⟨hcount, hexp, rfl, fun t hle => ?_⟩, fun e => by simp⟩
    rw [inForce_cons]
    simp only [reduceCtorEq, false_and, exists_false, false_or]
    exact hblk t hle

theorem ownFailures_snoc (g : ApplicationConfig B) (A : String) (events : List AuthFailedInput)
    (i : AuthFailedInput) :
    ownFailures g A (events ++ [i]) = ownFailures g A events ++
      if i.ipAddress = A then [drawn g i] else [] := by
  unfold ownFailures
  by_cases hA : i.ipAddress = A <;> simp [hA]

/-- The history of `A` after one more event. -/
theorem ownHistory_snoc (g : ApplicationConfig B) (A : String) (events : List AuthFailedInput)
    (i : AuthFailedInput) :
    ownHistory g A (events ++ [i]) =
      if i.ipAddress = A then
        (failBan g).fail (ownHistory g A events) i.now (g.mBlock.blockTime i.randomDelay)
      else ownHistory g A events := by
  unfold ownHistory
  rw [ownFailures_snoc]
  by_cases hA : i.ipAddress = A <;> simp [hA, drawn]

theorem Nondecreasing.snoc {events : List AuthFailedInput} {i : AuthFailedInput}
    (hs : Nondecreasing (events ++ [i])) :
    Nondecreasing events ∧ ∀ e ∈ events, e.now ≤ i.now := by
  obtain ⟨h1, _, h2⟩ := List.pairwise_append.mp hs
  exact ⟨h1, fun e he => h2 e he i (by simp)⟩

theorem Nondecreasing.le_last {events : List AuthFailedInput} {i : AuthFailedInput}
    (hs : Nondecreasing (events ++ [i])) : ∀ e ∈ events ++ [i], e.now ≤ i.now := by
  intro e he
  rcases List.mem_append.mp he with he | he
  · exact hs.snoc.2 e he
  · rw [List.mem_singleton.mp he]

/-- The map after any run represents the history of every counted address. -/
theorem tracks_authFailedMap {g : ApplicationConfig B} {A : String} (hA : Counted g A)
    (events : List AuthFailedInput) (hlives : (authFailedState g events).alive = true)
    (hs : Nondecreasing events) (now : ℤ) (hnow : ∀ e ∈ events, e.now ≤ now) :
    Tracks g now (ownHistory g A events) ((authFailedMap g events).lookup A) := by
  induction events using List.reverseRecOn generalizing now with
  | nil => exact fun t _ => (failBan g).not_remembered_nil t
  | append_singleton events i ih =>
    rw [authFailedState_snoc, AuthFailedState.alive_step] at hlives
    obtain ⟨hs', hle⟩ := hs.snoc
    obtain ⟨hpurged, hsome⟩ := (ih hlives.1 hs' i.now hle).purge
    apply Tracks.mono (hnow i (by simp))
    rw [authFailedMap_snoc hlives.1, lookup_process hA, ownHistory_snoc]
    by_cases hi : i.ipAddress = A
    · simp only [hi, if_true]
      exact (hpurged.failure hsome).1
    · simp only [hi, if_false]
      exact hpurged

/-- A block is requested for a counted address exactly when its own history calls for it. -/
theorem request_iff {g : ApplicationConfig B} {A : String} (hA : Counted g A)
    {events : List AuthFailedInput} {i : AuthFailedInput}
    (hlives : (authFailedState g events).alive = true) (hs : Nondecreasing (events ++ [i]))
    (hi : i.ipAddress = A) (d : ℤ) :
    ((authFailedState g events).step g i).2 = some ⟨A, d⟩ ↔
      ∃ f ∈ (ownHistory g A (events ++ [i])).head?, f.ban = some d := by
  obtain ⟨hs', hle⟩ := hs.snoc
  obtain ⟨hpurged, hsome⟩ := (tracks_authFailedMap hA events hlives hs' i.now hle).purge
  subst hi
  rw [request_of_lives hlives, process_of_counted hA, ownHistory_snoc, if_pos rfl,
    ← (hpurged.failure hsome).2 d]
  change Option.map _ _ = some _ ↔ _
  simp

/-- The bans of the history are the requests of the run. -/
theorem ban_mem_ownHistory {g : ApplicationConfig B} {A : String} (hA : Counted g A)
    {events : List AuthFailedInput} (hlives : (authFailedState g events).alive = true)
    (hs : Nondecreasing events) (t d : ℤ) :
    (∃ f ∈ ownHistory g A events, f.time = t ∧ f.ban = some d) ↔
      ∃ x ∈ authFailedTrace g events, x.input.now = t ∧ x.output = some ⟨A, d⟩ := by
  induction events using List.reverseRecOn with
  | nil => simp [ownHistory, ownFailures, authFailedTrace]
  | append_singleton events i ih =>
    rw [authFailedState_snoc, AuthFailedState.alive_step] at hlives
    obtain ⟨hs', _⟩ := hs.snoc
    simp only [authFailedTrace_snoc, List.mem_append, or_and_right, exists_or, ← ih hlives.1 hs',
      List.mem_singleton, exists_eq_left]
    change _ ↔ _ ∨ (i.now = t ∧ ((authFailedState g events).step g i).2 = some ⟨A, d⟩)
    by_cases hi : i.ipAddress = A
    · rw [request_iff hA hlives.1 hs hi, ownHistory_snoc, if_pos hi, or_comm]
      unfold FailBan.fail
      simp only [List.mem_cons, or_and_right, exists_or, exists_eq_left, List.head?_cons,
        Option.mem_some_iff, exists_eq_left']
    · rw [ownHistory_snoc, if_neg hi]
      have hno : ((authFailedState g events).step g i).2 ≠ some ⟨A, d⟩ :=
        fun hr => hi (request_process (request_step hr).2).2.1.symm
      simp only [hno, and_false, or_false]

end RDPBlocker
