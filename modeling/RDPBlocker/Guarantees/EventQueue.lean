import RDPBlocker.Foundation.History
import RDPBlocker.Program.ConcurrentQueue

/-! The queue neither loses nor reorders a value, and nobody sleeps beside a value for ever. -/
namespace RDPBlocker.ConcurrentQueue
open Foundation Function
variable {α Θ : Type*} {labels : List (QueueLabel α Θ)} {label : QueueLabel α Θ}

theorem waitPop_eq (mQueue : List α) : waitPop mQueue = tryPop mQueue := rfl

/-- A removal hands out the oldest value, if there is one. -/
theorem popped_tryPop (mQueue : List α) : popped (tryPop mQueue) = .ok mQueue.head? := by
  cases mQueue <;> rfl

theorem pushedValues_snoc (labels : List (QueueLabel α Θ)) (label : QueueLabel α Θ) :
    pushedValues (labels ++ [label]) = pushedValues labels ++ label.pushed?.toList := by
  unfold pushedValues
  rw [List.filterMap_append]
  cases h : label.pushed? <;> simp [h]

theorem removedValues_snoc (labels : List (QueueLabel α Θ)) (label : QueueLabel α Θ) :
    removedValues (labels ++ [label]) = removedValues labels ++ label.removed?.toList := by
  unfold removedValues
  rw [List.filterMap_append]
  cases h : label.removed? <;> simp [h]

variable [DecidableEq Θ] {q q' : ConcurrentQueue α Θ}

/-- What a removal does: the thread goes on without a value, or it takes the oldest one. -/
theorem remove_cases (q : ConcurrentQueue α Θ) (t : Θ) (onEmpty : Place) :
    (q.mQueue = [] ∧ q.remove t onEmpty (tryPop q.mQueue) =
        { q with place := update q.place t onEmpty }) ∨
      ∃ value rest, q.mQueue = value :: rest ∧
        q.remove t onEmpty (tryPop q.mQueue) = ⟨rest, update q.place t .outside⟩ := by
  obtain ⟨mQueue, place⟩ := q
  cases mQueue with
  | nil => exact Or.inl ⟨rfl, rfl⟩
  | cons value rest => exact Or.inr ⟨value, rest, rfl, rfl⟩

/-- The callers have got the values in the order in which they were pushed, and a caller that got
none came when there was none. -/
structure Ordered (labels : List (QueueLabel α Θ)) (q : ConcurrentQueue α Θ) : Prop where
  fifo : removedValues labels ++ q.mQueue = pushedValues labels
  never_reads_empty : ∀ label ∈ labels, ∀ fault, label.result? ≠ some (.error fault)
  refused_when_empty : AtEach (fun past label =>
    label.result? = some (.ok none) → removedValues past = pushedValues past) labels

omit [DecidableEq Θ] in
/-- A step that takes from the front what its caller gets, and adds at the end what was pushed. -/
theorem Ordered.concat (hq : Ordered labels q)
    (hqueue : label.removed?.toList ++ q'.mQueue = q.mQueue ++ label.pushed?.toList)
    (hresult : ∀ result, label.result? = some result → result = popped (tryPop q.mQueue)) :
    Ordered (labels ++ [label]) q' where
  fifo := by
    rw [removedValues_snoc, pushedValues_snoc, ← hq.fifo, List.append_assoc, hqueue,
      List.append_assoc]
  never_reads_empty := by
    rw [List.forall_mem_append, List.forall_mem_singleton]
    refine ⟨hq.never_reads_empty, fun fault h => ?_⟩
    have herror := hresult _ h
    rw [popped_tryPop] at herror
    cases herror
  refused_when_empty := by
    refine atEach_concat.mpr ⟨hq.refused_when_empty, fun h => ?_⟩
    have hnone := hresult _ h
    rw [popped_tryPop, Except.ok.injEq, eq_comm, List.head?_eq_none_iff] at hnone
    rw [← hq.fifo, hnone, List.append_nil]

theorem Ordered.remove (hq : Ordered labels q) {t : Θ} {onEmpty : Place}
    (hpushed : label.pushed? = none)
    (hresult : label.result? = some (popped (tryPop q.mQueue))) :
    Ordered (labels ++ [label]) (q.remove t onEmpty (tryPop q.mQueue)) := by
  refine hq.concat ?_ fun result h => Option.some.inj (h.symm.trans hresult)
  have hremoved : label.removed? = q.mQueue.head? := by
    unfold QueueLabel.removed?
    rw [hresult, popped_tryPop]
  rw [hremoved, hpushed]
  rcases q.remove_cases t onEmpty with ⟨hempty, heq⟩ | ⟨value, rest, hvalue, heq⟩
  · rw [heq]
    simp [hempty]
  · rw [heq]
    simp [hvalue]

theorem Ordered.step (hq : Ordered labels q) (h : q.Step label q') :
    Ordered (labels ++ [label]) q' := by
  cases h with
  | push t value => exact hq.concat rfl fun result h => by cases h
  | notify t place =>
    exact hq.concat (List.append_nil _).symm fun result h => by cases h
  | tryPop t => exact hq.remove rfl rfl
  | waitPop t => exact hq.remove rfl rfl
  | recheck t => exact hq.remove rfl rfl
  | spurious t => exact hq.concat (List.append_nil _).symm fun result h => by cases h

variable [Fintype Θ]

/-- While somebody waits, there is a thread on its way for every value. -/
def Awake (q : ConcurrentQueue α Θ) : Prop :=
  0 < census q.place .waiting →
    q.mQueue.length ≤ census q.place .notifying + census q.place .woken

namespace Awake

theorem push (hq : q.Awake) {t : Θ} (value : α) (ht : q.place t = .outside) :
    (q.push t value).Awake := by
  intro hpos
  change 0 < census (update q.place t .notifying) .waiting at hpos
  change (q.mQueue ++ [value]).length ≤ census (update q.place t .notifying) .notifying +
    census (update q.place t .notifying) .woken
  rw [census_update_of_ne (by simp [ht]) (by decide)] at hpos
  rw [List.length_append, List.length_singleton, census_update_new (by simp [ht]),
    census_update_of_ne (by simp [ht]) (by decide)]
  have hlength := hq hpos
  omega

theorem notify (hq : q.Awake) {t : Θ} {place : Θ → Place} (ht : q.place t = .notifying)
    (hn : NotifyOne (update q.place t .outside) place) :
    ({ q with place := place } : ConcurrentQueue α Θ).Awake := by
  intro hpos
  change q.mQueue.length ≤ census place .notifying + census place .woken
  rcases hn.census_cases with ⟨hnone, _⟩ | ⟨hsome, hone, hsame⟩
  · rw [hnone] at hpos
    exact absurd hpos (Nat.lt_irrefl 0)
  · -- The one that is awake now takes the place of the one that has notified.
    have hnotifying : census (update q.place t .outside) .notifying + 1 =
        census q.place .notifying := census_update_old ht (by decide)
    rw [census_update_of_ne (by simp [ht]) (by decide)] at hsome hone
    have hlength := hq hsome
    omega

theorem remove (hq : q.Awake) {t : Θ} (ht : q.place t = .outside ∨ q.place t = .woken)
    (onEmpty : Place) : (q.remove t onEmpty (tryPop q.mQueue)).Awake := by
  intro hpos
  rcases q.remove_cases t onEmpty with ⟨hempty, heq⟩ | ⟨value, rest, hvalue, heq⟩
  · rw [heq]
    change q.mQueue.length ≤ _
    rw [hempty]
    exact Nat.zero_le _
  · rw [heq] at hpos ⊢
    -- The thread that took the value was not waiting, and at most it leaves the woken ones.
    have hwaiting : census (update q.place t .outside) .waiting = census q.place .waiting :=
      census_update_of_ne (by rcases ht with ht | ht <;> simp [ht]) (by decide)
    have hnotifying : census (update q.place t .outside) .notifying = census q.place .notifying :=
      census_update_of_ne (by rcases ht with ht | ht <;> simp [ht]) (by decide)
    have hwoken : census q.place .woken ≤ census (update q.place t .outside) .woken + 1 := by
      rcases ht with ht | ht
      · rw [census_update_of_ne (by simp [ht]) (by decide)]
        exact Nat.le_succ _
      · exact (census_update_old ht (by decide)).ge
    have hlength := hq (by rw [← hwaiting]; exact hpos)
    rw [hvalue, List.length_cons] at hlength
    change rest.length ≤ census (update q.place t .outside) .notifying +
      census (update q.place t .outside) .woken
    omega

theorem spurious (hq : q.Awake) {t : Θ} (ht : q.place t = .waiting) :
    ({ q with place := update q.place t .woken } : ConcurrentQueue α Θ).Awake := by
  intro _
  change q.mQueue.length ≤ census (update q.place t .woken) .notifying +
    census (update q.place t .woken) .woken
  rw [census_update_of_ne (by simp [ht]) (by decide), census_update_new (by simp [ht])]
  have hlength := hq (census_pos.mpr ⟨t, ht⟩)
  omega

theorem step (hq : q.Awake) (h : q.Step label q') : q'.Awake := by
  cases h with
  | push t value ht => exact hq.push value ht
  | notify t place ht hn => exact hq.notify ht hn
  | tryPop t ht => exact hq.remove (Or.inl ht) .outside
  | waitPop t ht =>
    rw [waitPop_eq]
    exact hq.remove (Or.inl ht) .waiting
  | recheck t ht =>
    rw [waitPop_eq]
    exact hq.remove (Or.inr ht) .waiting
  | spurious t ht => exact hq.spurious ht

omit [DecidableEq Θ] in
theorem no_lost_wakeup (hq : q.Awake) (hwaits : ∃ t, q.place t = .waiting) (hne : q.mQueue ≠ []) :
    ∃ t, q.place t = .notifying ∨ q.place t = .woken := by
  have hlength := List.length_pos_of_ne_nil hne
  have hsum : 0 < census q.place .notifying + census q.place .woken :=
    hlength.trans_le (hq (census_pos.mpr hwaits))
  rcases Nat.add_pos_iff_pos_or_pos.mp hsum with hpos | hpos
  · obtain ⟨t, ht⟩ := census_pos.mp hpos
    exact ⟨t, Or.inl ht⟩
  · obtain ⟨t, ht⟩ := census_pos.mp hpos
    exact ⟨t, Or.inr ht⟩

end Awake

omit [Fintype Θ] in
/-- What holds at the start and is kept by every step holds of every run. -/
theorem Run.ordered (h : Run labels q) : Ordered labels q := by
  induction h with
  | start => exact ⟨rfl, List.forall_mem_nil _, atEach_nil _⟩
  | step _ hstep ih => exact ih.step hstep

theorem Run.awake (h : Run labels q) : q.Awake := by
  induction h with
  | start => exact fun _ => Nat.zero_le _
  | step _ hstep ih => exact ih.step hstep

/-- The steps that end what has been begun: nobody starts an operation or wakes for nothing. -/
def Settles : QueueLabel α Θ → Prop
  | .notify _ | .recheck _ _ => True
  | _ => False

def Settle (q q' : ConcurrentQueue α Θ) : Prop := ∃ label, Settles label ∧ q.Step label q'

/-- The steps that are left before the operations begun have ended. -/
def unsettled (q : ConcurrentQueue α Θ) : ℕ :=
  2 * census q.place .notifying + census q.place .woken

theorem unsettled_lt (h : Settle q q') : q'.unsettled < q.unsettled := by
  obtain ⟨label, hsettles, hstep⟩ := h
  unfold unsettled
  cases hstep with
  | notify t place ht hn =>
    have hnotifying : census (update q.place t .outside) .notifying + 1 =
        census q.place .notifying := census_update_old ht (by decide)
    have hwoken : census (update q.place t .outside) .woken = census q.place .woken :=
      census_update_of_ne (by simp [ht]) (by decide)
    change 2 * census place .notifying + census place .woken < _
    rcases hn.census_cases with ⟨_, hsame⟩ | ⟨_, hone, hsame⟩
    · rw [hsame]
      omega
    · omega
  | recheck t ht =>
    -- Wherever the thread goes, it is no longer woken.
    have hleaves : ∀ place : Place, place ≠ .notifying → place ≠ .woken →
        2 * census (update q.place t place) .notifying + census (update q.place t place) .woken <
          2 * census q.place .notifying + census q.place .woken := by
      intro place hnotifying hwoken
      have hold : census (update q.place t place) .woken + 1 = census q.place .woken :=
        census_update_old ht hwoken
      rw [census_update_of_ne (by simp [ht]) hnotifying]
      omega
    rw [waitPop_eq]
    rcases q.remove_cases t .waiting with ⟨_, heq⟩ | ⟨value, rest, _, heq⟩
    · rw [heq]
      exact hleaves .waiting (by decide) (by decide)
    · rw [heq]
      exact hleaves .outside (by decide) (by decide)
  | push => exact hsettles.elim
  | tryPop => exact hsettles.elim
  | waitPop => exact hsettles.elim
  | spurious => exact hsettles.elim

omit [Fintype Θ] in
theorem Run.exists_of_settle (h : Run labels q) (hs : Relation.ReflTransGen Settle q q') :
    ∃ more, Run (labels ++ more) q' := by
  induction hs with
  | refl =>
    refine ⟨[], ?_⟩
    rw [List.append_nil]
    exact h
  | tail _ hstep ih =>
    obtain ⟨more, hrun⟩ := ih
    obtain ⟨label, -, hstep⟩ := hstep
    refine ⟨more ++ [label], ?_⟩
    rw [← List.append_assoc]
    exact hrun.step hstep

omit [Fintype Θ] in
theorem exists_settle {t : Θ} (ht : q.place t = .notifying ∨ q.place t = .woken) :
    ∃ q', Settle q q' := by
  rcases ht with ht | ht
  · obtain ⟨place, hn⟩ := NotifyOne.exists_result (update q.place t .outside)
    exact ⟨_, .notify t, trivial, .notify t place ht hn⟩
  · exact ⟨_, .recheck t _, trivial, .recheck t ht⟩

/-- A first-in first-out queue that wakes its consumers. -/
structure Lossless (labels : List (QueueLabel α Θ)) (q : ConcurrentQueue α Θ) : Prop
    extends Ordered labels q where
  awake : (∃ t, q.place t = .waiting) →
    q.mQueue.length ≤ census q.place .notifying + census q.place .woken
  /-- Beside a value, nobody waits unless a thread is on its way to notify or to look. -/
  no_lost_wakeup : (∃ t, q.place t = .waiting) → q.mQueue ≠ [] →
    ∃ t, q.place t = .notifying ∨ q.place t = .woken
  /-- The operations begun end in every order, and then nobody waits beside a value. -/
  ends : Acc (fun after before => Settle before after) q
  at_rest : ∀ q', Relation.ReflTransGen Settle q q' → (∀ q'', ¬ Settle q' q'') →
    (∃ t, q'.place t = .waiting) → q'.mQueue = []

theorem queue_is_lossless (h : Run labels q) : Lossless labels q := by
  refine ⟨h.ordered, fun hwaits => h.awake (census_pos.mpr hwaits), h.awake.no_lost_wakeup, ?_,
    fun q' hsettle hstuck hwaits => ?_⟩
  · exact (Subrelation.wf unsettled_lt (measure unsettled).wf).apply q
  · by_contra hne
    obtain ⟨more, hrun⟩ := h.exists_of_settle hsettle
    obtain ⟨t, ht⟩ := hrun.awake.no_lost_wakeup hwaits hne
    obtain ⟨q'', hstep⟩ := exists_settle ht
    exact hstuck q'' hstep

/-- A consumer sleeps, and the value that it is woken for is gone: another one has come between the
unlock and the notification. Then there is a new value. -/
def stolenValue : List (QueueLabel String (Fin 3)) :=
  [.waitPop 0 (.ok none), .push 1 "first", .tryPop 2 (.ok (some "first")), .notify 1,
    .recheck 0 (.ok none), .push 1 "second"]

theorem queue_is_lossless_stolenValue : ∃ q : ConcurrentQueue String (Fin 3),
    Run stolenValue q ∧ q.mQueue = ["second"] ∧ q.place 0 = .waiting ∧ Lossless stolenValue q := by
  have hstart : Run ([] : List (QueueLabel String (Fin 3))) start := Run.start
  have hasleep := hstart.step (Step.waitPop 0 rfl)
  have hfirst := hasleep.step (Step.push 1 "first" (by decide))
  have hstolen := hfirst.step (Step.tryPop 2 (by decide))
  have hwoken := hstolen.step (Step.notify 1 _ (by decide) (NotifyOne.one 0 (by decide)))
  have hagain := hwoken.step (Step.recheck 0 (by decide))
  have hrun : Run stolenValue _ := hagain.step (Step.push 1 "second" (by decide))
  exact ⟨_, hrun, rfl, by decide, queue_is_lossless hrun⟩

end RDPBlocker.ConcurrentQueue
