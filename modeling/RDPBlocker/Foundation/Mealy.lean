import Mathlib.Data.List.Basic
import Mathlib.Data.List.Induction

/-! Runs of a deterministic machine that answers every input with one output. -/
namespace Foundation.Mealy
variable {σ ι ω : Type*}

/-- One step of a run, with the states around it. -/
structure Transition (σ ι ω : Type*) where
  source : σ
  input : ι
  output : ω
  target : σ

def transition (step : σ → ι → σ × ω) (s : σ) (i : ι) : Transition σ ι ω :=
  ⟨s, i, (step s i).2, (step s i).1⟩

/-- The state a run ends in. -/
def final (step : σ → ι → σ × ω) (s : σ) (is : List ι) : σ :=
  is.foldl (fun s i => (step s i).1) s

/-- The transitions of a run, oldest first. -/
def trace (step : σ → ι → σ × ω) : σ → List ι → List (Transition σ ι ω)
  | _, [] => []
  | s, i :: is => transition step s i :: trace step (step s i).1 is

variable (step : σ → ι → σ × ω) (s : σ)

@[simp] theorem final_nil : final step s [] = s := rfl

@[simp] theorem final_cons (i : ι) (is : List ι) :
    final step s (i :: is) = final step (step s i).1 is := rfl

theorem final_append (is js : List ι) :
    final step s (is ++ js) = final step (final step s is) js := List.foldl_append

@[simp] theorem final_snoc (is : List ι) (i : ι) :
    final step s (is ++ [i]) = (step (final step s is) i).1 := by
  rw [final_append, final_cons, final_nil]

@[simp] theorem trace_nil : trace step s [] = [] := rfl

theorem trace_append (is js : List ι) :
    trace step s (is ++ js) = trace step s is ++ trace step (final step s is) js := by
  induction is generalizing s with
  | nil => rfl
  | cons i is ih => simp only [List.cons_append, trace, ih, final_cons]

@[simp] theorem trace_snoc (is : List ι) (i : ι) :
    trace step s (is ++ [i]) = trace step s is ++ [transition step (final step s is) i] := by
  rw [trace_append]
  rfl

@[simp] theorem trace_map_input (is : List ι) : (trace step s is).map (·.input) = is := by
  induction is generalizing s with
  | nil => rfl
  | cons i is ih => simp only [trace, List.map_cons, transition, ih]

/-- A transition of a run starts where the inputs before it end. -/
theorem mem_trace {is : List ι} {x : Transition σ ι ω} (hx : x ∈ trace step s is) :
    ∃ before after, is = before ++ x.input :: after ∧
      x = transition step (final step s before) x.input := by
  induction is generalizing s with
  | nil => cases hx
  | cons i is ih =>
    rcases List.mem_cons.mp hx with rfl | hx
    · exact ⟨[], is, rfl, rfl⟩
    · obtain ⟨before, after, hsplit, heq⟩ := ih _ hx
      exact ⟨i :: before, after, by rw [hsplit]; rfl, heq⟩

theorem input_mem_of_mem_trace {is : List ι} {x : Transition σ ι ω} (hx : x ∈ trace step s is) :
    x.input ∈ is := by
  rw [← trace_map_input step s is]
  exact List.mem_map_of_mem hx

/-- When what a run shows at the inputs of one kind depends on those inputs alone, all others
can be deleted from it. -/
theorem map_trace_filter {α : Type*} (kind : ι → Bool) (shown : Transition σ ι ω → α) {is : List ι}
    (h : ∀ before i after, is = before ++ i :: after → kind i = true →
      shown (transition step (final step s before) i) =
        shown (transition step (final step s (before.filter kind)) i)) :
    ((trace step s is).filter fun x => kind x.input).map shown =
      (trace step s (is.filter kind)).map shown := by
  induction is using List.reverseRecOn with
  | nil => rfl
  | append_singleton is i ih =>
    have hih := ih fun before j after hsplit =>
      h before j (after ++ [i]) (by rw [hsplit, List.append_assoc, List.cons_append])
    rw [trace_snoc, List.filter_append, List.filter_append, List.map_append, hih]
    cases hi : kind i with
    | true =>
      have hkeep : [i].filter kind = [i] := List.filter_cons_of_pos hi
      have hshown : ([transition step (final step s is) i].filter fun x => kind x.input) =
          [transition step (final step s is) i] := List.filter_cons_of_pos hi
      rw [hkeep, hshown, trace_snoc, List.map_append, List.map_singleton, List.map_singleton,
        h is i [] rfl hi]
    | false =>
      have hdrop : [i].filter kind = [] := List.filter_cons_of_neg (by simp [hi])
      have hhidden : ([transition step (final step s is) i].filter fun x => kind x.input) = [] :=
        List.filter_cons_of_neg (by simp [transition, hi])
      rw [hdrop, hhidden, List.append_nil, List.map_nil, List.append_nil]

end Foundation.Mealy
