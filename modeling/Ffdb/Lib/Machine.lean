import Mathlib.Tactic.Linarith

/-! Deterministic machines that consume inputs and emit observations, with the two
rules every development about their runs needs: facts about states are preserved,
and relations between the two ends of a run compose. -/
namespace Machine
variable {σ ι ο : Type*}

def run (step : σ → ι → σ) : σ → List ι → σ
  | s, [] => s
  | s, i :: is => run step (step s i) is

def trace (step : σ → ι → σ) (out : σ → ι → List ο) : σ → List ι → List ο
  | _, [] => []
  | s, i :: is => out s i ++ trace step out (step s i) is

variable {step : σ → ι → σ} {out : σ → ι → List ο}

theorem run_append (s : σ) (is js : List ι) :
    run step s (is ++ js) = run step (run step s is) js := by
  induction is generalizing s with
  | nil => rfl
  | cons i is ih => exact ih (step s i)

theorem trace_append (s : σ) (is js : List ι) :
    trace step out s (is ++ js) = trace step out s is ++ trace step out (run step s is) js := by
  induction is generalizing s with
  | nil => rfl
  | cons i is ih => simp [trace, run, ih]

theorem mem_trace {s : σ} {is : List ι} {o : ο} (h : o ∈ trace step out s is) :
    ∃ before i after, is = before ++ i :: after ∧ o ∈ out (run step s before) i := by
  induction is generalizing s with
  | nil => simp [trace] at h
  | cons i is ih =>
    rcases List.mem_append.mp h with ho | ho
    · exact ⟨[], i, is, rfl, ho⟩
    · obtain ⟨before, j, after, hsplit, hj⟩ := ih ho
      exact ⟨i :: before, j, after, by rw [hsplit]; rfl, hj⟩

/-- A fact preserved by every admitted input holds at the end of the run, and what it
implies of single observations holds of all of them. -/
theorem run_invariant {A : ι → Prop} {P : σ → Prop} {Q : ο → Prop}
    (hstep : ∀ s i, A i → P s → P (step s i) ∧ ∀ o ∈ out s i, Q o)
    (s : σ) (is : List ι) (ha : ∀ i ∈ is, A i) (hp : P s) :
    P (run step s is) ∧ ∀ o ∈ trace step out s is, Q o := by
  induction is generalizing s with
  | nil => exact ⟨hp, by simp [trace]⟩
  | cons i is ih =>
    obtain ⟨hnext, hout⟩ := hstep s i (ha i (by simp)) hp
    obtain ⟨hend, htail⟩ := ih (step s i) (fun j hj => ha j (List.mem_cons_of_mem i hj)) hnext
    refine ⟨hend, ?_⟩
    intro o ho
    rcases List.mem_append.mp ho with ho | ho
    · exact hout o ho
    · exact htail o ho

/-- A fact that every step preserves holds at the end of the run. -/
theorem run_preserves {P : σ → Prop} (hstep : ∀ s i, P s → P (step s i)) (s : σ) (is : List ι)
    (hp : P s) : P (run step s is) := by
  induction is generalizing s with
  | nil => exact hp
  | cons i is ih => exact ih (step s i) (hstep s i hp)

/-- A fact that every admitted step preserves holds at the end of the run. -/
theorem run_preserves_of {A : ι → Prop} {P : σ → Prop} (hstep : ∀ s i, A i → P s → P (step s i)) (s : σ)
    (is : List ι) (ha : ∀ i ∈ is, A i) (hp : P s) : P (run step s is) := by
  induction is generalizing s with
  | nil => exact hp
  | cons i is ih =>
    exact ih (step s i) (fun j hj => ha j (List.mem_cons_of_mem i hj)) (hstep s i (ha i List.mem_cons_self) hp)

/-- A fact that every step preserves where it is admitted holds at the end of a run whose steps all are. -/
theorem run_preserves_at {A : σ → ι → Prop} {P : σ → Prop} (hstep : ∀ s i, A s i → P s → P (step s i)) (s : σ)
    (is : List ι) (ha : ∀ before i after, is = before ++ i :: after → A (run step s before) i) (hp : P s) :
    P (run step s is) := by
  induction is generalizing s with
  | nil => exact hp
  | cons i is ih =>
    refine ih (step s i) (fun before j after hsplit => ?_) (hstep s i (ha [] i is rfl) hp)
    exact ha (i :: before) j after (by rw [hsplit]; rfl)

/-- A composable relation that every admitted step establishes holds across the run. -/
theorem run_relation {A : ι → Prop} {R : σ → List ο → σ → Prop}
    (refl : ∀ s, R s [] s)
    (trans : ∀ {s t u os os'}, R s os t → R t os' u → R s (os ++ os') u)
    (hstep : ∀ s i, A i → R s (out s i) (step s i))
    (s : σ) (is : List ι) (ha : ∀ i ∈ is, A i) :
    R s (trace step out s is) (run step s is) := by
  induction is generalizing s with
  | nil => exact refl s
  | cons i is ih =>
    exact trans (hstep s i (ha i (by simp)))
      (ih (step s i) fun j hj => ha j (List.mem_cons_of_mem i hj))

section Points
variable {P : List ι → ι → Prop} {i : ι} {is : List ι}

/-- What holds at every point of a list of inputs holds at its first, and at those after it. -/
theorem forall_point_cons (hfirst : P [] i)
    (hrest : ∀ before j after, is = before ++ j :: after → P (i :: before) j) :
    ∀ before j after, i :: is = before ++ j :: after → P before j := by
  intro before j after hsplit
  cases before with
  | nil =>
    obtain ⟨rfl, -⟩ := List.cons.inj hsplit
    exact hfirst
  | cons k before =>
    obtain ⟨rfl, hrest'⟩ := List.cons.inj hsplit
    exact hrest before j after hrest'

theorem forall_point_of_take (h : ∀ n (hn : n < is.length), P (is.take n) (is.get ⟨n, hn⟩)) :
    ∀ before j after, is = before ++ j :: after → P before j := by
  rintro before j after rfl
  simpa using h before.length (by simp)

theorem forall_point_nil : ∀ before j after, [] = before ++ j :: after → P before j := by
  intro before j after hsplit
  simp at hsplit

end Points

end Machine
