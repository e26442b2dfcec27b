import Mathlib.Data.List.Basic
import Mathlib.Data.Nat.Notation

/-!
# Runs of a partial machine

A machine takes inputs `ι` one after the other, answers each with an output `ο`, and may be
stuck (`none`). `run` is its run over a list of inputs, with the outputs in order.

Invariants may speak about the outputs so far: `run_invariant` carries one along a run,
`run_total` shows in addition that the run is never stuck, `run_until` that it is stuck in certain
states only, and `run_split` cuts a run at any of its outputs. `run_bisim` compares the runs of two
machines.
-/

namespace Runs

universe u v w x

variable {σ : Type u} {ι : Type v} {ο : Type w}

/-- The run of a machine over a list of inputs. -/
def run (step : σ → ι → Option (ο × σ)) : σ → List ι → Option (List ο × σ)
  | s, [] => some ([], s)
  | s, i :: is => do
    let stepped ← step s i
    let rest ← run step stepped.2 is
    some (stepped.1 :: rest.1, rest.2)

variable {step : σ → ι → Option (ο × σ)}

@[simp] theorem run_nil (s : σ) : run step s [] = some ([], s) := rfl

/-- Inversion of a run over at least one input. -/
theorem run_cons_eq_some {s s' : σ} {i : ι} {is : List ι} {os : List ο}
    (h : run step s (i :: is) = some (os, s')) :
    ∃ o s₁ os', step s i = some (o, s₁) ∧ run step s₁ is = some (os', s') ∧ os = o :: os' := by
  simp only [run, Option.bind_eq_bind, Option.bind_eq_some_iff] at h
  obtain ⟨⟨o, s₁⟩, hstep, ⟨os', s₂⟩, hrun, heq⟩ := h
  cases heq
  exact ⟨o, s₁, os', hstep, hrun, rfl⟩

theorem run_cons {s s₁ s' : σ} {i : ι} {is : List ι} {o : ο} {os : List ο}
    (hstep : step s i = some (o, s₁)) (hrun : run step s₁ is = some (os, s')) :
    run step s (i :: is) = some (o :: os, s') := by
  simp only [run, hstep, hrun, Option.bind_eq_bind, Option.bind_some]

theorem run_append {s s₁ : σ} {is more : List ι} {os : List ο}
    (h : run step s is = some (os, s₁)) :
    run step s (is ++ more) = (run step s₁ more).map fun r => (os ++ r.1, r.2) := by
  induction is generalizing s os with
  | nil =>
    cases h
    simp
  | cons i is ih =>
    obtain ⟨o, s₂, os', hstep, hrun, rfl⟩ := run_cons_eq_some h
    simp only [List.cons_append, run, hstep, ih hrun, Option.bind_eq_bind, Option.bind_some]
    cases run step s₁ more <;> rfl

theorem run_length {s s' : σ} {is : List ι} {os : List ο} (h : run step s is = some (os, s')) :
    os.length = is.length := by
  induction is generalizing s os with
  | nil =>
    cases h
    rfl
  | cons i is ih =>
    obtain ⟨o, s₁, os', -, hrun, rfl⟩ := run_cons_eq_some h
    simp [ih hrun]

/-- **Invariants of a run**: what every step on an admissible input keeps, given the outputs
so far, holds at the end of every run over admissible inputs. -/
theorem run_invariant {P : List ο → σ → Prop} {A : ι → Prop}
    (hstep : ∀ {h s i o s'}, P h s → A i → step s i = some (o, s') → P (h ++ [o]) s')
    {h : List ο} {s s' : σ} {is : List ι} {os : List ο} (hP : P h s)
    (his : ∀ i ∈ is, A i) (hrun : run step s is = some (os, s')) : P (h ++ os) s' := by
  induction is generalizing h s os with
  | nil =>
    cases hrun
    simpa using hP
  | cons i is ih =>
    obtain ⟨o, s₁, os', hs, hrun', rfl⟩ := run_cons_eq_some hrun
    have hP₁ := hstep hP (his i (List.mem_cons_self ..)) hs
    simpa using ih hP₁ (fun j hj => his j (List.mem_cons_of_mem _ hj)) hrun'

/-- **Runs that are never stuck**: if from a state of the invariant every admissible input
has a step, and the step keeps the invariant, every run over admissible inputs exists. -/
theorem run_total {P : List ο → σ → Prop} {A : ι → Prop}
    (hstep : ∀ {h s i}, P h s → A i → ∃ o s', step s i = some (o, s') ∧
      P (h ++ [o]) s')
    {h : List ο} {s : σ} {is : List ι} (hP : P h s) (his : ∀ i ∈ is, A i) :
    ∃ os s', run step s is = some (os, s') ∧ P (h ++ os) s' := by
  induction is generalizing h s with
  | nil => exact ⟨[], s, rfl, by simpa using hP⟩
  | cons i is ih =>
    obtain ⟨o, s₁, hs, hP₁⟩ := hstep hP (his i (List.mem_cons_self ..))
    obtain ⟨os, s', hrun, hP'⟩ := ih hP₁ fun j hj => his j (List.mem_cons_of_mem _ hj)
    exact ⟨o :: os, s', run_cons hs hrun, by simpa using hP'⟩

/-- **Runs that are stuck at `B` only**: if from a state of the invariant every input has a step
that keeps the invariant, unless it is one at which `B` holds, the run goes on until there is one.
-/
theorem run_until {P : List ο → σ → Prop} {B : σ → ι → Prop}
    (hstep : ∀ {h s i}, P h s → ¬ B s i → ∃ o s', step s i = some (o, s') ∧ P (h ++ [o]) s')
    {h : List ο} {s : σ} (hP : P h s) (is : List ι) :
    ∃ before after os s', is = before ++ after ∧ run step s before = some (os, s') ∧
      P (h ++ os) s' ∧ ∀ i ∈ after.head?, B s' i := by
  induction is generalizing h s with
  | nil => exact ⟨[], [], [], s, rfl, rfl, by simpa using hP, by simp⟩
  | cons i is ih =>
    by_cases hB : B s i
    · exact ⟨[], i :: is, [], s, rfl, rfl, by simpa using hP, by simpa using hB⟩
    · obtain ⟨o, s₁, hs, hP₁⟩ := hstep hP hB
      obtain ⟨before, after, os, s', rfl, hrun, hP', hafter⟩ := ih hP₁
      exact ⟨i :: before, after, o :: os, s', rfl, run_cons hs hrun, by simpa using hP', hafter⟩

/-- **Cutting a run** at one of its outputs. -/
theorem run_split {s s' : σ} {is : List ι} {pre post : List ο} {o : ο}
    (hrun : run step s is = some (pre ++ o :: post, s')) :
    ∃ is₁ i is₂ s₁ s₂, is = is₁ ++ i :: is₂ ∧ run step s is₁ = some (pre, s₁) ∧
      step s₁ i = some (o, s₂) ∧ run step s₂ is₂ = some (post, s') := by
  induction pre generalizing s is with
  | nil =>
    obtain _ | ⟨i, is⟩ := is
    · cases hrun
    · obtain ⟨o', s₁, os', hs, hrun', heq⟩ := run_cons_eq_some hrun
      obtain ⟨rfl, rfl⟩ := List.cons.inj heq
      exact ⟨[], i, is, s, s₁, rfl, rfl, hs, hrun'⟩
  | cons p pre ih =>
    obtain _ | ⟨i, is⟩ := is
    · cases hrun
    · obtain ⟨o', s₁, os', hs, hrun', heq⟩ := run_cons_eq_some hrun
      obtain ⟨rfl, rfl⟩ := List.cons.inj heq
      obtain ⟨is₁, j, is₂, s₂, s₃, rfl, hrun₁, hs₂, hrun₂⟩ := ih hrun'
      exact ⟨i :: is₁, j, is₂, s₂, s₃, rfl, run_cons hs hrun₁, hs₂, hrun₂⟩

/-- **The beginning of a run** is the run over its first inputs. -/
theorem run_take {s s' : σ} {is : List ι} {pre post : List ο}
    (hrun : run step s is = some (pre ++ post, s')) :
    ∃ s₁, run step s (is.take pre.length) = some (pre, s₁) := by
  induction pre generalizing s is with
  | nil => exact ⟨s, rfl⟩
  | cons p pre ih =>
    obtain _ | ⟨i, is⟩ := is
    · cases hrun
    · obtain ⟨o, s₁, os, hs, hrun', heq⟩ := run_cons_eq_some hrun
      obtain ⟨rfl, rfl⟩ := List.cons.inj heq
      obtain ⟨s₂, hrun₂⟩ := ih hrun'
      exact ⟨s₂, run_cons hs hrun₂⟩

/-- **At each output of a run** the invariant holds of the outputs before it, in the state
the step starts from. -/
theorem run_at {P : List ο → σ → Prop} {A : ι → Prop}
    (hstep : ∀ {h s i o s'}, P h s → A i → step s i = some (o, s') → P (h ++ [o]) s')
    {s s' : σ} {is : List ι} {pre post : List ο} {o : ο} (hP : P [] s)
    (his : ∀ i ∈ is, A i) (hrun : run step s is = some (pre ++ o :: post, s')) :
    ∃ i s₁ s₂, A i ∧ P pre s₁ ∧ step s₁ i = some (o, s₂) := by
  obtain ⟨is₁, i, is₂, s₁, s₂, rfl, hrun₁, hs, -⟩ := run_split hrun
  refine ⟨i, s₁, s₂, his i (by simp), ?_, hs⟩
  have := run_invariant hstep hP (fun j hj => his j (List.mem_append_left _ hj)) hrun₁
  simpa using this

/-- **Two machines that look alike**: if on every admissible input both have a step with the
same output, from every two related states to two related states, then over admissible inputs
both have a run, with the same outputs. -/
theorem run_bisim {σ' : Type x} {step' : σ' → ι → Option (ο × σ')} {R : σ → σ' → Prop}
    {A : ι → Prop}
    (hstep : ∀ {s s' i}, R s s' → A i → ∃ o s₁ s₁', step s i = some (o, s₁) ∧
      step' s' i = some (o, s₁') ∧ R s₁ s₁')
    {s : σ} {s' : σ'} {is : List ι} (hR : R s s') (his : ∀ i ∈ is, A i) :
    ∃ os s₁ s₁', run step s is = some (os, s₁) ∧ run step' s' is = some (os, s₁') ∧
      R s₁ s₁' := by
  induction is generalizing s s' with
  | nil => exact ⟨[], s, s', rfl, rfl, hR⟩
  | cons i is ih =>
    obtain ⟨o, s₁, s₁', hs, hs', hR₁⟩ := hstep hR (his i (List.mem_cons_self ..))
    obtain ⟨os, s₂, s₂', hrun, hrun', hR₂⟩ := ih hR₁ fun j hj => his j (List.mem_cons_of_mem _ hj)
    exact ⟨o :: os, s₂, s₂', run_cons hs hrun, run_cons hs' hrun', hR₂⟩

end Runs
