import Mathlib

/-!
# Structured commands

Commands are built from actions of a machine by sequence, by counted loops and by blocks. An action
lets the command go on, stops the loop around it, or exits with a value; a machine may also be stuck
(`none`). `Code.exec` executes a command.

`Triple` is total correctness: from a state that satisfies the precondition the command is not
stuck, and it ends as the postcondition says for the way it ends. There is one rule for each form of
command; that of a loop takes an invariant which depends on the counter.
-/

namespace Commands

universe u v w x

/-- Commands over the actions `α`, with the bounds `β` for loops. -/
inductive Code (α : Type u) (β : Type v) : Type (max u v) where
  | skip : Code α β
  | act (a : α) : Code α β
  | seq (c d : Code α β) : Code α β
  /-- `c`, with the counter at 0, 1, … below the bound -/
  | loop (b : β) (c : Code α β) : Code α β
  | block (c : Code α β) : Code α β
  deriving DecidableEq

/-- How a command ends. -/
inductive Flow (ρ : Type u) : Type u where
  | next : Flow ρ
  /-- the loop around it ends -/
  | stop : Flow ρ
  | exit (r : ρ) : Flow ρ
  deriving DecidableEq

/-- A machine with states `σ` and exit values `ρ`. -/
structure Machine (α : Type u) (β : Type v) (σ : Type w) (ρ : Type x) : Type (max u v w x) where
  act : α → σ → Option (Flow ρ × σ)
  /-- how often a loop is entered -/
  bound : β → σ → Option ℕ
  /-- sets the counter -/
  count : ℕ → σ → σ

namespace Code

variable {α : Type u} {β : Type v} {σ : Type w} {ρ : Type x}

/-- The commands one after the other. -/
def all : List (Code α β) → Code α β
  | [] => skip
  | c :: cs => c.seq (all cs)

/-- The actions one after the other. -/
def acts (as : List α) : Code α β := all (as.map act)

/-- `n` rounds of a loop, of which the first has the counter `i`. -/
def rounds (body : σ → Option (Flow ρ × σ)) (count : ℕ → σ → σ) :
    ℕ → ℕ → σ → Option (Flow ρ × σ)
  | 0, _, s => some (.next, s)
  | n + 1, i, s =>
    match body (count i s) with
    | some (.next, s') => rounds body count n (i + 1) s'
    | some (.stop, s') => some (.next, s')
    | some (.exit r, s') => some (.exit r, s')
    | none => none

/-- Execution. -/
def exec (M : Machine α β σ ρ) : Code α β → σ → Option (Flow ρ × σ)
  | skip, s => some (.next, s)
  | act a, s => M.act a s
  | seq c d, s =>
    match c.exec M s with
    | some (.next, s') => d.exec M s'
    | ended => ended
  | loop b c, s => (M.bound b s).bind fun n => rounds (c.exec M) M.count n 0 s
  | block c, s => c.exec M s

end Code

/-- What holds after each way to end. -/
structure Post (σ : Type w) (ρ : Type x) : Type (max w x) where
  next : σ → Prop
  stop : σ → Prop
  exit : ρ → σ → Prop

namespace Post

variable {σ : Type w} {ρ : Type x}

/-- The postcondition, for the way the command ended. -/
def Holds (Q : Post σ ρ) : Flow ρ → σ → Prop
  | .next => Q.next
  | .stop => Q.stop
  | .exit r => Q.exit r

/-- The same, with another condition for going on. -/
def withNext (Q : Post σ ρ) (R : σ → Prop) : Post σ ρ := { Q with next := R }

end Post

/-- **Total correctness.** -/
def Triple {α : Type u} {β : Type v} {σ : Type w} {ρ : Type x} (M : Machine α β σ ρ)
    (P : σ → Prop) (c : Code α β) (Q : Post σ ρ) : Prop :=
  ∀ s, P s → ∃ f s', c.exec M s = some (f, s') ∧ Q.Holds f s'

namespace Triple

variable {α : Type u} {β : Type v} {σ : Type w} {ρ : Type x} {M : Machine α β σ ρ}
  {P R : σ → Prop} {c d : Code α β} {Q Q' : Post σ ρ}

theorem pre (h : Triple M R c Q) (hpre : ∀ s, P s → R s) : Triple M P c Q :=
  fun s hs => h s (hpre s hs)

theorem post (h : Triple M P c Q) (hpost : ∀ f s, Q.Holds f s → Q'.Holds f s) :
    Triple M P c Q' := by
  intro s hs
  obtain ⟨f, s', hexec, hQ⟩ := h s hs
  exact ⟨f, s', hexec, hpost f s' hQ⟩

/-- The condition for going on may be weakened. -/
theorem next {R' : σ → Prop} (h : Triple M P c (Q.withNext R)) (hnext : ∀ s, R s → R' s) :
    Triple M P c (Q.withNext R') := by
  refine h.post fun f s hQ => ?_
  cases f with
  | next => exact hnext s hQ
  | stop => exact hQ
  | exit r => exact hQ

theorem skip : Triple M P .skip (Q.withNext P) :=
  fun s hs => ⟨.next, s, rfl, hs⟩

theorem act {a : α} (h : ∀ s, P s → ∃ f s', M.act a s = some (f, s') ∧ Q.Holds f s') :
    Triple M P (.act a) Q := h

/-- An action after which the command goes on. -/
theorem act_next {a : α} (h : ∀ s, P s → ∃ s', M.act a s = some (.next, s') ∧ R s') :
    Triple M P (.act a) (Q.withNext R) := by
  intro s hs
  obtain ⟨s', hact, hR⟩ := h s hs
  exact ⟨.next, s', hact, hR⟩

theorem seq (hc : Triple M P c (Q.withNext R)) (hd : Triple M R d Q) :
    Triple M P (c.seq d) Q := by
  intro s hs
  obtain ⟨f, s', hexec, hQ⟩ := hc s hs
  cases f with
  | next =>
    obtain ⟨f', s'', hexec', hQ'⟩ := hd s' hQ
    exact ⟨f', s'', by rw [Code.exec, hexec]; exact hexec', hQ'⟩
  | stop => exact ⟨.stop, s', by rw [Code.exec, hexec], hQ⟩
  | exit r => exact ⟨.exit r, s', by rw [Code.exec, hexec], hQ⟩

/-- What a precondition leaves open may be fixed. -/
theorem exists_pre {ι : Type} {P R : ι → σ → Prop} (h : ∀ i, Triple M (P i) c (Q.withNext (R i))) :
    Triple M (fun s => ∃ i, P i s) c (Q.withNext fun s => ∃ i, R i s) := by
  rintro s ⟨i, hs⟩
  exact (h i).next (fun _ h => ⟨i, h⟩) s hs

theorem block (h : Triple M P c Q) : Triple M P (.block c) Q := h

/-- A sequence of commands: `I` says what holds before each of them. -/
theorem all {cs : List (Code α β)} {I : ℕ → σ → Prop}
    (h : ∀ i (hi : i < cs.length), Triple M (I i) cs[i] (Q.withNext (I (i + 1)))) :
    Triple M (I 0) (.all cs) (Q.withNext (I cs.length)) := by
  induction cs generalizing I with
  | nil => exact skip
  | cons c cs ih =>
    refine seq (h 0 (Nat.succ_pos _)) ?_
    exact ih (I := fun i => I (i + 1)) fun i hi => h (i + 1) (Nat.succ_lt_succ hi)

/-- **Loops.** `I i` is the invariant before the round with the counter `i`, `B` what holds when the
loop is stopped. -/
theorem loop {b : β} {n : ℕ} {I : ℕ → σ → Prop} {B : σ → Prop} {E : ρ → σ → Prop}
    (hbound : ∀ s, I 0 s → M.bound b s = some n)
    (hbody : ∀ i, i < n → Triple M (fun s => ∃ s₀, I i s₀ ∧ s = M.count i s₀) c
      ⟨I (i + 1), B, E⟩)
    (hnext : ∀ s, I n s → R s) (hstop : ∀ s, B s → R s)
    (hexit : ∀ r s, E r s → Q.exit r s) :
    Triple M (I 0) (.loop b c) (Q.withNext R) := by
  have hrounds : ∀ k i, i + k = n → ∀ s, I i s →
      ∃ f s', Code.rounds (c.exec M) M.count k i s = some (f, s') ∧ (Q.withNext R).Holds f s' := by
    intro k
    induction k with
    | zero =>
      rintro i rfl s hs
      exact ⟨.next, s, rfl, hnext s hs⟩
    | succ k ih =>
      intro i hi s hs
      obtain ⟨f, s', hexec, hQ⟩ := hbody i (by omega) _ ⟨s, hs, rfl⟩
      rw [Code.rounds, hexec]
      cases f with
      | next => exact ih (i + 1) (by omega) s' hQ
      | stop => exact ⟨.next, s', rfl, hstop s' hQ⟩
      | exit r => exact ⟨.exit r, s', rfl, hexit r s' hQ⟩
  intro s hs
  rw [Code.exec, hbound s hs]
  exact hrounds n 0 (Nat.zero_add n) s hs

end Triple

end Commands
