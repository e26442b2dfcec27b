import Mathlib

/-!
# Readers and writers over streams

A source hands out one symbol at a time or an error, a sink takes one symbol at a time or refuses
it with an error. `push` hands a list to a sink. A `Reader` says how the next symbol is used, or
that reading has ended with a value or an error; `Reader.run` runs it on a source.

`Takes` says which symbols lead a reader to a value, `Ensures` bounds the symbols that it takes and
says what holds of its values. What a reader does on any source follows: `Takes.run` if the source
supplies the symbols, `Takes.run_short` if it ends before, `Ensures.run` on every source.
-/

namespace Streams

universe u v w x y

variable {β : Type u} {ε : Type v} {σ : Type w}

/-! ## Sinks -/

/-- Hands a list to a sink, up to the first error. -/
def push (put : β → σ → Option ε × σ) : List β → σ → Option ε × σ
  | [], s => (none, s)
  | b :: bs, s =>
    match put b s with
    | (none, s') => push put bs s'
    | refused => refused

variable {put : β → σ → Option ε × σ}

/-- A list of which the first part is taken. -/
theorem push_append {bs : List β} {s s' : σ} (h : push put bs s = (none, s')) (cs : List β) :
    push put (bs ++ cs) s = push put cs s' := by
  induction bs generalizing s with
  | nil =>
    cases h
    rfl
  | cons b bs ih =>
    rw [push] at h
    rcases hput : put b s with ⟨_ | e, s₁⟩
    · rw [hput] at h
      rw [List.cons_append, push, hput]
      exact ih h
    · rw [hput] at h
      cases h

/-- A list of which the first part is refused. -/
theorem push_refused {bs : List β} {s s' : σ} {e : ε} (h : push put bs s = (some e, s'))
    (cs : List β) : push put (bs ++ cs) s = (some e, s') := by
  induction bs generalizing s with
  | nil => cases h
  | cons b bs ih =>
    rw [push] at h
    rcases hput : put b s with ⟨_ | e', s₁⟩
    · rw [hput] at h
      rw [List.cons_append, push, hput]
      exact ih h
    · rw [hput] at h
      rw [List.cons_append, push, hput]
      exact h

/-! ## Readers -/

/-- A reader of symbols `β` with errors `ε` and values `α`. -/
inductive Reader (β : Type u) (ε : Type v) (α : Type x) : Type (max u v x) where
  | done (a : α) : Reader β ε α
  | fail (e : ε) : Reader β ε α
  | more (k : β → Reader β ε α) : Reader β ε α

/-- What a reader has done: its result, how many symbols it took, and the source. -/
structure Ran (ε : Type v) (α : Type x) (σ : Type w) : Type (max v w x) where
  result : Except ε α
  taken : ℕ
  source : σ

/-- After `n` more symbols. -/
def Ran.after {α : Type x} (r : Ran ε α σ) (n : ℕ) : Ran ε α σ :=
  { r with taken := r.taken + n }

@[simp] theorem Ran.after_zero {α : Type x} (r : Ran ε α σ) : r.after 0 = r := rfl

@[simp] theorem Ran.after_after {α : Type x} (r : Ran ε α σ) (m n : ℕ) :
    (r.after m).after n = r.after (m + n) := by
  rw [Ran.after, Ran.after, Ran.after, Nat.add_assoc]

/-- The source supplies these symbols. -/
inductive Supplies (get : σ → Except ε β × σ) : σ → List β → σ → Prop where
  | nil (s : σ) : Supplies get s [] s
  | cons {s s₁ s' : σ} {b : β} {bs : List β} (hget : get s = (.ok b, s₁))
      (h : Supplies get s₁ bs s') : Supplies get s (b :: bs) s'

namespace Reader

variable {α : Type x} {γ : Type y}

/-- The one reader after the other. -/
def bind : Reader β ε α → (α → Reader β ε γ) → Reader β ε γ
  | done a, f => f a
  | fail e, _ => fail e
  | more k, f => more fun b => (k b).bind f

/-- A function of the value. -/
def map (f : α → γ) (p : Reader β ε α) : Reader β ε γ := p.bind fun a => done (f a)

/-- The next `n` symbols. -/
def take : ℕ → Reader β ε (List β)
  | 0 => done []
  | n + 1 => more fun b => (take n).map (b :: ·)

/-- Runs a reader on a source. -/
def run (get : σ → Except ε β × σ) : Reader β ε α → σ → Ran ε α σ
  | done a, s => ⟨.ok a, 0, s⟩
  | fail e, s => ⟨.error e, 0, s⟩
  | more k, s =>
    match get s with
    | (.ok b, s') => (run get (k b) s').after 1
    | (.error e, s') => ⟨.error e, 0, s'⟩

/-- The reader takes exactly these symbols, and returns this value. -/
def Takes : Reader β ε α → List β → α → Prop
  | done a, bs, a' => bs = [] ∧ a = a'
  | fail _, _, _ => False
  | more _, [], _ => False
  | more k, b :: bs, a => (k b).Takes bs a

/-- The reader takes at most `n` symbols, and its values satisfy `P`. -/
def Ensures : Reader β ε α → ℕ → (α → Prop) → Prop
  | done a, _, P => P a
  | fail _, _, _ => True
  | more _, 0, _ => False
  | more k, n + 1, P => ∀ b, (k b).Ensures n P

/-- The errors that the reader itself reports satisfy `P`. -/
def Fails (P : ε → Prop) : Reader β ε α → Prop
  | done _ => True
  | fail e => P e
  | more k => ∀ b, (k b).Fails P

/-! ### One reader after the other -/

@[simp] theorem bind_done (a : α) (f : α → Reader β ε γ) : (done a).bind f = f a := rfl

@[simp] theorem bind_fail (e : ε) (f : α → Reader β ε γ) :
    (fail e : Reader β ε α).bind f = fail e := rfl

theorem bind_assoc {δ : Type w} (p : Reader β ε α) (f : α → Reader β ε γ)
    (g : γ → Reader β ε δ) : (p.bind f).bind g = p.bind fun a => (f a).bind g := by
  induction p with
  | done a => rfl
  | fail e => rfl
  | more k ih => exact congrArg more (funext ih)

theorem map_bind {δ : Type w} (p : Reader β ε α) (f : α → γ) (g : γ → Reader β ε δ) :
    (p.map f).bind g = p.bind fun a => g (f a) := bind_assoc p _ g

theorem map_map {δ : Type w} (p : Reader β ε α) (f : α → γ) (g : γ → δ) :
    (p.map f).map g = p.map fun a => g (f a) := map_bind p f _

theorem map_self (p : Reader β ε α) : (p.map fun a => a) = p := by
  induction p with
  | done a => rfl
  | fail e => rfl
  | more k ih => exact congrArg more (funext ih)

theorem Takes.bind {p : Reader β ε α} {f : α → Reader β ε γ} {bs cs : List β} {a : α} {c : γ}
    (hp : p.Takes bs a) (hf : (f a).Takes cs c) : (p.bind f).Takes (bs ++ cs) c := by
  induction p generalizing bs with
  | done a' =>
    obtain ⟨rfl, rfl⟩ := hp
    exact hf
  | fail e => exact hp.elim
  | more k ih =>
    cases bs with
    | nil => exact hp.elim
    | cons b bs => exact ih b hp

theorem Takes.map {p : Reader β ε α} {bs : List β} {a : α} (hp : p.Takes bs a) (f : α → γ) :
    (p.map f).Takes bs (f a) := by
  have h := @Takes.bind _ _ _ _ p (fun a => done (f a)) bs [] a (f a) hp ⟨rfl, rfl⟩
  rwa [List.append_nil] at h

theorem Ensures.mono {p : Reader β ε α} {m n : ℕ} {P Q : α → Prop} (h : p.Ensures m P)
    (hle : m ≤ n) (hPQ : ∀ a, P a → Q a) : p.Ensures n Q := by
  induction p generalizing m n with
  | done a => exact hPQ a h
  | fail e => trivial
  | more k ih =>
    cases m with
    | zero => exact h.elim
    | succ m =>
      obtain ⟨n, rfl⟩ := Nat.exists_eq_add_of_lt hle
      exact fun b => ih b (h b) (Nat.le_add_right m n)

theorem Ensures.bind {p : Reader β ε α} {f : α → Reader β ε γ} {m n : ℕ} {P : α → Prop}
    {Q : γ → Prop} (hp : p.Ensures m P) (hf : ∀ a, P a → (f a).Ensures n Q) :
    (p.bind f).Ensures (m + n) Q := by
  induction p generalizing m with
  | done a => exact (hf a hp).mono (Nat.le_add_left n m) fun _ h => h
  | fail e => trivial
  | more k ih =>
    cases m with
    | zero => exact hp.elim
    | succ m =>
      rw [Nat.add_right_comm]
      exact fun b => ih b (hp b)

theorem Ensures.map {p : Reader β ε α} {n : ℕ} {P : α → Prop} {Q : γ → Prop}
    (hp : p.Ensures n P) {f : α → γ} (hf : ∀ a, P a → Q (f a)) : (p.map f).Ensures n Q :=
  hp.bind (n := 0) hf

theorem take_takes (bs : List β) : (take bs.length : Reader β ε (List β)).Takes bs bs := by
  induction bs with
  | nil => exact ⟨rfl, rfl⟩
  | cons b bs ih => exact ih.map (b :: ·)

theorem take_ensures (n : ℕ) :
    (take n : Reader β ε (List β)).Ensures n fun bs => bs.length = n := by
  induction n with
  | zero => rfl
  | succ n ih => exact fun b => ih.map fun bs h => congrArg Nat.succ h

theorem Fails.bind {p : Reader β ε α} {f : α → Reader β ε γ} {P : ε → Prop} (hp : p.Fails P)
    (hf : ∀ a, (f a).Fails P) : (p.bind f).Fails P := by
  induction p with
  | done a => exact hf a
  | fail e => exact hp
  | more k ih => exact fun b => ih b (hp b)

theorem Fails.map {p : Reader β ε α} {P : ε → Prop} (hp : p.Fails P) (f : α → γ) :
    (p.map f).Fails P := hp.bind fun _ => trivial

theorem take_fails (n : ℕ) (P : ε → Prop) : (take n : Reader β ε (List β)).Fails P := by
  induction n with
  | zero => trivial
  | succ n ih => exact fun b => ih.map _

/-! ### Runs -/

variable {get : σ → Except ε β × σ}

/-- A run of one reader after the other. -/
theorem run_bind_ok {p : Reader β ε α} {f : α → Reader β ε γ} {s s' : σ} {a : α} {n : ℕ}
    (h : p.run get s = ⟨.ok a, n, s'⟩) :
    (p.bind f).run get s = ((f a).run get s').after n := by
  induction p generalizing s n with
  | done a' =>
    cases h
    rfl
  | fail e => cases h
  | more k ih =>
    rw [bind, run]
    rw [run] at h
    rcases hget : get s with ⟨e | b, s₁⟩
    · rw [hget] at h
      cases h
    · rw [hget] at h
      dsimp only at h ⊢
      rcases hk : (k b).run get s₁ with ⟨r, m, s₂⟩
      rw [hk] at h
      cases h
      rw [ih b hk, Ran.after_after]

theorem run_bind_error {p : Reader β ε α} {f : α → Reader β ε γ} {s s' : σ} {e : ε} {n : ℕ}
    (h : p.run get s = ⟨.error e, n, s'⟩) : (p.bind f).run get s = ⟨.error e, n, s'⟩ := by
  induction p generalizing s n with
  | done a' => cases h
  | fail e' =>
    cases h
    rfl
  | more k ih =>
    rw [bind, run]
    rw [run] at h
    rcases hget : get s with ⟨e' | b, s₁⟩
    · rw [hget] at h
      cases h
      rfl
    · rw [hget] at h
      dsimp only at h ⊢
      rcases hk : (k b).run get s₁ with ⟨r, m, s₂⟩
      rw [hk] at h
      cases h
      rw [ih b hk]
      rfl

theorem run_map_ok {p : Reader β ε α} {s s' : σ} {a : α} {n : ℕ}
    (h : p.run get s = ⟨.ok a, n, s'⟩) (f : α → γ) :
    (p.map f).run get s = ⟨.ok (f a), n, s'⟩ := by
  rw [map, run_bind_ok h, run, Ran.after, Nat.zero_add]

theorem run_map_error {p : Reader β ε α} {s s' : σ} {e : ε} {n : ℕ}
    (h : p.run get s = ⟨.error e, n, s'⟩) (f : α → γ) :
    (p.map f).run get s = ⟨.error e, n, s'⟩ := run_bind_error h

/-- **The symbols are supplied**: the reader takes them. -/
theorem Takes.run {p : Reader β ε α} {bs : List β} {a : α} {s s' : σ} (h : p.Takes bs a)
    (hs : Supplies get s bs s') : p.run get s = ⟨.ok a, bs.length, s'⟩ := by
  induction p generalizing bs s with
  | done a' =>
    obtain ⟨rfl, rfl⟩ := h
    cases hs
    rfl
  | fail e => exact h.elim
  | more k ih =>
    cases bs with
    | nil => exact h.elim
    | cons b bs =>
      cases hs with
      | cons hget hs =>
        rw [Reader.run, hget]
        dsimp only
        rw [ih b h hs]
        rfl

/-- **The source ends before**: the reader reports its error. -/
theorem Takes.run_short {p : Reader β ε α} {pre post : List β} {a : α} {s s₁ s' : σ} {e : ε}
    (h : p.Takes (pre ++ post) a) (hpost : post ≠ []) (hs : Supplies get s pre s₁)
    (hend : get s₁ = (.error e, s')) : p.run get s = ⟨.error e, pre.length, s'⟩ := by
  induction p generalizing pre s with
  | done a' => exact absurd (List.append_eq_nil_iff.mp h.1).2 hpost
  | fail e' => exact h.elim
  | more k ih =>
    cases hs with
    | nil =>
      rw [Reader.run, hend]
      rfl
    | cons hget hs =>
      rw [Reader.run, hget]
      dsimp only
      rw [ih _ h hs]
      rfl

/-- An error is one of the source or one of the reader. -/
theorem Fails.run {p : Reader β ε α} {P : ε → Prop} (h : p.Fails P)
    (hget : ∀ s e s', get s = (.error e, s') → P e) {s s' : σ} {e : ε} {n : ℕ}
    (hrun : p.run get s = ⟨.error e, n, s'⟩) : P e := by
  induction p generalizing s n with
  | done a => cases hrun
  | fail e' =>
    cases hrun
    exact h
  | more k ih =>
    rw [Reader.run] at hrun
    rcases hs : get s with ⟨e' | b, s₁⟩
    · rw [hs] at hrun
      cases hrun
      exact hget s e s' hs
    · rw [hs] at hrun
      dsimp only at hrun
      rcases hk : (k b).run get s₁ with ⟨r, m, s₂⟩
      rw [hk] at hrun
      cases hrun
      exact ih b (h b) hk

/-- **Any source**: how many symbols are taken, and what a value satisfies. -/
theorem Ensures.run {p : Reader β ε α} {n : ℕ} {P : α → Prop} (h : p.Ensures n P) (s : σ) :
    (p.run get s).taken ≤ n ∧ ∀ a, (p.run get s).result = .ok a → P a := by
  induction p generalizing n s with
  | done a =>
    refine ⟨Nat.zero_le n, fun a' ha => ?_⟩
    cases ha
    exact h
  | fail e => exact ⟨Nat.zero_le n, fun a' ha => by cases ha⟩
  | more k ih =>
    cases n with
    | zero => exact h.elim
    | succ n =>
      rw [Reader.run]
      rcases get s with ⟨e | b, s₁⟩
      · exact ⟨Nat.zero_le _, fun a' ha => by cases ha⟩
      · obtain ⟨hle, hP⟩ := ih b (h b) s₁
        exact ⟨Nat.succ_le_succ hle, hP⟩

/-- A value was read from symbols that the source supplied. -/
theorem takes_of_run {p : Reader β ε α} {a : α} {n : ℕ} {s s' : σ}
    (h : p.run get s = ⟨.ok a, n, s'⟩) :
    ∃ bs, bs.length = n ∧ p.Takes bs a ∧ Supplies get s bs s' := by
  induction p generalizing s n with
  | done a' =>
    cases h
    exact ⟨[], rfl, ⟨rfl, rfl⟩, .nil _⟩
  | fail e => cases h
  | more k ih =>
    rw [Reader.run] at h
    rcases hget : get s with ⟨e | b, s₁⟩
    · rw [hget] at h
      cases h
    · rw [hget] at h
      dsimp only at h
      rcases hk : (k b).run get s₁ with ⟨r, m, s₂⟩
      rw [hk] at h
      cases h
      obtain ⟨bs, rfl, htakes, hs⟩ := ih b hk
      exact ⟨b :: bs, rfl, htakes, .cons hget hs⟩

/-- An error is that of the source after the symbols it supplied, or the reader asked for nothing
after them. -/
theorem supplies_of_error {p : Reader β ε α} {e : ε} {n : ℕ} {s s' : σ}
    (h : p.run get s = ⟨.error e, n, s'⟩) :
    ∃ bs s₁, bs.length = n ∧ Supplies get s bs s₁ ∧ (get s₁ = (.error e, s') ∨ s' = s₁) := by
  induction p generalizing s n with
  | done a' => cases h
  | fail e' =>
    cases h
    exact ⟨[], _, rfl, .nil _, .inr rfl⟩
  | more k ih =>
    rw [Reader.run] at h
    rcases hget : get s with ⟨e' | b, s₁⟩
    · rw [hget] at h
      cases h
      exact ⟨[], s, rfl, .nil s, .inl hget⟩
    · rw [hget] at h
      dsimp only at h
      rcases hk : (k b).run get s₁ with ⟨r, m, s₂⟩
      rw [hk] at h
      cases h
      obtain ⟨bs, s₃, rfl, hs, hend⟩ := ih b hk
      exact ⟨b :: bs, s₃, rfl, .cons hget hs, hend⟩

end Reader

end Streams
