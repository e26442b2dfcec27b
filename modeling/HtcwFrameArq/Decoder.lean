import Mathlib.Data.List.Basic
import Mathlib.Data.List.ReduceOption

/-!
# Suspendable decoders

A decoder takes one symbol at a time (`push`) and passes a verdict as soon as it has seen
enough (`verdict`), after which it starts over from `init`. Two ways to run it:

* `feed` — over a list of symbols, collecting all verdicts;
* `pump` — over the answers of a source that may have nothing available (`none`), until
  the first verdict or the first time nothing is available.

`pump_spec` says that a call of `pump` is `feed` over the symbols it used, so what a
sequence of calls decodes depends on the symbols alone, not on where the source paused.
-/

universe u v w

/-- A decoder with states `σ`, symbols `α` and verdicts `ε`. -/
structure Decoder (σ : Type u) (α : Type v) (ε : Type w) : Type (max u v w) where
  /-- the state to start over from after a verdict -/
  init : σ
  /-- take one symbol -/
  push : σ → α → σ
  /-- what is decided in a state, if anything is -/
  verdict : σ → Option ε

namespace Decoder

variable {σ : Type u} {α : Type v} {ε : Type w} (D : Decoder σ α ε)

/-- The verdicts passed over a list of symbols, and the state reached. -/
def feed : σ → List α → List ε × σ
  | s, [] => ([], s)
  | s, a :: as =>
    match D.verdict (D.push s a) with
    | some e => (e :: (feed D.init as).1, (feed D.init as).2)
    | none => feed (D.push s a) as

/-- One call: run until the first verdict or until nothing is available. Returns the
verdict, the state and the rest of the source. -/
def pump : σ → List (Option α) → Option ε × σ × List (Option α)
  | s, [] => (none, s, [])
  | s, none :: rest => (none, s, rest)
  | s, some a :: rest =>
    match D.verdict (D.push s a) with
    | some e => (some e, D.init, rest)
    | none => pump (D.push s a) rest

variable {D}

/-! ## Feeding -/

@[simp] theorem feed_nil (s : σ) : D.feed s [] = ([], s) := rfl

theorem feed_cons_some {s : σ} {a : α} {e : ε} (h : D.verdict (D.push s a) = some e)
    (as : List α) :
    D.feed s (a :: as) = (e :: (D.feed D.init as).1, (D.feed D.init as).2) := by
  simp only [feed, h]

theorem feed_cons_none {s : σ} {a : α} (h : D.verdict (D.push s a) = none)
    (as : List α) : D.feed s (a :: as) = D.feed (D.push s a) as := by
  simp only [feed, h]

/-- Feeding two lists in turn is feeding their concatenation. -/
theorem feed_append (s : σ) (as bs : List α) :
    D.feed s (as ++ bs) =
      ((D.feed s as).1 ++ (D.feed (D.feed s as).2 bs).1, (D.feed (D.feed s as).2 bs).2) := by
  induction as generalizing s with
  | nil => rfl
  | cons a as ih =>
    rcases h : D.verdict (D.push s a) with _ | e
    · rw [List.cons_append, feed_cons_none h, feed_cons_none h]
      exact ih _
    · rw [List.cons_append, feed_cons_some h, feed_cons_some h, ih]
      rfl

/-- Symbols that lead back to the same state do so again and again. -/
theorem feed_replicate {s : σ} {as : List α} {es : List ε} (h : D.feed s as = (es, s)) (n : ℕ) :
    D.feed s (List.replicate n as).flatten = ((List.replicate n es).flatten, s) := by
  induction n with
  | zero => rfl
  | succ n ih => simp [List.replicate_succ, feed_append, h, ih]

/-- **The first verdict** over a list of symbols. -/
theorem feed_first {s : σ} {as : List α} (h : (D.feed s as).1 ≠ []) :
    ∃ pre a post e, as = pre ++ a :: post ∧ D.feed s pre = ([], pre.foldl D.push s) ∧
      D.verdict (D.push (pre.foldl D.push s) a) = some e ∧
      (D.feed s as).1 = e :: (D.feed D.init post).1 := by
  induction as generalizing s with
  | nil => exact absurd rfl h
  | cons a as ih =>
    rcases hv : D.verdict (D.push s a) with _ | e
    · rw [feed_cons_none hv] at h ⊢
      obtain ⟨pre, b, post, e, rfl, hpre, hb, hfeed⟩ := ih h
      exact ⟨a :: pre, b, post, e, rfl, by rw [feed_cons_none hv, hpre]; rfl, hb, hfeed⟩
    · exact ⟨[], a, as, e, rfl, rfl, hv, by rw [feed_cons_some hv]⟩

/-- More symbols, more verdicts. -/
theorem feed_mono {as bs : List α} (h : as <+: bs) (s : σ) :
    (D.feed s as).1 <+: (D.feed s bs).1 := by
  obtain ⟨cs, rfl⟩ := h
  rw [feed_append]
  exact List.prefix_append _ _

/-- **Two prefixes of one list are the same** if they have as many verdicts and each of them
has its last verdict on its last symbol. -/
theorem feed_exact {s : σ} {as bs cs : List α} {a b : α} (has : as ++ [a] <+: cs)
    (hbs : bs ++ [b] <+: cs)
    (hlen : (D.feed s (as ++ [a])).1.length = (D.feed s (bs ++ [b])).1.length)
    (ha : (D.feed s as).1.length < (D.feed s (as ++ [a])).1.length)
    (hb : (D.feed s bs).1.length < (D.feed s (bs ++ [b])).1.length) : as ++ [a] = bs ++ [b] := by
  have shorter {xs ys : List α} {x : α} (hx : xs ++ [x] <+: cs) (hy : ys <+: cs)
      (hlt : xs.length < ys.length) :
      (D.feed s (xs ++ [x])).1.length ≤ (D.feed s ys).1.length := by
    refine (feed_mono (List.prefix_of_prefix_length_le hx hy ?_) s).length_le
    rw [List.length_append]
    exact hlt
  have has' : as <+: cs := (List.prefix_append as [a]).trans has
  have hbs' : bs <+: cs := (List.prefix_append bs [b]).trans hbs
  rcases Nat.lt_trichotomy as.length bs.length with hlt | heq | hlt
  · have := shorter has hbs' hlt
    omega
  · exact (List.prefix_of_prefix_length_le has hbs (by simp [heq])).eq_of_length (by simp [heq])
  · have := shorter hbs has' hlt
    omega

/-- If nothing is decided on the way, the state is the fold of `push`. -/
theorem feed_of_silent {s : σ} {as : List α} (h : (D.feed s as).1 = []) :
    (D.feed s as).2 = as.foldl D.push s := by
  induction as generalizing s with
  | nil => rfl
  | cons a as ih =>
    rcases hv : D.verdict (D.push s a) with _ | e
    · rw [feed_cons_none hv] at h ⊢
      exact ih h
    · rw [feed_cons_some hv] at h
      cases h

/-- Nothing is decided over `as` when no state on the way has a verdict. -/
theorem feed_silent {s : σ} {as : List α}
    (h : ∀ n, 0 < n → n ≤ as.length → D.verdict ((as.take n).foldl D.push s) = none) :
    D.feed s as = ([], as.foldl D.push s) := by
  induction as generalizing s with
  | nil => rfl
  | cons a as ih =>
    have hv : D.verdict (D.push s a) = none := h 1 Nat.one_pos (by simp)
    rw [feed_cons_none hv]
    apply ih
    intro n hn hle
    have := h (n + 1) (Nat.succ_pos n) (by simpa using hle)
    simpa using this

/-- **Invariants of feeding.** A relation between the state and the symbols taken so far
that holds at `init` whatever was taken, and that `push` keeps, holds of every state. -/
theorem feed_induct {P : σ → List α → Prop} (hinit : ∀ l, P D.init l)
    (hpush : ∀ {s l} (a : α), P s l → P (D.push s a) (l ++ [a])) {s : σ} {l : List α}
    (h : P s l) (as : List α) : P (D.feed s as).2 (l ++ as) := by
  induction as generalizing s l with
  | nil => simpa using h
  | cons a as ih =>
    have hsplit : l ++ a :: as = (l ++ [a]) ++ as := by simp
    rw [hsplit]
    rcases hv : D.verdict (D.push s a) with _ | e
    · rw [feed_cons_none hv]
      exact ih (hpush a h)
    · rw [feed_cons_some hv]
      exact ih (hinit _)

/-! ## One call -/

/-- **One call is feeding the symbols it used**: the source splits into what the call used
and what it left, and over the used symbols `feed` passes the verdict of the call and
reaches its state. -/
theorem pump_spec (s : σ) (source : List (Option α)) :
    ∃ used, source = used ++ (D.pump s source).2.2 ∧
      D.feed s used.reduceOption = ((D.pump s source).1.toList, (D.pump s source).2.1) := by
  induction source generalizing s with
  | nil => exact ⟨[], rfl, rfl⟩
  | cons o rest ih =>
    obtain _ | a := o
    · exact ⟨[none], rfl, rfl⟩
    · rcases hv : D.verdict (D.push s a) with _ | e
      · obtain ⟨used, hrest, hfeed⟩ := ih (D.push s a)
        refine ⟨some a :: used, ?_, ?_⟩
        · simp only [pump, hv, List.cons_append]
          rw [← hrest]
        · rw [List.reduceOption_cons_of_some, feed_cons_none hv, hfeed]
          simp only [pump, hv]
      · refine ⟨[some a], by simp [pump, hv], ?_⟩
        rw [List.reduceOption_cons_of_some, feed_cons_some hv]
        simp only [pump, hv]
        rfl

/-- **A verdict falls on the last symbol used**, and not before; the source does not pause
before it. -/
theorem pump_some {s s' : σ} {source rest : List (Option α)} {e : ε}
    (h : D.pump s source = (some e, s', rest)) :
    ∃ as a s₁, source = as.map some ++ some a :: rest ∧ D.feed s as = ([], s₁) ∧
      D.verdict (D.push s₁ a) = some e ∧ s' = D.init := by
  induction source generalizing s with
  | nil => cases h
  | cons o source ih =>
    obtain _ | a := o
    · cases h
    · rcases hv : D.verdict (D.push s a) with _ | e'
      · simp only [pump, hv] at h
        obtain ⟨as, b, s₁, rfl, hfeed, hverdict, hinit⟩ := ih h
        exact ⟨a :: as, b, s₁, rfl, by rw [feed_cons_none hv, hfeed], hverdict, hinit⟩
      · simp only [pump, hv] at h
        cases h
        exact ⟨[], a, s, rfl, rfl, hv, rfl⟩

/-- A call on symbols of which only the last decides uses exactly these symbols. -/
theorem pump_of_feed {s : σ} {as : List α} {a : α} {e : ε} (h : (D.feed s as).1 = [])
    (hv : D.verdict (D.push (D.feed s as).2 a) = some e) (rest : List (Option α)) :
    D.pump s (as.map some ++ ([a].map some ++ rest)) = (some e, D.init, rest) := by
  induction as generalizing s with
  | nil =>
    have hv' : D.verdict (D.push s a) = some e := hv
    simp only [List.map_nil, List.map_cons, List.nil_append, List.cons_append, pump, hv']
  | cons b as ih =>
    rcases hb : D.verdict (D.push s b) with _ | e'
    · rw [feed_cons_none hb] at h hv
      rw [List.map_cons, List.cons_append]
      simp only [pump, hb]
      exact ih h hv
    · rw [feed_cons_some hb] at h
      cases h

/-- A call on a source that is not used up makes progress. -/
theorem pump_length_lt {s : σ} {source : List (Option α)} (h : source ≠ []) :
    (D.pump s source).2.2.length < source.length := by
  induction source generalizing s with
  | nil => exact absurd rfl h
  | cons o rest ih =>
    obtain _ | a := o
    · simp [pump]
    · rcases hv : D.verdict (D.push s a) with _ | e
      · simp only [pump, hv, List.length_cons]
        obtain rfl | hne := eq_or_ne rest []
        · simp [pump]
        · exact Nat.lt_succ_of_lt (ih hne)
      · simp [pump, hv]

end Decoder
