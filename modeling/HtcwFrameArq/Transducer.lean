import HtcwFrameArq.Decoder

/-!
# Transducers in lock step

A transducer takes one symbol at a time and may put out an event at each. `events` lists what
it puts out over a list of symbols, with the place of each event. `lockstep` compares two
transducers by a relation between their states: as long as no step is one that breaks the
relation, they put out the same events at the same places. A decoder is a transducer
(`Decoder.transducer`).
-/

universe u v w x

/-- A transducer with states `σ`, symbols `α` and events `ε`. -/
structure Transducer (σ : Type u) (α : Type v) (ε : Type w) : Type (max u v w) where
  step : σ → α → Option ε × σ

namespace Transducer

variable {σ : Type u} {τ : Type x} {α : Type v} {ε : Type w} (T : Transducer σ α ε)

/-- The state after a list of symbols. -/
def after (s : σ) (as : List α) : σ := as.foldl (fun s a => (T.step s a).2) s

/-- The events over a list of symbols, each with the number of symbols taken when it is put
out, where `n` have been taken before. -/
def events : ℕ → σ → List α → List (ℕ × ε)
  | _, _, [] => []
  | n, s, a :: as =>
    (T.step s a).1.toList.map (fun e => (n + 1, e)) ++ events (n + 1) (T.step s a).2 as

@[simp] theorem after_cons (s : σ) (a : α) (as : List α) :
    T.after s (a :: as) = T.after (T.step s a).2 as := rfl

theorem events_cons_none {s s' : σ} {a : α} (h : T.step s a = (none, s')) (n : ℕ) (as : List α) :
    T.events n s (a :: as) = T.events (n + 1) s' as := by
  rw [events, h]
  rfl

theorem events_append (n : ℕ) (s : σ) (as bs : List α) :
    T.events n s (as ++ bs) =
      T.events n s as ++ T.events (n + as.length) (T.after s as) bs := by
  induction as generalizing n s with
  | nil => rfl
  | cons a as ih =>
    rw [List.cons_append, events, events, ih, after_cons, List.append_assoc, List.length_cons,
      show n + 1 + as.length = n + (as.length + 1) by omega]

theorem after_concat (s : σ) (as : List α) (a : α) :
    T.after s (as ++ [a]) = (T.step (T.after s as) a).2 := by
  rw [after, List.foldl_concat]
  rfl

variable {T}

/-- If all that is put out comes with the last symbol, it is put out by the step that takes it. -/
theorem last_of_events {n : ℕ} {s : σ} {as : List α} {e : ε}
    (h : T.events n s as = [(n + as.length, e)]) :
    ∃ pre a, as = pre ++ [a] ∧ (T.step (T.after s pre) a).1 = some e := by
  induction as generalizing n s with
  | nil => cases h
  | cons a as ih =>
    rw [events] at h
    rcases hstep : T.step s a with ⟨_ | e', s'⟩
    · rw [hstep] at h
      obtain ⟨pre, b, rfl, hlast⟩ := ih (n := n + 1) (s := s') (by
        rw [show n + 1 + as.length = n + (as.length + 1) by omega]
        exact h)
      refine ⟨a :: pre, b, rfl, ?_⟩
      rw [after_cons, hstep]
      exact hlast
    · rw [hstep] at h
      obtain ⟨hhead, -⟩ := List.cons.inj h
      obtain ⟨hn, rfl⟩ := Prod.mk.inj hhead
      have hnil : as = [] := List.length_eq_zero_iff.mp (by rw [List.length_cons] at hn; omega)
      subst hnil
      exact ⟨[], a, rfl, congrArg Prod.fst hstep⟩

variable {U : Transducer τ α ε} {R : σ → τ → Prop} {breaks : σ → τ → α → Prop}

/-- **Lock step.** If related states that do not break put out the same and stay related, then
over symbols at none of which they break the two machines put out the same events at the same
places. -/
theorem lockstep
    (hstep : ∀ {s t a}, R s t → ¬ breaks s t a →
      (T.step s a).1 = (U.step t a).1 ∧ R (T.step s a).2 (U.step t a).2)
    {s : σ} {t : τ} (h : R s t) (n : ℕ) {as : List α}
    (hkeep : ∀ pre a post, as = pre ++ a :: post → ¬ breaks (T.after s pre) (U.after t pre) a) :
    T.events n s as = U.events n t as ∧ R (T.after s as) (U.after t as) := by
  induction as generalizing n s t with
  | nil => exact ⟨rfl, h⟩
  | cons a as ih =>
    obtain ⟨hout, hnext⟩ := hstep h (hkeep [] a as rfl)
    obtain ⟨hevents, hafter⟩ := ih hnext (n + 1) fun pre b post has =>
      hkeep (a :: pre) b post (by rw [has]; rfl)
    rw [events, events, hout, hevents]
    exact ⟨rfl, hafter⟩

end Transducer

namespace Decoder

variable {σ : Type u} {α : Type v} {ε : Type w} (D : Decoder σ α ε)

/-- A decoder puts out its verdicts. -/
def transducer : Transducer σ α ε where
  step s a :=
    match D.verdict (D.push s a) with
    | some e => (some e, D.init)
    | none => (none, D.push s a)

variable {D}

theorem transducer_some {s : σ} {a : α} {e : ε} (h : D.verdict (D.push s a) = some e) :
    D.transducer.step s a = (some e, D.init) := by
  rw [transducer]
  dsimp only
  rw [h]

theorem transducer_none {s : σ} {a : α} (h : D.verdict (D.push s a) = none) :
    D.transducer.step s a = (none, D.push s a) := by
  rw [transducer]
  dsimp only
  rw [h]

/-- Feeding is what the transducer puts out, and the state it reaches. -/
theorem feed_eq (n : ℕ) (s : σ) (as : List α) :
    D.feed s as = ((D.transducer.events n s as).map Prod.snd, D.transducer.after s as) := by
  induction as generalizing n s with
  | nil => rfl
  | cons a as ih =>
    rw [Transducer.events, Transducer.after_cons]
    cases hv : D.verdict (D.push s a) with
    | none =>
      rw [feed_cons_none hv, transducer_none hv, ih (n + 1)]
      rfl
    | some e =>
      rw [feed_cons_some hv, transducer_some hv, ih (n + 1)]
      rfl

theorem after_of_feed {s s' : σ} {as : List α} {es : List ε} (h : D.feed s as = (es, s')) :
    D.transducer.after s as = s' := by
  rw [feed_eq 0] at h
  exact congrArg Prod.snd h

/-- Symbols over which nothing is decided put out nothing. -/
theorem events_of_silent {s : σ} {as : List α} (h : (D.feed s as).1 = []) (n : ℕ) :
    D.transducer.events n s as = [] := by
  rw [feed_eq n] at h
  exact List.map_eq_nil_iff.mp h

/-- A verdict on the last symbol, and none before it. -/
theorem events_of_last {s s₁ : σ} {as : List α} {a : α} {e : ε} (h : D.feed s as = ([], s₁))
    (hv : D.verdict (D.push s₁ a) = some e) (n : ℕ) :
    D.transducer.events n s (as ++ [a]) = [(n + (as ++ [a]).length, e)] := by
  rw [Transducer.events_append, events_of_silent (congrArg Prod.fst h) n, after_of_feed h,
    Transducer.events, transducer_some hv, List.length_append]
  rfl

end Decoder
