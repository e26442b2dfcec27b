import Mathlib.Data.List.Infix
import Mathlib.Data.Nat.Notation

/-!
# Searching for the leftmost run

The search reads symbols one at a time and keeps only a run: each symbol that satisfies `p`
carries the run on if it is equal to the run's symbols, or begins another; any other symbol ends
it (`extend`). `mem_trailing` and `replicate_suffix_trailing` say what is kept: the longest run
at the end of what was read. So the run has length `k` for the first time exactly at the end of
the shortest prefix that ends in `k` equal symbols (`endsIn_iff`, `Undecided.leftmost`), and
`leftmost_noise` says when what precedes a run does not hide it.
-/

namespace LeftmostRun

universe u

variable {α : Type u} [DecidableEq α] (p : α → Prop) [DecidablePred p]

/-- One turn of the search: the run kept after reading one more symbol. -/
def extend (run : List α) (b : α) : List α :=
  if p b then if run.head? = some b then run ++ [b] else [b] else []

/-- The run kept after reading `l`. -/
def trailing (l : List α) : List α := l.foldl (extend p) []

omit [DecidableEq α] [DecidablePred p] in
/-- `l` ends in `k` equal symbols that satisfy `p`. -/
def EndsIn (k : ℕ) (l : List α) : Prop := ∃ c, p c ∧ List.replicate k c <:+ l

/-- `pre` is the shortest prefix of `stream` that ends in `k` equal symbols. -/
structure Leftmost (k : ℕ) (pre stream : List α) : Prop where
  isPrefix : pre <+: stream
  endsIn : EndsIn p k pre
  shortest : ∀ l, l <+: stream → EndsIn p k l → pre.length ≤ l.length

/-- No proper prefix of `l` ends in `k` equal symbols. -/
def Undecided (k : ℕ) (l : List α) : Prop := ∀ l', l' <+: l → l' ≠ l → ¬ EndsIn p k l'

variable {p} {k : ℕ} {l stream : List α} {b c : α}

/-! ## The run that is kept -/

theorem trailing_append_singleton (l : List α) (b : α) :
    trailing p (l ++ [b]) = extend p (trailing p l) b := by
  rw [trailing, List.foldl_append]
  rfl

theorem extend_other {run : List α} (hb : ¬ p b) : extend p run b = [] := by
  rw [extend, if_neg hb]

theorem extend_same {run : List α} (hb : p b) (hhead : run.head? = some b) :
    extend p run b = run ++ [b] := by
  rw [extend, if_pos hb, if_pos hhead]

theorem extend_new {run : List α} (hb : p b) (hhead : run.head? ≠ some b) :
    extend p run b = [b] := by
  rw [extend, if_pos hb, if_neg hhead]

theorem extend_length_le (run : List α) (b : α) :
    (extend p run b).length ≤ run.length + 1 := by
  unfold extend
  split_ifs <;> simp

/-- All symbols of the run are equal and satisfy `p`. -/
theorem mem_trailing (h : b ∈ trailing p l) : p b ∧ (trailing p l).head? = some b := by
  induction l using List.reverseRecOn generalizing b with
  | nil => cases h
  | append_singleton l a ih =>
    rw [trailing_append_singleton] at h ⊢
    by_cases ha : p a
    · by_cases hhead : (trailing p l).head? = some a
      · rw [extend_same ha hhead] at h ⊢
        have hba : b = a := by
          rcases List.mem_append.mp h with hmem | hmem
          · exact Option.some.inj ((ih hmem).2.symm.trans hhead)
          · exact List.mem_singleton.mp hmem
        subst hba
        refine ⟨ha, ?_⟩
        rw [List.head?_append, hhead]
        rfl
      · rw [extend_new ha hhead] at h ⊢
        obtain rfl := List.mem_singleton.mp h
        exact ⟨ha, rfl⟩
    · rw [extend_other ha] at h
      cases h

theorem trailing_eq_replicate (hhead : (trailing p l).head? = some c) :
    trailing p l = List.replicate (trailing p l).length c := by
  refine List.eq_replicate_iff.mpr ⟨rfl, ?_⟩
  intro b hb
  exact Option.some.inj ((mem_trailing hb).2.symm.trans hhead)

omit [DecidableEq α] in
/-- A run of at least one symbol, one symbol later. -/
theorem replicate_succ_suffix {m : ℕ} :
    List.replicate (m + 1) c <:+ l ++ [b] ↔ c = b ∧ List.replicate m c <:+ l := by
  rw [List.replicate_succ', List.suffix_concat_iff]
  constructor
  · rintro (h | ⟨t, heq, ht⟩)
    · exact absurd h (by simp)
    · obtain ⟨hrep, hcb⟩ := List.append_inj' heq rfl
      exact ⟨List.singleton_inj.mp hcb, hrep ▸ ht⟩
  · rintro ⟨rfl, h⟩
    exact Or.inr ⟨_, rfl, h⟩

/-- **The longest run is kept**: the runs at the end of `l` are those at the end of what is kept
of it. -/
theorem replicate_suffix_trailing (hc : p c) {m : ℕ} :
    List.replicate m c <:+ trailing p l ↔ List.replicate m c <:+ l := by
  induction l using List.reverseRecOn generalizing m with
  | nil => rfl
  | append_singleton l b ih =>
    obtain _ | m := m
    · exact ⟨fun _ => List.nil_suffix, fun _ => List.nil_suffix⟩
    rw [trailing_append_singleton, replicate_succ_suffix, ← ih]
    by_cases hb : p b
    · by_cases hhead : (trailing p l).head? = some b
      · rw [extend_same hb hhead, replicate_succ_suffix]
      · -- another run begins: nothing of `b` was kept before it
        rw [extend_new hb hhead, ← List.nil_append [b], replicate_succ_suffix]
        refine and_congr_right ?_
        rintro rfl
        obtain _ | m := m
        · exact ⟨fun _ => List.nil_suffix, fun _ => List.nil_suffix⟩
        · refine ⟨fun h => ?_, fun h => ?_⟩
          · exact absurd (List.suffix_nil.mp h) (by simp)
          · exact absurd (mem_trailing (h.subset (by simp : c ∈ _))).2 hhead
    · rw [extend_other hb]
      refine ⟨fun h => ?_, ?_⟩
      · exact absurd (List.suffix_nil.mp h) (by simp)
      · rintro ⟨rfl, -⟩
        exact absurd hc hb

/-- **The search sees every run**: what was read ends in `k` equal symbols exactly when that many
are kept. -/
theorem endsIn_iff (hk : 0 < k) : EndsIn p k l ↔ k ≤ (trailing p l).length := by
  constructor
  · rintro ⟨c, hc, hsuf⟩
    have := ((replicate_suffix_trailing hc).mpr hsuf).length_le
    rwa [List.length_replicate] at this
  · intro hlen
    rcases hrun : trailing p l with _ | ⟨c, run⟩
    · rw [hrun] at hlen
      exact absurd hlen (Nat.not_le.mpr hk)
    · have hmem : c ∈ trailing p l := by rw [hrun]; exact List.mem_cons_self ..
      obtain ⟨hc, hhead⟩ := mem_trailing hmem
      refine ⟨c, hc, (replicate_suffix_trailing hc).mp ?_⟩
      rw [trailing_eq_replicate hhead, List.suffix_replicate_iff]
      exact ⟨by simpa using hlen, by simp⟩

/-- What is kept when there are just `k` symbols. -/
theorem trailing_of_endsIn (hc : p c) (hsuf : List.replicate k c <:+ l)
    (hlen : (trailing p l).length = k) : trailing p l = List.replicate k c :=
  (((replicate_suffix_trailing hc).mpr hsuf).eq_of_length (by simpa using hlen.symm)).symm

/-! ## The shortest prefix -/

omit [DecidableEq α] [DecidablePred p]

theorem undecided_nil : Undecided p k [] := fun _ hpre hne => absurd (List.prefix_nil.mp hpre) hne

/-- Reading on when nothing was found so far. -/
theorem Undecided.append_singleton (h : Undecided p k l) (hl : ¬ EndsIn p k l) (b : α) :
    Undecided p k (l ++ [b]) := by
  intro l' hpre hne
  rcases List.prefix_concat_iff.mp hpre with heq | hpre'
  · exact absurd heq hne
  · by_cases heq : l' = l
    · rw [heq]
      exact hl
    · exact h l' hpre' heq

/-- **Where the search ends**: at the shortest prefix. -/
theorem Undecided.leftmost (h : Undecided p k l) (hpre : l <+: stream) (hl : EndsIn p k l) :
    Leftmost p k l stream := by
  refine ⟨hpre, hl, ?_⟩
  intro l' hpre' hl'
  by_contra hlt
  have hlt' : l'.length < l.length := Nat.lt_of_not_le hlt
  have hprefix := List.prefix_of_prefix_length_le hpre' hpre hlt'.le
  exact h l' hprefix (fun heq => by rw [heq] at hlt'; exact Nat.lt_irrefl _ hlt') hl'

/-- There is one shortest prefix. -/
theorem Leftmost.unique {pre pre' : List α} (h : Leftmost p k pre stream)
    (h' : Leftmost p k pre' stream) : pre = pre' := by
  have hlen := h.shortest pre' h'.isPrefix h'.endsIn
  have hlen' := h'.shortest pre h.isPrefix h.endsIn
  have hprefix := List.prefix_of_prefix_length_le h.isPrefix h'.isPrefix hlen
  exact hprefix.eq_of_length_le hlen'

/-- A run anywhere in the stream is the end of one of its prefixes. -/
theorem hasRun_iff :
    (∃ c, p c ∧ List.replicate k c <:+: stream) ↔ ∃ l, l <+: stream ∧ EndsIn p k l := by
  constructor
  · rintro ⟨c, hc, hrun⟩
    obtain ⟨l, hsuf, hpre⟩ := List.infix_iff_suffix_prefix.mp hrun
    exact ⟨l, hpre, c, hc, hsuf⟩
  · rintro ⟨l, hpre, c, hc, hsuf⟩
    exact ⟨c, hc, List.infix_iff_suffix_prefix.mpr ⟨l, hsuf, hpre⟩⟩

section

variable [DecidableEq α] [DecidablePred p]

/-- As long as nothing was found before, no more than `k` symbols are kept. -/
theorem Undecided.trailing_length_le (h : Undecided p k l) (hk : 0 < k) :
    (trailing p l).length ≤ k := by
  rcases List.eq_nil_or_concat' l with rfl | ⟨l', b, rfl⟩
  · exact Nat.zero_le k
  · have hbefore : ¬ EndsIn p k l' := h l' (List.prefix_append l' [b]) (by simp)
    have hlt := Nat.lt_of_not_le (mt (endsIn_iff hk).mpr hbefore)
    rw [trailing_append_singleton]
    exact (extend_length_le _ b).trans hlt

/-- A run after other symbols is kept as it is. -/
theorem trailing_append_replicate (hc : p c) (hlast : l.getLast? ≠ some c) (m : ℕ) :
    trailing p (l ++ List.replicate (m + 1) c) = List.replicate (m + 1) c := by
  induction m with
  | zero =>
    rw [List.replicate_one, trailing_append_singleton]
    refine extend_new hc ?_
    -- the run kept of `l` is not one of `c`, for `l` does not end in `c`
    intro hhead
    have hrep := trailing_eq_replicate hhead
    obtain ⟨c', run, hrun⟩ := List.exists_cons_of_ne_nil (l := trailing p l) (by
      intro hnil
      rw [hnil] at hhead
      cases hhead)
    have hsuf : List.replicate (run.length + 1) c <:+ trailing p l := by
      rw [hrep, hrun]
      exact List.suffix_refl _
    obtain ⟨t, ht⟩ := (replicate_suffix_trailing hc).mp hsuf
    refine hlast ?_
    rw [← ht, List.replicate_succ', ← List.append_assoc, List.getLast?_concat]
  | succ m ih =>
    rw [List.replicate_succ', ← List.append_assoc, trailing_append_singleton, ih]
    exact extend_same hc rfl

/-- **Noise does not hide the run after it**, if it has no run itself and does not end in the
symbol of that run. -/
theorem leftmost_noise {noise tail : List α} (hk : 0 < k) (hc : p c)
    (hnone : ¬ ∃ c', p c' ∧ List.replicate k c' <:+: noise) (hlast : noise.getLast? ≠ some c) :
    Leftmost p k (noise ++ List.replicate k c) (noise ++ List.replicate k c ++ tail) := by
  refine ⟨List.prefix_append _ _, ⟨c, hc, List.suffix_append _ _⟩, ?_⟩
  intro l hpre hl
  by_contra hlt
  have hlt' := Nat.lt_of_not_le hlt
  have hpre' := List.prefix_of_prefix_length_le hpre (List.prefix_append _ tail) hlt'.le
  rcases Nat.le_total l.length noise.length with hle | hle
  · -- the end is in the noise
    have hin := List.prefix_of_prefix_length_le hpre' (List.prefix_append _ _) hle
    exact hnone (hasRun_iff.mpr ⟨l, hin, hl⟩)
  · obtain ⟨rest, rfl⟩ :=
      List.prefix_of_prefix_length_le (List.prefix_append noise _) hpre' hle
    have hrest : rest <+: List.replicate k c := (List.prefix_append_right_inj noise).mp hpre'
    obtain ⟨-, heq⟩ := List.prefix_replicate_iff.mp hrest
    rw [List.length_append, List.length_append, List.length_replicate] at hlt'
    obtain _ | ⟨a, rest⟩ := rest
    · rw [List.append_nil] at hl
      exact hnone (hasRun_iff.mpr ⟨noise, List.prefix_refl _, hl⟩)
    · -- the run is not complete yet
      rw [List.length_cons] at heq hlt'
      have hlen := (endsIn_iff hk).mp hl
      rw [heq, trailing_append_replicate hc hlast, List.length_replicate] at hlen
      omega

end

end LeftmostRun
