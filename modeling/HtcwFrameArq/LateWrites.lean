import Mathlib.Data.List.Basic
import Mathlib.Data.Nat.ModEq

/-!
# Stop and wait with late writes

A stop-and-wait sender that prepares a message in one step and writes it in a later one: the
writes wait in a pool and reach the wire in any order, so an old message may follow a newer
one. The wire and the channel of the replies are FIFO and may lose what they carry. Messages
are numbered from 0 on, and both ends see these numbers modulo `m` only: the receiver delivers
whatever carries the number it waits for.

`Link.Step` is what can happen, `Link.Inv` the invariant. Steps keep it (`Link.Step.inv`) as
long as no write is made for a message that is more than `w` behind those prepared, where
`w < m`; it yields in-order delivery without loss or duplicates (`Link.Inv.inOrder`), and that
an acknowledgement that the sender takes is one of a message delivered (`Link.Step.taken`).
-/

namespace LateWrites

universe u

variable {μ : Type u}

/-- A link. What is under way is named by the numbers of its messages. -/
structure Link (μ : Type u) where
  /-- the messages the sender accepted -/
  accepted : List μ
  /-- how many of them it has prepared -/
  prepared : ℕ
  /-- the last one prepared is not acknowledged yet -/
  awaiting : Bool
  /-- the writes that are to be made -/
  pending : List ℕ
  /-- the messages on the wire, oldest first -/
  data : List ℕ
  /-- the messages the receiver delivered -/
  delivered : List μ
  /-- the replies, oldest first: acknowledgements, and requests to send again -/
  replies : List (Option ℕ)

/-- What a step shows. -/
inductive Label (μ : Type u) : Type u where
  | accept (x : μ) : Label μ
  | write (k : ℕ) : Label μ
  | deliver (x : μ) : Label μ
  | take : Label μ
  | silent : Label μ

/-- The message that a step accepts. -/
def Label.accepted? : Label μ → Option μ
  | .accept x => some x
  | _ => none

/-- The message that a step delivers. -/
def Label.delivered? : Label μ → Option μ
  | .deliver x => some x
  | _ => none

namespace Link

/-- A link on which nothing has happened. -/
def fresh : Link μ := ⟨[], 0, false, [], [], [], []⟩

/-- What can happen on a link whose numbers count modulo `m`. -/
inductive Step (m : ℕ) (l : Link μ) : Label μ → Link μ → Prop where
  | queue {x : μ} (hwait : l.awaiting = true) :
      Step m l (.accept x) { l with accepted := l.accepted ++ [x] }
  | start {x : μ} (hidle : l.awaiting = false) :
      Step m l (.accept x) { l with
        accepted := l.accepted ++ [x], prepared := l.prepared + 1, awaiting := true
        pending := l.pending ++ [l.prepared] }
  | again (hwait : l.awaiting = true) :
      Step m l .silent { l with pending := l.pending ++ [l.prepared - 1] }
  | write {before after : List ℕ} {k : ℕ} (hpending : l.pending = before ++ k :: after) :
      Step m l (.write k) { l with pending := before ++ after, data := l.data ++ [k] }
  | lose {k : ℕ} {rest : List ℕ} (hdata : l.data = k :: rest) :
      Step m l .silent { l with data := rest }
  | deliver {k : ℕ} {rest : List ℕ} {x : μ} (hdata : l.data = k :: rest)
      (hk : k ≡ l.delivered.length [MOD m]) (hx : l.accepted[k]? = some x) :
      Step m l (.deliver x) { l with
        data := rest, delivered := l.delivered ++ [x], replies := l.replies ++ [some k] }
  | duplicate {k : ℕ} {rest : List ℕ} (hdata : l.data = k :: rest)
      (hk : k + 1 ≡ l.delivered.length [MOD m]) :
      Step m l .silent { l with data := rest, replies := l.replies ++ [some k] }
  | refuse {k : ℕ} {rest : List ℕ} (hdata : l.data = k :: rest) :
      Step m l .silent { l with data := rest, replies := l.replies ++ [none] }
  | last {k : ℕ} {rest : List (Option ℕ)} (hreplies : l.replies = some k :: rest)
      (hwait : l.awaiting = true) (hk : k + 1 ≡ l.prepared [MOD m])
      (hall : l.prepared = l.accepted.length) :
      Step m l .take { l with awaiting := false, replies := rest }
  | next {k : ℕ} {rest : List (Option ℕ)} (hreplies : l.replies = some k :: rest)
      (hwait : l.awaiting = true) (hk : k + 1 ≡ l.prepared [MOD m])
      (hmore : l.prepared < l.accepted.length) :
      Step m l .take { l with
        prepared := l.prepared + 1, pending := l.pending ++ [l.prepared], replies := rest }
  | ask {rest : List (Option ℕ)} (hreplies : l.replies = none :: rest)
      (hwait : l.awaiting = true) :
      Step m l .silent { l with pending := l.pending ++ [l.prepared - 1], replies := rest }
  | skip {r : Option ℕ} {rest : List (Option ℕ)} (hreplies : l.replies = r :: rest) :
      Step m l .silent { l with replies := rest }
  | idle : Step m l .silent l

/-- The invariant, where no write is made more than `w` behind. -/
structure Inv (w : ℕ) (l : Link μ) : Prop where
  prepared_le : l.prepared ≤ l.accepted.length
  pos : l.awaiting = true → 0 < l.prepared
  idle : l.awaiting = false →
    l.prepared = l.accepted.length ∧ l.delivered.length = l.prepared
  delivered : l.accepted.take l.delivered.length = l.delivered
  delivered_le : l.delivered.length ≤ l.prepared
  behind : l.prepared ≤ l.delivered.length + 1
  pending : ∀ k ∈ l.pending, k < l.prepared
  data_high : ∀ k ∈ l.data, k < l.prepared
  /-- what is on the wire is not far behind what is delivered when it arrives -/
  data_low : ∀ k ∈ l.data, l.delivered.length ≤ k + w
  data_order : l.data.Pairwise fun j k => j < k + w
  acks_high : ∀ k, some k ∈ l.replies → k < l.delivered.length
  acks_low : ∀ k, some k ∈ l.replies → l.prepared ≤ k + 2
  acks_idle : l.awaiting = false → ∀ k, some k ∈ l.replies → k + 1 = l.prepared
  acks_order : l.replies.Pairwise fun r r' => ∀ j ∈ r, ∀ k ∈ r', j ≤ k

theorem inv_fresh (w : ℕ) : (fresh : Link μ).Inv w := by
  constructor <;> simp [fresh]

namespace Inv

variable {m w : ℕ} {l : Link μ}

/-! ## What the invariant says -/

/-- **Nothing is lost, doubled or reordered**: what is delivered are the first messages. -/
theorem inOrder (h : l.Inv w) : l.delivered <+: l.accepted := by
  rw [← h.delivered]
  exact List.take_prefix _ _

/-- Two numbers less than `m` apart that agree modulo `m` are equal. -/
theorem eq_of_modEq {j k : ℕ} (h : j ≡ k [MOD m]) (hle : j ≤ k) (hlt : k < j + m) : j = k := by
  have hdvd := (Nat.modEq_iff_dvd' hle).mp h
  have := Nat.eq_zero_of_dvd_of_lt hdvd (by omega)
  omega

/-- The receiver knows the message it waits for by its number modulo `m`. -/
theorem deliver_eq (h : l.Inv w) (hw : w < m) {k : ℕ} {rest : List ℕ} (hdata : l.data = k :: rest)
    (hk : k ≡ l.delivered.length [MOD m]) : k = l.delivered.length := by
  have hmem : k ∈ l.data := by rw [hdata]; exact List.mem_cons_self
  have := h.data_low k hmem
  have := h.data_high k hmem
  have := h.behind
  exact eq_of_modEq hk (by omega) (by omega)

/-- It knows the message before. -/
theorem duplicate_eq (h : l.Inv w) (hm : 2 ≤ m) (hw : w < m) {k : ℕ} {rest : List ℕ}
    (hdata : l.data = k :: rest) (hk : k + 1 ≡ l.delivered.length [MOD m]) :
    k + 1 = l.delivered.length := by
  have hmem : k ∈ l.data := by rw [hdata]; exact List.mem_cons_self
  have hlow := h.data_low k hmem
  have hhigh := h.data_high k hmem
  have hbehind := h.behind
  rcases Nat.lt_or_ge l.delivered.length (k + 1) with hlt | hge
  · have := eq_of_modEq hk.symm (Nat.le_of_lt hlt) (by omega)
    omega
  · exact eq_of_modEq hk hge (by omega)

/-- The sender knows the acknowledgement of its last message. -/
theorem ack_eq (h : l.Inv w) (hm : 2 ≤ m) {k : ℕ} {rest : List (Option ℕ)}
    (hreplies : l.replies = some k :: rest) (hk : k + 1 ≡ l.prepared [MOD m]) :
    k + 1 = l.prepared := by
  have hmem : some k ∈ l.replies := by rw [hreplies]; exact List.mem_cons_self
  have := h.acks_high k hmem
  have := h.acks_low k hmem
  have := h.delivered_le
  exact eq_of_modEq hk (by omega) (by omega)

/-! ## Every step keeps it -/

theorem queue (h : l.Inv w) (hwait : l.awaiting = true) (x : μ) :
    Inv w { l with accepted := l.accepted ++ [x] } := by
  have hle := Nat.le_trans h.delivered_le h.prepared_le
  refine { h with prepared_le := ?_, idle := fun hidle => ?_, delivered := ?_ }
  · rw [List.length_append]
    exact Nat.le_add_right_of_le h.prepared_le
  · rw [hwait] at hidle
    cases hidle
  · dsimp only
    rw [List.take_append_of_le_length hle]
    exact h.delivered

/-- One more write is to be made. -/
theorem pend (h : l.Inv w) {k : ℕ} (hk : k < l.prepared) :
    Inv w { l with pending := l.pending ++ [k] } := by
  refine { h with pending := ?_ }
  intro j hj
  rcases List.mem_append.mp hj with hj | hj
  · exact h.pending j hj
  · rwa [List.mem_singleton.mp hj]

/-- The next message is prepared, after `more` have been accepted. -/
theorem prepare (h : l.Inv w) (more : List μ) (hall : l.delivered.length = l.prepared)
    (hmore : l.prepared < (l.accepted ++ more).length)
    (hacks : ∀ k, some k ∈ l.replies → k + 1 = l.prepared) :
    Inv w { l with
      accepted := l.accepted ++ more, prepared := l.prepared + 1, awaiting := true
      pending := l.pending ++ [l.prepared] } := by
  have hle := Nat.le_trans h.delivered_le h.prepared_le
  -- the clauses on the wire and on the retained messages weaken with the bound
  refine { h with
    prepared_le := hmore, pos := fun _ => Nat.succ_pos _, idle := fun hidle => ?_
    delivered := ?_, delivered_le := ?_, behind := ?_, pending := ?_, data_high := ?_
    acks_low := ?_, acks_idle := fun hidle => ?_ }
  · cases hidle
  · dsimp only
    rw [List.take_append_of_le_length hle]
    exact h.delivered
  · exact Nat.le_succ_of_le h.delivered_le
  · dsimp only
    rw [hall]
  · intro j hj
    rcases List.mem_append.mp hj with hj | hj
    · exact Nat.lt_succ_of_lt (h.pending j hj)
    · rw [List.mem_singleton.mp hj]
      exact Nat.lt_succ_self _
  · exact fun j hj => Nat.lt_succ_of_lt (h.data_high j hj)
  · intro k hk
    have := hacks k hk
    dsimp only
    omega
  · cases hidle

/-- A write is made. -/
theorem write (h : l.Inv w) {before after : List ℕ} {k : ℕ}
    (hpending : l.pending = before ++ k :: after) (htime : l.prepared ≤ k + w) :
    Inv w { l with pending := before ++ after, data := l.data ++ [k] } := by
  have hk : k < l.prepared := h.pending k (by rw [hpending]; simp)
  refine { h with pending := ?_, data_high := ?_, data_low := ?_, data_order := ?_ }
  · intro j hj
    apply h.pending j
    rw [hpending]
    rcases List.mem_append.mp hj with hj | hj
    · exact List.mem_append_left _ hj
    · exact List.mem_append_right _ (List.mem_cons_of_mem k hj)
  · intro j hj
    rcases List.mem_append.mp hj with hj | hj
    · exact h.data_high j hj
    · rwa [List.mem_singleton.mp hj]
  · intro j hj
    rcases List.mem_append.mp hj with hj | hj
    · exact h.data_low j hj
    · rw [List.mem_singleton.mp hj]
      exact Nat.le_trans h.delivered_le htime
  · refine List.pairwise_append.mpr ⟨h.data_order, List.pairwise_singleton _ _, ?_⟩
    intro j hj i hi
    rw [List.mem_singleton.mp hi]
    exact Nat.lt_of_lt_of_le (h.data_high j hj) htime

/-- The head of the wire is gone. -/
theorem lose (h : l.Inv w) {k : ℕ} {rest : List ℕ} (hdata : l.data = k :: rest) :
    Inv w { l with data := rest } := by
  have hmem {j : ℕ} (hj : j ∈ rest) : j ∈ l.data := by
    rw [hdata]
    exact List.mem_cons_of_mem k hj
  refine { h with data_high := ?_, data_low := ?_, data_order := ?_ }
  · exact fun j hj => h.data_high j (hmem hj)
  · exact fun j hj => h.data_low j (hmem hj)
  · have hpair := h.data_order
    rw [hdata] at hpair
    exact hpair.of_cons

/-- The receiver asks again. -/
theorem refuse (h : l.Inv w) : Inv w { l with replies := l.replies ++ [none] } := by
  have hmem {k : ℕ} (hk : some k ∈ l.replies ++ [none]) : some k ∈ l.replies := by
    simpa using hk
  refine { h with acks_high := ?_, acks_low := ?_, acks_idle := ?_, acks_order := ?_ }
  · exact fun k hk => h.acks_high k (hmem hk)
  · exact fun k hk => h.acks_low k (hmem hk)
  · exact fun hidle k hk => h.acks_idle hidle k (hmem hk)
  · refine List.pairwise_append.mpr ⟨h.acks_order, List.pairwise_singleton _ _, ?_⟩
    intro r _ r' hr' j _ k hk
    rw [List.mem_singleton.mp hr'] at hk
    cases hk

/-- The receiver acknowledges the message it delivered last. -/
theorem acknowledge (h : l.Inv w) {k : ℕ} (hk : k + 1 = l.delivered.length) :
    Inv w { l with replies := l.replies ++ [some k] } := by
  have hbehind := h.behind
  have hmem {j : ℕ} (hj : some j ∈ l.replies ++ [some k]) : some j ∈ l.replies ∨ j = k := by
    rcases List.mem_append.mp hj with hj | hj
    · exact .inl hj
    · exact .inr (Option.some.inj (List.mem_singleton.mp hj))
  refine { h with acks_high := ?_, acks_low := ?_, acks_idle := ?_, acks_order := ?_ }
  · intro j hj
    rcases hmem hj with hj | rfl
    · exact h.acks_high j hj
    · exact Nat.lt_of_succ_le (Nat.le_of_eq hk)
  · intro j hj
    rcases hmem hj with hj | rfl
    · exact h.acks_low j hj
    · dsimp only
      omega
  · intro hidle j hj
    rcases hmem hj with hj | rfl
    · exact h.acks_idle hidle j hj
    · exact hk.trans (h.idle hidle).2
  · refine List.pairwise_append.mpr ⟨h.acks_order, List.pairwise_singleton _ _, ?_⟩
    rintro r hr r' hr' j hj i hi
    rw [List.mem_singleton.mp hr'] at hi
    obtain rfl : k = i := Option.some.inj hi
    have := h.acks_high j (Option.mem_def.mp hj ▸ hr)
    omega

/-- The receiver takes the next message. -/
theorem receive (h : l.Inv w) {rest : List ℕ} {x : μ} (hdata : l.data = l.delivered.length :: rest)
    (hx : l.accepted[l.delivered.length]? = some x) :
    Inv w { l with data := rest, delivered := l.delivered ++ [x] } := by
  have hlt : l.delivered.length < l.prepared :=
    h.data_high _ (by rw [hdata]; exact List.mem_cons_self)
  -- what is left on the wire is as after a loss
  have hlose := h.lose hdata
  have hpair := h.data_order
  rw [hdata] at hpair
  refine { hlose with
    idle := fun hidle => ?_, delivered := ?_, delivered_le := ?_, behind := ?_, data_low := ?_
    acks_high := ?_ }
  · have := (h.idle hidle).2
    omega
  · simp only [List.length_append, List.length_singleton]
    rw [List.take_add_one, h.delivered, hx]
    rfl
  · rw [List.length_append]
    exact hlt
  · have := h.behind
    simp only [List.length_append, List.length_singleton]
    omega
  · intro j hj
    rw [List.length_append]
    exact List.rel_of_pairwise_cons hpair hj
  · intro k hk
    rw [List.length_append]
    exact Nat.lt_succ_of_lt (h.acks_high k hk)

/-- The head of the replies is gone. -/
theorem skip (h : l.Inv w) {r : Option ℕ} {rest : List (Option ℕ)}
    (hreplies : l.replies = r :: rest) : Inv w { l with replies := rest } := by
  have hmem {k : ℕ} (hk : some k ∈ rest) : some k ∈ l.replies := by
    rw [hreplies]
    exact List.mem_cons_of_mem r hk
  refine { h with acks_high := ?_, acks_low := ?_, acks_idle := ?_, acks_order := ?_ }
  · exact fun k hk => h.acks_high k (hmem hk)
  · exact fun k hk => h.acks_low k (hmem hk)
  · exact fun hidle k hk => h.acks_idle hidle k (hmem hk)
  · have hpair := h.acks_order
    rw [hreplies] at hpair
    exact hpair.of_cons

/-- What is known when the acknowledgement of the last message prepared is at the head. -/
theorem head_ack (h : l.Inv w) {k : ℕ} {rest : List (Option ℕ)}
    (hreplies : l.replies = some k :: rest) (hk : k + 1 = l.prepared) :
    l.delivered.length = l.prepared ∧ ∀ j, some j ∈ rest → j + 1 = l.prepared := by
  have hhigh := h.acks_high k (by rw [hreplies]; exact List.mem_cons_self)
  have hle := h.delivered_le
  refine ⟨by omega, fun j hj => ?_⟩
  have hpair := h.acks_order
  rw [hreplies] at hpair
  have hkj : k ≤ j := List.rel_of_pairwise_cons hpair hj k rfl j rfl
  have := h.acks_high j (by rw [hreplies]; exact List.mem_cons_of_mem _ hj)
  omega

end Inv

/-! ## Steps -/

section

variable {m w : ℕ} {l l' : Link μ} {a : Label μ}

/-- **Every step keeps the invariant**, if a write that it makes is not late. -/
theorem Step.inv (hm : 2 ≤ m) (hw : w < m) (hs : Step m l a l') (h : l.Inv w)
    (htime : ∀ k, a = .write k → l.prepared ≤ k + w) : l'.Inv w := by
  cases hs with
  | @queue x hwait => exact h.queue hwait x
  | @start x hidle =>
    obtain ⟨hall, hdelivered⟩ := h.idle hidle
    refine h.prepare [x] hdelivered ?_ (h.acks_idle hidle)
    rw [hall, List.length_append]
    exact Nat.lt_succ_self _
  | again hwait => exact h.pend (Nat.pred_lt_of_lt (h.pos hwait))
  | write hpending => exact h.write hpending (htime _ rfl)
  | lose hdata => exact h.lose hdata
  | deliver hdata hk hx =>
    -- the residue names the next message, or the last one, since the wire is in the window
    obtain rfl := h.deliver_eq hw hdata hk
    exact (h.receive hdata hx).acknowledge (by simp)
  | duplicate hdata hk => exact (h.lose hdata).acknowledge (h.duplicate_eq hm hw hdata hk)
  | refuse hdata => exact (h.lose hdata).refuse
  | last hreplies hwait hk hall =>
    obtain ⟨hdelivered, hacks⟩ := h.head_ack hreplies (h.ack_eq hm hreplies hk)
    exact { h.skip hreplies with
      pos := fun hw => by cases hw
      idle := fun _ => ⟨hall, hdelivered⟩
      acks_idle := fun _ => hacks }
  | next hreplies hwait hk hmore =>
    obtain ⟨hdelivered, hacks⟩ := h.head_ack hreplies (h.ack_eq hm hreplies hk)
    have := (h.skip hreplies).prepare [] hdelivered (by simpa using hmore) hacks
    simpa [hwait] using this
  | ask hreplies hwait => exact (h.skip hreplies).pend (Nat.pred_lt_of_lt (h.pos hwait))
  | skip hreplies => exact h.skip hreplies
  | idle => exact h

/-- **An acknowledgement that the sender takes** is one of the last message prepared, and that
has been delivered. -/
theorem Step.taken (hm : 2 ≤ m) (hs : Step m l .take l') (h : l.Inv w) :
    0 < l.prepared ∧ l.delivered.length = l.prepared := by
  cases hs with
  | last hreplies hwait hk => exact ⟨h.pos hwait, (h.head_ack hreplies (h.ack_eq hm hreplies hk)).1⟩
  | next hreplies hwait hk => exact ⟨h.pos hwait, (h.head_ack hreplies (h.ack_eq hm hreplies hk)).1⟩

theorem Step.accepted_eq (hs : Step m l a l') :
    l'.accepted = l.accepted ++ a.accepted?.toList := by
  cases hs <;> first | rfl | exact (List.append_nil _).symm

/-- What is delivered was accepted, however late it was written. -/
theorem Step.delivered_mem {x : μ} (hs : Step m l (.deliver x) l') : x ∈ l.accepted := by
  cases hs with
  | deliver _ _ hx => exact List.mem_of_getElem? hx

theorem Step.delivered_eq (hs : Step m l a l') :
    l'.delivered = l.delivered ++ a.delivered?.toList := by
  cases hs <;> first | rfl | exact (List.append_nil _).symm

end

end Link

end LateWrites
