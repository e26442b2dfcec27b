import Mathlib.Data.List.Basic
import Mathlib.Data.Nat.Notation

/-!
# Stop and wait over lossy FIFO channels

One direction of a stop-and-wait link, with ideal message numbers: a sender that keeps one
message outstanding, a receiver that delivers the next message and acknowledges it, and two
FIFO channels that may lose what they carry at any time. A sender may repeat its message as
often as it likes, so both channels may hold any number of copies.

`Link.Step` is what can happen, `Link.Inv` the invariant of every state, kept by every step
(`Link.Step.inv`). It yields exactly-once, in-order delivery (`Link.Inv.inOrder`,
`Link.Inv.length_le`, `Link.Inv.complete`), and says that the numbers under way never span
more than two (`Link.Inv.data_window`, `Link.Inv.acks_window`): two numbers under way are
equal as soon as they agree modulo any `w ≥ 2`, which is why a protocol can transmit them
modulo `w`.
-/

namespace StopAndWait

universe u

variable {μ : Type u}

/-- A direction of a link. -/
structure Link (μ : Type u) where
  /-- the messages the sender accepted -/
  accepted : List μ
  /-- the messages the receiver delivered -/
  delivered : List μ
  /-- the last accepted message is not acknowledged yet -/
  awaiting : Bool
  /-- the numbers of the messages on their way, oldest first -/
  data : List ℕ
  /-- the numbers of the acknowledgements on their way back, oldest first -/
  acks : List ℕ

namespace Link

/-- A link on which nothing has happened. -/
def fresh : Link μ := ⟨[], [], false, [], []⟩

/-- What can happen on a link. -/
inductive Step : Link μ → Link μ → Prop where
  | put {l : Link μ} (m : μ) (hidle : l.awaiting = false) :
      Step l { l with
        accepted := l.accepted ++ [m], awaiting := true, data := l.data ++ [l.accepted.length] }
  | resend {l : Link μ} {k : ℕ} (hwait : l.awaiting = true) (hk : k + 1 = l.accepted.length) :
      Step l { l with data := l.data ++ [k] }
  | deliver {l : Link μ} {rest : List ℕ} {m : μ} (hdata : l.data = l.delivered.length :: rest)
      (hm : l.accepted[l.delivered.length]? = some m) :
      Step l { l with
        delivered := l.delivered ++ [m], data := rest, acks := l.acks ++ [l.delivered.length] }
  | duplicate {l : Link μ} {k : ℕ} {rest : List ℕ} (hdata : l.data = k :: rest)
      (hk : k + 1 = l.delivered.length) :
      Step l { l with data := rest, acks := l.acks ++ [k] }
  | loseData {l : Link μ} {k : ℕ} {rest : List ℕ} (hdata : l.data = k :: rest) :
      Step l { l with data := rest }
  | acked {l : Link μ} {k : ℕ} {rest : List ℕ} (hacks : l.acks = k :: rest)
      (hk : k + 1 = l.accepted.length) :
      Step l { l with awaiting := false, acks := rest }
  | loseAck {l : Link μ} {k : ℕ} {rest : List ℕ} (hacks : l.acks = k :: rest) :
      Step l { l with acks := rest }

/-- The invariant. -/
structure Inv (l : Link μ) : Prop where
  delivered : l.delivered = l.accepted.take l.delivered.length
  behind : l.accepted.length ≤ l.delivered.length + 1
  idle : l.awaiting = false → l.accepted.length = l.delivered.length
  nonempty : l.awaiting = true → l.accepted ≠ []
  data_sorted : l.data.Pairwise (· ≤ ·)
  data_low : ∀ k ∈ l.data, l.delivered.length ≤ k + 1
  data_high : ∀ k ∈ l.data, k < l.accepted.length
  acks_sorted : l.acks.Pairwise (· ≤ ·)
  acks_low : ∀ k ∈ l.acks, l.accepted.length ≤ k + 2
  acks_high : ∀ k ∈ l.acks, k < l.delivered.length
  acks_idle : l.awaiting = false → ∀ k ∈ l.acks, k + 1 = l.accepted.length

theorem inv_fresh : (fresh : Link μ).Inv := by
  constructor <;> simp [fresh]

namespace Inv

variable {l : Link μ}

/-! ## What the invariant says -/

/-- No message is delivered that was not accepted, and the order is kept. -/
theorem inOrder (h : l.Inv) : l.delivered <+: l.accepted := by
  rw [h.delivered]
  exact List.take_prefix _ _

theorem delivered_le (h : l.Inv) : l.delivered.length ≤ l.accepted.length :=
  h.inOrder.length_le

/-- At most the last accepted message is not delivered. -/
theorem length_le (h : l.Inv) : l.accepted.length ≤ l.delivered.length + 1 := h.behind

/-- Everything accepted is delivered once nothing is outstanding. -/
theorem complete (h : l.Inv) (hidle : l.awaiting = false) : l.delivered = l.accepted :=
  h.inOrder.eq_of_length (h.idle hidle).symm

/-- A message on its way is the next one to deliver or the last one delivered. -/
theorem data_window (h : l.Inv) {k : ℕ} (hk : k ∈ l.data) :
    k = l.delivered.length ∨ k + 1 = l.delivered.length := by
  have := h.data_low k hk
  have := h.data_high k hk
  have := h.behind
  omega

/-- An acknowledgement on its way back is for the last accepted message or the one before. -/
theorem acks_window (h : l.Inv) {k : ℕ} (hk : k ∈ l.acks) :
    k + 1 = l.accepted.length ∨ k + 2 = l.accepted.length := by
  have := h.acks_low k hk
  have := h.acks_high k hk
  have := h.delivered_le
  omega

/-! ## Every step keeps it -/

theorem put (h : l.Inv) (m : μ) (hidle : l.awaiting = false) :
    Inv { l with
      accepted := l.accepted ++ [m], awaiting := true, data := l.data ++ [l.accepted.length] } := by
  have hn := h.idle hidle
  -- nothing is outstanding, so the new number is the next to be delivered
  refine ⟨?_, ?_, ?_, fun _ => by simp, ?_, ?_, ?_, h.acks_sorted, ?_, h.acks_high, ?_⟩
  · dsimp only
    rw [List.take_append_of_le_length h.delivered_le]
    exact h.delivered
  · simp [hn]
  · intro h
    cases h
  · refine List.pairwise_append.mpr ⟨h.data_sorted, List.pairwise_singleton _ _, ?_⟩
    intro k hk j hj
    rw [List.mem_singleton.mp hj]
    exact Nat.le_of_lt (h.data_high k hk)
  · intro k hk
    rcases List.mem_append.mp hk with hk | hk
    · exact h.data_low k hk
    · rw [List.mem_singleton.mp hk, hn]
      exact Nat.le_succ _
  · intro k hk
    rw [List.length_append]
    rcases List.mem_append.mp hk with hk | hk
    · exact Nat.lt_of_lt_of_le (h.data_high k hk) (Nat.le_add_right _ _)
    · rw [List.mem_singleton.mp hk]
      exact Nat.lt_succ_self _
  · intro k hk
    have := h.acks_idle hidle k hk
    simp only [List.length_append, List.length_singleton]
    omega
  · intro h
    cases h

theorem resend (h : l.Inv) {k : ℕ} (hk : k + 1 = l.accepted.length) :
    Inv { l with data := l.data ++ [k] } := by
  have hle := h.delivered_le
  refine ⟨h.delivered, h.behind, h.idle, h.nonempty, ?_, ?_, ?_, h.acks_sorted, h.acks_low,
    h.acks_high, h.acks_idle⟩
  · refine List.pairwise_append.mpr ⟨h.data_sorted, List.pairwise_singleton _ _, ?_⟩
    intro i hi j hj
    have := h.data_high i hi
    rw [List.mem_singleton.mp hj]
    omega
  · intro i hi
    rcases List.mem_append.mp hi with hi | hi
    · exact h.data_low i hi
    · rw [List.mem_singleton.mp hi, hk]
      exact hle
  · intro i hi
    rcases List.mem_append.mp hi with hi | hi
    · exact h.data_high i hi
    · rw [List.mem_singleton.mp hi, ← hk]
      exact Nat.lt_succ_self k

theorem loseData (h : l.Inv) {k : ℕ} {rest : List ℕ} (hdata : l.data = k :: rest) :
    Inv { l with data := rest } := by
  have hmem : ∀ i ∈ rest, i ∈ l.data := by
    intro i hi
    rw [hdata]
    exact List.mem_cons_of_mem k hi
  have hsorted := h.data_sorted
  rw [hdata] at hsorted
  exact ⟨h.delivered, h.behind, h.idle, h.nonempty, hsorted.of_cons,
    fun i hi => h.data_low i (hmem i hi), fun i hi => h.data_high i (hmem i hi), h.acks_sorted,
    h.acks_low, h.acks_high, h.acks_idle⟩

theorem loseAck (h : l.Inv) {k : ℕ} {rest : List ℕ} (hacks : l.acks = k :: rest) :
    Inv { l with acks := rest } := by
  have hmem : ∀ i ∈ rest, i ∈ l.acks := by
    intro i hi
    rw [hacks]
    exact List.mem_cons_of_mem k hi
  have hsorted := h.acks_sorted
  rw [hacks] at hsorted
  exact ⟨h.delivered, h.behind, h.idle, h.nonempty, h.data_sorted, h.data_low, h.data_high,
    hsorted.of_cons,
    fun i hi => h.acks_low i (hmem i hi), fun i hi => h.acks_high i (hmem i hi),
    fun hidle i hi => h.acks_idle hidle i (hmem i hi)⟩

/-- Acknowledging a delivered message. -/
theorem pushAck (h : l.Inv) {k : ℕ} (hk : k + 1 = l.delivered.length) :
    Inv { l with acks := l.acks ++ [k] } := by
  have hbehind := h.behind
  -- the new ACK is the highest possible one, so the order stays
  refine ⟨h.delivered, h.behind, h.idle, h.nonempty, h.data_sorted, h.data_low, h.data_high, ?_,
    ?_, ?_, ?_⟩
  · refine List.pairwise_append.mpr ⟨h.acks_sorted, List.pairwise_singleton _ _, ?_⟩
    intro i hi j hj
    have := h.acks_high i hi
    rw [List.mem_singleton.mp hj]
    omega
  · intro i hi
    rcases List.mem_append.mp hi with hi | hi
    · exact h.acks_low i hi
    · rw [List.mem_singleton.mp hi]
      dsimp only
      omega
  · intro i hi
    rcases List.mem_append.mp hi with hi | hi
    · exact h.acks_high i hi
    · rw [List.mem_singleton.mp hi, ← hk]
      exact Nat.lt_succ_self k
  · intro hidle i hi
    rcases List.mem_append.mp hi with hi | hi
    · exact h.acks_idle hidle i hi
    · rw [List.mem_singleton.mp hi, hk]
      exact (h.idle hidle).symm

/-- Delivering the next message, which leaves the channel. -/
theorem handOver (h : l.Inv) {rest : List ℕ} {m : μ}
    (hdata : l.data = l.delivered.length :: rest)
    (hm : l.accepted[l.delivered.length]? = some m) :
    Inv { l with delivered := l.delivered ++ [m], data := rest } := by
  have hlt : l.delivered.length < l.accepted.length :=
    (List.getElem?_eq_some_iff.mp hm).1
  have hbehind := h.behind
  -- whatever is still on its way comes after the message that is delivered
  have hsorted := h.data_sorted
  rw [hdata] at hsorted
  have hlow := (List.pairwise_cons.mp hsorted).1
  have hmem : ∀ i ∈ rest, i ∈ l.data := by
    intro i hi
    rw [hdata]
    exact List.mem_cons_of_mem _ hi
  refine ⟨?_, ?_, ?_, h.nonempty, hsorted.of_cons, ?_, fun i hi => h.data_high i (hmem i hi),
    h.acks_sorted, h.acks_low, ?_, h.acks_idle⟩
  · simp only [List.length_append, List.length_singleton]
    rw [List.take_add_one, hm, ← h.delivered]
    rfl
  · simp only [List.length_append, List.length_singleton]
    omega
  · intro hidle
    have := h.idle hidle
    omega
  · intro i hi
    have := hlow i hi
    simp only [List.length_append, List.length_singleton]
    omega
  · intro i hi
    have := h.acks_high i hi
    simp only [List.length_append, List.length_singleton]
    omega

theorem acked (h : l.Inv) {k : ℕ} {rest : List ℕ} (hacks : l.acks = k :: rest)
    (hk : k + 1 = l.accepted.length) : Inv { l with awaiting := false, acks := rest } := by
  have hlt : k < l.delivered.length := h.acks_high k (by rw [hacks]; exact List.mem_cons_self)
  have hle := h.delivered_le
  have hsorted := h.acks_sorted
  rw [hacks] at hsorted
  have hlow := (List.pairwise_cons.mp hsorted).1
  have hlose := h.loseAck hacks
  refine ⟨h.delivered, h.behind, ?_, fun hw => (by cases hw), h.data_sorted, h.data_low,
    h.data_high, hlose.acks_sorted,
    hlose.acks_low, hlose.acks_high, ?_⟩
  · intro _
    dsimp only
    omega
  · intro _ i hi
    have := hlow i hi
    have := hlose.acks_high i hi
    dsimp only at this ⊢
    omega

end Inv

/-- **Every step keeps the invariant.** -/
theorem Step.inv {l l' : Link μ} (h : l.Inv) (hs : l.Step l') : l'.Inv := by
  cases hs with
  | put m hidle => exact h.put m hidle
  | resend hwait hk => exact h.resend hk
  | deliver hdata hm => exact (h.handOver hdata hm).pushAck (by simp)
  | duplicate hdata hk => exact (h.loseData hdata).pushAck hk
  | loseData hdata => exact h.loseData hdata
  | acked hacks hk => exact h.acked hacks hk
  | loseAck hacks => exact h.loseAck hacks

/-- While it waits, the sender has accepted something. -/
theorem Inv.exists_last {l : Link μ} (h : l.Inv) (hwait : l.awaiting = true) :
    ∃ k, k + 1 = l.accepted.length :=
  ⟨l.accepted.length - 1, Nat.sub_add_cancel (List.length_pos_iff.mpr (h.nonempty hwait))⟩

/-- What happens elsewhere leaves the link as it is. -/
theorem Inv.step_or_eq {l l' : Link μ} (h : l.Inv) (hs : l' = l ∨ l.Step l') : l'.Inv := by
  rcases hs with rfl | hs
  · exact h
  · exact hs.inv h

end Link

end StopAndWait
