import HtcwFrameArq.LateWrites

/-!
# Links that share their wires

Two links back to back, where each end is the sender of one and the receiver of the other, share
two wires: the messages of one link travel with the replies of the other. `Link.Turn` is what
happens to one of them when the whole does a step. Next to the steps of a link alone, an end may
prepare a message and write it at once, and a receiver may ask again because what was damaged
belonged to the other link.

Writes that are made at once are never more than one message behind, so the invariant holds with
the window 1 as long as every write is made in this way (`Link.Turn.inv`).

`Answer` is how a receiver that counts modulo `m` answers a message.
-/

namespace LateWrites

universe u

variable {μ : Type u}

namespace Link

/-- What can happen to a link that shares its wires. -/
inductive Turn (m : ℕ) (l : Link μ) : Label μ → Link μ → Prop where
  | step {a : Label μ} {l' : Link μ} (hs : Step m l a l') : Turn m l a l'
  /-- the next message is prepared and written at once -/
  | send {x : μ} (hidle : l.awaiting = false) :
      Turn m l (.accept x) { l with
        accepted := l.accepted ++ [x], prepared := l.prepared + 1, awaiting := true
        data := l.data ++ [l.prepared] }
  /-- the last message is written again at once -/
  | sendAgain (hwait : l.awaiting = true) :
      Turn m l .silent { l with data := l.data ++ [l.prepared - 1] }
  /-- what was damaged belonged to the other link, and the receiver asks again -/
  | complain : Turn m l .silent { l with replies := l.replies ++ [none] }

section

variable {m w : ℕ} {l l' : Link μ} {a : Label μ}

/-- A message that is prepared and written at once. -/
theorem Inv.send (h : l.Inv w) (hm : 2 ≤ m) (hw : w < m) (hpos : 0 < w)
    (hidle : l.awaiting = false) (x : μ) :
    Inv w { l with
      accepted := l.accepted ++ [x], prepared := l.prepared + 1, awaiting := true
      data := l.data ++ [l.prepared] } := by
  have hstart := (Step.start (m := m) (x := x) hidle).inv hm hw h (fun k hk => by cases hk)
  have hwrite := hstart.write (show _ = l.pending ++ l.prepared :: [] from rfl)
    (Nat.add_le_add_left hpos l.prepared)
  simpa using hwrite

/-- The last message, written again at once. -/
theorem Inv.sendAgain (h : l.Inv w) (hpos : 0 < w) (hwait : l.awaiting = true) :
    Inv w { l with data := l.data ++ [l.prepared - 1] } := by
  have hsome := h.pos hwait
  have hpend := h.pend (k := l.prepared - 1) (Nat.pred_lt_of_lt hsome)
  have hlate : l.prepared ≤ l.prepared - 1 + w := by omega
  have hwrite := hpend.write (show _ = l.pending ++ (l.prepared - 1) :: [] from rfl) hlate
  simpa using hwrite

/-- **Every turn keeps the invariant**, if a write that it makes is not late. -/
theorem Turn.inv (ht : Turn m l a l') (hm : 2 ≤ m) (hw : w < m) (hpos : 0 < w) (h : l.Inv w)
    (htime : ∀ k, a = .write k → l.prepared ≤ k + w) : l'.Inv w := by
  cases ht with
  | step hs => exact hs.inv hm hw h htime
  | @send x hidle => exact h.send hm hw hpos hidle x
  | sendAgain hwait => exact h.sendAgain hpos hwait
  | complain => exact h.refuse

theorem Turn.accepted_eq (ht : Turn m l a l') :
    l'.accepted = l.accepted ++ a.accepted?.toList := by
  cases ht with
  | step hs => exact hs.accepted_eq
  | send => rfl
  | sendAgain => exact (List.append_nil _).symm
  | complain => exact (List.append_nil _).symm

theorem Turn.delivered_eq (ht : Turn m l a l') :
    l'.delivered = l.delivered ++ a.delivered?.toList := by
  cases ht with
  | step hs => exact hs.delivered_eq
  | send => exact (List.append_nil _).symm
  | sendAgain => exact (List.append_nil _).symm
  | complain => exact (List.append_nil _).symm

theorem Turn.delivered_mem {x : μ} (ht : Turn m l (.deliver x) l') : x ∈ l.accepted := by
  cases ht with
  | step hs => exact hs.delivered_mem

/-- An acknowledgement that the sender takes is one of a message delivered. -/
theorem Turn.taken (ht : Turn m l .take l') (hm : 2 ≤ m) (h : l.Inv w) :
    0 < l.prepared ∧ l.delivered.length = l.prepared := by
  cases ht with
  | step hs => exact hs.taken hm h

/-! ## What a link delivers -/

/-- A sender that has prepared all its messages is at most one of them ahead of the receiver. -/
theorem Inv.ahead (h : l.Inv w) (hall : l.prepared = l.accepted.length) :
    l.accepted.length ≤ l.delivered.length + 1 := by
  rw [← hall]
  exact h.behind

/-- **A sender that does not wait has been heard**: everything is delivered. -/
theorem Inv.heard (h : l.Inv w) (hidle : l.awaiting = false) : l.delivered = l.accepted := by
  obtain ⟨hall, hlen⟩ := h.idle hidle
  exact h.inOrder.eq_of_length (hlen.trans hall)

end

/-! ## Answers -/

/-- How a receiver that has delivered `n` messages answers message number `k`: whether it
delivers it, and its reply. -/
inductive Answer (m n k : ℕ) : Bool → Option ℕ → Prop where
  | next (hk : k ≡ n [MOD m]) : Answer m n k true (some k)
  | again (hk : k + 1 ≡ n [MOD m]) : Answer m n k false (some k)
  | other : Answer m n k false none

/-- An answer is a step. -/
theorem Answer.step {m : ℕ} {l : Link μ} {k : ℕ} {rest : List ℕ} {x : μ} {delivers : Bool}
    {r : Option ℕ} (h : Answer m l.delivered.length k delivers r) (hdata : l.data = k :: rest)
    (hx : l.accepted[k]? = some x) :
    Step m l (if delivers then .deliver x else .silent) { l with
      data := rest, delivered := l.delivered ++ (if delivers then [x] else [])
      replies := l.replies ++ [r] } := by
  cases h with
  | next hk => exact .deliver hdata hk hx
  | again hk =>
    have hs := Step.duplicate hdata hk
    simpa using hs
  | other =>
    have hs := Step.refuse (m := m) hdata
    simpa using hs

end Link

end LateWrites
