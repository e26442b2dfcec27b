import HtcwFrameArq.Network
import HtcwFrameArq.StopAndWait

/-!
# Sessions between two endpoints

Each direction of the net is a stop-and-wait link (`Carries`): the sender's counter, the
frame it retains and the DATA frames under way are those of the messages numbered by the
link, taken modulo 64, and so are the ACKs under way. Frames of the other direction share
the channels and do not matter.

`exactly_once` says that every run of the system delivers what was accepted, once and in
order.
-/

namespace HtcwFrameArq

open Function StopAndWait

/-! ## A direction of the net as a link -/

/-- The DATA frame of message number `k` of `ms`. -/
def numbered (ms : List Msg) (k : ℕ) : Frame :=
  dataFrame (ms[k]?.getD (0, [])).1 (seqOf k) (ms[k]?.getD (0, [])).2

/-- The ACK of message number `k`. -/
def ackOf (k : ℕ) : Frame := controlFrame faTypeAck (seqOf k)

/-- An ACK, as the sender tells it from other frames. -/
def Frame.IsAck (fr : Frame) : Prop := faTypeOf fr.seqByte = faTypeAck

instance (fr : Frame) : Decidable fr.IsAck := inferInstanceAs (Decidable (_ = _))

/-- The direction from `x` to the other end carries the link `l`. -/
structure Carries (n : Net) (x : Side) (l : Link Msg) : Prop where
  waiting : (n.arq x).awaitingAck = l.awaiting
  /-- the counter starts one before message number 0 -/
  tx : (n.arq x).txSeq = seqOf (l.accepted.length + 63)
  retained : l.awaiting = true → ∀ k, k + 1 = l.accepted.length →
    n.retained x = numbered l.accepted k
  data : (n.flying x.other).filter (fun fr => fr.IsData) = l.data.map (numbered l.accepted)
  acks : (n.flying x).filter (fun fr => fr.IsAck) = l.acks.map ackOf

/-- The receiver of the direction from `x` expects the next message of the link. -/
def Expects (n : Net) (x : Side) (l : Link Msg) : Prop :=
  (n.arq x.other).expectedRxSeq = seqOf l.delivered.length

theorem carries_fresh {n : Net} {x : Side} (harq : n.arq x = .fresh)
    (hdata : (n.flying x.other).filter (fun fr => fr.IsData) = [])
    (hacks : (n.flying x).filter (fun fr => fr.IsAck) = []) : Carries n x Link.fresh := by
  refine ⟨?_, ?_, fun h => (by cases h), hdata, hacks⟩
  · rw [harq]
    rfl
  · rw [harq]
    rfl

/-! ### Frames -/

theorem numbered_append {ms : List Msg} {k : ℕ} (hk : k < ms.length) (m : Msg) :
    numbered (ms ++ [m]) k = numbered ms k := by
  rw [numbered, List.getElem?_append_left hk, numbered]

theorem numbered_last (ms : List Msg) (m : Msg) :
    numbered (ms ++ [m]) ms.length = dataFrame m.1 (seqOf ms.length) m.2 := by
  simp [numbered]

theorem faSeqOf_numbered (ms : List Msg) (k : ℕ) : faSeqOf (numbered ms k).seqByte = seqOf k :=
  faSeqOf_dataFrame (seqOf_le k) _ _

theorem faSeqOf_ackOf (k : ℕ) : faSeqOf (ackOf k).seqByte = seqOf k :=
  faSeqOf_faSeqByte (by decide) (seqOf_le k)

theorem controlFrame_not_isData (type seq : UInt8) : ¬ (controlFrame type seq).IsData :=
  fun h => h.1 rfl

theorem ackOf_isAck (seq : UInt8) : (controlFrame faTypeAck seq).IsAck :=
  faTypeOf_faSeqByte (by decide) seq

theorem nack_not_isAck (seq : UInt8) : ¬ (controlFrame faTypeNack seq).IsAck := by
  intro h
  have hnack : faTypeOf (controlFrame faTypeNack seq).seqByte = faTypeNack :=
    faTypeOf_faSeqByte (by decide) seq
  exact absurd (hnack.symm.trans h) (by decide)

theorem Frame.IsData.not_isAck {fr : Frame} (h : fr.IsData) : ¬ fr.IsAck :=
  fun hack => absurd (h.2.symm.trans hack) (by decide)

/-- Neighbours have different sequence numbers. -/
theorem seqOf_succ_ne (k : ℕ) : seqOf k ≠ seqOf (k + 1) := by
  rw [ne_eq, seqOf_eq_iff]
  omega

theorem seqOf_add_64 (k : ℕ) : seqOf (k + 64) = seqOf k := by
  rw [seqOf_eq_iff]
  omega

/-! ## What the sender does -/

section

variable {n n' : Net} {x : Side} {l : Link Msg} {deed : Deed}

/-- The counter of the sender is the number of its last message. -/
theorem Carries.tx_last (h : Carries n x l) {k : ℕ} (hk : k + 1 = l.accepted.length) :
    (n.arq x).txSeq = seqOf k := by
  rw [h.tx, ← hk, seqOf_eq_iff]
  omega

/-- The head of the channel to the sender leaves it. -/
theorem Carries.pop (h : Carries n x l) {fr : Frame} {rest : List Frame}
    (hfly : n.flying x = fr :: rest) :
    ∃ l', (l' = l ∨ l.Step l') ∧ Carries (n.pop x rest) x l' ∧ l'.accepted = l.accepted ∧
      l'.delivered = l.delivered := by
  have hacks := h.acks
  have hdata : ((n.pop x rest).flying x.other).filter (fun fr => fr.IsData) =
      l.data.map (numbered l.accepted) := by simpa [Net.pop] using h.data
  rw [hfly] at hacks
  by_cases hack : fr.IsAck
  · rw [List.filter_cons_of_pos (by simpa using hack)] at hacks
    obtain ⟨k, ks, hks, -, hrest⟩ := List.map_eq_cons_iff.mp hacks.symm
    refine ⟨{ l with acks := ks }, Or.inr (.loseAck hks),
      ⟨h.waiting, h.tx, h.retained, hdata, ?_⟩, rfl, rfl⟩
    simpa [Net.pop] using hrest.symm
  · rw [List.filter_cons_of_neg (by simpa using hack)] at hacks
    refine ⟨l, Or.inl rfl, ⟨h.waiting, h.tx, h.retained, hdata, ?_⟩, rfl, rfl⟩
    simpa [Net.pop] using hacks

/-- The sender sends something that is not a DATA frame. -/
theorem Carries.send_control (h : Carries n x l) {frs : List Frame}
    (hctrl : ∀ fr ∈ frs, ¬ fr.IsData) : Carries (n.send x frs) x l := by
  have hnone : frs.filter (fun fr => fr.IsData) = [] := by simpa using hctrl
  refine ⟨h.waiting, h.tx, h.retained, ?_, ?_⟩
  · simpa [Net.send, hnone] using h.data
  · simpa [Net.send] using h.acks

/-- A frame that is not an ACK of the outstanding message changes nothing for the sender. -/
theorem Carries.set (h : Carries n x l) {a : Arq} (htx : a.txSeq = (n.arq x).txSeq)
    (hwait : a.awaitingAck = (n.arq x).awaitingAck) : Carries (n.set x a) x l := by
  refine ⟨?_, ?_, h.retained, h.data, h.acks⟩
  · simpa [Net.set, hwait] using h.waiting
  · simpa [Net.set, htx] using h.tx

theorem reply_not_isData (a : Arq) (fr : Frame) :
    ∀ g ∈ (a.handle fr).reply.toList, ¬ g.IsData := by
  intro g hg
  have hreply : (a.react (some (.frame fr))).reply = some g := Option.mem_toList.mp hg
  rcases Arq.react_reply hreply with ⟨fr', -, -, -, rfl⟩ | rfl
  · exact controlFrame_not_isData _ _
  · exact controlFrame_not_isData _ _

/-- The sender receives a frame. -/
theorem Carries.sender_received (h : Carries n x l) (hinv : l.Inv) {fr : Frame}
    {rest : List Frame} (hfly : n.flying x = fr :: rest) :
    ∃ l', (l' = l ∨ l.Step l') ∧
      Carries (((n.pop x rest).set x ((n.arq x).handle fr).arq).send x
        ((n.arq x).handle fr).reply.toList) x l' ∧
      l'.accepted = l.accepted ∧ l'.delivered = l.delivered := by
  have htx : ((n.arq x).handle fr).arq.txSeq = (n.arq x).txSeq :=
    ((n.arq x).keeps_react (some (.frame fr))).txSeq
  by_cases hack : fr.IsAck
  · obtain ⟨-, -, hwait⟩ := Arq.handle_ack (a := n.arq x) hack
    have hacks := h.acks
    rw [hfly, List.filter_cons_of_pos (by simpa using hack)] at hacks
    obtain ⟨k, ks, hks, hfr, hrest⟩ := List.map_eq_cons_iff.mp hacks.symm
    have hseq : faSeqOf fr.seqByte = seqOf k := by rw [← hfr, faSeqOf_ackOf]
    have hdata : (n.flying x.other).filter (fun fr => fr.IsData) =
        l.data.map (numbered l.accepted) := h.data
    rw [hseq] at hwait
    rcases hinv.acks_window (k := k) (by rw [hks]; exact List.mem_cons_self) with hk | hk
    · -- the outstanding message is acknowledged
      have hsame : seqOf k = (n.arq x).txSeq := (h.tx_last hk).symm
      refine ⟨{ l with awaiting := false, acks := ks }, Or.inr (.acked hks hk), ?_, rfl, rfl⟩
      refine Carries.send_control ?_ (reply_not_isData _ _)
      refine ⟨?_, ?_, fun hw => (by cases hw), ?_, ?_⟩
      · simp [Net.set, Net.pop, hwait, hsame]
      · simpa [Net.set, Net.pop, htx] using h.tx
      · simpa [Net.set, Net.pop] using hdata
      · simpa [Net.set, Net.pop] using hrest.symm
    · -- a stale ACK
      have hdiff : seqOf k ≠ (n.arq x).txSeq := by
        rw [h.tx_last hk]
        exact seqOf_succ_ne k
      refine ⟨{ l with acks := ks }, Or.inr (.loseAck hks), ?_, rfl, rfl⟩
      have hpop : Carries (n.pop x rest) x { l with acks := ks } :=
        ⟨h.waiting, h.tx, h.retained, by simpa [Net.pop] using hdata,
          by simpa [Net.pop] using hrest.symm⟩
      exact (hpop.set htx (by simpa [Net.pop, hdiff] using hwait)).send_control
        (reply_not_isData _ _)
  · obtain ⟨l', hl', hcar, hacc, hdel⟩ := h.pop hfly
    exact ⟨l', hl', (hcar.set htx (Arq.handle_not_ack hack)).send_control
      (reply_not_isData _ _), hacc, hdel⟩

/-- The sender accepts a message. -/
theorem Carries.accepted (h : Carries n x l) (hinv : l.Inv) {cmd : UInt8} {payload : List UInt8}
    (hlo : 1 ≤ cmd) (hhi : cmd ≤ 127) :
    Carries (((n.set x (n.arq x).put).retain x (dataFrame cmd (n.arq x).put.txSeq payload)).send x
        [dataFrame cmd (n.arq x).put.txSeq payload]) x
      { l with
        accepted := l.accepted ++ [(cmd, payload)], awaiting := true,
        data := l.data ++ [l.accepted.length] } := by
  have hnext : (n.arq x).put.txSeq = seqOf (l.accepted.length + 64) := by
    rw [Arq.put, h.tx, seqOf_succ]
  have hseq : (n.arq x).put.txSeq = seqOf l.accepted.length := by rw [hnext, seqOf_add_64]
  have hfr := numbered_last l.accepted (cmd, payload)
  refine ⟨?_, ?_, ?_, ?_, ?_⟩
  · simp [Net.send, Net.retain, Net.set, Arq.put]
  · have hlen : (l.accepted ++ [(cmd, payload)]).length + 63 = l.accepted.length + 64 := by
      simp
    rw [hlen, ← hnext]
    simp [Net.send, Net.retain, Net.set]
  · intro _ k hk
    obtain rfl : k = l.accepted.length := by simpa using hk
    rw [hfr, ← hseq]
    simp [Net.send, Net.retain, Net.set]
  -- the numbers on the way still name the same frames
  · have hold : l.data.map (numbered (l.accepted ++ [(cmd, payload)])) =
        l.data.map (numbered l.accepted) := by
      apply List.map_congr_left
      intro k hk
      exact numbered_append (hinv.data_high k hk) _
    have hnew : (dataFrame cmd (seqOf l.accepted.length) payload).IsData :=
      dataFrame_isData hlo hhi _ _
    rw [List.map_append, hold, ← h.data, List.map_singleton, hfr, hseq]
    simp [Net.send, Net.retain, Net.set, hnew]
  · simpa [Net.send, Net.retain, Net.set] using h.acks

/-- The sender sends its outstanding message, which has number `k`, again. -/
theorem Carries.resent (h : Carries n x l) (hwait : l.awaiting = true) {k : ℕ}
    (hk : k + 1 = l.accepted.length) (hdata : (n.retained x).IsData) :
    Carries ((n.set x (n.arq x).resend).send x [n.retained x]) x
      { l with data := l.data ++ [k] } := by
  have hfr := h.retained hwait k hk
  have hset : Carries (n.set x (n.arq x).resend) x l := h.set rfl rfl
  refine ⟨hset.waiting, hset.tx, hset.retained, ?_, ?_⟩
  · rw [List.map_append, ← h.data, List.map_singleton, ← hfr]
    simp [Net.send, Net.set, hdata]
  · simpa [Net.send, Net.set] using h.acks

/-- **A step of the sender** is a step of the link, or none. -/
theorem Carries.sender_step (h : Carries n x l) (hinv : l.Inv)
    (hdata : (n.arq x).awaitingAck = true → (n.retained x).IsData)
    (hs : n.Step x deed n') (hno : deed ≠ .restarted) :
    ∃ l', (l' = l ∨ l.Step l') ∧ Carries n' x l' ∧
      l'.accepted = l.accepted ++ deed.accepted?.toList ∧ l'.delivered = l.delivered := by
  cases hs with
  | @accepted cmd payload hlo hhi hidle =>
    have hidle' : l.awaiting = false := h.waiting.symm.trans hidle
    exact ⟨_, Or.inr (.put (cmd, payload) hidle'), h.accepted hinv hlo hhi, rfl, rfl⟩
  | nothing => exact ⟨l, Or.inl rfl, h, by simp [Deed.accepted?], rfl⟩
  | resent hwait =>
    have hwait' : l.awaiting = true := h.waiting.symm.trans hwait
    obtain ⟨k, hk⟩ := hinv.exists_last hwait'
    exact ⟨_, Or.inr (.resend hwait' hk), h.resent hwait' hk (hdata hwait),
      by simp [Deed.accepted?], rfl⟩
  | received hfly =>
    obtain ⟨l', hl', hcar, hacc, hdel⟩ := h.sender_received hinv hfly
    exact ⟨l', hl', hcar, by simpa [Deed.accepted?] using hacc, hdel⟩
  | empty => exact ⟨l, Or.inl rfl, h, by simp [Deed.accepted?], rfl⟩
  -- the NACK that answers a damaged frame carries no message
  | damaged hfly =>
    obtain ⟨l', hl', hcar, hacc, hdel⟩ := h.pop hfly
    exact ⟨l', hl', hcar.send_control (by simpa using controlFrame_not_isData _ _),
      by simpa [Deed.accepted?] using hacc, hdel⟩
  | lost hfly =>
    obtain ⟨l', hl', hcar, hacc, hdel⟩ := h.pop hfly
    exact ⟨l', hl', hcar, by simpa [Deed.accepted?] using hacc, hdel⟩
  | restarted => exact absurd rfl hno

/-! ## What the receiver does -/

/-- The DATA frame at the head of the channel to the receiver leaves it. -/
theorem Carries.popData (h : Carries n x l) {fr : Frame} {rest : List Frame}
    (hfly : n.flying x.other = fr :: rest) (hdata : fr.IsData) :
    ∃ k ks, l.data = k :: ks ∧ fr = numbered l.accepted k ∧
      Carries (n.pop x.other rest) x { l with data := ks } := by
  have hfilter := h.data
  rw [hfly, List.filter_cons_of_pos (by simpa using hdata)] at hfilter
  obtain ⟨k, ks, hks, hfr, hrest⟩ := List.map_eq_cons_iff.mp hfilter.symm
  refine ⟨k, ks, hks, hfr.symm, h.waiting, h.tx, h.retained, ?_, ?_⟩
  · simpa [Net.pop] using hrest.symm
  · simpa [Net.pop] using h.acks

/-- A control frame leaves the channel to the receiver. -/
theorem Carries.popControl (h : Carries n x l) {fr : Frame} {rest : List Frame}
    (hfly : n.flying x.other = fr :: rest) (hctrl : ¬ fr.IsData) :
    Carries (n.pop x.other rest) x l := by
  have hfilter := h.data
  rw [hfly, List.filter_cons_of_neg (by simpa using hctrl)] at hfilter
  refine ⟨h.waiting, h.tx, h.retained, ?_, ?_⟩
  · simpa [Net.pop] using hfilter
  · simpa [Net.pop] using h.acks

/-- The receiver changes its own fields and sends frames that are no ACKs. -/
theorem Carries.receiver_send (h : Carries n x l) (a : Arq) (frs : List Frame)
    (hack : ∀ fr ∈ frs, ¬ fr.IsAck) : Carries ((n.set x.other a).send x.other frs) x l := by
  have hnone : frs.filter (fun fr => fr.IsAck) = [] := by simpa using hack
  refine ⟨?_, ?_, h.retained, ?_, ?_⟩
  · simpa [Net.send, Net.set] using h.waiting
  · simpa [Net.send, Net.set] using h.tx
  · simpa [Net.send, Net.set] using h.data
  · simpa [Net.send, Net.set, hnone] using h.acks

/-- The receiver acknowledges message number `k`. -/
theorem Carries.receiver_ack (h : Carries n x l) (a : Arq) (k : ℕ) :
    Carries ((n.set x.other a).send x.other [ackOf k]) x { l with acks := l.acks ++ [k] } := by
  have hack : (ackOf k).IsAck := ackOf_isAck _
  refine ⟨?_, ?_, h.retained, ?_, ?_⟩
  · simpa [Net.send, Net.set] using h.waiting
  · simpa [Net.send, Net.set] using h.tx
  · simpa [Net.send, Net.set] using h.data
  · have hacks := h.acks
    rw [List.map_append, ← hacks]
    simp [Net.send, Net.set, hack]

/-- The message that the DATA frame of a delivery stands for. -/
theorem delivered_numbered {ms : List Msg} {k M : ℕ} {m : Msg} (hm : ms[k]? = some m)
    (hdata : (numbered ms k).IsData) (hfits : (numbered ms k).Fits M) :
    0 < ((numbered ms k).marker.toNat : Int) - 128 ∧
      (UInt8.ofNat (((numbered ms k).marker.toNat : Int) - 128).toNat,
        (numbered ms k).payload) = m := by
  obtain ⟨cmd, hlo, -, hfr, hint⟩ := hdata.eq_dataFrame hfits
  have hnum : numbered ms k = dataFrame m.1 (seqOf k) m.2 := by rw [numbered, hm]; rfl
  have hcmd : m.1 = cmd := by
    have hmark := congrArg Frame.marker (hnum.symm.trans hfr)
    exact (UInt8.add_left_inj 128).mp hmark
  rw [hint, hcmd.symm, hnum]
  refine ⟨?_, ?_⟩
  · rw [hcmd]
    exact Int.natCast_pos.mpr (UInt8.le_iff_toNat_le.mp hlo)
  · rw [Int.toNat_natCast, UInt8.ofNat_toNat]
    rfl

/-- The receiver receives a frame. -/
theorem Carries.receiver_received (h : Carries n x l) (hinv : l.Inv) (hexp : Expects n x l)
    {fr : Frame} {rest : List Frame} {M : ℕ} (hfits : fr.Fits M)
    (hfly : n.flying x.other = fr :: rest) :
    ∃ l', (l' = l ∨ l.Step l') ∧
      Carries (((n.pop x.other rest).set x.other ((n.arq x.other).handle fr).arq).send x.other
        ((n.arq x.other).handle fr).reply.toList) x l' ∧
      Expects (((n.pop x.other rest).set x.other ((n.arq x.other).handle fr).arq).send x.other
        ((n.arq x.other).handle fr).reply.toList) x l' ∧
      l'.accepted = l.accepted ∧
      l'.delivered = l.delivered ++
        (Deed.received fr ((n.arq x.other).handle fr)).delivered?.toList := by
  by_cases hdata : fr.IsData
  · obtain ⟨k, ks, hks, rfl, hpop⟩ := h.popData hfly hdata
    have hmem : k ∈ l.data := by rw [hks]; exact List.mem_cons_self
    have hseq := faSeqOf_numbered l.accepted k
    rcases hinv.data_window hmem with rfl | hk
    · -- the next message
      have hlt := hinv.data_high _ hmem
      have hm : l.accepted[l.delivered.length]? = some l.accepted[l.delivered.length] :=
        List.getElem?_eq_getElem hlt
      obtain ⟨hpos, hmsg⟩ := delivered_numbered hm hdata hfits
      rw [Arq.handle_delivered hdata (hseq.trans hexp.symm), hseq]
      refine ⟨_, Or.inr (.deliver hks hm), ?_, ?_, rfl, ?_⟩
      · have := hpop.receiver_ack { n.arq x.other with
          expectedRxSeq := (seqOf l.delivered.length + 1) &&& faSeqMask } l.delivered.length
        exact ⟨this.waiting, this.tx, this.retained, this.data, this.acks⟩
      · simp [Expects, Net.send, Net.set, seqOf_succ]
      · simp only [Deed.delivered?, if_pos hpos, Option.getD_some, hmsg, Option.toList_some]
    · -- the last message again
      have hlast : (n.arq x.other).expectedRxSeq = seqOf (k + 1) := by rw [hk]; exact hexp
      have hne : faSeqOf (numbered l.accepted k).seqByte ≠ (n.arq x.other).expectedRxSeq := by
        rw [hseq, hlast]
        exact seqOf_succ_ne k
      have hprev : faSeqOf (numbered l.accepted k).seqByte =
          ((n.arq x.other).expectedRxSeq - 1) &&& faSeqMask := by
        rw [hseq, hlast, seqOf_pred]
      rw [Arq.handle_duplicate hdata hne hprev, hseq]
      refine ⟨_, Or.inr (.duplicate hks hk), hpop.receiver_ack _ k, ?_, rfl, ?_⟩
      · simpa [Expects, Net.send, Net.set] using hexp
      · simp [Deed.delivered?, success]
  · obtain ⟨hret, hreply, hexp'⟩ := Arq.handle_control (a := n.arq x.other) hdata
    have hpop := h.popControl hfly hdata
    rw [hreply]
    refine ⟨l, Or.inl rfl, hpop.receiver_send _ _ (by simp), ?_, rfl, ?_⟩
    · simpa [Expects, Net.send, Net.set, hexp'] using hexp
    · simp [Deed.delivered?, Int.not_lt.mpr hret]

/-- The head of the channel to the receiver leaves it unread. -/
theorem Carries.popUnread (h : Carries n x l) {fr : Frame} {rest : List Frame}
    (hfly : n.flying x.other = fr :: rest) :
    ∃ l', (l' = l ∨ l.Step l') ∧ Carries (n.pop x.other rest) x l' ∧
      l'.accepted = l.accepted ∧ l'.delivered = l.delivered := by
  by_cases hdata : fr.IsData
  · obtain ⟨k, ks, hks, -, hpop⟩ := h.popData hfly hdata
    exact ⟨_, Or.inr (.loseData hks), hpop, rfl, rfl⟩
  · exact ⟨l, Or.inl rfl, h.popControl hfly hdata, rfl, rfl⟩

/-- The receiver retains a frame of its own. -/
theorem Carries.receiver_retain (h : Carries n x l) (fr : Frame) :
    Carries (n.retain x.other fr) x l :=
  ⟨h.waiting, h.tx, by simpa [Net.retain] using h.retained, h.data, h.acks⟩

/-- A step of the receiver other than receiving a frame loses a message number, or nothing
happens on the link. -/
theorem Carries.receiver_other (h : Carries n x l)
    (hdata : (n.arq x.other).awaitingAck = true → (n.retained x.other).IsData)
    (hs : n.Step x.other deed n') (hno : deed ≠ .restarted) (hrec : ∀ fr r, deed ≠ .received fr r) :
    ∃ l', (l' = l ∨ l.Step l') ∧ Carries n' x l' ∧ l'.accepted = l.accepted ∧
      l'.delivered = l.delivered ∧ deed.delivered? = none ∧
      (n'.arq x.other).expectedRxSeq = (n.arq x.other).expectedRxSeq := by
  -- its own DATA frames are no ACKs, so the numbers on the way back stay
  cases hs with
  | @accepted cmd payload hlo hhi hidle =>
    have hfr : ¬ (dataFrame cmd (n.arq x.other).put.txSeq payload).IsAck :=
      (dataFrame_isData hlo hhi _ _).not_isAck
    have hcar := (h.receiver_retain (dataFrame cmd (n.arq x.other).put.txSeq payload)).receiver_send
      (n.arq x.other).put [dataFrame cmd (n.arq x.other).put.txSeq payload]
      (by simpa using hfr)
    refine ⟨l, Or.inl rfl, hcar, rfl, rfl, rfl, ?_⟩
    simp [Net.send, Net.retain, Net.set, Arq.put]
  | nothing => exact ⟨l, Or.inl rfl, h, rfl, rfl, rfl, rfl⟩
  | resent hwait =>
    have hfr := (hdata hwait).not_isAck
    refine ⟨l, Or.inl rfl, h.receiver_send _ _ (by simpa using hfr), rfl, rfl, rfl, ?_⟩
    simp [Net.send, Net.set, Arq.resend]
  | received => exact absurd rfl (hrec _ _)
  | empty => exact ⟨l, Or.inl rfl, h, rfl, rfl, rfl, rfl⟩
  | damaged hfly =>
    obtain ⟨l', hl', hcar, hacc, hdel⟩ := h.popUnread hfly
    have hset := hcar.receiver_send (n.arq x.other)
      [controlFrame faTypeNack (n.arq x.other).expectedRxSeq] (by simpa using nack_not_isAck _)
    exact ⟨l', hl', ⟨hcar.waiting, hcar.tx, hcar.retained, hset.data, hset.acks⟩, hacc, hdel, rfl,
      rfl⟩
  | lost hfly =>
    obtain ⟨l', hl', hcar, hacc, hdel⟩ := h.popUnread hfly
    exact ⟨l', hl', hcar, hacc, hdel, rfl, rfl⟩
  | restarted => exact absurd rfl hno

/-- **A step of the receiver** is a step of the link, or none. -/
theorem Carries.receiver_step (h : Carries n x l) (hinv : l.Inv) (hexp : Expects n x l) {M : ℕ}
    (hfits : ∀ fr ∈ n.flying x.other, fr.Fits M)
    (hdata : (n.arq x.other).awaitingAck = true → (n.retained x.other).IsData)
    (hs : n.Step x.other deed n') (hno : deed ≠ .restarted) :
    ∃ l', (l' = l ∨ l.Step l') ∧ Carries n' x l' ∧ Expects n' x l' ∧
      l'.accepted = l.accepted ∧ l'.delivered = l.delivered ++ deed.delivered?.toList := by
  have hother : (∀ fr r, deed ≠ .received fr r) →
      ∃ l', (l' = l ∨ l.Step l') ∧ Carries n' x l' ∧ Expects n' x l' ∧
        l'.accepted = l.accepted ∧ l'.delivered = l.delivered ++ deed.delivered?.toList := by
    intro hrec
    obtain ⟨l', hl', hcar, hacc, hdel, hnone, hsame⟩ := h.receiver_other hdata hs hno hrec
    refine ⟨l', hl', hcar, ?_, hacc, by simp [hdel, hnone]⟩
    rw [Expects, hsame, hdel]
    exact hexp
  cases hs with
  | @received fr rest hfly =>
    exact h.receiver_received hinv hexp (hfits fr (by rw [hfly]; exact List.mem_cons_self)) hfly
  | accepted => exact hother (by simp)
  | nothing => exact hother (by simp)
  | resent => exact hother (by simp)
  | empty => exact hother (by simp)
  | damaged => exact hother (by simp)
  | lost => exact hother (by simp)
  | restarted => exact absurd rfl hno

/-- A step of the sender does not concern what the receiver expects. -/
theorem Expects.sender_step {l' : Link Msg} (h : Expects n x l) (hs : n.Step x deed n')
    (hdel : l'.delivered = l.delivered) : Expects n' x l' := by
  have hexp : (n.arq x.other).expectedRxSeq = seqOf l.delivered.length := h
  have hsame : n'.arq x.other = n.arq x.other := by
    cases hs <;> simp [Net.send, Net.retain, Net.set, Net.pop]
  rw [Expects, hsame, hexp, hdel]

end

/-! ## Runs of the system -/

/-- The direction from `x` carries a link on which the messages of the run were exchanged. -/
structure Linked [Build] (S : System) (n : Net) (x : Side) (evs : List Event) (l : Link Msg) :
    Prop where
  net : S.HasNet n
  carries : Carries n x l
  expects : Expects n x l
  inv : l.Inv
  accepted : l.accepted = HtcwFrameArq.accepted x evs
  delivered : l.delivered = HtcwFrameArq.delivered x.other evs

section

variable [Build] {S S' : System} {n : Net} {x : Side} {evs : List Event} {l : Link Msg}
  {act : Action} {ev : Event}

theorem linked_create (s : Side → Storage) (x : Side) :
    ∃ n, Linked (System.create s) n x [] Link.fresh :=
  ⟨_, System.hasNet_create s, carries_fresh rfl rfl rfl, rfl, Link.inv_fresh, rfl, rfl⟩

/-- A step of the net is a step of the link, or none. -/
theorem Linked.refines {z : Side} {deed : Deed} {n' : Net} (h : Linked S n x evs l)
    (hdeed : deed ≠ .restarted) (hdid : Did act ev z deed) (hstep : n.Step z deed n')
    (hnet : S'.HasNet n') :
    ∃ l', (l' = l ∨ l.Step l') ∧ Linked S' n' x (evs ++ [ev]) l' := by
  have hacc := hdid.accepted_eq x
  have hdel := hdid.delivered_eq x.other
  rcases eq_or_ne z x with rfl | hne
  · rw [if_pos rfl] at hacc
    rw [if_neg (Side.other_ne z)] at hdel
    obtain ⟨l', hl', hcar, hacc', hdel'⟩ :=
      h.carries.sender_step h.inv (h.net.retained_isData z) hstep hdeed
    refine ⟨l', hl', hnet, hcar, h.expects.sender_step hstep hdel', h.inv.step_or_eq hl', ?_, ?_⟩
    · rw [hacc', h.accepted, accepted_concat, hacc]
    · rw [hdel', h.delivered, delivered_concat, hdel]
      exact (List.append_nil _).symm
  · obtain rfl := Side.eq_other_of_ne hne
    rw [if_neg (Side.ne_other x)] at hacc
    rw [if_pos rfl] at hdel
    obtain ⟨l', hl', hcar, hexp, hacc', hdel'⟩ := h.carries.receiver_step h.inv h.expects
      (h.net.fits x.other) (h.net.retained_isData x.other) hstep hdeed
    refine ⟨l', hl', hnet, hcar, hexp, h.inv.step_or_eq hl', ?_, ?_⟩
    · rw [hacc', h.accepted, accepted_concat, hacc]
      exact (List.append_nil _).symm
    · rw [hdel', h.delivered, delivered_concat, hdel]

/-- **One step of the system** is a step of the link, or none. -/
theorem Linked.step (h : Linked S n x evs l) (hno : ∀ z, act ≠ .reset z)
    (hs : S.step act = some (ev, S')) :
    ∃ z deed n' l', Did act ev z deed ∧ n.Step z deed n' ∧ (l' = l ∨ l.Step l') ∧
      Linked S' n' x (evs ++ [ev]) l' := by
  obtain ⟨z, deed, n', hdid, hstep, hnet⟩ := System.step_refines h.net hs
  have hdeed : deed ≠ .restarted := by
    rintro rfl
    cases hdid
    exact hno z rfl
  obtain ⟨l', hl', h'⟩ := h.refines hdeed hdid hstep hnet
  exact ⟨z, deed, n', l', hdid, hstep, hl', h'⟩

/-- A run without a reset. -/
theorem Linked.run {acts : List Action} {evs' : List Event} (h : Linked S n x evs l)
    (hno : ∀ act ∈ acts, ∀ z, act ≠ .reset z) (hrun : S.run acts = some (evs', S')) :
    ∃ n' l', Linked S' n' x (evs ++ evs') l' := by
  refine Runs.run_invariant (A := fun act => ∀ z, act ≠ .reset z)
    (P := fun evs S => ∃ n l, Linked S n x evs l) ?_ ⟨n, l, h⟩ hno hrun
  rintro evs S act ev S' ⟨n, l, h⟩ hact hs
  obtain ⟨-, -, n', l', -, -, -, h'⟩ := h.step hact hs
  exact ⟨n', l', h'⟩

/-- **Runs of two new endpoints** without a reset. -/
theorem linked_of_run (s : Side → Storage) {acts : List Action}
    (hno : ∀ act ∈ acts, ∀ z, act ≠ .reset z)
    (hrun : (System.create s).run acts = some (evs, S)) (x : Side) :
    ∃ n l, Linked S n x evs l := by
  obtain ⟨n, hn⟩ := linked_create s x
  exact hn.run hno hrun

end

/-! ## Exactly once, in order -/

/-- The DATA frame `fr` would reach the branch of get for an unexpected sequence number. -/
def Unexpected (f : FrameArqT) (fr : Frame) : Prop :=
  fr.IsData ∧ faSeqOf fr.seqByte ≠ f.expectedRxSeq ∧
    faSeqOf fr.seqByte ≠ (f.expectedRxSeq - 1) &&& faSeqMask

/-- A DATA frame on its way over a link is never unexpected. -/
theorem Linked.not_unexpected [Build] {S : System} {n : Net} {x : Side} {evs : List Event}
    {l : Link Msg} (h : Linked S n x evs l) {fr : Frame} {rest : List Frame}
    (hfly : n.flying x.other = fr :: rest) : ¬ Unexpected (S.frame x.other) fr := by
  rintro ⟨hdata, hne, hprev⟩
  obtain ⟨k, ks, hks, rfl, -⟩ := h.carries.popData hfly hdata
  have hexp : (S.frame x.other).expectedRxSeq = seqOf l.delivered.length :=
    (congrArg Arq.expectedRxSeq (h.net.arq x.other)).trans h.expects
  rw [faSeqOf_numbered, hexp] at hne hprev
  rcases h.inv.data_window (k := k) (by rw [hks]; exact List.mem_cons_self) with rfl | hk
  · exact hne rfl
  · rw [← hk, seqOf_pred] at hprev
    exact hprev rfl

/-- **Exactly-once, in-order delivery.** In every run of two new endpoints without a reset,
in each direction: the messages delivered are the messages accepted, in order, up to at most
the last one, and all of them once the sender does not await an ACK; and no intact DATA frame
at the head of a channel is unexpected. -/
theorem exactly_once [Build] (s : Side → Storage) {acts : List Action}
    (hno : ∀ act ∈ acts, ∀ z, act ≠ .reset z) {evs : List Event} {S : System}
    (hrun : (System.create s).run acts = some (evs, S)) (x : Side) :
    delivered x.other evs <+: accepted x evs ∧
      (accepted x evs).length ≤ (delivered x.other evs).length + 1 ∧
      ((S.frame x).awaitingAck = false → delivered x.other evs = accepted x evs) ∧
      ∀ bytes rest fr, S.queue x.other = bytes :: rest →
        recognised (S.frame x.other) (bytes.map some) = some fr →
        ¬ Unexpected (S.frame x.other) fr := by
  obtain ⟨n, l, h⟩ := linked_of_run s hno hrun x
  rw [← h.accepted, ← h.delivered]
  refine ⟨h.inv.inOrder, h.inv.length_le, fun hidle => h.inv.complete ?_, ?_⟩
  · rw [← h.carries.waiting, ← h.net.arq x]
    exact hidle
  · intro bytes rest fr hq hrec
    obtain ⟨g, frs, hfly, rfl, hfits, -⟩ := h.net.pop hq
    rw [recognised_eq (h.net.between x.other) (pending_nil _)] at hrec
    have henc := pump_encode hfits []
    rw [List.append_nil] at henc
    rw [henc] at hrec
    obtain rfl : g = fr := Option.some.inj hrec
    exact h.not_unexpected hfly

theorem exactly_once_three :
    letI : Build := build32
    let s : Side → Storage := fun _ => Storage.zeroed 1 (by decide)
    ∃ evs S, (System.create s).run [.put .a 1 [7], .get .b, .get .a] = some (evs, S) ∧
      delivered .b evs <+: accepted .a evs ∧
      (accepted .a evs).length ≤ (delivered .b evs).length + 1 ∧
      ((S.frame .a).awaitingAck = false → delivered .b evs = accepted .a evs) ∧
      ∀ bytes rest fr, S.queue .b = bytes :: rest →
        recognised (S.frame .b) (bytes.map some) = some fr → ¬ Unexpected (S.frame .b) fr := by
  let _ : Build := build32
  intro s
  have hsome : ((System.create s).run [.put .a 1 [7], .get .b, .get .a]).isSome = true := by
    decide +kernel
  obtain ⟨⟨evs, S⟩, hrun⟩ := Option.isSome_iff_exists.mp hsome
  exact ⟨evs, S, hrun, exactly_once s (by simp) hrun .a⟩

end HtcwFrameArq
