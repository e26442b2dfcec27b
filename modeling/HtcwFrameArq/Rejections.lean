import HtcwFrameArq.Framing
import HtcwFrameArq.Soundness

/-!
# Rejected frames

What a call of get answers when it rejects a frame: one NACK of the expected sequence number,
on which a waiting peer resends. The exception is a length field above the maximum, which get
drops without an answer. `rejected_nacked` says that this is the only one.
-/

namespace HtcwFrameArq

/-! ## Length fields above the maximum -/

/-- The bytes available to a call of get, appended to those assembled, complete a header
whose length field is above the maximum, before they complete anything else. -/
def CompletesOversize [Build] (f : FrameArqT) (incoming : List (Option UInt8)) : Prop :=
  ∃ (bytes : List UInt8) (b : UInt8) (rest : List (Option UInt8)) (acc : List UInt8) (v : UInt32),
    incoming = bytes.map some ++ some b :: rest ∧
      (receiver f.payloadMaxSize).feed (f.readBuffer.take f.byteCount) bytes = ([], acc) ∧
      (pushByte acc b).length = 17 ∧ faRdU32 (pushByte acc b) 9 = some v ∧
      f.payloadMaxSize < v.toNat

/-- A call of get rejects a frame: it reports a CRC failure or an oversized length, or the
frame is a DATA frame that is neither the expected one nor the one before it. -/
def Rejects (f : FrameArqT) (o : Outcome) : Prop :=
  o.ret = errorCrc ∨ o.ret = errorOverflow ∨
    ∃ fr, o.received = some fr ∧ fr.IsData ∧ faSeqOf fr.seqByte ≠ f.expectedRxSeq ∧
      faSeqOf fr.seqByte ≠ (f.expectedRxSeq - 1) &&& faSeqMask

/-- The bytes are one NACK of sequence number `seq`, on which every peer that awaits an ACK
is told to resend. -/
def Nacks [Build] (seq : UInt8) (bytes : List UInt8) : Prop :=
  bytes = (controlFrame faTypeNack seq).encode ∧
    ∀ (g : FrameArqT) (rest : List (Option UInt8)) (results : List Int) (written : List UInt8),
      Reachable g → g.byteCount = 0 → g.awaitingAck = true →
        ∃ o e, Endpoint.exec ⟨g, ⟨bytes.map some ++ rest, results, written⟩⟩ .get = some (o, e) ∧
          o.consumed = bytes ∧ o.ret = resendNeededCode

/-! ## What a rejection answers -/

section

variable {M : ℕ} {a : Arq} {found : Option RxEvent}

/-- A reaction that reports a CRC failure answers with a NACK. -/
theorem Arq.react_crc (hfits : ∀ fr, found = some (.frame fr) → fr.Fits M)
    (hret : (a.react found).ret = errorCrc) :
    (a.react found).reply = some (controlFrame faTypeNack a.expectedRxSeq) := by
  rcases found with _ | (fr | _ | _)
  · exact absurd hret (show success ≠ errorCrc by decide)
  · exact absurd hret (Arq.handle_noError (hfits fr rfl).marker_ge).1
  · rfl
  · exact absurd hret (show errorOverflow ≠ errorCrc by decide)

/-- A reaction that reports an overflow was to an oversized length. -/
theorem Arq.react_overflow (hfits : ∀ fr, found = some (.frame fr) → fr.Fits M)
    (hret : (a.react found).ret = errorOverflow) : found = some .overflow := by
  rcases found with _ | (fr | _ | _)
  · exact absurd hret (show success ≠ errorOverflow by decide)
  · exact absurd hret (Arq.handle_noError (hfits fr rfl).marker_ge).2
  · exact absurd hret (show errorCrc ≠ errorOverflow by decide)
  · rfl

end

/-- A NACK asks a peer that waits to resend. -/
theorem Arq.handle_nack {a : Arq} (hwait : a.awaitingAck = true) (seq : UInt8) :
    (a.handle (controlFrame faTypeNack seq)).ret = resendNeededCode := by
  have htype : faTypeOf (controlFrame faTypeNack seq).seqByte = faTypeNack :=
    faTypeOf_faSeqByte (by decide) seq
  have hctrl : (controlFrame faTypeNack seq).marker = faCtrlMarker := rfl
  rw [Arq.handle, if_pos (Or.inl hctrl), htype, if_neg (by decide), if_pos rfl, if_pos hwait]

/-! ## Oversized lengths -/

section

variable [Build]

/-- An oversized length is seen on the last byte of the header. -/
theorem Pending.overflow_iff {M : ℕ} {acc : List UInt8} (hp : Pending M acc) (b : UInt8) :
    verdict M (pushByte acc b) = some .overflow ↔
      (pushByte acc b).length = 17 ∧ ∃ v, faRdU32 (pushByte acc b) 9 = some v ∧ M < v.toNat := by
  constructor
  · intro hv
    have h17 : 17 ≤ (pushByte acc b).length := by
      by_contra hlt
      rw [verdict_of_short (by omega)] at hv
      cases hv
    obtain ⟨m, s, v, w, body, hm, hacc⟩ := exists_fields h17
    have hlast := hp.length_push_le b (by rw [hacc]; exact faRdU32_size hm)
    have hM : M < v.toNat := by
      rw [hacc, List.length_append, fields_length hm] at hlast
      rw [hacc, verdict_fields hm (by omega)] at hv
      by_contra hle
      rw [if_neg hle] at hv
      split_ifs at hv <;> cases hv
    refine ⟨?_, v, by rw [hacc]; exact faRdU32_size hm, hM⟩
    -- a longer block was already judged by its length field
    by_contra hne
    have hlong : 17 ≤ acc.length := by
      have : (pushByte acc b).length ≤ acc.length + 1 := by
        have := (pushByte_suffix acc b).length_le
        simpa using this
      omega
    obtain ⟨v', hv', hle, -⟩ := hp.size hlong
    obtain ⟨m', s', w, w', body', hm', rfl⟩ := exists_fields hlong
    rw [faRdU32_size hm'] at hv'
    have hpush : pushByte (fields m' s' w w' ++ body') b =
        fields m' s' w w' ++ (body' ++ [b]) := by
      rw [pushByte_long (by rw [List.length_append, fields_length hm']; omega), List.append_assoc]
    have hsize := faRdU32_size (s := s') (v := w) (w := w') (d := body' ++ [b]) hm'
    rw [← hpush, hacc, faRdU32_size hm] at hsize
    have : v = v' := (Option.some.inj hsize).trans (Option.some.inj hv')
    rw [this] at hM
    omega
  · rintro ⟨hlen, v, hv, hM⟩
    rw [verdict, if_neg (by rw [hlen]; decide), hv]
    simp only [Option.bind_eq_bind, Option.bind_some]
    rw [if_pos hM]

variable {e e' : Endpoint} {acc acc' : List UInt8} {found : Option RxEvent} {o : Outcome}

/-- What is assembled, read off the buffer. -/
theorem Holds.take_eq {f : FrameArqT} (h : Holds f acc) : f.readBuffer.take f.byteCount = acc := by
  rw [h.count]
  exact h.contents

/-- **A call finds an oversized length** exactly when the bytes available complete one. -/
theorem Got.overflow_iff (hold : Holds e.frame acc) (hp : Pending e.frame.payloadMaxSize acc)
    (h : Got e acc found acc' o e') :
    found = some .overflow ↔ CompletesOversize e.frame e.transport.incoming := by
  constructor
  · rintro rfl
    obtain ⟨bytes, b, acc₁, hsrc, hfeed, hv, -⟩ := Decoder.pump_some h.pump
    have hp₁ := hp.feed bytes
    rw [hfeed] at hp₁
    obtain ⟨hlen, v, hsize, hM⟩ := (hp₁.overflow_iff b).mp hv
    exact ⟨bytes, b, _, acc₁, v, hsrc, by rw [hold.take_eq]; exact hfeed, hlen, hsize, hM⟩
  · rintro ⟨bytes, b, rest, acc₁, v, hsrc, hfeed, hlen, hsize, hM⟩
    rw [hold.take_eq] at hfeed
    have hp₁ := hp.feed bytes
    rw [hfeed] at hp₁
    have hv : (receiver e.frame.payloadMaxSize).verdict
        ((receiver e.frame.payloadMaxSize).push
          ((receiver e.frame.payloadMaxSize).feed acc bytes).2 b) = some .overflow := by
      rw [hfeed]
      exact (hp₁.overflow_iff b).mpr ⟨hlen, v, hsize, hM⟩
    have hpump := Decoder.pump_of_feed (congrArg Prod.fst hfeed) hv rest
    have hsrc' : e.transport.incoming = bytes.map some ++ ([b].map some ++ rest) := hsrc
    rw [← hsrc', h.pump] at hpump
    exact congrArg Prod.fst hpump

/-- A NACK, as get writes it, does what it is for. -/
theorem nacks_encode (seq : UInt8) : Nacks seq (controlFrame faTypeNack seq).encode := by
  refine ⟨rfl, ?_⟩
  intro g rest results written hreach hcount hwait
  obtain ⟨acc, hold, hp⟩ := hreach.ok.rx
  obtain rfl : acc = [] := List.length_eq_zero_iff.mp (hold.count.symm.trans hcount)
  obtain ⟨found, acc', o, e, hs, hgot⟩ := exec_get
    (e := ⟨g, ⟨(controlFrame faTypeNack seq).encode.map some ++ rest, results, written⟩⟩) hold hp
  have hpump := pump_encode (controlFrame_fits g.payloadMaxSize faTypeNack seq) rest
  obtain ⟨hfound, hacc⟩ := Prod.mk.inj (hgot.pump.symm.trans hpump)
  subst hfound
  refine ⟨o, e, hs, ?_, ?_⟩
  · obtain ⟨used, hcons, hsrc⟩ := hgot.source
    have hrest : e.transport.incoming = rest := (Prod.mk.inj hacc).2
    rw [hrest] at hsrc
    have hused : (controlFrame faTypeNack seq).encode.map some = used :=
      List.append_cancel_right hsrc
    rw [hcons, ← hused]
    simp [List.reduceOption]
  · rw [hgot.ret]
    exact Arq.handle_nack hwait seq

/-- **Every rejected frame but an oversized one is NACKed.** A call of get on a transport that
takes every byte answers each frame it rejects with exactly one NACK of the expected sequence
number, unless the bytes it reads complete a header whose length field is above the maximum. -/
theorem rejected_nacked {f : FrameArqT} (hreach : Reachable f) {t : Transport}
    (ht : t.Succeeds) {o : Outcome} {e' : Endpoint}
    (hs : Endpoint.exec ⟨f, t⟩ .get = some (o, e')) :
    (Rejects f o → Nacks f.expectedRxSeq o.written) ↔ ¬ CompletesOversize f t.incoming := by
  obtain ⟨acc, hold, hp⟩ := hreach.ok.rx
  obtain ⟨found, acc', hgot⟩ := Got.of_exec (e := ⟨f, t⟩) hold hp hs
  have hwritten : o.written = replyBytes (f.arq.react found).reply := (hgot.replied ht).1
  have hiff : found = some .overflow ↔ CompletesOversize f t.incoming :=
    hgot.overflow_iff hold hp
  rw [← hiff, hwritten]
  constructor
  · rintro hnack rfl
    obtain ⟨hbytes, -⟩ := hnack (Or.inr (Or.inl hgot.ret))
    have := congrArg List.length hbytes
    rw [Frame.encode_length] at this
    cases this
  · intro hno hrej
    have hnack : (f.arq.react found).reply = some (controlFrame faTypeNack f.expectedRxSeq) := by
      rcases hrej with hret | hret | ⟨fr, hrecv, hdata, hseq, hprev⟩
      · exact Arq.react_crc (hgot.fits hp) (hgot.ret.symm.trans hret)
      · exact absurd (Arq.react_overflow (hgot.fits hp) (hgot.ret.symm.trans hret)) hno
      · obtain rfl := hgot.found_frame hrecv
        exact congrArg Reaction.reply (Arq.handle_unexpected (a := f.arq) hdata hseq hprev)
    rw [hnack]
    exact nacks_encode f.expectedRxSeq

end

/-- A header that announces one payload byte. -/
def oversizeHeader : List UInt8 := List.replicate 8 129 ++ [0, 1, 0, 0, 0, 0, 0, 0, 0]

theorem rejected_nacked_one :
    letI : Build := build32
    let f := (Storage.zeroed 1 (by decide)).create
    let t : Transport := ⟨(oversizeHeader ++ [7]).map some, [0, 1], []⟩
    ∃ o e', Endpoint.exec ⟨f, t⟩ .get = some (o, e') ∧ Rejects f o ∧
      Nacks f.expectedRxSeq o.written ∧ ¬ CompletesOversize f t.incoming := by
  let _ : Build := build32
  intro f t
  have hreach : Reachable f :=
    ⟨Storage.zeroed 1 (by decide), ⟨[], [], []⟩, [], [], ⟨f, ⟨[], [], []⟩⟩, rfl, rfl⟩
  have hsome : ((Endpoint.exec ⟨f, t⟩ .get).map fun r =>
      decide (r.1.ret = errorCrc ∧ r.1.written = (controlFrame faTypeNack 0).encode)) =
        some true := by
    decide +kernel
  obtain ⟨⟨o, e'⟩, hs, hall⟩ := Option.map_eq_some_iff.mp hsome
  obtain ⟨hret, hwritten⟩ := of_decide_eq_true hall
  have hnacks : Nacks f.expectedRxSeq o.written := by
    rw [hwritten]
    exact nacks_encode 0
  exact ⟨o, e', hs, Or.inl hret, hnacks,
    (rejected_nacked hreach (by decide) hs).mp (fun _ => hnacks)⟩

/-- An oversized length is not answered. -/
theorem oversize_not_nacked :
    letI : Build := build32
    let f := (Storage.zeroed 0 (by decide)).create
    Reachable f ∧ ∃ o e', Endpoint.exec ⟨f, ⟨oversizeHeader.map some, [], []⟩⟩ .get = some (o, e') ∧
      o.ret = errorOverflow ∧ o.written = [] ∧ Rejects f o ∧ ¬ Nacks f.expectedRxSeq o.written := by
  let _ : Build := build32
  intro f
  have hsome : ((Endpoint.exec ⟨f, ⟨oversizeHeader.map some, [], []⟩⟩ .get).map fun r =>
      decide (r.1.ret = errorOverflow ∧ r.1.written = [])) = some true := by
    decide +kernel
  obtain ⟨⟨o, e'⟩, hs, hall⟩ := Option.map_eq_some_iff.mp hsome
  obtain ⟨hret, hwritten⟩ := of_decide_eq_true hall
  refine ⟨⟨Storage.zeroed 0 (by decide), ⟨[], [], []⟩, [], [], ⟨f, ⟨[], [], []⟩⟩, rfl, rfl⟩, o, e',
    hs, hret, hwritten, Or.inr (Or.inl hret), ?_⟩
  rintro ⟨hbytes, -⟩
  have := congrArg List.length (hwritten.symm.trans hbytes)
  rw [Frame.encode_length] at this
  cases this

end HtcwFrameArq
