import Mathlib.Data.List.Induction
import HtcwFrameArq.Endpoint
import HtcwFrameArq.Sequence

/-!
# Soundness of the receiver

What the application is handed is what a peer put. Along every run from a creation or a
reset (`Begins`), with any bytes coming in:

* `get_sound` — a delivery is the decoding of the last bytes consumed, which are the
  encoding `frame_arq_put` produces for that message and the next sequence number, and lie
  after the bytes of the previous delivery;
* `ack_backed` — every ACK is backed by a delivery, as long as no DATA frame with sequence
  number 63 comes in before the first one with number 0: get takes that one for a duplicate
  (`spurious_ack`).

The invariant is `Tracks`: the expected sequence number counts the deliveries, and what is
assembled was consumed since the last one.
-/

namespace HtcwFrameArq

open Memory Runs

/-! ## DATA frames -/

/-- A DATA frame that fits is what `frame_arq_put` sends for a message. -/
theorem Frame.IsData.eq_dataFrame {M : ℕ} {fr : Frame} (h : fr.IsData) (hfits : fr.Fits M) :
    ∃ cmd, 1 ≤ cmd ∧ cmd ≤ 127 ∧ fr = dataFrame cmd (faSeqOf fr.seqByte) fr.payload ∧
      (fr.marker.toNat : Int) - 128 = cmd.toNat := by
  have hmark := hfits.marker_ge
  have hne : fr.marker ≠ 128 := h.1
  have key : ∀ n < 256, 128 ≤ UInt8.ofNat n → UInt8.ofNat n ≠ 128 →
      1 ≤ UInt8.ofNat n - 128 ∧ UInt8.ofNat n - 128 ≤ 127 ∧
        UInt8.ofNat n - 128 + 128 = UInt8.ofNat n ∧
        ((UInt8.ofNat n).toNat : Int) - 128 = (UInt8.ofNat n - 128).toNat := by decide +kernel
  obtain ⟨hlo, hhi, hback, hint⟩ := byte_all (P := fun b => 128 ≤ b → b ≠ 128 →
    1 ≤ b - 128 ∧ b - 128 ≤ 127 ∧ b - 128 + 128 = b ∧ (b.toNat : Int) - 128 = (b - 128).toNat)
    key fr.marker hmark hne
  refine ⟨fr.marker - 128, hlo, hhi, ?_, hint⟩
  have hseq : faSeqByte faTypeData (faSeqOf fr.seqByte) = fr.seqByte := by
    rw [← h.2]
    exact faSeqByte_faTypeOf fr.seqByte
  rw [dataFrame, hback, hseq]

theorem dataFrame_isData {cmd : UInt8} (hlo : 1 ≤ cmd) (hhi : cmd ≤ 127) (seq : UInt8)
    (payload : List UInt8) : (dataFrame cmd seq payload).IsData := by
  refine ⟨?_, faTypeOf_faSeqByte (by decide) seq⟩
  have key : ∀ n < 256, 1 ≤ UInt8.ofNat n → UInt8.ofNat n ≤ 127 →
      UInt8.ofNat n + 128 ≠ 128 := by decide +kernel
  exact byte_all (P := fun b => 1 ≤ b → b ≤ 127 → b + 128 ≠ 128) key cmd hlo hhi

theorem dataFrame_fits {M : ℕ} {cmd seq : UInt8} {payload : List UInt8} (hhi : cmd ≤ 127)
    (hle : payload.length ≤ M) (hlt : payload.length < 2 ^ 32) :
    (dataFrame cmd seq payload).Fits M := by
  have key : ∀ n < 256, UInt8.ofNat n ≤ 127 → 128 ≤ UInt8.ofNat n + 128 := by decide +kernel
  exact ⟨hle, hlt, byte_all (P := fun b => b ≤ 127 → 128 ≤ b + 128) key cmd hhi⟩

theorem controlFrame_fits (M : ℕ) (type seq : UInt8) : (controlFrame type seq).Fits M :=
  ⟨Nat.zero_le M, Nat.two_pow_pos 32, UInt8.le_refl 128⟩

theorem faSeqOf_dataFrame {seq : UInt8} (h : seq ≤ 63) (cmd : UInt8) (payload : List UInt8) :
    faSeqOf (dataFrame cmd seq payload).seqByte = seq := faSeqOf_faSeqByte (by decide) h

theorem encode_injective [Build] {f g : Frame} (h : f.encode = g.encode) : f = g := by
  rw [← frameOf_encode f, h, frameOf_encode]

/-! ## Deliveries of a run -/

/-- The call hands a payload to the application. -/
def Outcome.Delivers (o : Outcome) : Prop := o.call = .get ∧ 0 < o.ret

instance (o : Outcome) : Decidable o.Delivers := inferInstanceAs (Decidable (_ ∧ _))

/-- The call hands the application a DATA frame with sequence number `s`. -/
def Outcome.DeliversSeq (o : Outcome) (s : UInt8) : Prop :=
  o.Delivers ∧ ∃ fr, o.received = some fr ∧ fr.IsData ∧ faSeqOf fr.seqByte = s

/-- The number of deliveries. -/
def deliveries (outs : List Outcome) : ℕ := outs.countP fun o => o.Delivers

/-- The bytes consumed since the last delivery. -/
def sinceDelivery (outs : List Outcome) : List UInt8 :=
  outs.foldl (fun bytes o => if o.Delivers then [] else bytes ++ o.consumed) []

theorem deliveries_concat (outs : List Outcome) (o : Outcome) :
    deliveries (outs ++ [o]) = if o.Delivers then deliveries outs + 1 else deliveries outs := by
  by_cases h : o.Delivers <;> simp [deliveries, h]

theorem sinceDelivery_concat (outs : List Outcome) (o : Outcome) :
    sinceDelivery (outs ++ [o]) =
      if o.Delivers then [] else sinceDelivery outs ++ o.consumed := by
  simp [sinceDelivery]

/-- The message a call delivers is what the last bytes of `bytes` encode, as message number
`k`. -/
def Decodes [Build] (M k : ℕ) (bytes : List UInt8) (o : Outcome) : Prop :=
  ∃ cmd payload, 1 ≤ cmd ∧ cmd ≤ 127 ∧ payload.length ≤ M ∧
    o.ret = cmd.toNat ∧ o.out = some payload ∧
    o.received = some (dataFrame cmd (seqOf k) payload) ∧
    (dataFrame cmd (seqOf k) payload).encode <:+ bytes

/-! ## One call -/

/-- The parser keeps a suffix of what it is given. -/
theorem pushByte_suffix (acc : List UInt8) (b : UInt8) : pushByte acc b <:+ acc ++ [b] := by
  unfold pushByte
  split_ifs with hlen hlow
  · exact List.nil_suffix
  · obtain _ | ⟨c, acc⟩ := acc
    · exact List.suffix_refl _
    · dsimp only
      split_ifs
      · exact List.suffix_refl _
      · exact List.suffix_append _ _
  · exact List.suffix_refl _

theorem feed_suffix [Build] (M : ℕ) {acc l : List UInt8} (h : acc <:+ l)
    (bytes : List UInt8) : ((receiver M).feed acc bytes).2 <:+ l ++ bytes := by
  refine Decoder.feed_induct (D := receiver M) (P := fun s l => s <:+ l)
    (fun _ => List.nil_suffix) ?_ h bytes
  rintro s l a ⟨t, rfl⟩
  apply List.IsSuffix.trans (pushByte_suffix s a)
  rw [List.append_assoc]
  exact List.suffix_append t _

/-- **A reaction delivers** exactly when a DATA frame with the expected sequence number was
found; then it returns the command and the payload, and expects the next number. -/
theorem Arq.react_delivers {M : ℕ} (a : Arq) {found : Option RxEvent}
    (hfits : ∀ fr, found = some (.frame fr) → fr.Fits M) :
    (∃ cmd payload, 1 ≤ cmd ∧ cmd ≤ 127 ∧ payload.length ≤ M ∧
        found = some (.frame (dataFrame cmd a.expectedRxSeq payload)) ∧
        a.react found = ⟨cmd.toNat, some payload,
          some (controlFrame faTypeAck a.expectedRxSeq),
          { a with expectedRxSeq := (a.expectedRxSeq + 1) &&& faSeqMask }⟩) ∨
      ((a.react found).ret ≤ 0 ∧ (a.react found).out = none ∧
        (a.react found).arq.expectedRxSeq = a.expectedRxSeq ∧
        ∀ fr, found = some (.frame fr) → fr.IsData → faSeqOf fr.seqByte ≠ a.expectedRxSeq) := by
  obtain _ | ev := found
  · exact Or.inr ⟨Int.le_refl 0, rfl, rfl, fun _ h => by cases h⟩
  · cases ev with
    | crcError =>
      exact Or.inr ⟨show errorCrc ≤ 0 by decide, rfl, rfl, fun _ h => by cases h⟩
    | overflow =>
      exact Or.inr ⟨show errorOverflow ≤ 0 by decide, rfl, rfl, fun _ h => by cases h⟩
    | frame fr =>
      have hreact : a.react (some (.frame fr)) = a.handle fr := rfl
      have hcases := a.handles fr
      rw [hreact]
      generalize a.handle fr = r at hcases
      -- of the branches of the handling only one delivers
      cases hcases with
      | acked hack =>
        refine Or.inr ⟨Int.le_refl 0, rfl, rfl, ?_⟩
        rintro _ ⟨⟩ ⟨-, hdata⟩
        rw [hdata] at hack
        cases hack
      | nacked hnack =>
        refine Or.inr ⟨show resendNeededCode ≤ 0 by decide, rfl, rfl, ?_⟩
        rintro _ ⟨⟩ ⟨-, hdata⟩
        rw [hdata] at hnack
        cases hnack
      | ignored hctrl =>
        refine Or.inr ⟨Int.le_refl 0, rfl, rfl, ?_⟩
        rintro _ ⟨⟩ hdata
        exact absurd hdata hctrl
      | delivered hdata hseq =>
        obtain ⟨cmd, hlo, hhi, hfr, hint⟩ := hdata.eq_dataFrame (hfits fr rfl)
        refine Or.inl ⟨cmd, fr.payload, hlo, hhi, (hfits fr rfl).length_le, ?_, ?_⟩
        · rw [← hseq, ← hfr]
        · rw [hint, hseq]
      | duplicate hdata hseq hprev =>
        refine Or.inr ⟨Int.le_refl 0, rfl, rfl, ?_⟩
        rintro _ ⟨⟩ -
        exact hseq
      | unexpected hdata hseq hprev =>
        refine Or.inr ⟨Int.le_refl 0, rfl, rfl, ?_⟩
        rintro _ ⟨⟩ -
        exact hseq

section

variable [Build] {e e' : Endpoint} {acc acc' : List UInt8} {found : Option RxEvent}
  {o : Outcome}

theorem Got.fits (hp : Pending e.frame.payloadMaxSize acc) (h : Got e acc found acc' o e') :
    ∀ fr, found = some (.frame fr) → fr.Fits e.frame.payloadMaxSize := by
  rintro fr rfl
  exact (h.encode hp).1

theorem Got.arq (h : Got e acc found acc' o e') :
    e'.frame.arq = (e.frame.arq.react found).arq := by
  obtain ⟨_, _, heq⟩ := h.frame
  rw [heq]
  rfl

theorem Got.delivers_iff (h : Got e acc found acc' o e') :
    o.Delivers ↔ 0 < (e.frame.arq.react found).ret := by
  rw [Outcome.Delivers, h.ret]
  exact ⟨And.right, fun hpos => ⟨h.call, hpos⟩⟩

/-- A call that finds no DATA frame with the expected sequence number delivers nothing and
leaves that number as it is. -/
theorem Got.passes (hp : Pending e.frame.payloadMaxSize acc) (h : Got e acc found acc' o e')
    (hseq : e.frame.expectedRxSeq ≤ 63)
    (hno : ∀ fr, found = some (.frame fr) → fr.IsData →
      faSeqOf fr.seqByte ≠ e.frame.expectedRxSeq) :
    ¬ o.Delivers ∧ e'.frame.expectedRxSeq = e.frame.expectedRxSeq := by
  have hexp : e'.frame.expectedRxSeq = (e.frame.arq.react found).arq.expectedRxSeq :=
    congrArg Arq.expectedRxSeq h.arq
  rcases e.frame.arq.react_delivers (h.fits hp) with
    ⟨cmd, payload, hlo, hhi, -, rfl, -⟩ | ⟨hret, -, hkeep, -⟩
  · exact absurd (faSeqOf_dataFrame hseq _ _) (hno _ rfl (dataFrame_isData hlo hhi _ _))
  · refine ⟨?_, hexp.trans hkeep⟩
    rw [h.delivers_iff]
    omega

/-- The bytes of a frame that a call finds are the last ones taken. -/
theorem Got.encode_suffix {fr : Frame} (hp : Pending e.frame.payloadMaxSize acc)
    (h : Got e acc (some (.frame fr)) acc' o e') {before : List UInt8} (hacc : acc <:+ before) :
    fr.encode <:+ before ++ o.consumed := by
  obtain ⟨-, -, init, b, acc₁, hcons, hfeed, hpush⟩ := h.encode hp
  have hsuffix := feed_suffix e.frame.payloadMaxSize hacc init
  rw [hfeed] at hsuffix
  obtain ⟨pre, hpre⟩ := hsuffix
  rw [← hpush, hcons, ← List.append_assoc, ← hpre, List.append_assoc]
  exact (pushByte_suffix acc₁ b).trans (List.suffix_append pre _)

end

/-! ## The invariant of a run -/

/-- After a run that showed `outs`. -/
structure Tracks [Build] (M : ℕ) (outs : List Outcome) (f : FrameArqT) : Prop where
  ok : Ok f
  max : f.payloadMaxSize = M
  seq : f.expectedRxSeq = seqOf (deliveries outs)
  assembled : ∃ acc, Holds f acc ∧ Pending f.payloadMaxSize acc ∧ acc <:+ sinceDelivery outs

theorem Begins.tracks [Build] {f : FrameArqT} (h : Begins f) :
    Tracks f.payloadMaxSize [] f := by
  obtain ⟨hok, hold, harq⟩ := h.spec
  exact ⟨hok, rfl, congrArg Arq.expectedRxSeq harq, [], hold, pending_nil _,
    List.nil_suffix⟩

section

variable [Build] {M : ℕ} {outs : List Outcome} {e e' : Endpoint} {c : Call} {o : Outcome}

/-- A call of get keeps the invariant, and what it delivers is sound. -/
theorem Tracks.got {acc acc' : List UInt8} {found : Option RxEvent}
    (h : Tracks M outs e.frame) (hok : Ok e'.frame)
    (hmax : e'.frame.payloadMaxSize = e.frame.payloadMaxSize)
    (hp : Pending e.frame.payloadMaxSize acc) (hacc : acc <:+ sinceDelivery outs)
    (hgot : Got e acc found acc' o e') :
    Tracks M (outs ++ [o]) e'.frame ∧
      (o.Delivers → Decodes M (deliveries outs) (sinceDelivery outs ++ o.consumed) o) := by
  have hseq := h.seq
  have hexp : e'.frame.expectedRxSeq = (e.frame.arq.react found).arq.expectedRxSeq :=
    congrArg Arq.expectedRxSeq hgot.arq
  have hacc' : acc' <:+ sinceDelivery outs ++ o.consumed := by
    have := feed_suffix e.frame.payloadMaxSize hacc o.consumed
    rwa [hgot.feed] at this
  rcases e.frame.arq.react_delivers (hgot.fits hp) with
    ⟨cmd, payload, hlo, hhi, hlen, rfl, hreact⟩ | ⟨hquiet, -, hkeep, -⟩
  -- the frame delivered is the last bytes since the delivery before
  · have hdel : o.Delivers := by
      rw [hgot.delivers_iff, hreact]
      exact Int.natCast_pos.mpr (UInt8.le_iff_toNat_le.mp hlo)
    obtain ⟨-, rfl, -⟩ := hgot.encode hp
    refine ⟨⟨hok, hmax.trans h.max, ?_, [], hgot.holds, hmax ▸ pending_nil _, ?_⟩,
      fun _ => ⟨cmd, payload, hlo, hhi, h.max ▸ hlen, ?_, ?_, ?_, ?_⟩⟩
    · rw [hexp, hreact, deliveries_concat, if_pos hdel, ← seqOf_succ, ← hseq]
      rfl
    · exact List.nil_suffix
    · rw [hgot.ret, hreact]
    · rw [hgot.out, hreact]
    · rw [hgot.received, ← hseq]
      rfl
    · rw [← hseq]
      exact hgot.encode_suffix hp hacc
  · have hdel : ¬ o.Delivers := by
      rw [hgot.delivers_iff]
      omega
    refine ⟨⟨hok, hmax.trans h.max, ?_, acc', hgot.holds, hmax ▸ hgot.pending, ?_⟩,
      fun hd => absurd hd hdel⟩
    · rw [hexp, hkeep, deliveries_concat, if_neg hdel, ← hseq]
      rfl
    · rw [sinceDelivery_concat, if_neg hdel]
      exact hacc'

/-- **One call** other than a reset keeps the invariant, and what it delivers is sound. -/
theorem Tracks.step (h : Tracks M outs e.frame) (hc : c ≠ .reset)
    (hs : e.exec c = some (o, e')) :
    Tracks M (outs ++ [o]) e'.frame ∧
      (o.Delivers → Decodes M (deliveries outs) (sinceDelivery outs ++ o.consumed) o) := by
  obtain ⟨acc, hold, hp, hacc⟩ := h.assembled
  obtain ⟨hok, hmax⟩ := h.ok.exec hs
  obtain ⟨hcall, acc', hperf⟩ := h.ok.performs hold hp hs
  obtain ⟨hold', hp'⟩ := hperf.holds hold hp
  by_cases hget : c = .get
  · subst hget
    obtain ⟨found, hgot⟩ := hperf.of_get hcall
    exact h.got hok hmax hp hacc hgot
  · have hdel : ¬ o.Delivers := by
      intro hd
      exact hget (hcall ▸ hd.1)
    -- nothing is consumed, and what is assembled stays or is dropped
    have hrest : o.consumed = [] ∧ acc' <:+ acc ∧
        e'.frame.expectedRxSeq = e.frame.expectedRxSeq := by
      cases hperf with
      | got hgot => exact absurd (hcall.symm.trans hgot.call) hget
      | rejected => exact ⟨rfl, List.suffix_refl _, rfl⟩
      | accepted => exact ⟨rfl, List.suffix_refl _, rfl⟩
      | idle => exact ⟨rfl, List.suffix_refl _, rfl⟩
      | resent =>
        refine ⟨rfl, List.suffix_refl _, ?_⟩
        dsimp only
        split_ifs <;> rfl
      | discarded => exact ⟨rfl, List.nil_suffix, rfl⟩
      | restarted => exact absurd hcall.symm hc
    obtain ⟨hcons, hsuffix, hexp⟩ := hrest
    refine ⟨⟨hok, hmax.trans h.max, ?_, acc', hold', hmax ▸ hp', ?_⟩,
      fun hd => absurd hd hdel⟩
    · rw [hexp, deliveries_concat, if_neg hdel, h.seq]
    · rw [sinceDelivery_concat, if_neg hdel, hcons, List.append_nil]
      exact hsuffix.trans hacc

/-- A transport that takes every byte goes on to do so. -/
theorem Tracks.succeeds (h : Tracks M outs e.frame) (ht : e.transport.Succeeds)
    (hs : e.exec c = some (o, e')) : e'.transport.Succeeds := by
  obtain ⟨acc, hold, hp, -⟩ := h.assembled
  obtain ⟨-, acc', hperf⟩ := h.ok.performs hold hp hs
  exact hperf.succeeds ht

omit [Build] in
theorem tracks_step [Build] {M : ℕ} {outs : List Outcome} {e : Endpoint} {c : Call}
    {o : Outcome} {e' : Endpoint} (h : Tracks M outs e.frame) (hc : c ≠ .reset)
    (hs : e.exec c = some (o, e')) : Tracks M (outs ++ [o]) e'.frame := (h.step hc hs).1

end

/-- **Soundness of deliveries.** In every run from a creation or a reset, whatever comes in
and whatever the callbacks answer: each delivery decodes the last bytes consumed, which lie
after those of the delivery before it, and the expected sequence number counts them. -/
theorem get_sound [Build] {f : FrameArqT} (hbegin : Begins f)
    (hint : f.payloadMaxSize + 17 < 2 ^ 31) (t : Transport) (calls : List Call)
    (hno : .reset ∉ calls) :
    ∃ outs e used, Endpoint.run ⟨f, t⟩ calls = some (outs, e) ∧
      t.incoming = used ++ e.transport.incoming ∧
      used.reduceOption = outs.flatMap Outcome.consumed ∧
      e.frame.expectedRxSeq = seqOf (deliveries outs) ∧
      ∀ pre o post, outs = pre ++ o :: post → o.Delivers →
        Decodes f.payloadMaxSize (deliveries pre) (sinceDelivery pre ++ o.consumed) o := by
  have hok : Ok f := hbegin.spec.1
  obtain ⟨outs, e, hrun, -, -⟩ := Ok.run (e := ⟨f, t⟩) hok hint calls
  obtain ⟨used, hsrc, hused⟩ := run_source (e := ⟨f, t⟩) hok hrun
  have hcalls : ∀ c ∈ calls, c ≠ .reset := by
    intro c hc h
    exact hno (h ▸ hc)
  have htracks := run_invariant (h := []) (P := fun outs k => Tracks f.payloadMaxSize outs k.frame)
    tracks_step hbegin.tracks hcalls hrun
  refine ⟨outs, e, used, hrun, hsrc, hused, htracks.seq, ?_⟩
  rintro pre o post rfl hdel
  obtain ⟨c, k, k', hc, hpre, hs⟩ :=
    run_at (P := fun outs k => Tracks f.payloadMaxSize outs k.frame) tracks_step hbegin.tracks
      hcalls hrun
  exact (hpre.step hc hs).2 hdel

theorem get_sound_one :
    letI : Build := build32
    let f := (Storage.zeroed 1 (by decide)).create
    let t : Transport := ⟨none :: (dataFrame 1 0 [7]).encode.map some, [], []⟩
    ∃ outs e used, Endpoint.run ⟨f, t⟩ [.get, .get] = some (outs, e) ∧
      t.incoming = used ++ e.transport.incoming ∧
      used.reduceOption = outs.flatMap Outcome.consumed ∧
      e.frame.expectedRxSeq = seqOf (deliveries outs) ∧
      ∀ pre o post, outs = pre ++ o :: post → o.Delivers →
        Decodes 1 (deliveries pre) (sinceDelivery pre ++ o.consumed) o :=
  letI : Build := build32
  get_sound (.created (Storage.zeroed 1 (by decide))) (by decide) _ _ (by decide)

/-! ## ACKs -/

/-- `s` is the sequence number of the last delivery. -/
def LastDelivered (outs : List Outcome) (s : UInt8) : Prop :=
  ∃ pre o post, outs = pre ++ o :: post ∧ o.DeliversSeq s ∧ ∀ o' ∈ post, ¬ o'.Delivers

/-- Every ACK that get writes is for a DATA frame delivered by that call, or for the last
one delivered before. -/
def AcksBacked [Build] (outs : List Outcome) : Prop :=
  ∀ pre o post s, outs = pre ++ o :: post → o.call = .get → s ≤ 63 →
    o.written = (controlFrame faTypeAck s).encode → o.DeliversSeq s ∨ LastDelivered pre s

/-- No call recognises a DATA frame with sequence number 0. -/
def NoFirst (outs : List Outcome) : Prop :=
  ∀ o ∈ outs, ∀ fr, o.received = some fr → fr.IsData → faSeqOf fr.seqByte ≠ 0

/-- Of the DATA frames that the calls of get recognise, none has sequence number 63 before the
first one with number 0. The frames that come in decide this, not what the calls answer. -/
def NoEarly63 (outs : List Outcome) : Prop :=
  ∀ pre o post fr, outs = pre ++ o :: post → o.call = .get → NoFirst pre →
    o.received = some fr → fr.IsData → faSeqOf fr.seqByte ≠ 63

theorem controlFrame_inj {type type' s s' : UInt8} (ht : type ≤ 3) (ht' : type' ≤ 3)
    (hs : s ≤ 63) (hs' : s' ≤ 63) (h : controlFrame type s = controlFrame type' s') :
    type = type' ∧ s = s' := by
  have hbyte : faSeqByte type s = faSeqByte type' s' := congrArg Frame.seqByte h
  refine ⟨?_, ?_⟩
  · rw [← faTypeOf_faSeqByte ht s, hbyte, faTypeOf_faSeqByte ht' s']
  · rw [← faSeqOf_faSeqByte ht hs, hbyte, faSeqOf_faSeqByte ht' hs']

/-- **What a reaction replies**: an ACK of the DATA frame it was given, if that has the
expected sequence number or the one before, or else a NACK. -/
theorem Arq.react_reply {a : Arq} {found : Option RxEvent} {g : Frame}
    (h : (a.react found).reply = some g) :
    (∃ fr, found = some (.frame fr) ∧ fr.IsData ∧
        (faSeqOf fr.seqByte = a.expectedRxSeq ∨
          faSeqOf fr.seqByte = (a.expectedRxSeq - 1) &&& faSeqMask) ∧
        g = controlFrame faTypeAck (faSeqOf fr.seqByte)) ∨
      g = controlFrame faTypeNack a.expectedRxSeq := by
  obtain _ | ev := found
  · cases h
  · cases ev with
    | crcError => exact Or.inr (Option.some.inj h).symm
    | overflow => cases h
    | frame fr =>
      have hcases := a.handles fr
      have hreply : (a.handle fr).reply = some g := h
      generalize a.handle fr = r at hcases hreply
      cases hcases with
      | acked => cases hreply
      | nacked => cases hreply
      | ignored => cases hreply
      | delivered hdata hseq =>
        exact Or.inl ⟨fr, rfl, hdata, Or.inl hseq, (Option.some.inj hreply).symm⟩
      | duplicate hdata hseq hprev =>
        exact Or.inl ⟨fr, rfl, hdata, Or.inr hprev, (Option.some.inj hreply).symm⟩
      | unexpected => exact Or.inr (Option.some.inj hreply).symm

section

variable [Build] {e e' : Endpoint} {acc acc' : List UInt8} {found : Option RxEvent}
  {o : Outcome} {s : UInt8}

/-- **A call that writes a whole ACK** was given the DATA frame it acknowledges. -/
theorem Got.acked (h : Got e acc found acc' o e') (hexp : e.frame.expectedRxSeq ≤ 63)
    (hs : s ≤ 63) (hw : o.written = (controlFrame faTypeAck s).encode) :
    ∃ fr, found = some (.frame fr) ∧ fr.IsData ∧ faSeqOf fr.seqByte = s ∧
      (s = e.frame.expectedRxSeq ∨ s = (e.frame.expectedRxSeq - 1) &&& faSeqMask) := by
  have hlen (type seq : UInt8) : (controlFrame type seq).encode.length = 17 :=
    Frame.encode_length _
  have hpre := h.written
  rcases hreply : (e.frame.arq.react found).reply with _ | g
  · rw [hreply, hw] at hpre
    have := hpre.length_le
    rw [hlen] at this
    cases this
  · rw [hreply, hw] at hpre
    -- both are control frames, hence of the same length
    have same {type seq : UInt8} (hg : g = controlFrame type seq) :
        controlFrame faTypeAck s = controlFrame type seq := by
      subst hg
      exact encode_injective (hpre.eq_of_length (by rw [replyBytes, hlen, hlen]))
    rcases Arq.react_reply hreply with ⟨fr, hfound, hdata, hseq, hg⟩ | hg
    · obtain ⟨-, rfl⟩ := controlFrame_inj (by decide) (by decide) hs (faSeqOf_le _) (same hg)
      exact ⟨fr, hfound, hdata, rfl, hseq⟩
    · obtain ⟨htype, -⟩ := controlFrame_inj (by decide) (by decide) hs hexp (same hg)
      exact absurd htype (by decide)

/-- A call that finds a DATA frame with the expected sequence number delivers it. -/
theorem Got.deliversSeq {fr : Frame} (hp : Pending e.frame.payloadMaxSize acc)
    (h : Got e acc (some (.frame fr)) acc' o e') (hdata : fr.IsData)
    (hseq : faSeqOf fr.seqByte = e.frame.expectedRxSeq) :
    o.DeliversSeq e.frame.expectedRxSeq := by
  refine ⟨?_, fr, h.received, hdata, hseq⟩
  rcases e.frame.arq.react_delivers (h.fits hp) with
    ⟨cmd, payload, hlo, -, -, -, hr⟩ | ⟨-, -, -, hne⟩
  · rw [h.delivers_iff, hr]
    exact Int.natCast_pos.mpr (UInt8.le_iff_toNat_le.mp hlo)
  · exact absurd hseq (hne fr rfl hdata)

/-- The frame a call shows is the one it found. -/
theorem Got.found_frame {fr : Frame} (h : Got e acc found acc' o e')
    (hrecv : o.received = some fr) : found = some (.frame fr) := by
  rw [h.received] at hrecv
  obtain _ | ev := found
  · cases hrecv
  · cases ev with
    | frame g =>
      cases hrecv
      rfl
    | crcError => cases hrecv
    | overflow => cases hrecv

end

/-- A DATA frame with sequence number 63 is taken for a duplicate when number 0 is
expected. -/
theorem Arq.handle_early63 {a : Arq} {fr : Frame} (hexp : a.expectedRxSeq = 0)
    (hdata : fr.IsData) (h63 : faSeqOf fr.seqByte = 63) :
    (a.handle fr).ret = success ∧ (a.handle fr).reply = some (controlFrame faTypeAck 63) := by
  have hcases := a.handles fr
  generalize a.handle fr = r at hcases
  cases hcases with
  | acked hack => exact absurd (hdata.2.symm.trans hack) (by decide)
  | nacked hnack => exact absurd (hdata.2.symm.trans hnack) (by decide)
  | ignored hctrl => exact absurd hdata hctrl
  | delivered hdata' hseq =>
    rw [h63, hexp] at hseq
    exact absurd hseq (by decide)
  | duplicate hdata' hseq hprev =>
    rw [h63]
    exact ⟨rfl, rfl⟩
  | unexpected hdata' hseq hprev =>
    rw [h63, hexp] at hprev
    have hwrap : (63 : UInt8) = (0 - 1) &&& faSeqMask := by decide
    exact absurd hwrap hprev

/-- After at least one delivery there is a last one. -/
theorem exists_last_delivery {outs : List Outcome} (h : 0 < deliveries outs) :
    ∃ pre o post, outs = pre ++ o :: post ∧ o.Delivers ∧ (∀ o' ∈ post, ¬ o'.Delivers) ∧
      deliveries outs = deliveries pre + 1 := by
  induction outs using List.reverseRecOn with
  | nil => cases h
  | append_singleton outs o ih =>
    rw [deliveries_concat] at h ⊢
    by_cases hdel : o.Delivers
    · exact ⟨outs, o, [], rfl, hdel, by simp, if_pos hdel⟩
    · rw [if_neg hdel] at h ⊢
      obtain ⟨pre, o₁, post, rfl, hdel₁, hpost, hcount⟩ := ih h
      refine ⟨pre, o₁, post ++ [o], by simp, hdel₁, ?_, hcount⟩
      intro o' ho'
      rcases List.mem_append.mp ho' with ho' | ho'
      · exact hpost o' ho'
      · rw [List.mem_singleton.mp ho']
        exact hdel

section

variable [Build] {f : FrameArqT} {t : Transport} {calls : List Call} {outs : List Outcome}
  {e : Endpoint}

/-- The last delivery of a run had the sequence number before the expected one. -/
theorem lastDelivered_of_run (hbegin : Begins f) (hcalls : ∀ c ∈ calls, c ≠ .reset)
    (hrun : Endpoint.run ⟨f, t⟩ calls = some (outs, e)) {pre : List Outcome} {o : Outcome}
    {post : List Outcome} (hsplit : outs = pre ++ o :: post) {k : ℕ}
    (hk : deliveries pre = k + 1) : LastDelivered pre (seqOf k) := by
  have hpos : 0 < deliveries pre := by omega
  obtain ⟨pre', d, mid, rfl, hdel, hmid, hcount⟩ := exists_last_delivery hpos
  have hsplit' : outs = pre' ++ d :: (mid ++ o :: post) := by rw [hsplit]; simp
  rw [hsplit'] at hrun
  obtain ⟨c, k₁, k₂, hc, htracks, hs⟩ :=
    run_at (P := fun outs k => Tracks f.payloadMaxSize outs k.frame) tracks_step
      hbegin.tracks hcalls hrun
  obtain ⟨cmd, payload, hlo, hhi, -, -, -, hrecv, -⟩ := (htracks.step hc hs).2 hdel
  have hpre : deliveries pre' = k := by omega
  rw [hpre] at hrecv
  exact ⟨pre', d, mid, rfl, ⟨hdel, _, hrecv, dataFrame_isData hlo hhi _ _,
    faSeqOf_dataFrame (seqOf_le k) _ _⟩, hmid⟩

/-- A call of get after a run found what it acts on. -/
theorem Tracks.exists_got {M : ℕ} {k k' : Endpoint} {c : Call} {o : Outcome}
    (h : Tracks M outs k.frame) (hs : k.exec c = some (o, k')) (hget : o.call = .get) :
    ∃ acc found acc', Pending k.frame.payloadMaxSize acc ∧ Got k acc found acc' o k' := by
  obtain ⟨acc, hold, hp, -⟩ := h.assembled
  obtain ⟨-, acc', hperf⟩ := h.ok.performs hold hp hs
  obtain ⟨found, hgot⟩ := hperf.of_get hget
  exact ⟨acc, found, acc', hp, hgot⟩

omit [Build] in
theorem noFirst_concat (outs : List Outcome) (o : Outcome) :
    NoFirst (outs ++ [o]) ↔ NoFirst outs ∧
      ¬ ∃ fr, o.received = some fr ∧ fr.IsData ∧ faSeqOf fr.seqByte = 0 := by
  simp [NoFirst, or_imp, forall_and]

/-- Before the first delivery, a call delivers exactly if it recognises a DATA frame with
sequence number 0. -/
theorem Tracks.delivers_iff {M : ℕ} {k k' : Endpoint} {c : Call} {o : Outcome}
    (h : Tracks M outs k.frame) (hc : c ≠ .reset) (hs : k.exec c = some (o, k'))
    (hzero : deliveries outs = 0) :
    o.Delivers ↔ ∃ fr, o.received = some fr ∧ fr.IsData ∧ faSeqOf fr.seqByte = 0 := by
  constructor
  · intro hdel
    obtain ⟨cmd, payload, hlo, hhi, -, -, -, hrecv, -⟩ := (h.step hc hs).2 hdel
    rw [hzero, seqOf_zero] at hrecv
    exact ⟨_, hrecv, dataFrame_isData hlo hhi 0 payload, faSeqOf_dataFrame (by decide) _ _⟩
  · rintro ⟨fr, hrecv, hdata, hseq⟩
    obtain ⟨acc, hold, hp, -⟩ := h.assembled
    obtain ⟨-, acc', hperf⟩ := h.ok.performs hold hp hs
    have hexp : k.frame.expectedRxSeq = 0 := by rw [h.seq, hzero, seqOf_zero]
    cases hperf with
    | got hgot =>
      obtain rfl := hgot.found_frame hrecv
      exact (hgot.deliversSeq hp hdata (hseq.trans hexp.symm)).1
    | rejected => cases hrecv
    | accepted => cases hrecv
    | idle => cases hrecv
    | resent => cases hrecv
    | discarded => cases hrecv
    | restarted => cases hrecv

/-- Nothing is delivered as long as no DATA frame with sequence number 0 comes in. -/
theorem Tracks.noFirst {M : ℕ} {k k' : Endpoint} {c : Call} {o : Outcome}
    (h : Tracks M outs k.frame) (hfirst : deliveries outs = 0 ↔ NoFirst outs) (hc : c ≠ .reset)
    (hs : k.exec c = some (o, k')) :
    deliveries (outs ++ [o]) = 0 ↔ NoFirst (outs ++ [o]) := by
  rw [noFirst_concat, ← hfirst, deliveries_concat]
  by_cases hzero : deliveries outs = 0
  · rw [← h.delivers_iff hc hs hzero]
    by_cases hdel : o.Delivers <;> simp [hdel, hzero]
  · by_cases hdel : o.Delivers <;> simp [hdel, hzero]

/-- The state in which a call of a run is made. -/
theorem tracks_at (hbegin : Begins f) (hcalls : ∀ c ∈ calls, c ≠ .reset) {pre post : List Outcome}
    {o : Outcome} (hrun : Endpoint.run ⟨f, t⟩ calls = some (pre ++ o :: post, e)) :
    ∃ (c : Call) (k k' : Endpoint), Tracks f.payloadMaxSize pre k.frame ∧
      (deliveries pre = 0 ↔ NoFirst pre) ∧ (t.Succeeds → k.transport.Succeeds) ∧
      k.exec c = some (o, k') := by
  obtain ⟨c, k, k', -, ⟨htracks, hfirst, hsucceeds⟩, hs⟩ :=
    run_at (P := fun outs k => Tracks f.payloadMaxSize outs k.frame ∧
      (deliveries outs = 0 ↔ NoFirst outs) ∧ (t.Succeeds → k.transport.Succeeds))
      (fun ⟨h, hfirst, hsucceeds⟩ hc hs => ⟨tracks_step h hc hs, h.noFirst hfirst hc hs,
        fun ht => h.succeeds (hsucceeds ht) hs⟩)
      ⟨hbegin.tracks, by simp [deliveries, NoFirst], id⟩ hcalls hrun
  exact ⟨c, k, k', htracks, hfirst, hsucceeds, hs⟩

/-- **ACKs are backed by deliveries** in every run in which get recognises no DATA frame with
sequence number 63 before the first one with number 0. On a transport that takes every byte,
that is also necessary. -/
theorem ack_backed (hbegin : Begins f) (hno : .reset ∉ calls)
    (hrun : Endpoint.run ⟨f, t⟩ calls = some (outs, e)) :
    (NoEarly63 outs → AcksBacked outs) ∧
      (t.Succeeds → AcksBacked outs → NoEarly63 outs) := by
  have hcalls : ∀ c ∈ calls, c ≠ .reset := by
    intro c hc h
    exact hno (h ▸ hc)
  refine ⟨?_, ?_⟩
  · rintro hearly pre o post s rfl hget hs hw
    obtain ⟨c, k₁, k₂, htracks, hfirst, -, hexec⟩ := tracks_at hbegin hcalls hrun
    obtain ⟨acc, found, acc', hp, hgot⟩ := htracks.exists_got hexec hget
    -- the ACK answers the frame delivered by this call, or the one before it
    obtain ⟨fr, rfl, hdata, hseq, hs' | hs'⟩ :=
      hgot.acked htracks.ok.expectedRxSeq_le hs hw
    · subst hs'
      exact Or.inl (hgot.deliversSeq hp hdata hseq)
    · rw [htracks.seq] at hs'
      rcases hk : deliveries pre with _ | k
      · rw [hk] at hs'
        exact absurd (hseq.trans hs')
          (hearly pre o post fr rfl hget (hfirst.mp hk) hgot.received hdata)
      · rw [hk, seqOf_pred] at hs'
        subst hs'
        exact Or.inr (lastDelivered_of_run hbegin hcalls hrun rfl hk)
  · rintro hok hbacked pre o post fr rfl hget hnone hrecv hdata h63
    obtain ⟨c, k₁, k₂, htracks, hfirst, hsucceeds, hexec⟩ := tracks_at hbegin hcalls hrun
    have hzero : deliveries pre = 0 := hfirst.mpr hnone
    obtain ⟨acc, found, acc', hp, hgot⟩ := htracks.exists_got hexec hget
    have hexp : k₁.frame.arq.expectedRxSeq = 0 := by
      rw [← seqOf_zero, ← hzero, ← htracks.seq]
      rfl
    obtain rfl := hgot.found_frame hrecv
    -- the frame is taken for a duplicate, and acknowledged
    obtain ⟨hret, hreply⟩ := Arq.handle_early63 hexp hdata h63
    have hw := (hgot.replied (hsucceeds hok)).1
    have hreact : k₁.frame.arq.react (some (.frame fr)) = k₁.frame.arq.handle fr := rfl
    rw [hreact, hreply] at hw
    rcases hbacked pre o post 63 rfl hget (by decide) hw with ⟨hdel, -⟩ | ⟨a, d, b, rfl, hd, -⟩
    · have hpos := hdel.2
      rw [hgot.ret, hreact, hret] at hpos
      exact absurd hpos (by decide)
    · have hmem : 0 < deliveries (a ++ d :: b) :=
        List.countP_pos_iff.mpr ⟨d, by simp, by simpa using hd.1⟩
      omega

end

theorem ack_backed_one :
    letI : Build := build32
    let f := (Storage.zeroed 1 (by decide)).create
    let t : Transport := ⟨(dataFrame 1 0 [7]).encode.map some, [], []⟩
    ∃ outs e, Endpoint.run ⟨f, t⟩ [.get, .get] = some (outs, e) ∧
      (NoEarly63 outs → AcksBacked outs) ∧ (t.Succeeds → AcksBacked outs → NoEarly63 outs) := by
  let _ : Build := build32
  obtain ⟨outs, e, hrun, -⟩ := Ok.run (e := ⟨(Storage.zeroed 1 (by decide)).create,
    ⟨(dataFrame 1 0 [7]).encode.map some, [], []⟩⟩) (Storage.create_ok _) (by decide) [.get, .get]
  exact ⟨outs, e, hrun, ack_backed (.created _) (by decide) hrun⟩

/-- A new endpoint acknowledges a DATA frame with sequence number 63 that it never
delivered. -/
theorem spurious_ack :
    letI : Build := build32
    let f := (Storage.zeroed 0 (by decide)).create
    let t : Transport := ⟨(dataFrame 1 63 []).encode.map some, [], []⟩
    Begins f ∧ ∃ outs e, Endpoint.run ⟨f, t⟩ [.get] = some (outs, e) ∧ ¬ AcksBacked outs := by
  let _ : Build := build32
  intro f t
  refine ⟨.created _, ?_⟩
  let o : Outcome := ⟨.get, 0, none, some (dataFrame 1 63 []), (dataFrame 1 63 []).encode,
    (controlFrame faTypeAck 63).encode⟩
  have hrun : (Endpoint.run ⟨f, t⟩ [.get]).map Prod.fst = some [o] := by decide +kernel
  obtain ⟨⟨outs, e⟩, hrun, rfl⟩ := Option.map_eq_some_iff.mp hrun
  refine ⟨_, e, hrun, ?_⟩
  intro h
  rcases h [] o [] 63 rfl rfl (by decide) rfl with ⟨hdel, -⟩ | ⟨pre, _, post, hsplit, -⟩
  · exact absurd hdel (by decide)
  · cases pre <;> cases hsplit

end HtcwFrameArq
