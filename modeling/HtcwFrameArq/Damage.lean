import HtcwFrameArq.Stream

/-!
# A lost byte

The payload of a frame is not escaped, so when a byte of the frame is lost, what is left is
scanned for markers and may hold a frame of its own. `lost_byte` says how far that goes: if
the lost byte is one of the CRC or the payload, nothing is found at all, and otherwise a
delivery (or an ACK) needs the bytes of a whole DATA frame, with the sequence number that is
expected, among those that are left. `phantom_delivery` is a payload that has them.
-/

namespace HtcwFrameArq

section

variable [Build] {M : ℕ} {fr : Frame}

/-! ## A byte of the CRC or the payload -/

/-- The bytes before the CRC. -/
def Frame.head (fr : Frame) : List UInt8 :=
  List.replicate 8 fr.marker ++ fr.seqByte :: leBytes fr.size

omit [Build] in
theorem Frame.head_length (fr : Frame) : fr.head.length = 13 := by simp [Frame.head]

theorem Frame.encode_eq_head (fr : Frame) :
    fr.encode = fr.head ++ (leBytes fr.crc ++ fr.payload) := by
  simp [Frame.encode, Frame.head, fields]

/-- The length field is there, and the frame does not get complete. -/
theorem feed_lost_body (hfits : fr.Fits M) {i : ℕ} (h13 : 13 ≤ i) (hi : i < fr.encode.length) :
    (receiver M).feed [] (fr.encode.eraseIdx i) = ([], fr.encode.eraseIdx i) := by
  have hlen := fr.encode_length
  have hrest : ((leBytes fr.crc ++ fr.payload).eraseIdx (i - 13)).length =
      3 + fr.payload.length := by
    rw [List.length_eraseIdx_of_lt (by simp; omega)]
    simp
  have hbytes : fr.encode.eraseIdx i =
      fr.head ++ (leBytes fr.crc ++ fr.payload).eraseIdx (i - 13) := by
    rw [fr.encode_eq_head, List.eraseIdx_append_of_length_le (by rw [fr.head_length]; exact h13),
      fr.head_length]
  have hsize := Frame.size_toNat hfits.length_lt
  rw [hbytes, Frame.head]
  apply feed_incomplete hfits.marker_ge (by rw [hsize]; exact hfits.length_le)
  rw [hrest, hsize]
  omega

/-! ## Any byte -/

variable {e e' : Endpoint} {acc acc' : List UInt8} {founds : List (Option RxEvent)}
  {outs : List Outcome} {bytes : List UInt8}

/-- Among the bytes are those of a DATA frame with sequence number `seq`. -/
def HoldsData (M : ℕ) (seq : UInt8) (bytes : List UInt8) : Prop :=
  ∃ cmd payload, 1 ≤ cmd ∧ cmd ≤ 127 ∧ payload.length ≤ M ∧
    (dataFrame cmd seq payload).encode <:+: bytes

/-- **No frame, no delivery**: over bytes that do not hold a DATA frame with the expected
sequence number, nothing is delivered and that number is not acknowledged. -/
theorem Gets.no_delivery (h : Gets e acc founds acc' outs e')
    (hp : Pending e.frame.payloadMaxSize acc) {before : List UInt8} (hacc : acc <:+ before)
    (hseq : e.frame.expectedRxSeq ≤ 63)
    (hno : ¬ HoldsData e.frame.payloadMaxSize e.frame.expectedRxSeq
      (before ++ outs.flatMap Outcome.consumed)) :
    ∀ o ∈ outs, ¬ o.Delivers ∧
      o.written ≠ (controlFrame faTypeAck e.frame.expectedRxSeq).encode := by
  induction h generalizing before with
  | nil => simp
  | @cons e acc found acc₁ o e₁ founds acc' outs e' hgot hrest ih =>
    rw [List.flatMap_cons, ← List.append_assoc] at hno
    -- what this call finds is no such frame, since its bytes would stand in the input
    have hfound : ∀ fr, found = some (.frame fr) → fr.IsData →
        faSeqOf fr.seqByte ≠ e.frame.expectedRxSeq := by
      rintro fr rfl hdata heq
      have hfits := hgot.fits hp fr rfl
      obtain ⟨cmd, hlo, hhi, hfr, -⟩ := hdata.eq_dataFrame hfits
      refine hno ⟨cmd, fr.payload, hlo, hhi, hfits.length_le, ?_⟩
      have henc : (dataFrame cmd e.frame.expectedRxSeq fr.payload).encode = fr.encode := by
        rw [← heq, ← hfr]
      rw [henc]
      exact (hgot.encode_suffix hp hacc).isInfix.trans (List.prefix_append _ _).isInfix
    obtain ⟨hdel, hexp⟩ := hgot.passes hp hseq hfound
    intro o' ho'
    rcases List.mem_cons.mp ho' with rfl | ho'
    · refine ⟨hdel, ?_⟩
      intro hw
      obtain ⟨fr, rfl, hdata, hsame, -⟩ := hgot.acked hseq hseq hw
      exact hfound fr rfl hdata hsame
    · have hsuffix := feed_suffix e.frame.payloadMaxSize hacc o.consumed
      rw [hgot.feed] at hsuffix
      have hrest' := ih (hgot.max ▸ hgot.pending) hsuffix (by rw [hexp]; exact hseq)
        (by rw [hexp, hgot.max]; exact hno) o' ho'
      rwa [hexp] at hrest'

end

/-- **A lost byte.** The frame of a message arrives without byte `i` at a controller that is
between two frames and expects its sequence number, in whatever portions. If the byte is one
of the CRC or the payload, the calls of get that consume the rest do nothing; and in any case
none of them delivers anything or acknowledges that number, unless the rest holds the bytes of
a whole DATA frame with that number. -/
theorem lost_byte [Build] {f : FrameArqT} (hreach : Reachable f) (hcount : f.byteCount = 0)
    {cmd : UInt8} {payload : List UInt8} (hhi : cmd ≤ 127)
    (hle : payload.length ≤ f.payloadMaxSize) (hint : payload.length + 17 < 2 ^ 31) {i : ℕ}
    (hi : i < (dataFrame cmd f.expectedRxSeq payload).encode.length) {t : Transport}
    (hin : t.incoming.reduceOption = (dataFrame cmd f.expectedRxSeq payload).encode.eraseIdx i)
    {n : ℕ} {outs : List Outcome} {e : Endpoint}
    (hrun : Endpoint.run ⟨f, t⟩ (List.replicate n .get) = some (outs, e)) :
    (13 ≤ i → ∀ o ∈ outs, o.ret = success ∧ o.out = none ∧ o.written = []) ∧
      (¬ HoldsData f.payloadMaxSize f.expectedRxSeq
          ((dataFrame cmd f.expectedRxSeq payload).encode.eraseIdx i) →
        ∀ o ∈ outs, ¬ o.Delivers ∧
          o.written ≠ (controlFrame faTypeAck f.expectedRxSeq).encode) := by
  obtain ⟨acc, hold, hp⟩ := hreach.ok.rx
  obtain rfl : acc = [] := List.length_eq_zero_iff.mp (hold.count.symm.trans hcount)
  obtain ⟨founds, acc', hgets⟩ := Gets.of_run (e := ⟨f, t⟩) hold hp hrun
  have hprefix : outs.flatMap Outcome.consumed <+:
      (dataFrame cmd f.expectedRxSeq payload).encode.eraseIdx i := by
    rw [← hin]
    exact hgets.consumed_prefix
  refine ⟨?_, ?_⟩
  · intro h13 o ho
    have hfits : (dataFrame cmd f.expectedRxSeq payload).Fits f.payloadMaxSize :=
      dataFrame_fits hhi hle (by omega)
    -- less bytes come than the length field says
    have hnone : founds.reduceOption = ([] : List Frame).map RxEvent.frame := by
      have hpfx := Decoder.feed_mono (D := receiver f.payloadMaxSize) hprefix []
      rw [hgets.feed, feed_lost_body hfits h13 hi] at hpfx
      exact List.prefix_nil.mp hpfx
    have hanswers := hgets.answers hp hnone
    apply hanswers.others o ho
    by_contra hsome
    obtain ⟨fr, hfr⟩ := Option.ne_none_iff_exists'.mp hsome
    have hmem : fr ∈ outs.filterMap Outcome.received := List.mem_filterMap.mpr ⟨o, ho, hfr⟩
    rw [hanswers.recognised] at hmem
    cases hmem
  · intro hno o ho
    refine hgets.no_delivery hp (List.suffix_refl []) hreach.ok.expectedRxSeq_le ?_ o ho
    rintro ⟨cmd', payload', hlo', hhi', hle', hinfix⟩
    exact hno ⟨cmd', payload', hlo', hhi', hle', hinfix.trans hprefix.isInfix⟩

theorem lost_byte_one :
    letI : Build := build32
    let f := (Storage.zeroed 1 (by decide)).create
    let bytes := (dataFrame 1 0 [7]).encode.eraseIdx 13
    ∃ outs e, Endpoint.run ⟨f, ⟨bytes.map some, [], []⟩⟩ [.get] = some (outs, e) ∧
      (13 ≤ 13 → ∀ o ∈ outs, o.ret = success ∧ o.out = none ∧ o.written = []) ∧
      (¬ HoldsData 1 0 bytes →
        ∀ o ∈ outs, ¬ o.Delivers ∧ o.written ≠ (controlFrame faTypeAck 0).encode) := by
  let _ : Build := build32
  intro f bytes
  have hreach : Reachable f :=
    ⟨Storage.zeroed 1 (by decide), ⟨[], [], []⟩, [], [], ⟨f, ⟨[], [], []⟩⟩, rfl, rfl⟩
  have hin : (bytes.map some).reduceOption = bytes := by simp [List.reduceOption]
  have hsome : (Endpoint.run ⟨f, ⟨bytes.map some, [], []⟩⟩ [.get]).isSome = true := by
    decide +kernel
  obtain ⟨⟨outs, e⟩, hrun⟩ := Option.isSome_iff_exists.mp hsome
  exact ⟨outs, e, hrun, @lost_byte _ f hreach rfl 1 [7] (by decide) (by decide) (by decide) 13
    (by decide) _ hin 1 outs e hrun⟩

/-- **A phantom.** A payload that is the encoding of another message: without its first byte
the frame is dropped, and get delivers the payload's message and acknowledges it. -/
theorem phantom_delivery :
    letI : Build := build32
    let f := (Storage.zeroed 17 (by decide)).create
    ∃ put e got e', Endpoint.exec ⟨f, ⟨[], [], []⟩⟩ (.put 1 (.bytes (dataFrame 2 0 []).encode)) =
        some (put, e) ∧ put.ret = success ∧
      Endpoint.exec ⟨f, ⟨(put.written.eraseIdx 0).map some, [], []⟩⟩ .get = some (got, e') ∧
      f.byteCount = 0 ∧ faSeqOf (put.written.getD 8 0) = f.expectedRxSeq ∧
      got.Delivers ∧ got.ret = 2 ∧ got.out = some [] ∧
      got.written = (controlFrame faTypeAck 0).encode := by
  let _ : Build := build32
  intro f
  have hruns : ((Endpoint.exec ⟨f, ⟨[], [], []⟩⟩ (.put 1 (.bytes (dataFrame 2 0 []).encode))).bind
      fun r => (Endpoint.exec ⟨f, ⟨(r.1.written.eraseIdx 0).map some, [], []⟩⟩ .get).map fun q =>
        decide (r.1.ret = success ∧ faSeqOf (r.1.written.getD 8 0) = f.expectedRxSeq ∧
          q.1.Delivers ∧ q.1.ret = 2 ∧ q.1.out = some [] ∧
          q.1.written = (controlFrame faTypeAck 0).encode)) = some true := by
    decide +kernel
  obtain ⟨⟨put, e⟩, hput, hget⟩ := Option.bind_eq_some_iff.mp hruns
  obtain ⟨⟨got, e'⟩, hgot, hall⟩ := Option.map_eq_some_iff.mp hget
  obtain ⟨hret, hseq, hdel, hcmd, hout, hw⟩ := of_decide_eq_true hall
  exact ⟨put, e, got, e', hput, hret, hgot, rfl, hseq, hdel, hcmd, hout, hw⟩

end HtcwFrameArq
