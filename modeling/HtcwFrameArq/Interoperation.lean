import HtcwFrameArq.Agreement

/-!
# What one end writes, the other takes

`encoders_agree`: the session and the library write the same bytes for the same frame, and
each of them, between two frames, takes these bytes for that frame.
-/

namespace HtcwFrameArq

open EspSerialSession

/-- A library between two frames takes `bytes`, in whatever portions they arrive, for the frame
`fr`: enough calls of get find it at its last byte and act on it; a DATA frame that is expected
is handed over. -/
def LibraryAccepts [Build] (bytes : List UInt8) (fr : Frame) : Prop :=
  ∀ (f : FrameArqT) (t : Transport) (n : ℕ), Reachable f → f.byteCount = 0 →
    fr.payload.length ≤ f.payloadMaxSize → t.incoming.reduceOption = bytes →
    t.incoming.length ≤ n →
      ∃ outs e, Endpoint.run ⟨f, t⟩ (List.replicate n .get) = some (outs, e) ∧
        eventsOf 0 outs = [(bytes.length, .frame fr)] ∧ e.frame.arq = (f.arq.handle fr).arq ∧
        (fr.IsData → faSeqOf fr.seqByte = f.expectedRxSeq →
          ∃ o ∈ outs, o.ret = (fr.marker.toNat : Int) - 128 ∧ o.out = some fr.payload)

/-- A session between two frames takes `bytes` for the frame `fr`: its read loop finds it at its
last byte and goes on with the next frame; a DATA frame that is expected is handed over. -/
def SessionAccepts (bytes : List UInt8) (fr : Frame) : Prop :=
  ∀ (logging : Bool) (mach : StateMachine), mach.state = 0 →
    (reader logging).events 0 (.header mach) bytes = [(bytes.length, .frame fr)] ∧
      (∃ mach', (reader logging).after (.header mach) bytes = .header mach' ∧ mach'.state = 0) ∧
      ∀ s : EspSerialSession.Session, fr.IsData → faSeqOf fr.seqByte = s.expectedRxSeq →
        ∃ eff, s.dispatchValidFrame fr.marker fr.seqByte fr.payload = some eff ∧
          eff.frameReceived = some (fr.marker - 128, fr.payload)

section

variable [Build] {fr : Frame}

/-- The library takes what it writes. -/
theorem libraryAccepts_encode (hlen : fr.payload.length < 2 ^ 32) (hmark : 128 ≤ fr.marker) :
    LibraryAccepts fr.encode fr := by
  intro f t n hreach hcount hle hin hn
  have hfits : fr.Fits f.payloadMaxSize := ⟨hle, hlen, hmark⟩
  obtain ⟨acc, hold, hp⟩ := hreach.ok.rx
  obtain rfl : acc = [] := List.length_eq_zero_iff.mp (hold.count.symm.trans hcount)
  -- the calls of get consume the whole frame and find it
  obtain ⟨founds, acc', outs, e, hrun, hgets⟩ := Gets.exists_run (e := ⟨f, t⟩) hold hp n
  have hcalls := Runs.run_length hrun
  rw [List.length_replicate] at hcalls
  have hall : outs.flatMap Outcome.consumed = fr.encode :=
    (hgets.consumed_all (hgets.used_up (by rw [hcalls]; exact hn))).trans hin
  have hfeed := hgets.feed
  rw [hall] at hfeed
  obtain ⟨hfounds, -⟩ := Prod.mk.inj (hfeed.symm.trans (feed_encode hfits))
  have hanswers : Answers ⟨f, t⟩ [fr] outs e := hgets.answers hp hfounds
  refine ⟨outs, e, hrun, ?_, hanswers.arq, ?_⟩
  · obtain ⟨b, hconcat, hv⟩ := encode_eq_concat fr
    have hpos : fr.encode.length - 1 < fr.encode.length := by
      rw [Frame.encode_length]
      omega
    rw [← hgets.events 0, hall]
    conv => lhs; rw [hconcat]
    rw [Decoder.events_of_last (feed_encode_take hfits hpos) (hv _ hfits), ← hconcat,
      Nat.zero_add]
  · intro hdata hseq
    -- one call received the frame, and answered as the handling does
    have hresults : (outs.filter fun o => o.received.isSome).map (fun o => (o.ret, o.out)) =
        [((f.arq.handle fr).ret, (f.arq.handle fr).out)] := hanswers.results
    rw [Arq.handle_delivered hdata hseq] at hresults
    obtain ⟨o, hmem, ho⟩ := List.mem_map.mp (by rw [hresults]; exact List.mem_singleton_self _)
    obtain ⟨hret, hout⟩ := Prod.mk.inj ho
    exact ⟨o, List.mem_of_mem_filter hmem, hret, hout⟩

/-- The session takes what the library writes. -/
theorem sessionAccepts_encode (hle : fr.payload.length ≤ 32768) (hmark : 128 ≤ fr.marker) :
    SessionAccepts fr.encode fr := by
  intro logging mach hstate
  have hfits : fr.Fits 32768 := ⟨hle, lt_of_le_of_lt hle (by decide), hmark⟩
  have hpos : fr.encode.length - 1 < fr.encode.length := by
    rw [Frame.encode_length]
    omega
  obtain ⟨b, hconcat, hv⟩ := encode_eq_concat fr
  -- every byte of the frame is appended to those assembled
  have hgrow : ∀ pre a post, fr.encode = pre ++ a :: post →
      ¬ pushByte (library.after [] pre) a ≠ library.after [] pre ++ [a] := by
    intro pre a post hsplit
    have hlt : pre.length < fr.encode.length := by
      rw [hsplit, List.length_append, List.length_cons]
      omega
    have htake : fr.encode.take pre.length = pre := by rw [hsplit, List.take_left]
    have hget : fr.encode[pre.length] = a := by simp [hsplit]
    have hafter : library.after [] pre = pre := by
      have hfeed := feed_encode_take hfits hlt
      rw [htake] at hfeed
      exact Decoder.after_of_feed hfeed
    have hpush := pushByte_encode hfits hlt
    rw [hget, List.take_succ_eq_append_getElem hlt, hget, htake] at hpush
    rw [hafter, not_not]
    exact hpush
  have hsync : Synced [] (.header mach) := .idle hstate
  have hstep {acc : List UInt8} {loop : ReadLoop} {a : UInt8} (h : Synced acc loop)
      (hkeep : ¬ pushByte acc a ≠ acc ++ [a]) :
      (library.step acc a).1 = ((reader logging).step loop a).1 ∧
        Synced (library.step acc a).2 ((reader logging).step loop a).2 := by
    have hagree : Agree logging Synced acc loop a := h.grow (not_not.mp hkeep)
    exact ⟨hagree.event, hagree.next⟩
  obtain ⟨hevents, hafter⟩ := Transducer.lockstep hstep hsync 0 hgrow
  refine ⟨?_, ?_, ?_⟩
  · rw [← hevents]
    conv => lhs; rw [hconcat]
    rw [library, Decoder.events_of_last (feed_encode_take hfits hpos) (hv _ hfits), ← hconcat,
      Nat.zero_add]
  · have hidle : library.after [] fr.encode = [] := Decoder.after_of_feed (feed_encode hfits)
    rw [hidle] at hafter
    generalize (reader logging).after (.header mach) fr.encode = loop at hafter
    cases hafter with
    | idle hstate' => exact ⟨_, rfl, hstate'⟩
    | header hne => exact absurd rfl hne
  · intro s hdata hseq
    obtain ⟨control, hcontrol⟩ : ∃ control, buildControlFrame typeAck (faSeqOf fr.seqByte) =
        some control := ⟨_, buildControlFrame_eq typeAck _⟩
    have hctl : ¬ (fr.marker = 128 ∨ (fr.seqByte >>> 6) &&& 0x03 ≠ typeData) := by
      rintro (h | h)
      · exact hdata.1 h
      · exact h hdata.2
    have hseq' : fr.seqByte &&& 0x3F = s.expectedRxSeq := hseq
    have hcontrol' : buildControlFrame typeAck (fr.seqByte &&& 0x3F) = some control := hcontrol
    refine ⟨{
      session := { s with expectedRxSeq := ((fr.seqByte &&& 0x3F) + 1) &&& 0x3F }
      write := some control
      frameReceived := some (fr.marker - 128, fr.payload) }, ?_, rfl⟩
    rw [Session.dispatchValidFrame, if_neg hctl, Session.dispatchData, if_pos hseq', hcontrol']
    rfl

end

/-- A DATA frame with its fields spelled out. -/
theorem dataFrame_eq {cmd seq : UInt8} (hhi : cmd ≤ 127) (hseq : seq ≤ 63) (payload : List UInt8) :
    dataFrame cmd seq payload = ⟨cmd + 128, seq, payload⟩ ∧
      (cmd + 128) - 128 = cmd ∧ ((cmd + 128).toNat : Int) - 128 = cmd.toNat := by
  have hbyte : faSeqByte faTypeData seq = seq :=
    byte_all (P := fun b => b ≤ 63 → faSeqByte faTypeData b = b) (by decide +kernel) seq hseq
  have hcmd : (cmd + 128).toNat = cmd.toNat + 128 :=
    byte_all (P := fun b => b ≤ 127 → (b + 128).toNat = b.toNat + 128) (by decide +kernel) cmd hhi
  refine ⟨by rw [dataFrame, hbyte], ?_, by omega⟩
  exact byte_all (P := fun b => (b + 128) - 128 = b) (by decide +kernel) cmd

/-- **The encoders agree.** For every command, sequence number and payload of up to 32768 bytes
the session builds the frame that put retains and writes when it assigns that number, and its
control frames are those of the library. Each end, between two frames, takes what the other
writes for the frame that was meant, if its payload is within the maximum of the library; the
command and the number it reads out of that frame are those that were put in. -/
theorem encoders_agree [Build] {cmd seq : UInt8} {payload : List UInt8} (hlo : 1 ≤ cmd)
    (hhi : cmd ≤ 127) (hseq : seq ≤ 63) (hlen : payload.length ≤ 32768) :
    (∃ bytes fr, buildDataFrame cmd seq payload = some bytes ∧
      (∀ (f : FrameArqT) (t : Transport), Reachable f → Accepts f cmd payload.length →
        f.nextSeq = seq → ∃ r, frameArqPut .valid f cmd (some payload) payload.length t = some r ∧
          r.frame.txSeq = seq ∧ r.frame.retainBuffer.take r.frame.retainLength = bytes ∧
          (r.ret, r.transport) = t.writeAll bytes) ∧
      fr = ⟨cmd + 128, seq, payload⟩ ∧ LibraryAccepts bytes fr ∧ SessionAccepts bytes fr ∧
      fr.IsData ∧ faSeqOf fr.seqByte = seq ∧ fr.marker - 128 = cmd ∧
      (fr.marker.toNat : Int) - 128 = cmd.toNat) ∧
    ∀ type, type = typeAck ∨ type = typeNack →
      ∃ bytes, buildControlFrame type seq = some bytes ∧
        (∀ t, faWriteControl type seq t = some (t.writeAll bytes)) ∧
        LibraryAccepts bytes (controlFrame type seq) ∧
        SessionAccepts bytes (controlFrame type seq) := by
  constructor
  · obtain ⟨hframe, hcmd, hret⟩ := dataFrame_eq hhi hseq payload
    have hfits : (dataFrame cmd seq payload).Fits 32768 :=
      dataFrame_fits hhi hlen (lt_of_le_of_lt hlen (by decide))
    refine ⟨_, dataFrame cmd seq payload, buildDataFrame_eq cmd seq payload, ?_, hframe,
      libraryAccepts_encode hfits.length_lt hfits.marker_ge,
      sessionAccepts_encode hfits.length_le hfits.marker_ge, dataFrame_isData hlo hhi seq payload,
      faSeqOf_dataFrame hseq cmd payload, hcmd, hret⟩
    -- the frame that put retains
    rintro f t hreach hacc rfl
    have hok := hreach.ok
    have hsize : ∀ bytes, some payload = some bytes → payload.length ≤ bytes.length := by
      rintro bytes ⟨⟩
      exact Nat.le_refl _
    have hbody : putBody f.retainBuffer (some payload) payload.length = payload :=
      List.take_length
    have hput := frameArqPut_accepted hacc hok.retain hok.fits hsize (by omega) t
    rw [FrameArqT.putFrame, hbody] at hput
    exact ⟨_, hput, rfl, List.take_left, rfl⟩
  · intro type _
    have hfits := controlFrame_fits 32768 type seq
    exact ⟨_, buildControlFrame_eq type seq, faWriteControl_spec type seq,
      libraryAccepts_encode hfits.length_lt hfits.marker_ge,
      sessionAccepts_encode hfits.length_le hfits.marker_ge⟩

theorem encoders_agree_one :
    letI : Build := build32
    let f := (Storage.zeroed 1 (by decide)).create
    (∃ bytes r, buildDataFrame 1 0 [7] = some bytes ∧
      frameArqPut .valid f 1 (some [7]) 1 ⟨[], [], []⟩ = some r ∧ r.transport.written = bytes ∧
      LibraryAccepts bytes ⟨129, 0, [7]⟩ ∧ SessionAccepts bytes ⟨129, 0, [7]⟩) ∧
    ∃ bytes, buildControlFrame typeAck 0 = some bytes ∧
      faWriteControl typeAck 0 ⟨[], [], []⟩ = some (success, ⟨[], [], bytes⟩) ∧
      LibraryAccepts bytes (controlFrame typeAck 0) ∧
      SessionAccepts bytes (controlFrame typeAck 0) := by
  let _ : Build := build32
  intro f
  have hreach : Reachable f :=
    ⟨Storage.zeroed 1 (by decide), ⟨[], [], []⟩, [], [], ⟨f, ⟨[], [], []⟩⟩, rfl, rfl⟩
  have hacc : Accepts f 1 [(7 : UInt8)].length := by decide +kernel
  obtain ⟨⟨bytes, fr, hbuild, hput, rfl, hlib, hsession, -⟩, hcontrol⟩ :=
    @encoders_agree _ 1 0 [7] (by decide) (by decide) (by decide) (by decide)
  obtain ⟨r, hr, -, -, hwrites⟩ := hput f ⟨[], [], []⟩ hreach hacc (by decide +kernel)
  obtain ⟨hret, htransport⟩ := Prod.mk.inj hwrites
  obtain ⟨-, hwritten, -⟩ := Transport.writeAll_ok bytes (t := ⟨[], [], []⟩) (.of_nil rfl)
  obtain ⟨ack, hack, hwrite, haccepts⟩ := hcontrol typeAck (.inl rfl)
  refine ⟨⟨bytes, r, hbuild, hr, htransport ▸ hwritten, hlib, hsession⟩, ack, hack, ?_, haccepts⟩
  have hbytes : ack = (controlFrame typeAck 0).encode :=
    Option.some.inj (hack.symm.trans (buildControlFrame_eq typeAck 0))
  rw [hbytes]
  decide +kernel

end HtcwFrameArq
