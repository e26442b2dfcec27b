import HtcwFrameArq.Soundness

/-!
# The sender is a stop-and-wait machine

What the sending half of an endpoint is for, on its own terms: a machine that is idle or has
one frame outstanding, and counts the messages it accepted (`Sender`). `Sender.Step` says
what each call may show in a state and where it leads; nothing in it mentions a buffer, a
flag or a counter of the C struct.

`sender_simulates` connects it to the code: along every run the fields of the controller
represent (`Represents`) the state of the machine, which takes one step for each call.
-/

namespace HtcwFrameArq

open Memory Runs

/-! ## The abstract machine -/

/-- Idle, or a frame that awaits its ACK: its bytes, its sequence number, and whether a NACK
was seen since it was last sent. -/
inductive SenderState : Type where
  | idle : SenderState
  | outstanding (bytes : List UInt8) (seq : UInt8) (nackSeen : Bool) : SenderState
  deriving DecidableEq

/-- The state, and the number of messages accepted so far. -/
structure Sender where
  state : SenderState
  count : ℕ
  deriving DecidableEq

/-- The payload of a put whose pointer is not `NULL`, or whose size is 0. -/
def Payload.data : Payload → List UInt8
  | .null _ => []
  | .bytes data => data

namespace Sender

/-- The messages the machine accepts in state `s`. -/
def Accepts (M : ℕ) (s : Sender) (cmd : UInt8) (payload : Payload) : Prop :=
  1 ≤ cmd ∧ cmd ≤ 127 ∧ payload.size ≤ M ∧ s.state = .idle

/-- A frame that `get` shows to the sender: an ACK of the outstanding frame. -/
def Acks (s : Sender) (fr : Frame) : Prop :=
  ∃ bytes nackSeen, s.state = .outstanding bytes (faSeqOf fr.seqByte) nackSeen ∧
    faTypeOf fr.seqByte = faTypeAck

/-- A frame that `get` shows to the sender: a NACK while a frame is outstanding. -/
def Nacks (s : Sender) (fr : Frame) : Prop :=
  s.state ≠ .idle ∧ faTypeOf fr.seqByte = faTypeNack

/-- One call: the state before it, what it shows, the state after it. -/
inductive Step [Build] (M : ℕ) : Sender → Outcome → Sender → Prop where
  /-- the frame becomes outstanding, even if the transport refuses it in the middle -/
  | accepted {s : Sender} {cmd payload ret written} (hacc : s.Accepts M cmd payload)
      (hpre : written <+: (dataFrame cmd (seqOf s.count) payload.data).encode)
      (hret : ret = success ∧
        written = (dataFrame cmd (seqOf s.count) payload.data).encode ∨ ret < 0) :
      Step M s ⟨.put cmd payload, ret, none, none, [], written⟩
        ⟨.outstanding (dataFrame cmd (seqOf s.count) payload.data).encode (seqOf s.count)
          false, s.count + 1⟩
  | rejected {s : Sender} {cmd payload ret} (hnot : ¬ s.Accepts M cmd payload)
      (hret : ret < 0) : Step M s ⟨.put cmd payload, ret, none, none, [], []⟩ s
  | nothingToResend {count} :
      Step M ⟨.idle, count⟩ ⟨.resend, success, none, none, [], []⟩ ⟨.idle, count⟩
  | resent {bytes seq nackSeen count} :
      Step M ⟨.outstanding bytes seq nackSeen, count⟩
        ⟨.resend, success, none, none, [], bytes⟩ ⟨.outstanding bytes seq false, count⟩
  | resendFailed {bytes seq nackSeen count ret written} (hpre : written <+: bytes)
      (hret : ret < 0) :
      Step M ⟨.outstanding bytes seq nackSeen, count⟩
        ⟨.resend, ret, none, none, [], written⟩ ⟨.outstanding bytes seq nackSeen, count⟩
  | acked {s : Sender} {o fr} (hcall : o.call = .get) (hrecv : o.received = some fr)
      (hacks : s.Acks fr) : Step M s o ⟨.idle, s.count⟩
  | nacked {bytes seq nackSeen count o fr} (hcall : o.call = .get)
      (hrecv : o.received = some fr) (htype : faTypeOf fr.seqByte = faTypeNack)
      (hret : o.ret = resendNeededCode) :
      Step M ⟨.outstanding bytes seq nackSeen, count⟩ o ⟨.outstanding bytes seq true, count⟩
  | unaffected {s : Sender} {o} (hcall : o.call = .get)
      (hquiet : ∀ fr, o.received = some fr → ¬ s.Acks fr ∧ ¬ s.Nacks fr)
      (hret : o.ret ≠ resendNeededCode) : Step M s o s
  | discarded {s : Sender} : Step M s ⟨.discard, success, none, none, [], []⟩ s

/-- The machine over the outcomes of a run. -/
inductive Run [Build] (M : ℕ) (s : Sender) : List Outcome → Sender → Prop where
  | nil : Run M s [] s
  | concat {outs o s' s''} (h : Run M s outs s') (hs : Step M s' o s'') :
      Run M s (outs ++ [o]) s''

end Sender

/-! ## The fields that represent it -/

/-- The sender's fields of a controller represent the state of the machine. -/
structure Represents (f : FrameArqT) (s : Sender) : Prop where
  next : f.nextSeq = seqOf s.count
  idle : s.state = .idle → f.awaitingAck = false ∧ f.resendNeeded = false
  outstanding : ∀ bytes seq nackSeen, s.state = .outstanding bytes seq nackSeen →
    f.awaitingAck = true ∧ f.resendNeeded = nackSeen ∧ f.txSeq = seq ∧
      f.retainBuffer.take f.retainLength = bytes

/-- A call of the sender simulated here: no reset, and a payload pointer that is not `NULL`
unless the size is 0. -/
def Call.Regular : Call → Prop
  | .reset => False
  | .put _ (.null n) => n = 0
  | _ => True

theorem Begins.represents [Build] {f : FrameArqT} (h : Begins f) :
    Represents f ⟨.idle, 0⟩ := by
  obtain ⟨-, -, harq⟩ := h.spec
  have htx : f.txSeq = faSeqMask := congrArg Arq.txSeq harq
  refine ⟨?_, fun _ => ⟨congrArg Arq.awaitingAck harq, congrArg Arq.resendNeeded harq⟩,
    fun _ _ _ h => by cases h⟩
  rw [FrameArqT.nextSeq, htx]
  rfl

theorem Represents.idle_iff {f : FrameArqT} {s : Sender} (h : Represents f s) :
    s.state = .idle ↔ f.awaitingAck = false := by
  refine ⟨fun hs => (h.idle hs).1, ?_⟩
  intro hidle
  rcases hs : s.state with _ | ⟨bytes, seq, nackSeen⟩
  · rfl
  · have := (h.outstanding _ _ _ hs).1
    rw [hidle] at this
    cases this

theorem Represents.accepts_iff {f : FrameArqT} {s : Sender} (h : Represents f s)
    (cmd : UInt8) (payload : Payload) :
    s.Accepts f.payloadMaxSize cmd payload ↔ Accepts f cmd payload.size := by
  rw [Sender.Accepts, Accepts, h.idle_iff]

theorem Represents.exists_outstanding {f : FrameArqT} {s : Sender} (h : Represents f s)
    (hwait : f.awaitingAck = true) :
    s = ⟨.outstanding (f.retainBuffer.take f.retainLength) f.txSeq f.resendNeeded, s.count⟩ := by
  obtain ⟨state, count⟩ := s
  rcases state with _ | ⟨bytes, seq, nackSeen⟩
  · have := (h.idle rfl).1
    rw [hwait] at this
    cases this
  · obtain ⟨-, rfl, rfl, rfl⟩ := h.outstanding _ _ _ rfl
    rfl

/-- A regular put sends the data of its payload. -/
theorem putBody_eq_data {cmd : UInt8} {payload : Payload} (h : (Call.put cmd payload).Regular)
    (p : List UInt8) : putBody p payload.pointer payload.size = payload.data := by
  cases payload with
  | null n =>
    obtain rfl : n = 0 := h
    simp [Payload.pointer, Payload.size, Payload.data, putBody]
  | bytes data => simp [Payload.pointer, Payload.size, Payload.data, putBody]

theorem Represents.putFrame_eq [Build] {f : FrameArqT} {s : Sender} (h : Represents f s)
    {cmd : UInt8} {payload : Payload} (hc : (Call.put cmd payload).Regular) :
    f.putFrame cmd payload.pointer payload.size =
      dataFrame cmd (seqOf s.count) payload.data := by
  rw [FrameArqT.putFrame, putBody_eq_data hc, h.next]

/-- The write callback took the bytes that `o` shows as written and refused the next one of
`bytes`; what it answered to that byte is what the call returned. -/
def Outcome.Refused (o : Outcome) (t : Transport) (bytes : List UInt8) : Prop :=
  (∃ b, o.written ++ [b] <+: bytes) ∧ t.results[o.written.length]? = some o.ret

/-! ## One call is one step -/

section

variable [Build] {e e' : Endpoint} {s : Sender} {acc acc' : List UInt8} {o : Outcome}

omit [Build] in
/-- A DATA frame is neither an ACK nor a NACK. -/
theorem Frame.IsData.not_acks {fr : Frame} (h : fr.IsData) (s : Sender) :
    ¬ s.Acks fr ∧ ¬ s.Nacks fr := by
  refine ⟨?_, ?_⟩
  · rintro ⟨_, _, -, hack⟩
    exact absurd (h.2.symm.trans hack) (by decide)
  · rintro ⟨-, hnack⟩
    exact absurd (h.2.symm.trans hnack) (by decide)

/-- A call of get whose reaction leaves the sender's fields alone is no event of the
machine. -/
theorem Represents.quiet {found : Option RxEvent} (h : Represents e.frame s)
    (hgot : Got e acc found acc' o e')
    (hret : (e.frame.arq.react found).ret ≠ resendNeededCode)
    (hquiet : ∀ fr, o.received = some fr → ¬ s.Acks fr ∧ ¬ s.Nacks fr)
    (htx : (e.frame.arq.react found).arq.txSeq = e.frame.txSeq)
    (hwait : (e.frame.arq.react found).arq.awaitingAck = e.frame.awaitingAck)
    (hres : (e.frame.arq.react found).arq.resendNeeded = e.frame.resendNeeded) :
    ∃ s', s.Step e.frame.payloadMaxSize o s' ∧ Represents e'.frame s' := by
  obtain ⟨_, ⟨_, _, _, rfl⟩, hframe⟩ := hgot.frame
  refine ⟨s, .unaffected hgot.call hquiet (by rw [hgot.ret]; exact hret), ?_⟩
  rw [hframe]
  refine ⟨?_, ?_, ?_⟩
  · rw [← h.next]
    exact congrArg (fun seq => (seq + 1) &&& faSeqMask) htx
  · intro hs
    obtain ⟨h₁, h₂⟩ := h.idle hs
    exact ⟨hwait.trans h₁, hres.trans h₂⟩
  · intro bytes seq nackSeen hs
    obtain ⟨h₁, h₂, h₃, h₄⟩ := h.outstanding _ _ _ hs
    exact ⟨hwait.trans h₁, hres.trans h₂, htx.trans h₃, h₄⟩

/-- A call of get that receives a frame is a step of the machine. -/
theorem Represents.handled {fr : Frame} (h : Represents e.frame s)
    (hp : Pending e.frame.payloadMaxSize acc)
    (hgot : Got e acc (some (.frame fr)) acc' o e') :
    ∃ s', s.Step e.frame.payloadMaxSize o s' ∧ Represents e'.frame s' := by
  have hmark : 128 ≤ fr.marker.toNat :=
    UInt8.le_iff_toNat_le.mp (hgot.fits hp fr rfl).marker_ge
  have hrecv : o.received = some fr := hgot.received
  have hret : o.ret = (e.frame.arq.handle fr).ret := hgot.ret
  have hreact : e.frame.arq.react (some (.frame fr)) = e.frame.arq.handle fr := rfl
  obtain ⟨_, ⟨_, _, _, rfl⟩, hframe⟩ := hgot.frame
  -- what is no ACK and no NACK for the machine leaves its state
  have same := h.quiet hgot
  have hcases := e.frame.arq.handles fr
  rw [hreact] at hframe same
  generalize e.frame.arq.handle fr = r at hcases hret hframe same
  have quiet (hno : ¬ s.Acks fr ∧ ¬ s.Nacks fr) :
      ∀ g, o.received = some g → ¬ s.Acks g ∧ ¬ s.Nacks g := by
    intro g hg
    obtain rfl := Option.some.inj (hrecv.symm.trans hg)
    exact hno
  have hne : success ≠ resendNeededCode := by decide
  cases hcases with
  | acked hack hwait hseq =>
    have hacks : s.Acks fr := by
      rw [h.exists_outstanding hwait]
      exact ⟨_, _, by rw [hseq]; rfl, hack⟩
    refine ⟨⟨.idle, s.count⟩, .acked hgot.call hrecv hacks, ?_⟩
    rw [hframe]
    refine ⟨h.next, fun _ => ⟨rfl, rfl⟩, ?_⟩
    rintro _ _ _ ⟨⟩
  | nacked hnack hwait =>
    rw [h.exists_outstanding hwait]
    refine ⟨_, .nacked hgot.call hrecv hnack hret, ?_⟩
    rw [hframe]
    refine ⟨h.next, ?_, ?_⟩
    · rintro ⟨⟩
    · rintro _ _ _ ⟨⟩
      exact ⟨hwait, rfl, rfl, rfl⟩
  | ignored hctrl hack hnack =>
    refine same hne (quiet ⟨?_, ?_⟩) rfl rfl rfl
    · rintro ⟨bytes, nackSeen, hs, htype⟩
      obtain ⟨hwait, -, htx, -⟩ := h.outstanding _ _ _ hs
      exact hack ⟨htype, hwait, htx.symm⟩
    · rintro ⟨hne, htype⟩
      exact hnack ⟨htype, Bool.eq_true_of_not_eq_false (mt h.idle_iff.mpr hne)⟩
  | delivered hdata =>
    refine same ?_ (quiet (hdata.not_acks s)) rfl rfl rfl
    simp only [resendNeededCode]
    omega
  | duplicate hdata => exact same hne (quiet (hdata.not_acks s)) rfl rfl rfl
  | unexpected hdata => exact same hne (quiet (hdata.not_acks s)) rfl rfl rfl

/-- A call of get is a step of the machine. -/
theorem Represents.got {found : Option RxEvent} (h : Represents e.frame s)
    (hp : Pending e.frame.payloadMaxSize acc) (hgot : Got e acc found acc' o e') :
    ∃ s', s.Step e.frame.payloadMaxSize o s' ∧ Represents e'.frame s' := by
  obtain _ | ev := found
  · have hnone : o.received = none := hgot.received
    exact h.quiet hgot (show success ≠ _ by decide) (by simp [hnone]) rfl rfl rfl
  · cases ev with
    | crcError =>
      have hnone : o.received = none := hgot.received
      exact h.quiet hgot (show errorCrc ≠ _ by decide) (by simp [hnone]) rfl rfl rfl
    | overflow =>
      have hnone : o.received = none := hgot.received
      exact h.quiet hgot (show errorOverflow ≠ _ by decide) (by simp [hnone]) rfl rfl rfl
    | frame fr => exact h.handled hp hgot

/-- **One call** of a regular caller is a step of the machine. -/
theorem Represents.step {c : Call} (h : Represents e.frame s) (hok : Ok e.frame)
    (hc : c.Regular) (hs : e.exec c = some (o, e')) :
    ∃ s', s.Step e.frame.payloadMaxSize o s' ∧ Represents e'.frame s' := by
  obtain ⟨acc, hold, hp⟩ := hok.rx
  obtain ⟨rfl, acc', hperf⟩ := hok.performs hold hp hs
  cases hperf with
  | got hgot => exact h.got hp hgot
  | @rejected cmd payload ret hnot hret =>
    refine ⟨s, .rejected (mt (h.accepts_iff cmd payload).mp hnot) ?_, h⟩
    rcases hret with rfl | rfl | rfl <;> decide
  | @accepted cmd payload ret written t' hacc hw =>
    have hfr := h.putFrame_eq hc
    rw [hfr] at hw
    refine ⟨_, .accepted ((h.accepts_iff cmd payload).mpr hacc) hw.pre hw.result, ?_⟩
    refine ⟨?_, fun hs => (by cases hs), ?_⟩
    · show (e.frame.nextSeq + 1) &&& faSeqMask = _
      rw [h.next, seqOf_succ]
    · rintro _ _ _ ⟨⟩
      refine ⟨rfl, rfl, h.next, ?_⟩
      rw [hfr]
      exact List.take_left
  | idle hidle =>
    obtain ⟨state, count⟩ := s
    obtain rfl : state = .idle := h.idle_iff.mpr hidle
    exact ⟨_, .nothingToResend, h.next, fun _ => ⟨hidle, rfl⟩, fun _ _ _ hs => by cases hs⟩
  | @resent ret written t' hwait hw =>
    have hs := h.exists_outstanding hwait
    rw [hs]
    -- the flag is cleared only if every byte was taken
    rcases hw.result with ⟨rfl, rfl⟩ | hret
    · refine ⟨_, .resent, ?_⟩
      dsimp only
      rw [if_neg (by decide)]
      refine ⟨h.next, fun hs => (by cases hs), ?_⟩
      rintro _ _ _ ⟨⟩
      exact ⟨hwait, rfl, rfl, rfl⟩
    · refine ⟨_, .resendFailed hw.pre hret, ?_⟩
      dsimp only
      rw [if_pos hret, ← hs]
      exact h
  | discarded => exact ⟨s, .discarded, h.next, h.idle, h.outstanding⟩
  | restarted => exact absurd hc id

/-- What the code leaves alone: a rejected put the whole endpoint, a failing resend the
controller. -/
theorem unchanged_of_exec {c : Call} (hok : Ok e.frame) (hs : e.exec c = some (o, e')) :
    (∀ cmd payload, c = .put cmd payload → ¬ Accepts e.frame cmd payload.size → e' = e) ∧
      (c = .resend → o.ret ≠ success → e'.frame = e.frame) := by
  obtain ⟨acc, hold, hp⟩ := hok.rx
  obtain ⟨rfl, acc', hperf⟩ := hok.performs hold hp hs
  refine ⟨?_, ?_⟩
  · intro cmd payload hc hnot
    rcases hperf.of_put hc with ⟨-, rfl, -⟩ | ⟨hacc, -⟩
    · rfl
    · exact absurd hacc hnot
  · intro hc hret
    obtain ⟨-, ⟨-, rfl, -⟩ | ⟨-, ret, written, t', hw, rfl, rfl⟩⟩ := hperf.of_resend hc
    · exact absurd rfl hret
    · rcases hw.result with ⟨hok, -⟩ | hneg
      · exact absurd hok hret
      · exact if_pos hneg

/-- The value with which a put or a resend fails is the one with which a byte was refused. -/
theorem refused_of_exec {c : Call} (hok : Ok e.frame) (hs : e.exec c = some (o, e'))
    (hret : o.ret ≠ success) :
    (∀ cmd payload, c = .put cmd payload → Accepts e.frame cmd payload.size →
      o.Refused e.transport (e.frame.putFrame cmd payload.pointer payload.size).encode) ∧
      (c = .resend → e.frame.awaitingAck = true ∧
        o.Refused e.transport (e.frame.retainBuffer.take e.frame.retainLength)) := by
  obtain ⟨acc, hold, hp⟩ := hok.rx
  obtain ⟨rfl, acc', hperf⟩ := hok.performs hold hp hs
  refine ⟨?_, ?_⟩
  · intro cmd payload hc hacc
    rcases hperf.of_put hc with ⟨hnot, -⟩ | ⟨-, -, ret, written, t', hw, rfl, -⟩
    · exact absurd hacc hnot
    · rcases hw.result with ⟨hsent, -⟩ | hneg
      · exact absurd hsent hret
      · exact hw.refused hneg
  · intro hc
    obtain ⟨-, ⟨-, rfl, -⟩ | ⟨hwait, ret, written, t', hw, rfl, -⟩⟩ := hperf.of_resend hc
    · exact absurd rfl hret
    · rcases hw.result with ⟨hsent, -⟩ | hneg
      · exact absurd hsent hret
      · exact ⟨hwait, hw.refused hneg⟩

end

/-! ## Runs -/

/-- After a run that showed `outs`, the controller represents the state of the machine. -/
structure Simulates [Build] (M : ℕ) (outs : List Outcome) (f : FrameArqT) (s : Sender) :
    Prop where
  ok : Ok f
  max : f.payloadMaxSize = M
  run : Sender.Run M ⟨.idle, 0⟩ outs s
  represents : Represents f s

theorem Simulates.step [Build] {M : ℕ} {outs : List Outcome} {e e' : Endpoint} {s : Sender}
    {c : Call} {o : Outcome} (h : Simulates M outs e.frame s) (hc : c.Regular)
    (hs : e.exec c = some (o, e')) :
    ∃ s', s.Step M o s' ∧ Simulates M (outs ++ [o]) e'.frame s' := by
  obtain ⟨s', hstep, hrep⟩ := h.represents.step h.ok hc hs
  obtain ⟨hok, hmax⟩ := h.ok.exec hs
  rw [h.max] at hstep hmax
  exact ⟨s', hstep, hok, hmax, .concat h.run hstep, hrep⟩

/-- **The sender is a stop-and-wait machine.** Every run of regular calls is a run of the
machine, and in the state it reaches every further regular call is one step: it shows what
the machine allows, a put that is not accepted changes nothing at all, and a resend that
fails leaves the controller as it was. An accepted put and a resend fail with what the write
callback answered to the byte it refused. -/
theorem sender_simulates [Build] {f : FrameArqT} (hbegin : Begins f)
    (hint : f.payloadMaxSize + 17 < 2 ^ 31) (t : Transport) (calls : List Call)
    (hcalls : ∀ c ∈ calls, c.Regular) :
    ∃ outs e s, Endpoint.run ⟨f, t⟩ calls = some (outs, e) ∧
      Sender.Run f.payloadMaxSize ⟨.idle, 0⟩ outs s ∧ Represents e.frame s ∧
      ∀ c : Call, c.Regular → ∃ o e' s', e.exec c = some (o, e') ∧ o.call = c ∧
        s.Step f.payloadMaxSize o s' ∧ Represents e'.frame s' ∧
        (∀ cmd payload, c = .put cmd payload → ¬ s.Accepts f.payloadMaxSize cmd payload →
          e' = e) ∧
        (∀ cmd payload, c = .put cmd payload → s.Accepts f.payloadMaxSize cmd payload →
          o.ret ≠ success →
            o.Refused e.transport (dataFrame cmd (seqOf s.count) payload.data).encode) ∧
        (c = .resend → o.ret ≠ success → e'.frame = e.frame ∧ ∃ bytes seq nackSeen,
          s.state = .outstanding bytes seq nackSeen ∧ o.Refused e.transport bytes) := by
  have hok : Ok f := hbegin.spec.1
  obtain ⟨outs, e, hrun, -, -⟩ := Ok.run (e := ⟨f, t⟩) hok hint calls
  obtain ⟨s, hsim⟩ := run_invariant (h := [])
    (P := fun outs k => ∃ s, Simulates f.payloadMaxSize outs k.frame s)
    (fun ⟨s, hsim⟩ hc hs => (hsim.step hc hs).imp fun _ h => h.2)
    ⟨⟨.idle, 0⟩, hok, rfl, .nil, hbegin.represents⟩ hcalls hrun
  refine ⟨outs, e, s, hrun, hsim.run, hsim.represents, ?_⟩
  intro c hc
  obtain ⟨r, hr⟩ := perform_isSome_of_max hsim.ok (by rw [hsim.max]; exact hint) c
  have hs := Endpoint.exec_of_perform hr
  obtain ⟨s', hstep, hsim'⟩ := hsim.step hc hs
  obtain ⟨hput, hresend⟩ := unchanged_of_exec hsim.ok hs
  have hiff := hsim.represents.accepts_iff
  rw [hsim.max] at hiff
  refine ⟨_, _, s', hs, rfl, hstep, hsim'.represents, ?_, ?_, ?_⟩
  · intro cmd payload hcall hnot
    exact hput cmd payload hcall (mt (hiff cmd payload).mpr hnot)
  · rintro cmd payload rfl hacc hret
    rw [← hsim.represents.putFrame_eq hc]
    exact (refused_of_exec hsim.ok hs hret).1 cmd payload rfl ((hiff cmd payload).mp hacc)
  · intro hcall hret
    obtain ⟨hwait, hrefused⟩ := (refused_of_exec hsim.ok hs hret).2 hcall
    have hstate := congrArg Sender.state (hsim.represents.exists_outstanding hwait)
    exact ⟨hresend hcall hret, _, _, _, hstate, hrefused⟩

theorem sender_simulates_one :
    letI : Build := build32
    let f := (Storage.zeroed 1 (by decide)).create
    let t : Transport := ⟨(controlFrame faTypeAck 0).encode.map some, [0, 0, -1], []⟩
    ∃ outs e s, Endpoint.run ⟨f, t⟩ [.put 1 (.bytes [7]), .resend, .get] = some (outs, e) ∧
      Sender.Run 1 ⟨.idle, 0⟩ outs s ∧ Represents e.frame s ∧
      ∀ c : Call, c.Regular → ∃ o e' s', e.exec c = some (o, e') ∧ o.call = c ∧
        s.Step 1 o s' ∧ Represents e'.frame s' ∧
        (∀ cmd payload, c = .put cmd payload → ¬ s.Accepts 1 cmd payload → e' = e) ∧
        (∀ cmd payload, c = .put cmd payload → s.Accepts 1 cmd payload → o.ret ≠ success →
          o.Refused e.transport (dataFrame cmd (seqOf s.count) payload.data).encode) ∧
        (c = .resend → o.ret ≠ success → e'.frame = e.frame ∧ ∃ bytes seq nackSeen,
          s.state = .outstanding bytes seq nackSeen ∧ o.Refused e.transport bytes) :=
  letI : Build := build32
  sender_simulates (.created (Storage.zeroed 1 (by decide))) (by decide) _ _
    (by simp [Call.Regular])

end HtcwFrameArq
