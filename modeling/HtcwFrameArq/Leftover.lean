import HtcwFrameArq.Soundness

/-!
# What is left in the retain buffer

Two endpoints with different histories put the same message. `leftover_iff` says when the same
bytes go out, in the put and in all resends of the frame: always, unless the payload pointer is
`NULL` and the size is not 0. Then put sends what the retain buffer held.
-/

namespace HtcwFrameArq

section

variable [Build]

/-- Calls other than reset, made one after the other as long as an ACK is awaited. -/
inductive WhileAwaiting : Endpoint → Endpoint → Prop where
  | refl (e : Endpoint) : WhileAwaiting e e
  | step {e e₁ e' : Endpoint} {c : Call} {o : Outcome} (hwait : e.frame.awaitingAck = true)
      (hc : c ≠ .reset) (hs : e.exec c = some (o, e₁)) (h : WhileAwaiting e₁ e') :
      WhileAwaiting e e'

/-- Two puts that showed `o₁` and `o₂` and left `e₁` and `e₂` write the same bytes, and so does
every resend of the frame that the callback takes. -/
def SameOnWire (o₁ : Outcome) (e₁ : Endpoint) (o₂ : Outcome) (e₂ : Endpoint) : Prop :=
  o₁.written = o₂.written ∧
    ∀ (k₁ k₂ : Endpoint) (q₁ q₂ : Outcome) (k₁' k₂' : Endpoint), WhileAwaiting e₁ k₁ →
      WhileAwaiting e₂ k₂ → k₁.frame.awaitingAck = true → k₂.frame.awaitingAck = true →
      k₁.exec .resend = some (q₁, k₁') → k₂.exec .resend = some (q₂, k₂') →
      q₁.ret = success → q₂.ret = success → q₁.written = q₂.written

variable {e e' : Endpoint} {o : Outcome}

/-- A call other than reset keeps the frame that is outstanding. -/
theorem Ok.keeps_retained {c : Call} (h : Ok e.frame) (hwait : e.frame.awaitingAck = true)
    (hc : c ≠ .reset) (hs : e.exec c = some (o, e')) :
    e'.frame.retainBuffer = e.frame.retainBuffer ∧
      e'.frame.retainLength = e.frame.retainLength := by
  obtain ⟨acc, hold, hp⟩ := h.rx
  obtain ⟨hcall, acc', hperf⟩ := h.performs hold hp hs
  cases hperf with
  | got hgot =>
    obtain ⟨_, ⟨_, _, _, rfl⟩, heq⟩ := hgot.frame
    rw [heq]
    exact ⟨rfl, rfl⟩
  | rejected => exact ⟨rfl, rfl⟩
  | accepted hacc =>
    rw [hacc.2.2.2] at hwait
    cases hwait
  | idle => exact ⟨rfl, rfl⟩
  | resent =>
    dsimp only
    split_ifs <;> exact ⟨rfl, rfl⟩
  | discarded => exact ⟨rfl, rfl⟩
  | restarted => exact absurd hcall.symm hc

theorem WhileAwaiting.retained (h : WhileAwaiting e e') (hok : Ok e.frame) :
    Ok e'.frame ∧ e'.frame.retainBuffer = e.frame.retainBuffer ∧
      e'.frame.retainLength = e.frame.retainLength := by
  induction h with
  | refl => exact ⟨hok, rfl, rfl⟩
  | step hwait hc hs hrest ih =>
    obtain ⟨hbuf, hlen⟩ := hok.keeps_retained hwait hc hs
    obtain ⟨hok', hbuf', hlen'⟩ := ih (hok.exec hs).1
    exact ⟨hok', hbuf'.trans hbuf, hlen'.trans hlen⟩

/-- A resend that returns success while an ACK is awaited writes the retained bytes. -/
theorem Ok.resend_written (h : Ok e.frame) (hwait : e.frame.awaitingAck = true)
    (hs : e.exec .resend = some (o, e')) (hret : o.ret = success) :
    o.written = e.frame.retainBuffer.take e.frame.retainLength := by
  obtain ⟨acc, hold, hp⟩ := h.rx
  obtain ⟨hcall, acc', hperf⟩ := h.performs hold hp hs
  rcases (hperf.of_resend hcall).2 with ⟨hidle, -⟩ | ⟨-, ret, written, t', hw, rfl, -⟩
  · rw [hidle] at hwait
    cases hwait
  · rcases hw.result with ⟨-, hall⟩ | hneg
    · exact hall
    · rw [show ret = success from hret] at hneg
      exact absurd hneg (by decide)

/-- What a put retains is what it writes. -/
theorem FrameArqT.sent_retained (f : FrameArqT) (fr : Frame) :
    (f.sent fr).retainBuffer.take (f.sent fr).retainLength = fr.encode :=
  List.take_left' rfl

/-- **Leftover data.** The same message is put on two endpoints in reachable states with the same
`tx_seq`, and both puts succeed. Then the same bytes go out, in the put and in all resends,
exactly when the payload is not `NULL`, or the size is 0, or the two retain buffers hold the same
bytes where the payload goes. -/
theorem leftover_iff {f g : FrameArqT} (hf : Reachable f) (hg : Reachable g)
    (hseq : f.txSeq = g.txSeq) {t u : Transport} {cmd : UInt8} {payload : Payload}
    {o₁ o₂ : Outcome} {e₁ e₂ : Endpoint}
    (h₁ : Endpoint.exec ⟨f, t⟩ (.put cmd payload) = some (o₁, e₁))
    (h₂ : Endpoint.exec ⟨g, u⟩ (.put cmd payload) = some (o₂, e₂))
    (hret₁ : o₁.ret = success) (hret₂ : o₂.ret = success) :
    SameOnWire o₁ e₁ o₂ e₂ ↔
      payload.pointer ≠ none ∨ payload.size = 0 ∨
        (f.retainBuffer.drop 17).take payload.size =
          (g.retainBuffer.drop 17).take payload.size := by
  obtain ⟨-, hw₁, he₁⟩ := Ok.put_success (e := ⟨f, t⟩) hf.ok h₁ hret₁
  obtain ⟨-, hw₂, he₂⟩ := Ok.put_success (e := ⟨g, u⟩) hg.ok h₂ hret₂
  have hok₁ : Ok e₁.frame := (Ok.exec (e := ⟨f, t⟩) hf.ok h₁).1
  have hok₂ : Ok e₂.frame := (Ok.exec (e := ⟨g, u⟩) hg.ok h₂).1
  have hnext : f.nextSeq = g.nextSeq := by rw [FrameArqT.nextSeq, FrameArqT.nextSeq, hseq]
  -- with the same number, the frames differ only in what follows the header
  have hbody : o₁.written = o₂.written ↔
      putBody f.retainBuffer payload.pointer payload.size =
        putBody g.retainBuffer payload.pointer payload.size := by
    rw [hw₁, hw₂]
    constructor
    · intro h
      exact congrArg Frame.payload (encode_injective h)
    · intro h
      rw [FrameArqT.putFrame, FrameArqT.putFrame]
      exact congrArg Frame.encode (by rw [h, hnext])
  -- resends write what the put retained
  have hwire : SameOnWire o₁ e₁ o₂ e₂ ↔ o₁.written = o₂.written := by
    refine ⟨And.left, fun hsame => ⟨hsame, ?_⟩⟩
    intro k₁ k₂ q₁ q₂ k₁' k₂' hlater₁ hlater₂ hwait₁ hwait₂ hs₁ hs₂ hq₁ hq₂
    obtain ⟨hk₁, hbuf₁, hlen₁⟩ := hlater₁.retained hok₁
    obtain ⟨hk₂, hbuf₂, hlen₂⟩ := hlater₂.retained hok₂
    rw [hk₁.resend_written hwait₁ hs₁ hq₁, hk₂.resend_written hwait₂ hs₂ hq₂, hbuf₁, hlen₁,
      hbuf₂, hlen₂, he₁, he₂, FrameArqT.sent_retained, FrameArqT.sent_retained, ← hw₁, ← hw₂,
      hsame]
  rw [hwire, hbody, putBody_eq_iff]

end

/-- A run that sends a message in a session before a reset. -/
def usedEndpoint [Build] (fits : 1 + 17 < 2 ^ Build.sizeBits) : Option (List Outcome × Endpoint) :=
  Endpoint.run ⟨(Storage.zeroed 1 fits).create, ⟨[], [], []⟩⟩ [.put 1 (.bytes [7]), .reset]

theorem leftover_iff_one :
    letI : Build := build32
    let f := (Storage.zeroed 1 (by decide)).create
    ∃ outs e o₁ e₁ o₂ e₂, usedEndpoint (by decide) = some (outs, e) ∧
      Endpoint.exec ⟨f, ⟨[], [], []⟩⟩ (.put 1 (.bytes [9])) = some (o₁, e₁) ∧
      Endpoint.exec ⟨e.frame, ⟨[], [], []⟩⟩ (.put 1 (.bytes [9])) = some (o₂, e₂) ∧
      SameOnWire o₁ e₁ o₂ e₂ := by
  let _ : Build := build32
  intro f
  have hruns : ((usedEndpoint (by decide)).bind fun r =>
      (Endpoint.exec ⟨f, ⟨[], [], []⟩⟩ (.put 1 (.bytes [9]))).bind fun p =>
        (Endpoint.exec ⟨r.2.frame, ⟨[], [], []⟩⟩ (.put 1 (.bytes [9]))).map fun q =>
          decide (f.txSeq = r.2.frame.txSeq ∧ p.1.ret = success ∧ q.1.ret = success)) =
      some true := by
    decide +kernel
  obtain ⟨⟨outs, e⟩, hrun, hputs⟩ := Option.bind_eq_some_iff.mp hruns
  obtain ⟨⟨o₁, e₁⟩, h₁, hput⟩ := Option.bind_eq_some_iff.mp hputs
  obtain ⟨⟨o₂, e₂⟩, h₂, hall⟩ := Option.map_eq_some_iff.mp hput
  obtain ⟨hseq, hret₁, hret₂⟩ := of_decide_eq_true hall
  have hf : Reachable f :=
    ⟨Storage.zeroed 1 (by decide), ⟨[], [], []⟩, [], [], ⟨f, ⟨[], [], []⟩⟩, rfl, rfl⟩
  have hg : Reachable e.frame := ⟨Storage.zeroed 1 (by decide), ⟨[], [], []⟩, _, outs, e, hrun, rfl⟩
  exact ⟨outs, e, o₁, e₁, o₂, e₂, hrun, h₁, h₂,
    (leftover_iff hf hg hseq h₁ h₂ hret₁ hret₂).mpr (Or.inl (by simp [Payload.pointer]))⟩

/-- Behind a `NULL` pointer put sends a byte of a message from before the reset. -/
theorem leftover_sent :
    letI : Build := build32
    let f := (Storage.zeroed 1 (by decide)).create
    ∃ outs e o₁ e₁ o₂ e₂, usedEndpoint (by decide) = some (outs, e) ∧
      Reachable f ∧ Reachable e.frame ∧ f.payloadMaxSize = e.frame.payloadMaxSize ∧
      f.txSeq = e.frame.txSeq ∧ f.awaitingAck = false ∧ e.frame.awaitingAck = false ∧
      Endpoint.exec ⟨f, ⟨[], [], []⟩⟩ (.put 1 (.null 1)) = some (o₁, e₁) ∧
      Endpoint.exec ⟨e.frame, ⟨[], [], []⟩⟩ (.put 1 (.null 1)) = some (o₂, e₂) ∧
      o₁.ret = success ∧ o₂.ret = success ∧ o₂.written = (dataFrame 1 0 [7]).encode ∧
      ¬ SameOnWire o₁ e₁ o₂ e₂ := by
  let _ : Build := build32
  intro f
  have hruns : ((usedEndpoint (by decide)).bind fun r =>
      (Endpoint.exec ⟨f, ⟨[], [], []⟩⟩ (.put 1 (.null 1))).bind fun p =>
        (Endpoint.exec ⟨r.2.frame, ⟨[], [], []⟩⟩ (.put 1 (.null 1))).map fun q =>
          decide (f.payloadMaxSize = r.2.frame.payloadMaxSize ∧ f.txSeq = r.2.frame.txSeq ∧
            r.2.frame.awaitingAck = false ∧ p.1.ret = success ∧ q.1.ret = success ∧
            q.1.written = (dataFrame 1 0 [7]).encode ∧ p.1.written ≠ q.1.written)) =
      some true := by
    decide +kernel
  obtain ⟨⟨outs, e⟩, hrun, hputs⟩ := Option.bind_eq_some_iff.mp hruns
  obtain ⟨⟨o₁, e₁⟩, h₁, hput⟩ := Option.bind_eq_some_iff.mp hputs
  obtain ⟨⟨o₂, e₂⟩, h₂, hall⟩ := Option.map_eq_some_iff.mp hput
  obtain ⟨hmax, hseq, hidle, hret₁, hret₂, hwritten, hne⟩ := of_decide_eq_true hall
  exact ⟨outs, e, o₁, e₁, o₂, e₂, hrun,
    ⟨Storage.zeroed 1 (by decide), ⟨[], [], []⟩, [], [], ⟨f, ⟨[], [], []⟩⟩, rfl, rfl⟩,
    ⟨Storage.zeroed 1 (by decide), ⟨[], [], []⟩, _, outs, e, hrun, rfl⟩, hmax, hseq, rfl, hidle,
    h₁, h₂, hret₁, hret₂, hwritten, fun h => hne h.1⟩

end HtcwFrameArq
