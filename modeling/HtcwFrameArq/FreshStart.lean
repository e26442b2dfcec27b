import HtcwFrameArq.ReturnCodes

/-!
# A reset is a fresh start

`frame_arq_reset` leaves `start` and both buffers as they are, so the controller is not the one
that `frame_arq_create` returns. No call can tell: `Alike` is what two controllers have to have
in common for that, every call keeps it and answers alike (`Alike.answer`), and so does every
run (`reset_fresh`).
-/

namespace HtcwFrameArq

open Runs

/-! ## What a caller can ask -/

/-- A call of the API on a controller that exists. -/
inductive Request : Type where
  | api (c : ApiCall) : Request
  | discard (handle : Ptr) : Request
  | reset (handle : Ptr) : Request
  | awaitingAck (handle : Ptr) : Request
  | resendNeeded (handle : Ptr) : Request
  deriving DecidableEq

/-- The payload of a put is not `NULL`, unless there is none. -/
def Request.Proper : Request → Prop
  | api (.put _ _ payload) => 0 < payload.size → payload.pointer ≠ none
  | _ => True

/-- What a call returns: an `int`, or the `bool` of the two observers. -/
inductive Returned : Type where
  | code : Int → Returned
  | flag : Bool → Returned
  deriving DecidableEq

/-- What a call shows: the returned value, the payload it delivers, the bytes it writes. -/
structure Answer where
  returned : Returned
  out : Option (List UInt8)
  written : List UInt8
  deriving DecidableEq

namespace Endpoint

/-- The answer and the endpoint that a result means. -/
def showing (e : Endpoint) (r : Result) : Answer × Endpoint :=
  (⟨.code r.ret, r.out, writtenBetween e.transport r.transport⟩, ⟨r.frame, r.transport⟩)

/-- Answer a request. -/
def answer [Build] (e : Endpoint) : Request → Option (Answer × Endpoint)
  | .api c => (c.perform e.frame e.transport).map e.showing
  | .discard handle => some (e.showing (frameArqDiscard handle e.frame e.transport))
  | .reset handle => some (e.showing (frameArqReset handle e.frame e.transport))
  | .awaitingAck handle => some (⟨.flag (frameArqAwaitingAck handle e.frame), none, []⟩, e)
  | .resendNeeded handle => some (⟨.flag (frameArqResendNeeded handle e.frame), none, []⟩, e)

end Endpoint

/-! ## Controllers that are alike -/

/-- What matters of two controllers is the same: the maximum, the ARQ fields, the bytes
assembled and the frame that awaits its ACK. No frame is too long for the `int` counter of
`frame_arq_put`. -/
structure Alike [Build] (f g : FrameArqT) : Prop where
  left : Ok f
  right : Ok g
  max : g.payloadMaxSize = f.payloadMaxSize
  small : f.payloadMaxSize + 17 < 2 ^ 31
  arq : g.arq = f.arq
  assembled : ∃ acc, Holds f acc ∧ Holds g acc ∧ Pending f.payloadMaxSize acc
  outstanding : f.awaitingAck = true →
    g.retainBuffer.take g.retainLength = f.retainBuffer.take f.retainLength

/-- Two results that no caller can tell apart. -/
structure AlikeResult [Build] (r r' : Result) : Prop where
  ret : r'.ret = r.ret
  out : r'.out = r.out
  transport : r'.transport = r.transport
  frame : Alike r.frame r'.frame

section

variable [Build] {f g : FrameArqT}

theorem Alike.awaitingAck (h : Alike f g) : g.awaitingAck = f.awaitingAck :=
  congrArg Arq.awaitingAck h.arq

theorem Alike.accepts (h : Alike f g) {cmd : UInt8} {size : ℕ} :
    Accepts g cmd size ↔ Accepts f cmd size := by
  unfold Accepts
  rw [h.max, h.awaitingAck]

omit [Build] in
/-- The parser's fields aside, a call of get leaves the ARQ fields and the retained frame. -/
theorem Received.fields {f g : FrameArqT} {a : Arq} (h : Received f a g) :
    g.arq = a ∧ g.payloadMaxSize = f.payloadMaxSize ∧ g.retainBuffer = f.retainBuffer ∧
      g.retainLength = f.retainLength := by
  obtain ⟨_, ⟨_, _, _, rfl⟩, rfl⟩ := h
  exact ⟨rfl, rfl, rfl, rfl⟩

/-! ## Call by call -/

theorem Alike.get (h : Alike f g) (t : Transport) :
    ∃ r r', frameArqGet .valid .valid .valid f t = some r ∧
      frameArqGet .valid .valid .valid g t = some r' ∧ AlikeResult r r' := by
  obtain ⟨acc, holdf, holdg, hp⟩ := h.assembled
  obtain ⟨f', hf, hrecf, holdf', hp'⟩ := frameArqGet_spec holdf hp t
  obtain ⟨g', hg, hrecg, holdg', -⟩ := frameArqGet_spec holdg (by rw [h.max]; exact hp) t
  rw [h.max, h.arq] at hg hrecg
  rw [h.max] at holdg'
  -- both have found the same; only that matters from here on
  generalize (receiver f.payloadMaxSize).pump acc t.incoming = p at *
  obtain ⟨found, acc', rest⟩ := p
  dsimp only at hf hrecf holdf' hp' hg hrecg holdg'
  obtain ⟨harqf, hmaxf, hbuff, hlenf⟩ := hrecf.fields
  obtain ⟨harqg, hmaxg, hbufg, hleng⟩ := hrecg.fields
  refine ⟨_, _, hf, hg, rfl, rfl, rfl, ?_⟩
  refine ⟨h.left.received hrecf holdf' hp', h.right.received (by rw [h.arq]; exact hrecg) holdg'
    (by rw [h.max]; exact hp'), ?_, ?_, ?_, ⟨acc', holdf', holdg', by rw [hmaxf]; exact hp'⟩, ?_⟩
  · rw [hmaxg, hmaxf, h.max]
  · rw [hmaxf]
    exact h.small
  · rw [harqg, harqf]
  · intro hwait
    -- whoever waits now was waiting before
    have hwait' : f.awaitingAck = true :=
      (f.arq.keeps_react found).waits (harqf ▸ hwait)
    rw [hbufg, hleng, hbuff, hlenf]
    exact h.outstanding hwait'

theorem Alike.nextSeq (h : Alike f g) : g.nextSeq = f.nextSeq := by
  have hseq : g.txSeq = f.txSeq := congrArg Arq.txSeq h.arq
  rw [FrameArqT.nextSeq, FrameArqT.nextSeq, hseq]

/-- With a proper payload, both send the same frame. -/
theorem Alike.putFrame_eq (h : Alike f g) {cmd : UInt8} {payload : Payload}
    (hproper : 0 < payload.size → payload.pointer ≠ none) :
    g.putFrame cmd payload.pointer payload.size =
      f.putFrame cmd payload.pointer payload.size := by
  have hbody : putBody g.retainBuffer payload.pointer payload.size =
      putBody f.retainBuffer payload.pointer payload.size := by
    rw [putBody_eq_iff]
    rcases Nat.eq_zero_or_pos payload.size with hzero | hpos
    · exact Or.inr (Or.inl hzero)
    · exact Or.inl (hproper hpos)
  rw [FrameArqT.putFrame, FrameArqT.putFrame, h.nextSeq, hbody]

theorem Alike.put (h : Alike f g) {cmd : UInt8} {payload : Payload}
    (hproper : 0 < payload.size → payload.pointer ≠ none) (t : Transport) :
    ∃ r r', frameArqPut .valid f cmd payload.pointer payload.size t = some r ∧
      frameArqPut .valid g cmd payload.pointer payload.size t = some r' ∧
      AlikeResult r r' := by
  by_cases hacc : Accepts f cmd payload.size
  · have haccg := h.accepts.mpr hacc
    have hsize := hacc.2.2.1
    have hsmall := h.small
    have hf := frameArqPut_accepted hacc h.left.retain h.left.fits payload.size_le
      (by omega) t
    have hg := frameArqPut_accepted haccg h.right.retain h.right.fits payload.size_le
      (by omega) t
    have hokg := h.right.sent haccg payload.size_le
    rw [h.putFrame_eq hproper] at hg hokg
    obtain ⟨acc, holdf, holdg, hp⟩ := h.assembled
    refine ⟨_, _, hf, hg, rfl, rfl, rfl, h.left.sent hacc payload.size_le, hokg, h.max, h.small, ?_,
      ?_, ?_⟩
    · have hexp : g.expectedRxSeq = f.expectedRxSeq := congrArg Arq.expectedRxSeq h.arq
      simp only [FrameArqT.arq, FrameArqT.sent, h.nextSeq, hexp]
    · exact ⟨acc, holdf.of_eq rfl rfl rfl rfl, holdg.of_eq rfl rfl rfl rfl, hp⟩
    · intro _
      exact List.take_left.trans List.take_left.symm
  · have hg := frameArqPut_putError (mt h.accepts.mp hacc) payload.pointer t
    rw [h.max] at hg
    exact ⟨_, _, frameArqPut_putError hacc payload.pointer t, hg, rfl, rfl, rfl, h⟩

/-- What matters is the same after `resend_needed` is cleared. -/
theorem Alike.clearResend (h : Alike f g) :
    Alike { f with resendNeeded := false } { g with resendNeeded := false } where
  left := h.left.clearResend
  right := h.right.clearResend
  max := h.max
  small := h.small
  arq := congrArg (fun a : Arq => { a with resendNeeded := false }) h.arq
  assembled := by
    obtain ⟨acc, holdf, holdg, hp⟩ := h.assembled
    exact ⟨acc, holdf.of_eq rfl rfl rfl rfl, holdg.of_eq rfl rfl rfl rfl, hp⟩
  outstanding := h.outstanding

theorem Alike.resend (h : Alike f g) (t : Transport) :
    ∃ r r', frameArqResend .valid f t = some r ∧ frameArqResend .valid g t = some r' ∧
      AlikeResult r r' := by
  rcases h.left.resend_eq t with ⟨hidle, hf⟩ | ⟨hwait, hf⟩
  · exact ⟨_, _, hf, frameArqResend_idle (h.awaitingAck.trans hidle) t, rfl, rfl, rfl,
      h.clearResend⟩
  · rcases h.right.resend_eq t with ⟨hidle, -⟩ | ⟨-, hg⟩
    · rw [h.awaitingAck, hwait] at hidle
      cases hidle
    · rw [h.outstanding hwait] at hg
      refine ⟨_, _, hf, hg, rfl, rfl, rfl, ?_⟩
      dsimp only
      split_ifs
      · exact h
      · exact h.clearResend

theorem Alike.discard (h : Alike f g) (t : Transport) :
    AlikeResult (frameArqDiscard .valid f t) (frameArqDiscard .valid g t) := by
  obtain ⟨acc, holdf, holdg, -⟩ := h.assembled
  exact ⟨rfl, rfl, rfl, h.left.discard, h.right.discard, h.max, h.small, h.arq,
    ⟨[], holdf.clear, holdg.clear, pending_nil _⟩, h.outstanding⟩

theorem Alike.reset (h : Alike f g) (t : Transport) :
    AlikeResult (frameArqReset .valid f t) (frameArqReset .valid g t) := by
  obtain ⟨acc, holdf, holdg, -⟩ := h.assembled
  refine ⟨rfl, rfl, rfl, h.left.reset t, h.right.reset t, h.max, h.small, rfl, ?_, ?_⟩
  · exact ⟨[], holdf.clear.of_eq rfl rfl rfl rfl, holdg.clear.of_eq rfl rfl rfl rfl,
      pending_nil _⟩
  · intro hwait
    cases hwait

/-- A call that returns at once, on both. -/
theorem Alike.untouched (h : Alike f g) (ret : Int) (t : Transport) :
    AlikeResult ⟨ret, none, f, t⟩ ⟨ret, none, g, t⟩ := ⟨rfl, rfl, rfl, h⟩

/-- **A call of get, put or resend**, with any arguments. -/
theorem Alike.perform (h : Alike f g) {c : ApiCall} (hproper : (Request.api c).Proper)
    (t : Transport) :
    ∃ r r', c.perform f t = some r ∧ c.perform g t = some r' ∧ AlikeResult r r' := by
  cases c with
  | get handle outData outSize =>
    by_cases hnull : handle = .null ∨ outData = .null ∨ outSize = .null
    · refine ⟨_, _, ?_, ?_, h.untouched errorArg t⟩
      · rw [ApiCall.perform, frameArqGet, if_pos hnull]
      · rw [ApiCall.perform, frameArqGet, if_pos hnull]
    · have hvalid : handle = .valid ∧ outData = .valid ∧ outSize = .valid := by
        cases handle <;> cases outData <;> cases outSize <;> simp at hnull ⊢
      obtain ⟨rfl, rfl, rfl⟩ := hvalid
      exact h.get t
  | put handle cmd payload =>
    cases handle with
    | null => exact ⟨_, _, rfl, rfl, h.untouched errorArg t⟩
    | valid => exact h.put hproper t
  | resend handle =>
    cases handle with
    | null => exact ⟨_, _, rfl, rfl, h.untouched errorArg t⟩
    | valid => exact h.resend t

/-- Two controllers at the beginning of a run are alike if they have the same maximum. -/
theorem Begins.alike (hf : Begins f) (hg : Begins g)
    (hmax : g.payloadMaxSize = f.payloadMaxSize) (hsmall : f.payloadMaxSize + 17 < 2 ^ 31) :
    Alike f g := by
  obtain ⟨hokf, holdf, harqf⟩ := hf.spec
  obtain ⟨hokg, holdg, harqg⟩ := hg.spec
  refine ⟨hokf, hokg, hmax, hsmall, harqg.trans harqf.symm, ⟨[], holdf, holdg, pending_nil _⟩, ?_⟩
  intro hwait
  have hidle : f.awaitingAck = false := congrArg Arq.awaitingAck harqf
  rw [hidle] at hwait
  cases hwait

end

/-! ## Runs -/

/-- The answers of an endpoint to one request after the other. -/
def Endpoint.answers [Build] (e : Endpoint) (requests : List Request) :
    Option (List Answer × Endpoint) := Runs.run Endpoint.answer e requests

/-- Two endpoints that are alike: the controllers are, and the transport is the same. -/
structure AlikeEndpoint [Build] (e e' : Endpoint) : Prop where
  frame : Alike e.frame e'.frame
  transport : e'.transport = e.transport

section

variable [Build] {e e' : Endpoint}

theorem AlikeResult.showing {r r' : Result} (h : AlikeResult r r')
    (ht : e'.transport = e.transport) :
    (e'.showing r').1 = (e.showing r).1 ∧ AlikeEndpoint (e.showing r).2 (e'.showing r').2 := by
  refine ⟨?_, h.frame, h.transport⟩
  rw [Endpoint.showing, Endpoint.showing, h.ret, h.out, h.transport, ht]

/-- **One request**: both have an answer, it is the same, and they are alike again. -/
theorem AlikeEndpoint.answer (h : AlikeEndpoint e e') {q : Request} (hq : q.Proper) :
    ∃ a e₁ e₁', e.answer q = some (a, e₁) ∧ e'.answer q = some (a, e₁') ∧
      AlikeEndpoint e₁ e₁' := by
  obtain ⟨hframe, ht⟩ := h
  have hshow {r r' : Result} (hr : AlikeResult r r') :
      ∃ a e₁ e₁', some (e.showing r) = some (a, e₁) ∧ some (e'.showing r') = some (a, e₁') ∧
        AlikeEndpoint e₁ e₁' := by
    obtain ⟨heq, halike⟩ := hr.showing ht
    exact ⟨_, (e.showing r).2, (e'.showing r').2, rfl, congrArg some (Prod.ext heq rfl), halike⟩
  cases q with
  | api c =>
    obtain ⟨r, r', hr, hr', halike⟩ := hframe.perform hq e.transport
    rw [Endpoint.answer, Endpoint.answer, ht, hr, hr']
    exact hshow halike
  | discard handle =>
    rw [Endpoint.answer, Endpoint.answer, ht]
    cases handle with
    | null => exact hshow (hframe.untouched errorArg e.transport)
    | valid => exact hshow (hframe.discard e.transport)
  | reset handle =>
    rw [Endpoint.answer, Endpoint.answer, ht]
    cases handle with
    | null => exact hshow (hframe.untouched errorArg e.transport)
    | valid => exact hshow (hframe.reset e.transport)
  | awaitingAck handle =>
    have hflag : frameArqAwaitingAck handle e'.frame = frameArqAwaitingAck handle e.frame := by
      rw [frameArqAwaitingAck, frameArqAwaitingAck, hframe.awaitingAck]
    exact ⟨_, _, _, rfl, by rw [Endpoint.answer, hflag], hframe, ht⟩
  | resendNeeded handle =>
    have hresend : e'.frame.resendNeeded = e.frame.resendNeeded :=
      congrArg Arq.resendNeeded hframe.arq
    have hflag : frameArqResendNeeded handle e'.frame = frameArqResendNeeded handle e.frame := by
      rw [frameArqResendNeeded, frameArqResendNeeded, hresend]
    exact ⟨_, _, _, rfl, by rw [Endpoint.answer, hflag], hframe, ht⟩

end

/-- **Reset equals fresh.** A reset of any controller that a run has left, and a new controller
for the same maximum on any storage: on the same transport, every sequence of requests is
answered in the same way by both, and leaves the same transport. -/
theorem reset_fresh [Build] {f : FrameArqT} (hreach : Reachable f)
    (hint : f.payloadMaxSize + 17 < 2 ^ 31) (s : Storage)
    (hmax : s.payloadMaxSize = f.payloadMaxSize) (t₀ t : Transport) (requests : List Request)
    (hproper : ∀ q ∈ requests, q.Proper) :
    ∃ answers e e',
      Endpoint.answers ⟨(frameArqReset .valid f t₀).frame, t⟩ requests = some (answers, e) ∧
      Endpoint.answers ⟨s.create, t⟩ requests = some (answers, e') ∧
      e'.transport = e.transport := by
  have hstart : AlikeEndpoint ⟨(frameArqReset .valid f t₀).frame, t⟩ ⟨s.create, t⟩ :=
    ⟨(Begins.restarted t₀ hreach).alike (.created s) hmax hint, rfl⟩
  have hstep {e e' : Endpoint} {q : Request} (h : AlikeEndpoint e e') (hq : q.Proper) :=
    h.answer hq
  obtain ⟨answers, e, e', hrun, hrun', halike⟩ :=
    run_bisim (R := AlikeEndpoint) hstep hstart hproper
  exact ⟨answers, e, e', hrun, hrun', halike.transport⟩

/-- A reset with a marker half received and a message outstanding. -/
theorem reset_fresh_one :
    letI : Build := build32
    let s := Storage.zeroed 1 (by decide)
    let requests : List Request :=
      [.api (.put .valid 2 (.bytes [8])), .awaitingAck .valid, .api (.resend .valid)]
    ∃ f, Reachable f ∧ f.byteCount = 1 ∧ f.awaitingAck = true ∧ ∃ answers e e',
      Endpoint.answers ⟨(frameArqReset .valid f ⟨[], [], []⟩).frame, ⟨[], [], []⟩⟩ requests =
        some (answers, e) ∧
      Endpoint.answers ⟨s.create, ⟨[], [], []⟩⟩ requests = some (answers, e') ∧
      e'.transport = e.transport := by
  let _ : Build := build32
  intro s requests
  have hsome : ((Endpoint.run ⟨s.create, ⟨[some 129, none], [], []⟩⟩
      [.get, .put 1 (.bytes [7])]).map fun r => decide (r.2.frame.byteCount = 1 ∧
        r.2.frame.awaitingAck = true ∧ r.2.frame.payloadMaxSize = 1)) = some true := by
    decide +kernel
  obtain ⟨⟨outs, e⟩, hrun, hall⟩ := Option.map_eq_some_iff.mp hsome
  obtain ⟨hcount, hwait, hmax⟩ := of_decide_eq_true hall
  have hreach : Reachable e.frame := ⟨s, _, _, outs, e, hrun, rfl⟩
  have hint : e.frame.payloadMaxSize + 17 < 2 ^ 31 := by
    rw [hmax]
    decide
  exact ⟨e.frame, hreach, hcount, hwait,
    reset_fresh hreach hint s hmax.symm _ _ requests (by simp [requests, Request.Proper,
      Payload.pointer])⟩

end HtcwFrameArq
