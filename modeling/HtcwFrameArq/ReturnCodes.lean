import HtcwFrameArq.Soundness

/-!
# Return codes

The library's codes and the results of the write callback share one `int`. `return_codes` says
when a call can be told by its code: put and resend pass on a negative result of the callback
as it is, so exactly when that result is not one of the codes with a meaning of its own. Get
ignores the callback's results, and its codes are always unambiguous.
-/

namespace HtcwFrameArq

/-! ## Calls with all their arguments -/

/-- A call of get, put or resend. -/
inductive ApiCall : Type where
  | get (handle outData outSize : Ptr) : ApiCall
  | put (handle : Ptr) (cmd : UInt8) (payload : Payload) : ApiCall
  | resend (handle : Ptr) : ApiCall
  deriving DecidableEq

/-- The first negative one of the next `n` results of the write callback. -/
def firstRefusal (n : ℕ) (results : List Int) : Option Int :=
  (results.take n).find? fun r => r < 0

namespace ApiCall

/-- Perform a call on the controller that a valid handle points to. -/
def perform [Build] (f : FrameArqT) (t : Transport) : ApiCall → Option Result
  | get handle outData outSize => frameArqGet handle outData outSize f t
  | put handle cmd payload => frameArqPut handle f cmd payload.pointer payload.size t
  | resend handle => frameArqResend handle f t

/-- The number of bytes a put or a resend sets out to write. -/
def streamed (f : FrameArqT) : ApiCall → ℕ
  | get _ _ _ => 0
  | put handle cmd payload =>
    if handle = .valid ∧ Accepts f cmd payload.size then 17 + payload.size else 0
  | resend handle => if handle = .valid ∧ f.awaitingAck = true then f.retainLength else 0

/-- The result with which the write callback refuses a byte of a put or a resend. -/
def refusal (f : FrameArqT) (t : Transport) (c : ApiCall) : Option Int :=
  firstRefusal (c.streamed f) t.results

/-- The call cannot do what it is asked for: an argument is invalid, a size is above the
maximum, a frame is still outstanding, a frame fails its CRC, or a byte is not written. -/
def Fails [Build] (f : FrameArqT) (t : Transport) : ApiCall → Prop
  | get handle outData outSize =>
    handle = .null ∨ outData = .null ∨ outSize = .null ∨
      ∃ r, readFrame f t.incoming = some r ∧ (r.res = errorCrc ∨ r.res = errorOverflow)
  | put handle cmd payload =>
    handle = .null ∨ ¬ (1 ≤ cmd ∧ cmd ≤ 127) ∨ f.payloadMaxSize < payload.size ∨
      f.awaitingAck = true ∨ (refusal f t (put handle cmd payload)).isSome
  | resend handle => handle = .null ∨ (refusal f t (resend handle)).isSome

/-- The call is a put. -/
def IsPut : ApiCall → Prop
  | put _ _ _ => True
  | _ => False

/-- `r` is not a code that means something else than a failed write. -/
def Foreign (c : ApiCall) (r : Int) : Prop :=
  r ≠ resendNeededCode ∧ r ≠ incomplete ∧
    (c.IsPut → r ≠ errorBusy ∧ r ≠ errorArg ∧ r ≠ errorOverflow)

end ApiCall

/-- What the caller can tell from the code of a call that left `r`. -/
structure Unambiguous [Build] (f : FrameArqT) (t : Transport) (c : ApiCall) (r : Result) :
    Prop where
  /-- a failure is below -1 -/
  failure : c.Fails f t → r.ret < resendNeededCode
  /-- -1 is a NACK while awaiting an ACK -/
  notice : r.ret = resendNeededCode → (∃ handle outData outSize, c = .get handle outData outSize) ∧
    f.awaitingAck = true ∧
    ∃ fr, recognised f t.incoming = some fr ∧ faTypeOf fr.seqByte = faTypeNack
  /-- -2 is never returned -/
  sentinel : r.ret ≠ incomplete
  /-- a put that reports one of its own errors did nothing -/
  refused : c.IsPut → (r.ret = errorBusy ∨ r.ret = errorArg ∨ r.ret = errorOverflow) →
    r.frame = f ∧ r.transport = t

/-! ## Results of the write callback -/

/-- A write loop returns the first refusal, or success. -/
theorem Transport.writeAll_eq_refusal (bs : List UInt8) (t : Transport) :
    (t.writeAll bs).1 = (firstRefusal bs.length t.results).getD success := by
  induction bs generalizing t with
  | nil => rfl
  | cons b bs ih =>
    rcases hres : t.results with _ | ⟨r, rest⟩
    · have hcb : t.writeCb b = (0, { t with written := t.written ++ [b] }) := by
        rw [Transport.writeCb, hres]
      rw [writeAll, hcb, if_neg (Int.lt_irrefl 0), ih]
      simp [firstRefusal, hres]
    · have hcb : t.writeCb b = (r, { t with results := rest, written :=
          if r < 0 then t.written else t.written ++ [b] }) := by
        rw [Transport.writeCb, hres]
      rw [writeAll, hcb]
      by_cases hneg : r < 0
      · simp [hneg, firstRefusal]
      · rw [if_neg hneg, ih]
        simp [firstRefusal, hneg]

theorem firstRefusal_neg {n : ℕ} {results : List Int} {r : Int}
    (h : firstRefusal n results = some r) : r < 0 := by
  simpa using List.find?_some h

theorem firstRefusal_zero (results : List Int) : firstRefusal 0 results = none := rfl

/-! ## The three calls -/

/-- A call that streams nothing has no refusal. -/
theorem ApiCall.refusal_of_zero {f : FrameArqT} {c : ApiCall} (h : c.streamed f = 0)
    (t : Transport) : c.refusal f t = none := by
  rw [refusal, h, firstRefusal_zero]

/-- The frame handling asks for a resend only on a NACK while awaiting an ACK, and never
returns the internal sentinel. -/
theorem Arq.handle_codes {a : Arq} {fr : Frame} (hmark : 128 ≤ fr.marker) :
    ((a.handle fr).ret = resendNeededCode →
        a.awaitingAck = true ∧ faTypeOf fr.seqByte = faTypeNack) ∧
      (a.handle fr).ret ≠ incomplete := by
  have h := a.handles fr
  have hcmd : (0 : Int) ≤ (fr.marker.toNat : Int) - 128 := by
    have : 128 ≤ fr.marker.toNat := hmark
    omega
  have hsuccess : success ≠ resendNeededCode ∧ success ≠ incomplete := by decide
  generalize a.handle fr = react at h
  cases h with
  | nacked hnack hwait =>
    exact ⟨fun _ => ⟨hwait, hnack⟩, show resendNeededCode ≠ incomplete by decide⟩
  | delivered =>
    simp only [resendNeededCode, incomplete]
    exact ⟨fun h => by omega, by omega⟩
  | acked => exact ⟨fun h => absurd h hsuccess.1, hsuccess.2⟩
  | ignored => exact ⟨fun h => absurd h hsuccess.1, hsuccess.2⟩
  | duplicate => exact ⟨fun h => absurd h hsuccess.1, hsuccess.2⟩
  | unexpected => exact ⟨fun h => absurd h hsuccess.1, hsuccess.2⟩

section

variable [Build] {f : FrameArqT} {t : Transport} {r : Result}

/-- **The codes of get** are always unambiguous. -/
theorem get_unambiguous (hok : Ok f) (h : frameArqGet .valid .valid .valid f t = some r) :
    Unambiguous f t (.get .valid .valid .valid) r := by
  obtain ⟨acc, hold, hp⟩ := hok.rx
  have hs := Endpoint.exec_of_perform (e := ⟨f, t⟩) (c := .get) h
  obtain ⟨found, acc', hgot⟩ := Got.of_exec (e := ⟨f, t⟩) hold hp hs
  have hret : r.ret = (f.arq.react found).ret := hgot.ret
  have hrecv : recognised f t.incoming = found.bind RxEvent.frame? := by
    simpa using hgot.received
  obtain ⟨g, hread, -⟩ := readFrame_spec hold hp t.incoming
  have hpump : (receiver f.payloadMaxSize).pump acc t.incoming = _ := hgot.pump
  rw [hpump] at hread
  have hfits := hgot.fits hp
  -- errors, the notice of a NACK, and the code that is never returned
  refine ⟨?_, ?_, ?_, fun h => h.elim⟩
  · rintro (hnull | hnull | hnull | ⟨rd, hrd, hcode⟩)
    · cases hnull
    · cases hnull
    · cases hnull
    · obtain rfl := Option.some.inj (hread.symm.trans hrd)
      have hcode' : readCode found = errorCrc ∨ readCode found = errorOverflow := hcode
      rw [hret]
      rcases found with _ | (fr | _ | _)
      · exact absurd hcode'
          (show ¬ (incomplete = errorCrc ∨ incomplete = errorOverflow) by decide)
      · exact absurd hcode' (show ¬ (success = errorCrc ∨ success = errorOverflow) by decide)
      · exact show errorCrc < resendNeededCode by decide
      · exact show errorOverflow < resendNeededCode by decide
  · intro hnotice
    rw [hret] at hnotice
    rcases found with _ | (fr | _ | _)
    · exact absurd hnotice (show success ≠ resendNeededCode by decide)
    · obtain ⟨hwait, hnack⟩ := (Arq.handle_codes (hfits fr rfl).marker_ge).1 hnotice
      exact ⟨⟨_, _, _, rfl⟩, hwait, fr, hrecv, hnack⟩
    · exact absurd hnotice (show errorCrc ≠ resendNeededCode by decide)
    · exact absurd hnotice (show errorOverflow ≠ resendNeededCode by decide)
  · rw [hret]
    rcases found with _ | (fr | _ | _)
    · exact show success ≠ incomplete by decide
    · exact (Arq.handle_codes (hfits fr rfl).marker_ge).2
    · exact show errorCrc ≠ incomplete by decide
    · exact show errorOverflow ≠ incomplete by decide

/-- A call that returns one of the library's errors and changes nothing is unambiguous. -/
theorem unambiguous_of_unchanged {c : ApiCall} {ret : Int}
    (hret : ret = errorArg ∨ ret = errorOverflow ∨ ret = errorBusy) :
    Unambiguous f t c ⟨ret, none, f, t⟩ := by
  have hneg : ret < incomplete := by
    rcases hret with rfl | rfl | rfl <;> decide
  have hlt : incomplete < resendNeededCode := by decide
  refine ⟨fun _ => Int.lt_trans hneg hlt, ?_, Int.ne_of_lt hneg, fun _ _ => ⟨rfl, rfl⟩⟩
  intro hnotice
  exact absurd hnotice (Int.ne_of_lt (Int.lt_trans hneg hlt))

/-- **The codes of a call that streams a frame** and changes the controller: it fails only if a
byte is refused, and returns that result then. -/
theorem unambiguous_iff_of_streamed {c : ApiCall} (hfails : c.Fails f t ↔ (c.refusal f t).isSome)
    (hret : r.ret = (c.refusal f t).getD success) (hget : ∀ h d s, c ≠ .get h d s)
    (hput : c.IsPut → r.frame ≠ f) :
    Unambiguous f t c r ↔ ∀ v, c.refusal f t = some v → c.Foreign v := by
  constructor
  -- the value is returned as it is, so it must be none of the codes
  · intro h v hv
    rw [hv] at hret
    have hret' : r.ret = v := hret
    refine ⟨?_, ?_, ?_⟩
    · intro hcode
      obtain ⟨⟨_, _, _, hc⟩, -⟩ := h.notice (hret'.trans hcode)
      exact hget _ _ _ hc
    · intro hcode
      exact h.sentinel (hret'.trans hcode)
    · intro hisput
      have hchanged : ¬ (r.ret = errorBusy ∨ r.ret = errorArg ∨ r.ret = errorOverflow) :=
        fun hcode => hput hisput (h.refused hisput hcode).1
      rw [hret'] at hchanged
      exact ⟨fun h => hchanged (Or.inl h), fun h => hchanged (Or.inr (Or.inl h)),
        fun h => hchanged (Or.inr (Or.inr h))⟩
  · intro h
    -- every byte is taken, or one is refused with the value returned
    rcases hv : c.refusal f t with _ | v
    · rw [hv] at hret
      have hret' : r.ret = success := hret
      refine ⟨?_, ?_, ?_, ?_⟩
      · intro hfail
        have := hfails.mp hfail
        rw [hv] at this
        cases this
      · intro hnotice
        exact absurd (hret'.symm.trans hnotice) (by decide)
      · rw [hret']
        decide
      · intro _ hcode
        rw [hret'] at hcode
        exact absurd hcode (by decide)
    · rw [hv] at hret
      have hret' : r.ret = v := hret
      obtain ⟨hnotice, hsentinel, hown⟩ := h v hv
      have hneg := firstRefusal_neg hv
      refine ⟨?_, ?_, ?_, ?_⟩
      · intro _
        rw [hret']
        simp only [resendNeededCode] at hnotice ⊢
        omega
      · intro hcode
        exact absurd (hret'.symm.trans hcode) hnotice
      · rw [hret']
        exact hsentinel
      · intro hisput hcode
        obtain ⟨hbusy, harg, hover⟩ := hown hisput
        rw [hret'] at hcode
        rcases hcode with h | h | h
        · exact absurd h hbusy
        · exact absurd h harg
        · exact absurd h hover

/-- A put that is not accepted. -/
theorem put_rejected_iff {handle : Ptr} {cmd : UInt8} {payload : Payload}
    (hnot : ¬ (handle = .valid ∧ Accepts f cmd payload.size))
    (h : frameArqPut handle f cmd payload.pointer payload.size t = some r) :
    (ApiCall.put handle cmd payload).refusal f t = none ∧
      Unambiguous f t (.put handle cmd payload) r := by
  have hzero : (ApiCall.put handle cmd payload).streamed f = 0 := if_neg hnot
  refine ⟨ApiCall.refusal_of_zero hzero t, ?_⟩
  cases handle with
  | null =>
    obtain rfl : r = ⟨errorArg, none, f, t⟩ := (Option.some.inj h).symm
    exact unambiguous_of_unchanged (Or.inl rfl)
  | valid =>
    obtain ⟨ret, hret, hput⟩ := frameArqPut_rejected (fun hacc => hnot ⟨rfl, hacc⟩)
      payload.pointer t
    obtain rfl := Option.some.inj (hput.symm.trans h)
    exact unambiguous_of_unchanged hret

/-- **A put that is accepted** streams its frame. -/
theorem put_accepted_iff {cmd : UInt8} {payload : Payload} (hok : Ok f)
    (hacc : Accepts f cmd payload.size)
    (h : frameArqPut .valid f cmd payload.pointer payload.size t = some r) :
    Unambiguous f t (.put .valid cmd payload) r ↔
      ∀ v, (ApiCall.put .valid cmd payload).refusal f t = some v →
        (ApiCall.put .valid cmd payload).Foreign v := by
  have hr := frameArqPut_some hacc hok.retain hok.fits payload.size_le h
  have hbody : (putBody f.retainBuffer payload.pointer payload.size).length = payload.size :=
    putBody_length (by rw [hok.retain]; have := hacc.2.2.1; omega) payload.size_le
  have hlen : (f.putFrame cmd payload.pointer payload.size).encode.length =
      17 + payload.size := by
    rw [Frame.encode_length]
    exact congrArg (17 + ·) hbody
  have hstream : (ApiCall.put .valid cmd payload).streamed f = 17 + payload.size :=
    if_pos ⟨rfl, hacc⟩
  apply unambiguous_iff_of_streamed
  · obtain ⟨hlo, hhi, hle, hidle⟩ := hacc
    have hle' : ¬ f.payloadMaxSize < payload.size := by omega
    simp [ApiCall.Fails, hlo, hhi, hle', hidle]
  · rw [hr, ApiCall.refusal, hstream, ← hlen]
    exact Transport.writeAll_eq_refusal _ t
  · intro _ _ _ hc
    cases hc
  · -- it waits for an ACK now
    intro _ hsame
    have hwait := congrArg FrameArqT.awaitingAck hsame
    rw [hr, hacc.2.2.2] at hwait
    cases hwait

/-- **A resend** streams the retained frame, or nothing. -/
theorem resend_iff (hok : Ok f) (h : frameArqResend .valid f t = some r) :
    Unambiguous f t (.resend .valid) r ↔
      ∀ v, (ApiCall.resend .valid).refusal f t = some v → (ApiCall.resend .valid).Foreign v := by
  apply unambiguous_iff_of_streamed
  · simp [ApiCall.Fails]
  · rcases hok.resend_eq t with ⟨hidle, heq⟩ | ⟨hwait, heq⟩
    · obtain rfl := Option.some.inj (heq.symm.trans h)
      rw [ApiCall.refusal_of_zero (by simp [ApiCall.streamed, hidle])]
      rfl
    · obtain rfl := Option.some.inj (heq.symm.trans h)
      obtain ⟨cmd, payload, -, -, -, hlen, hbuf⟩ := hok.retained hwait
      have hstream : (ApiCall.resend .valid).streamed f = f.retainLength := if_pos ⟨rfl, hwait⟩
      have htake : (f.retainBuffer.take f.retainLength).length = f.retainLength := by
        rw [hbuf, hlen]
      have hret := Transport.writeAll_eq_refusal (f.retainBuffer.take f.retainLength) t
      rw [htake] at hret
      rw [ApiCall.refusal, hstream]
      exact hret
  · intro _ _ _ hc
    cases hc
  · exact fun hput => hput.elim

/-- A get with any pointers. -/
theorem get_any_unambiguous (hok : Ok f) {handle outData outSize : Ptr}
    (h : frameArqGet handle outData outSize f t = some r) :
    Unambiguous f t (.get handle outData outSize) r := by
  by_cases hnull : handle = .null ∨ outData = .null ∨ outSize = .null
  · have hr : r = ⟨errorArg, none, f, t⟩ := by
      rw [frameArqGet, if_pos hnull] at h
      exact (Option.some.inj h).symm
    rw [hr]
    exact unambiguous_of_unchanged (Or.inl rfl)
  · have hvalid {p : Ptr} (hp : p ≠ .null) : p = .valid := by
      cases p with
      | null => exact absurd rfl hp
      | valid => rfl
    obtain ⟨hhandle, hpointers⟩ := not_or.mp hnull
    obtain ⟨hdata, hsize⟩ := not_or.mp hpointers
    obtain rfl := hvalid hhandle
    obtain rfl := hvalid hdata
    obtain rfl := hvalid hsize
    exact get_unambiguous hok h

/-- **Return codes.** A call of get, put or resend, with any arguments, in any reachable state,
is unambiguous exactly when the write callback refuses no byte of a put or a resend with one of
the library's own codes: -1 or -2, and for a put also `FRAME_ARQ_ERROR_BUSY`,
`FRAME_ARQ_ERROR_ARG` or `FRAME_ARQ_ERROR_OVERFLOW`. -/
theorem return_codes (hreach : Reachable f) {c : ApiCall} (h : c.perform f t = some r) :
    Unambiguous f t c r ↔ ∀ v, c.refusal f t = some v → c.Foreign v := by
  have hok := hreach.ok
  -- a call that streams nothing meets the condition
  have quiet (hno : c.refusal f t = none) (hu : Unambiguous f t c r) :
      Unambiguous f t c r ↔ ∀ v, c.refusal f t = some v → c.Foreign v := by
    refine ⟨fun _ v hv => ?_, fun _ => hu⟩
    rw [hno] at hv
    cases hv
  cases c with
  | get handle outData outSize =>
    exact quiet (ApiCall.refusal_of_zero rfl t) (get_any_unambiguous hok h)
  | put handle cmd payload =>
    by_cases hacc : handle = .valid ∧ Accepts f cmd payload.size
    · obtain ⟨rfl, hacc⟩ := hacc
      exact put_accepted_iff hok hacc h
    · obtain ⟨hno, hu⟩ := put_rejected_iff hacc h
      exact quiet hno hu
  | resend handle =>
    cases handle with
    | null =>
      obtain rfl : r = ⟨errorArg, none, f, t⟩ := (Option.some.inj h).symm
      exact quiet (ApiCall.refusal_of_zero rfl t) (unambiguous_of_unchanged (Or.inl rfl))
    | valid => exact resend_iff hok h

end

theorem return_codes_one :
    letI : Build := build32
    let f := (Storage.zeroed 0 (by decide)).create
    let t : Transport := ⟨[], [-3], []⟩
    ∃ r, (ApiCall.put .valid 1 (.bytes [])).perform f t = some r ∧ r.ret = -3 ∧
      Unambiguous f t (.put .valid 1 (.bytes [])) r := by
  let _ : Build := build32
  intro f t
  have hreach : Reachable f :=
    ⟨Storage.zeroed 0 (by decide), ⟨[], [], []⟩, [], [], ⟨f, ⟨[], [], []⟩⟩, rfl, rfl⟩
  have hsome : (((ApiCall.put .valid 1 (.bytes [])).perform f t).map fun r =>
      decide (r.ret = -3)) = some true := by
    decide +kernel
  obtain ⟨r, hr, hret⟩ := Option.map_eq_some_iff.mp hsome
  refine ⟨r, hr, of_decide_eq_true hret, (return_codes hreach hr).mpr ?_⟩
  intro v hv
  have hrefusal : (ApiCall.put .valid 1 (.bytes [])).refusal f t = some (-3) := by
    decide +kernel
  obtain rfl := Option.some.inj (hrefusal.symm.trans hv)
  exact ⟨by decide, by decide, fun _ => by decide⟩

/-- A write callback that refuses the first byte with -1 makes put return
`FRAME_ARQ_RESEND_NEEDED`; one that refuses it with -7 makes put return `FRAME_ARQ_ERROR_BUSY`
for a message that it has accepted. -/
theorem ambiguous_codes :
    letI : Build := build32
    let f := (Storage.zeroed 0 (by decide)).create
    Reachable f ∧
      (∃ r, (ApiCall.put .valid 1 (.bytes [])).perform f ⟨[], [-1], []⟩ = some r ∧
        r.ret = resendNeededCode ∧ ¬ Unambiguous f ⟨[], [-1], []⟩ (.put .valid 1 (.bytes [])) r) ∧
      ∃ r, (ApiCall.put .valid 1 (.bytes [])).perform f ⟨[], [-7], []⟩ = some r ∧
        r.ret = errorBusy ∧ r.frame.awaitingAck = true ∧
        ¬ Unambiguous f ⟨[], [-7], []⟩ (.put .valid 1 (.bytes [])) r := by
  let _ : Build := build32
  intro f
  have hreach : Reachable f :=
    ⟨Storage.zeroed 0 (by decide), ⟨[], [], []⟩, [], [], ⟨f, ⟨[], [], []⟩⟩, rfl, rfl⟩
  have hnotice : (((ApiCall.put .valid 1 (.bytes [])).perform f ⟨[], [-1], []⟩).map fun r =>
      decide (r.ret = resendNeededCode)) = some true := by
    decide +kernel
  have hbusy : (((ApiCall.put .valid 1 (.bytes [])).perform f ⟨[], [-7], []⟩).map fun r =>
      decide (r.ret = errorBusy ∧ r.frame.awaitingAck = true)) = some true := by
    decide +kernel
  obtain ⟨r, hr, hret⟩ := Option.map_eq_some_iff.mp hnotice
  obtain ⟨r', hr', hall⟩ := Option.map_eq_some_iff.mp hbusy
  obtain ⟨hret', hwait⟩ := of_decide_eq_true hall
  refine ⟨hreach, ⟨r, hr, of_decide_eq_true hret, ?_⟩, r', hr', hret', hwait, ?_⟩
  · intro h
    obtain ⟨⟨_, _, _, hget⟩, -⟩ := h.notice (of_decide_eq_true hret)
    cases hget
  · intro h
    have hsame := (h.refused trivial (Or.inl hret')).1
    rw [hsame] at hwait
    exact absurd hwait (by decide)

end HtcwFrameArq
