import HtcwFrameArq.Handling
import HtcwFrameArq.Runs

/-!
# Runs of one endpoint

An endpoint is a controller and its transport; a run is a list of calls of the API. `Ok` is
the invariant of all its states: the parser is between two bytes of a frame (`Pending`),
the retained frame is the encoding of a DATA frame, and the flags and counters are in
range. `Performs` says once what a call can do (`Ok.performs`); every call keeps the
invariant (`Ok.exec`), and as long as no frame is so long that the `int` counter of
`frame_arq_put` overflows, every call is defined (`perform_isSome_of_max`).

`create_run_repInv` states the invariant in terms of the fields of the C struct.
-/

namespace HtcwFrameArq

open Memory Runs

/-! ## Calls and outcomes -/

/-- The payload argument of a put: `NULL` with any size, or a pointer to as many bytes as
the size says. -/
inductive Payload : Type where
  | null : ℕ → Payload
  | bytes : List UInt8 → Payload
  deriving DecidableEq

/-- What the pointer points to. -/
def Payload.pointer : Payload → Option (List UInt8)
  | .null _ => none
  | .bytes data => some data

/-- The size argument. -/
def Payload.size : Payload → ℕ
  | .null n => n
  | .bytes data => data.length

theorem Payload.size_le (p : Payload) :
    ∀ bytes, p.pointer = some bytes → p.size ≤ bytes.length := by
  intro bytes h
  cases p with
  | null n => cases h
  | bytes data =>
    obtain rfl := Option.some.inj h
    exact Nat.le_refl _

/-- What the retain buffer held before is in the payload only if the pointer is `NULL`. -/
theorem putBody_eq_iff (p q : List UInt8) (payload : Payload) :
    putBody p payload.pointer payload.size = putBody q payload.pointer payload.size ↔
      payload.pointer ≠ none ∨ payload.size = 0 ∨
        (p.drop 17).take payload.size = (q.drop 17).take payload.size := by
  cases payload with
  | bytes data => simp [Payload.pointer, putBody]
  | null n =>
    obtain _ | n := n
    · simp [Payload.pointer, Payload.size, putBody]
    · simp [Payload.pointer, Payload.size, putBody]

/-- A call on the endpoint's own handle, with valid result pointers. -/
inductive Call : Type where
  | get : Call
  | put : UInt8 → Payload → Call
  | resend : Call
  | discard : Call
  | reset : Call
  deriving DecidableEq

/-- A controller with its transport. -/
structure Endpoint where
  frame : FrameArqT
  transport : Transport
  deriving DecidableEq

/-- What a call shows: the returned value, the payload it delivers, the frame the parser
recognised during it, the bytes it took from the transport and those it wrote. -/
structure Outcome where
  call : Call
  ret : Int
  out : Option (List UInt8)
  received : Option Frame
  consumed : List UInt8
  written : List UInt8
  deriving DecidableEq

/-- The frame that `read_frame` recognises in a call, if its result is success. -/
def recognised [Build] (f : FrameArqT) (incoming : List (Option UInt8)) : Option Frame := do
  let r ← readFrame f incoming
  if r.res = success then some (frameOf (r.frame.readBuffer.take r.frame.byteCount)) else none

/-- The bytes taken from the transport between two of its states. -/
def consumedBetween (t t' : Transport) : List UInt8 :=
  (t.incoming.take (t.incoming.length - t'.incoming.length)).reduceOption

/-- The bytes written to the transport between two of its states. -/
def writtenBetween (t t' : Transport) : List UInt8 := t'.written.drop t.written.length

namespace Endpoint

/-- Perform a call. -/
def perform [Build] (e : Endpoint) : Call → Option Result
  | .get => frameArqGet .valid .valid .valid e.frame e.transport
  | .put cmd payload =>
    frameArqPut .valid e.frame cmd payload.pointer payload.size e.transport
  | .resend => frameArqResend .valid e.frame e.transport
  | .discard => some (frameArqDiscard .valid e.frame e.transport)
  | .reset => some (frameArqReset .valid e.frame e.transport)

/-- Perform a call and record what it shows. -/
def exec [Build] (e : Endpoint) (c : Call) : Option (Outcome × Endpoint) := do
  let r ← e.perform c
  some (⟨c, r.ret, r.out, if c = .get then recognised e.frame e.transport.incoming else none,
    consumedBetween e.transport r.transport, writtenBetween e.transport r.transport⟩,
    ⟨r.frame, r.transport⟩)

theorem exec_of_perform [Build] {e : Endpoint} {c : Call} {r : Result}
    (h : e.perform c = some r) :
    e.exec c = some (⟨c, r.ret, r.out,
      if c = .get then recognised e.frame e.transport.incoming else none,
      consumedBetween e.transport r.transport, writtenBetween e.transport r.transport⟩,
      ⟨r.frame, r.transport⟩) := by
  rw [exec, h]
  rfl

/-- Inversion of `exec`. -/
theorem exec_eq_some [Build] {e e' : Endpoint} {c : Call} {o : Outcome}
    (h : e.exec c = some (o, e')) :
    ∃ r, e.perform c = some r ∧ e' = ⟨r.frame, r.transport⟩ ∧ o.call = c ∧ o.ret = r.ret ∧
      o.out = r.out ∧ o.written = writtenBetween e.transport r.transport := by
  simp only [exec, Option.bind_eq_bind, Option.bind_eq_some_iff] at h
  obtain ⟨r, hr, heq⟩ := h
  cases heq
  exact ⟨r, hr, rfl, rfl, rfl, rfl, rfl⟩

end Endpoint

/-! ## The invariant -/

/-- The retain buffer of an endpoint that awaits an ACK: the encoding of a DATA frame that
carries `tx_seq`. -/
def Retains [Build] (f : FrameArqT) : Prop :=
  ∃ cmd payload, 1 ≤ cmd ∧ cmd ≤ 127 ∧ payload.length ≤ f.payloadMaxSize ∧
    f.retainLength = (dataFrame cmd f.txSeq payload).encode.length ∧
    f.retainBuffer.take f.retainLength = (dataFrame cmd f.txSeq payload).encode

/-- The invariant of every state between two calls. -/
structure Ok [Build] (f : FrameArqT) : Prop where
  rx : ∃ acc, Holds f acc ∧ Pending f.payloadMaxSize acc
  retain : f.retainBuffer.length = f.payloadMaxSize + 17
  retained : f.awaitingAck = true → Retains f
  resend : f.resendNeeded = true → f.awaitingAck = true
  txSeq_le : f.txSeq ≤ 63
  expectedRxSeq_le : f.expectedRxSeq ≤ 63

theorem masked_le (b : UInt8) : b &&& faSeqMask ≤ 63 := by
  rw [UInt8.le_iff_toNat_le, UInt8.toNat_and]
  exact Nat.and_le_right

theorem Ok.fits [Build] {f : FrameArqT} (h : Ok f) :
    f.payloadMaxSize + 17 < 2 ^ Build.sizeBits := by
  obtain ⟨_, hold, -⟩ := h.rx
  exact hold.fits

/-- What a reaction never does: it does not touch `tx_seq`, it starts no wait for an ACK,
and it asks for a resend only while waiting. -/
structure Keeps (a a' : Arq) : Prop where
  txSeq : a'.txSeq = a.txSeq
  waits : a'.awaitingAck = true → a.awaitingAck = true
  resend : (a.resendNeeded = true → a.awaitingAck = true) →
    a'.resendNeeded = true → a'.awaitingAck = true
  expected : a.expectedRxSeq ≤ 63 → a'.expectedRxSeq ≤ 63

theorem Keeps.refl (a : Arq) : Keeps a a := ⟨rfl, id, id, id⟩

theorem Arq.keeps_react (a : Arq) (o : Option RxEvent) : Keeps a (a.react o).arq := by
  obtain _ | e := o
  · exact .refl a
  · cases e with
    | crcError => exact .refl a
    | overflow => exact .refl a
    | frame fr =>
      have hreact : a.react (some (.frame fr)) = a.handle fr := rfl
      have hcases := a.handles fr
      rw [hreact]
      generalize a.handle fr = r at hcases
      cases hcases with
      | acked hack hwait hseq => exact ⟨rfl, fun _ => hwait, fun _ h => (nomatch h), id⟩
      | nacked hnack hwait => exact ⟨rfl, id, fun _ _ => hwait, id⟩
      | ignored => exact .refl a
      | delivered => exact ⟨rfl, id, id, fun _ => masked_le _⟩
      | duplicate => exact .refl a
      | unexpected => exact .refl a

section

variable [Build] {f : FrameArqT}

theorem Storage.create_ok (s : Storage) : Ok s.create where
  rx := ⟨[], ⟨s.readBuffer_length, s.fits, rfl, rfl, by simp⟩, pending_nil _⟩
  retain := s.retainBuffer_length
  retained h := by cases h
  resend h := by cases h
  txSeq_le := masked_le 255
  expectedRxSeq_le := UInt8.zero_le

theorem Ok.discard (h : Ok f) : Ok { f with byteCount := 0 } where
  rx := by
    obtain ⟨_, hold, -⟩ := h.rx
    exact ⟨[], hold.clear, pending_nil _⟩
  retain := h.retain
  retained := h.retained
  resend := h.resend
  txSeq_le := h.txSeq_le
  expectedRxSeq_le := h.expectedRxSeq_le

theorem Ok.reset (h : Ok f) (t : Transport) : Ok (frameArqReset .valid f t).frame where
  rx := by
    obtain ⟨_, hold, -⟩ := h.rx
    exact ⟨[], hold.clear.of_eq rfl rfl rfl rfl, pending_nil _⟩
  retain := h.retain
  retained h' := by cases h'
  resend h' := by cases h'
  txSeq_le := masked_le 255
  expectedRxSeq_le := UInt8.zero_le

theorem Ok.clearResend (h : Ok f) : Ok { f with resendNeeded := false } where
  rx := by
    obtain ⟨acc, hold, hpend⟩ := h.rx
    exact ⟨acc, hold.of_eq rfl rfl rfl rfl, hpend⟩
  retain := h.retain
  retained := h.retained
  resend h' := by cases h'
  txSeq_le := h.txSeq_le
  expectedRxSeq_le := h.expectedRxSeq_le

/-- A call of get keeps the invariant. -/
theorem Ok.received {g : FrameArqT} {acc : List UInt8} {o : Option RxEvent} (h : Ok f)
    (hg : Received f (f.arq.react o).arq g) (hold : Holds g acc)
    (hpend : Pending f.payloadMaxSize acc) : Ok g := by
  obtain ⟨htx, hwait, hres, hexp⟩ := f.arq.keeps_react o
  obtain ⟨_, ⟨_, _, _, rfl⟩, rfl⟩ := hg
  refine ⟨⟨acc, hold, hpend⟩, h.retain, ?_, hres h.resend, ?_,
    hexp h.expectedRxSeq_le⟩
  · intro h'
    obtain ⟨cmd, payload, hcmd, hcmd', hle, hlen, hbuf⟩ := h.retained (hwait h')
    have hseq : (f.arq.react o).arq.txSeq = f.txSeq := htx
    exact ⟨cmd, payload, hcmd, hcmd', hle, by rw [← hseq] at hlen; exact hlen,
      by rw [← hseq] at hbuf; exact hbuf⟩
  · exact le_of_eq_of_le htx h.txSeq_le

/-- An accepted put keeps the invariant. -/
theorem Ok.sent {cmd : UInt8} {payload : Option (List UInt8)} {size : ℕ} (h : Ok f)
    (hacc : Accepts f cmd size)
    (hpay : ∀ bytes, payload = some bytes → size ≤ bytes.length) :
    Ok (f.sent (f.putFrame cmd payload size)) := by
  obtain ⟨hlo, hhi, hsize, -⟩ := hacc
  have hbuf := h.retain
  have hlen : (putBody f.retainBuffer payload size).length = size :=
    putBody_length (by omega) hpay
  have henc : (f.putFrame cmd payload size).encode.length = 17 + size := by
    rw [Frame.encode_length]
    exact congrArg (17 + ·) hlen
  obtain ⟨acc, hold, hpend⟩ := h.rx
  refine ⟨⟨acc, hold.of_eq rfl rfl rfl rfl, hpend⟩,
    ?_, fun _ => ⟨cmd, putBody f.retainBuffer payload size, hlo, hhi, ?_, rfl, ?_⟩,
    fun _ => rfl, masked_le _, h.expectedRxSeq_le⟩
  · simp only [FrameArqT.sent, List.length_append, List.length_drop, henc]
    omega
  · rw [hlen]
    exact hsize
  · exact List.take_left

/-- The two outcomes of a resend, for a controller that satisfies the invariant. -/
theorem Ok.resend_eq (h : Ok f) (t : Transport) :
    f.awaitingAck = false ∧
        frameArqResend .valid f t = some ⟨success, none, { f with resendNeeded := false }, t⟩ ∨
      f.awaitingAck = true ∧
        frameArqResend .valid f t =
          some ⟨(t.writeAll (f.retainBuffer.take f.retainLength)).1, none,
            if (t.writeAll (f.retainBuffer.take f.retainLength)).1 < 0 then f
            else { f with resendNeeded := false },
            (t.writeAll (f.retainBuffer.take f.retainLength)).2⟩ := by
  rcases Bool.eq_false_or_eq_true f.awaitingAck with hwait | hwait
  · obtain ⟨cmd, payload, -, -, hle, hlen, hbuf⟩ := h.retained hwait
    have henc := (dataFrame cmd f.txSeq payload).encode_length
    have hpay : (dataFrame cmd f.txSeq payload).payload = payload := rfl
    rw [hpay] at henc
    have hfits := h.fits
    refine Or.inr ⟨hwait, ?_⟩
    rw [hbuf]
    refine frameArqResend_outstanding hwait hlen ?_ (by rw [← hlen, hbuf]) (by omega) t
    intro hnil
    rw [hnil, List.length_nil] at henc
    omega
  · exact Or.inl ⟨hwait, frameArqResend_idle hwait t⟩

variable {e : Endpoint}

/-! ## What a call of get shows -/

/-- The bytes of a reply. -/
def replyBytes : Option Frame → List UInt8
  | none => []
  | some fr => fr.encode

/-- The frame in an event. -/
def RxEvent.frame? : RxEvent → Option Frame
  | .frame fr => some fr
  | _ => none

/-- A call of get on an endpoint that has assembled `acc`: the parser takes `o.consumed`,
finds `found` (if anything) at its last byte and keeps `acc'`; the ARQ fields react. -/
structure Got (e : Endpoint) (acc : List UInt8) (found : Option RxEvent)
    (acc' : List UInt8) (o : Outcome) (e' : Endpoint) : Prop where
  call : o.call = .get
  ret : o.ret = (e.frame.arq.react found).ret
  out : o.out = (e.frame.arq.react found).out
  received : o.received = found.bind RxEvent.frame?
  feed : (receiver e.frame.payloadMaxSize).feed acc o.consumed = (found.toList, acc')
  written : o.written <+: replyBytes (e.frame.arq.react found).reply
  replied : e.transport.Succeeds →
    o.written = replyBytes (e.frame.arq.react found).reply ∧ e'.transport.Succeeds
  transport : e'.transport = Transport.reply
    { e.transport with incoming := e'.transport.incoming } (e.frame.arq.react found).reply
  frame : Received e.frame (e.frame.arq.react found).arq e'.frame
  holds : Holds e'.frame acc'
  pending : Pending e.frame.payloadMaxSize acc'
  source : ∃ used, o.consumed = used.reduceOption ∧
    e.transport.incoming = used ++ e'.transport.incoming
  pump : (receiver e.frame.payloadMaxSize).pump acc e.transport.incoming =
    (found, acc', e'.transport.incoming)

theorem frameOf_encode (fr : Frame) : frameOf fr.encode = fr := by
  have hm : (List.replicate 8 fr.marker).length = 8 := List.length_replicate
  have hseq := load_seq (s := fr.seqByte) (v := fr.size) (w := fr.crc) (d := fr.payload) hm
  rw [load] at hseq
  rw [frameOf, Frame.encode, hseq, headerLength_eq, List.drop_left' (fields_length hm)]
  rfl

theorem recognised_eq {acc : List UInt8} (h : Holds f acc)
    (hp : Pending f.payloadMaxSize acc) (incoming : List (Option UInt8)) :
    recognised f incoming =
      ((receiver f.payloadMaxSize).pump acc incoming).1.bind RxEvent.frame? := by
  obtain ⟨g, hread, -, hleft, -⟩ := readFrame_spec h hp incoming
  generalize (receiver f.payloadMaxSize).pump acc incoming = p at *
  obtain ⟨o, acc', rest⟩ := p
  dsimp only at hread hleft ⊢
  rw [recognised]
  simp only [hread, Option.bind_eq_bind, Option.bind_some]
  obtain _ | e := o
  · rfl
  · cases e with
    | frame fr =>
      obtain ⟨-, hold, -⟩ := hleft
      rw [if_pos (show readCode (some (RxEvent.frame fr)) = success from rfl), hold.count,
        hold.contents, frameOf_encode]
      rfl
    | crcError => rfl
    | overflow => rfl

theorem writtenBetween_reply (t : Transport) (incoming : List (Option UInt8))
    (fr : Option Frame) :
    writtenBetween t (Transport.reply { t with incoming } fr) <+: replyBytes fr ∧
      (t.Succeeds →
        writtenBetween t (Transport.reply { t with incoming } fr) = replyBytes fr ∧
          (Transport.reply { t with incoming } fr).Succeeds) := by
  obtain _ | fr := fr
  · have hnil : writtenBetween t { t with incoming } = [] := List.drop_length
    exact ⟨by rw [Transport.reply, hnil]; exact List.nil_prefix, fun h => ⟨hnil, h⟩⟩
  · obtain ⟨pre, hpre, hw, -⟩ := Transport.writeAll_written fr.encode { t with incoming }
    have hdrop : writtenBetween t (Transport.reply { t with incoming } (some fr)) = pre := by
      rw [Transport.reply, writtenBetween, hw, List.drop_left]
    refine ⟨hdrop ▸ hpre, ?_⟩
    intro h
    obtain ⟨-, hall, hsucceeds⟩ := Transport.writeAll_ok fr.encode (t := { t with incoming }) h
    rw [Transport.reply, writtenBetween, hall]
    exact ⟨List.drop_left, hsucceeds⟩

/-- **What a call of get shows.** -/
theorem exec_get {acc : List UInt8} (h : Holds e.frame acc)
    (hp : Pending e.frame.payloadMaxSize acc) :
    ∃ found acc' o e', e.exec .get = some (o, e') ∧ Got e acc found acc' o e' := by
  obtain ⟨g, hget, hrec, hold, hpend⟩ := frameArqGet_spec h hp e.transport
  obtain ⟨used, hsrc, hfeed⟩ :=
    Decoder.pump_spec (D := receiver e.frame.payloadMaxSize) acc e.transport.incoming
  have hrecv := recognised_eq h hp e.transport.incoming
  rcases hpump : (receiver e.frame.payloadMaxSize).pump acc e.transport.incoming with
    ⟨found, acc', rest⟩
  rw [hpump] at hget hrec hold hpend hsrc hfeed hrecv
  dsimp only at hget hrec hold hpend hsrc hfeed hrecv
  have hexec := Endpoint.exec_of_perform (e := e) (c := .get) hget
  obtain ⟨hwritten, hreplied⟩ :=
    writtenBetween_reply e.transport rest (e.frame.arq.react found).reply
  have hin : (Transport.reply { e.transport with incoming := rest }
      (e.frame.arq.react found).reply).incoming = rest := Transport.reply_incoming _ _
  have hconsumed : consumedBetween e.transport (Transport.reply
      { e.transport with incoming := rest } (e.frame.arq.react found).reply) =
      used.reduceOption := by
    rw [consumedBetween, hin, hsrc, List.length_append, Nat.add_sub_cancel, List.take_left]
  refine ⟨found, acc', _, _, hexec, rfl, rfl, rfl, ?_, ?_, hwritten, hreplied, ?_, hrec, hold,
    hpend, ⟨used, hconsumed, ?_⟩, ?_⟩
  · simpa using hrecv
  · dsimp only
    rw [hconsumed, hfeed]
  · dsimp only
    rw [hin]
  · dsimp only
    rw [hin]
    exact hsrc
  · dsimp only
    rw [hin, hpump]

/-- Inversion: every call of get is of that form. -/
theorem Got.of_exec {acc : List UInt8} {o : Outcome} {e' : Endpoint} (h : Holds e.frame acc)
    (hp : Pending e.frame.payloadMaxSize acc) (hs : e.exec .get = some (o, e')) :
    ∃ found acc', Got e acc found acc' o e' := by
  obtain ⟨found, acc', o', e'', hs', hgot⟩ := exec_get h hp
  obtain ⟨rfl, rfl⟩ := Prod.mk.inj (Option.some.inj (hs'.symm.trans hs))
  exact ⟨found, acc', hgot⟩

theorem Pending.feed {M : ℕ} {acc : List UInt8} (h : Pending M acc) (bytes : List UInt8) :
    Pending M ((receiver M).feed acc bytes).2 := by
  induction bytes generalizing acc with
  | nil => exact h
  | cons b bytes ih =>
    rcases hv : verdict M (pushByte acc b) with _ | ev
    · rw [Decoder.feed_cons_none (D := receiver M) hv]
      exact ih (h.push hv)
    · rw [Decoder.feed_cons_some (D := receiver M) hv]
      exact ih (pending_nil M)

/-- **What get finds ends at the last byte it took**, and no earlier byte decided anything. -/
theorem Got.found_at {acc acc' : List UInt8} {ev : RxEvent} {o : Outcome} {e' : Endpoint}
    (h : Got e acc (some ev) acc' o e') :
    ∃ init b acc₁, o.consumed = init ++ [b] ∧
      (receiver e.frame.payloadMaxSize).feed acc init = ([], acc₁) ∧
      verdict e.frame.payloadMaxSize (pushByte acc₁ b) = some ev ∧ acc' = [] := by
  obtain ⟨init, b, acc₁, hsrc, hfeed, hv, hinit⟩ := Decoder.pump_some h.pump
  obtain ⟨used, hcons, hsrc'⟩ := h.source
  have hused : used = init.map some ++ [some b] := by
    refine List.append_cancel_right (hsrc'.symm.trans (hsrc.trans ?_))
    simp
  refine ⟨init, b, acc₁, ?_, hfeed, hv, hinit⟩
  rw [hcons, hused, List.reduceOption_append, List.reduceOption_singleton]
  simp [List.reduceOption]

/-- **A frame that get finds** is the encoding at the end of the bytes assembled. -/
theorem Got.encode {acc acc' : List UInt8} {fr : Frame} {o : Outcome} {e' : Endpoint}
    (hp : Pending e.frame.payloadMaxSize acc) (h : Got e acc (some (.frame fr)) acc' o e') :
    fr.Fits e.frame.payloadMaxSize ∧ acc' = [] ∧
      ∃ init b acc₁, o.consumed = init ++ [b] ∧
        (receiver e.frame.payloadMaxSize).feed acc init = ([], acc₁) ∧
        pushByte acc₁ b = fr.encode := by
  obtain ⟨init, b, acc₁, hcons, hfeed, hv, hinit⟩ := h.found_at
  have hp₁ := hp.feed init
  rw [hfeed] at hp₁
  obtain ⟨henc, hfits⟩ := hp₁.encode_of_push hv
  exact ⟨hfits, hinit, init, b, acc₁, hcons, hfeed, henc⟩

/-! ## What every call does -/

/-- `bytes` was streamed out: a prefix of it was written, all of it if the call returns
success; otherwise the value returned is the one with which the callback refused the byte that
follows. -/
structure Wrote (t t' : Transport) (bytes : List UInt8) (ret : Int) (written : List UInt8) :
    Prop where
  incoming : t'.incoming = t.incoming
  pre : written <+: bytes
  result : ret = success ∧ written = bytes ∨ ret < 0
  refused : ret < 0 → (∃ b, written ++ [b] <+: bytes) ∧ t.results[written.length]? = some ret
  ok : t.Succeeds → ret = success ∧ written = bytes ∧ t'.Succeeds

omit [Build] in
theorem wrote_writeAll (t : Transport) (bytes : List UInt8) :
    Wrote t (t.writeAll bytes).2 bytes (t.writeAll bytes).1
      (writtenBetween t (t.writeAll bytes).2) := by
  obtain ⟨pre, hpre, hw, hret⟩ := Transport.writeAll_written bytes t
  have hdrop : writtenBetween t (t.writeAll bytes).2 = pre := by
    rw [writtenBetween, hw, List.drop_left]
  rw [hdrop]
  refine ⟨Transport.writeAll_incoming bytes t, hpre, hret, ?_, ?_⟩
  · intro h
    obtain ⟨pre', b, hpre', hw', hres⟩ := Transport.writeAll_refused bytes h
    obtain rfl := List.append_cancel_left (hw.symm.trans hw')
    exact ⟨⟨b, hpre'⟩, hres⟩
  · intro h
    obtain ⟨hsuccess, hall, hsucceeds⟩ := Transport.writeAll_ok bytes h
    exact ⟨hsuccess, (List.append_cancel_left (hall.symm.trans hw)).symm, hsucceeds⟩

/-- What a call on an endpoint that has assembled `acc` can do: the outcome it shows, the
endpoint and the assembled bytes it leaves. -/
inductive Performs (e : Endpoint) (acc : List UInt8) :
    Outcome → Endpoint → List UInt8 → Prop where
  | got {found acc' o e'} (h : Got e acc found acc' o e') : Performs e acc o e' acc'
  | rejected {cmd payload ret} (hnot : ¬ Accepts e.frame cmd payload.size)
      (hret : ret = errorArg ∨ ret = errorOverflow ∨ ret = errorBusy) :
      Performs e acc ⟨.put cmd payload, ret, none, none, [], []⟩ e acc
  | accepted {cmd payload ret written t'} (hacc : Accepts e.frame cmd payload.size)
      (hw : Wrote e.transport t'
        (e.frame.putFrame cmd payload.pointer payload.size).encode ret written) :
      Performs e acc ⟨.put cmd payload, ret, none, none, [], written⟩
        ⟨e.frame.sent (e.frame.putFrame cmd payload.pointer payload.size), t'⟩ acc
  | idle (hidle : e.frame.awaitingAck = false) :
      Performs e acc ⟨.resend, success, none, none, [], []⟩
        ⟨{ e.frame with resendNeeded := false }, e.transport⟩ acc
  | resent {ret written t'} (hwait : e.frame.awaitingAck = true)
      (hw : Wrote e.transport t' (e.frame.retainBuffer.take e.frame.retainLength) ret
        written) :
      Performs e acc ⟨.resend, ret, none, none, [], written⟩
        ⟨if ret < 0 then e.frame else { e.frame with resendNeeded := false }, t'⟩ acc
  | discarded :
      Performs e acc ⟨.discard, success, none, none, [], []⟩
        ⟨{ e.frame with byteCount := 0 }, e.transport⟩ []
  | restarted :
      Performs e acc ⟨.reset, success, none, none, [], []⟩
        ⟨(frameArqReset .valid e.frame e.transport).frame, e.transport⟩ []

omit [Build] in
@[simp] theorem consumedBetween_of_incoming {t t' : Transport} (h : t'.incoming = t.incoming) :
    consumedBetween t t' = [] := by
  rw [consumedBetween, h, Nat.sub_self]
  rfl

omit [Build] in
@[simp] theorem writtenBetween_self (t : Transport) : writtenBetween t t = [] :=
  List.drop_length

/-- Inversion of `exec` for a call other than get. -/
theorem exec_other {c : Call} {o : Outcome} {e' : Endpoint} {r : Result} (hc : c ≠ .get)
    (hr : e.perform c = some r) (hs : e.exec c = some (o, e'))
    (hin : r.transport.incoming = e.transport.incoming) :
    o = ⟨c, r.ret, r.out, none, [], writtenBetween e.transport r.transport⟩ ∧
      e' = ⟨r.frame, r.transport⟩ := by
  rw [Endpoint.exec_of_perform hr, if_neg hc, consumedBetween_of_incoming hin] at hs
  obtain ⟨rfl, rfl⟩ := Prod.mk.inj (Option.some.inj hs)
  exact ⟨rfl, rfl⟩

/-- **What every call does.** -/
theorem Ok.performs {acc : List UInt8} {c : Call} {o : Outcome} {e' : Endpoint}
    (h : Ok e.frame) (hold : Holds e.frame acc) (hp : Pending e.frame.payloadMaxSize acc)
    (hs : e.exec c = some (o, e')) : o.call = c ∧ ∃ acc', Performs e acc o e' acc' := by
  obtain ⟨r, hr, -⟩ := Endpoint.exec_eq_some hs
  -- put and resend write all of their frame or nothing; discard and reset write nothing
  cases c with
  | get =>
    obtain ⟨found, acc', hgot⟩ := Got.of_exec hold hp hs
    exact ⟨hgot.call, acc', .got hgot⟩
  | put cmd payload =>
    by_cases hacc : Accepts e.frame cmd payload.size
    · have hr' := frameArqPut_some hacc h.retain h.fits payload.size_le hr
      have hw := wrote_writeAll e.transport
        (e.frame.putFrame cmd payload.pointer payload.size).encode
      subst hr'
      obtain ⟨rfl, rfl⟩ := exec_other (by simp) hr hs hw.incoming
      exact ⟨rfl, acc, .accepted hacc hw⟩
    · obtain ⟨v, hv, heq⟩ :=
        frameArqPut_rejected hacc payload.pointer e.transport
      obtain rfl := Option.some.inj (heq.symm.trans hr)
      obtain ⟨rfl, rfl⟩ := exec_other (by simp) hr hs rfl
      rw [writtenBetween_self]
      exact ⟨rfl, acc, .rejected hacc hv⟩
  | resend =>
    rcases h.resend_eq e.transport with ⟨hidle, heq⟩ | ⟨hwait, heq⟩
    · obtain rfl := Option.some.inj (heq.symm.trans hr)
      obtain ⟨rfl, rfl⟩ := exec_other (by simp) hr hs rfl
      rw [writtenBetween_self]
      exact ⟨rfl, acc, .idle hidle⟩
    · have hw := wrote_writeAll e.transport (e.frame.retainBuffer.take e.frame.retainLength)
      obtain rfl := Option.some.inj (heq.symm.trans hr)
      obtain ⟨rfl, rfl⟩ := exec_other (by simp) hr hs hw.incoming
      exact ⟨rfl, acc, .resent hwait hw⟩
  | discard =>
    obtain rfl := Option.some.inj hr
    obtain ⟨rfl, rfl⟩ := exec_other (by simp) hr hs rfl
    have hnone : writtenBetween e.transport (frameArqDiscard .valid e.frame e.transport).transport =
        [] := writtenBetween_self e.transport
    rw [hnone]
    exact ⟨rfl, [], .discarded⟩
  | reset =>
    obtain rfl := Option.some.inj hr
    obtain ⟨rfl, rfl⟩ := exec_other (by simp) hr hs rfl
    have hnone : writtenBetween e.transport (frameArqReset .valid e.frame e.transport).transport =
        [] := writtenBetween_self e.transport
    rw [hnone]
    exact ⟨rfl, [], .restarted⟩

/-! ## Every call keeps the invariant -/

/-! What each call can do, by the call that the outcome shows. -/

section

variable {acc acc' : List UInt8} {o : Outcome} {e' : Endpoint}

theorem Performs.of_get (h : Performs e acc o e' acc') (hcall : o.call = .get) :
    ∃ found, Got e acc found acc' o e' := by
  cases h with
  | got hgot => exact ⟨_, hgot⟩
  | rejected => cases hcall
  | accepted => cases hcall
  | idle => cases hcall
  | resent => cases hcall
  | discarded => cases hcall
  | restarted => cases hcall

theorem Performs.of_put {cmd : UInt8} {payload : Payload} (h : Performs e acc o e' acc')
    (hcall : o.call = .put cmd payload) :
    (¬ Accepts e.frame cmd payload.size ∧ e' = e ∧ acc' = acc ∧
        ∃ ret, (ret = errorArg ∨ ret = errorOverflow ∨ ret = errorBusy) ∧
          o = ⟨.put cmd payload, ret, none, none, [], []⟩) ∨
      (Accepts e.frame cmd payload.size ∧ acc' = acc ∧ ∃ ret written t',
        Wrote e.transport t' (e.frame.putFrame cmd payload.pointer payload.size).encode ret
          written ∧
        o = ⟨.put cmd payload, ret, none, none, [], written⟩ ∧
        e' = ⟨e.frame.sent (e.frame.putFrame cmd payload.pointer payload.size), t'⟩) := by
  cases h with
  | got hgot => exact absurd (hgot.call.symm.trans hcall) (by simp)
  | rejected hnot hret =>
    cases hcall
    exact Or.inl ⟨hnot, rfl, rfl, _, hret, rfl⟩
  | accepted hacc hw =>
    cases hcall
    exact Or.inr ⟨hacc, rfl, _, _, _, hw, rfl, rfl⟩
  | idle => cases hcall
  | resent => cases hcall
  | discarded => cases hcall
  | restarted => cases hcall

theorem Performs.of_resend (h : Performs e acc o e' acc') (hcall : o.call = .resend) :
    acc' = acc ∧
      ((e.frame.awaitingAck = false ∧ o = ⟨.resend, success, none, none, [], []⟩ ∧
          e' = ⟨{ e.frame with resendNeeded := false }, e.transport⟩) ∨
        (e.frame.awaitingAck = true ∧ ∃ ret written t',
          Wrote e.transport t' (e.frame.retainBuffer.take e.frame.retainLength) ret written ∧
          o = ⟨.resend, ret, none, none, [], written⟩ ∧
          e' = ⟨if ret < 0 then e.frame else { e.frame with resendNeeded := false }, t'⟩)) := by
  cases h with
  | got hgot => exact absurd (hgot.call.symm.trans hcall) (by simp)
  | rejected => cases hcall
  | accepted => cases hcall
  | idle hidle => exact ⟨rfl, Or.inl ⟨hidle, rfl, rfl⟩⟩
  | resent hwait hw => exact ⟨rfl, Or.inr ⟨hwait, _, _, _, hw, rfl, rfl⟩⟩
  | discarded => cases hcall
  | restarted => cases hcall

theorem Performs.of_reset (h : Performs e acc o e' acc') (hcall : o.call = .reset) :
    acc' = [] ∧ o = ⟨.reset, success, none, none, [], []⟩ ∧
      e' = ⟨(frameArqReset .valid e.frame e.transport).frame, e.transport⟩ := by
  cases h with
  | got hgot => exact absurd (hgot.call.symm.trans hcall) (by simp)
  | rejected => cases hcall
  | accepted => cases hcall
  | idle => cases hcall
  | resent => cases hcall
  | discarded => cases hcall
  | restarted => exact ⟨rfl, rfl, rfl⟩

end

/-- **A put that returns success** was accepted, and wrote the frame of the message. -/
theorem Ok.put_success {cmd : UInt8} {payload : Payload} {o : Outcome} {e' : Endpoint}
    (h : Ok e.frame) (hs : e.exec (.put cmd payload) = some (o, e')) (hret : o.ret = success) :
    Accepts e.frame cmd payload.size ∧
      o.written = (e.frame.putFrame cmd payload.pointer payload.size).encode ∧
      e'.frame = e.frame.sent (e.frame.putFrame cmd payload.pointer payload.size) := by
  obtain ⟨acc, hold, hp⟩ := h.rx
  obtain ⟨hcall, acc', hperf⟩ := h.performs hold hp hs
  rcases hperf.of_put hcall with
    ⟨-, -, -, ret, herr, rfl⟩ | ⟨hacc, -, ret, written, t', hw, rfl, rfl⟩
  · have hneg : ret ≠ success := by
      rcases herr with rfl | rfl | rfl <;> decide
    exact absurd hret hneg
  · refine ⟨hacc, ?_, rfl⟩
    rcases hw.result with ⟨-, hall⟩ | hneg
    · exact hall
    · rw [show ret = success from hret] at hneg
      exact absurd hneg (by decide)

/-- What a call leaves assembled is what the buffer holds. -/
theorem Performs.holds {acc acc' : List UInt8} {o : Outcome} {e' : Endpoint}
    (hold : Holds e.frame acc) (hp : Pending e.frame.payloadMaxSize acc)
    (h : Performs e acc o e' acc') :
    Holds e'.frame acc' ∧ Pending e.frame.payloadMaxSize acc' := by
  cases h with
  | got h => exact ⟨h.holds, h.pending⟩
  | rejected => exact ⟨hold, hp⟩
  | accepted => exact ⟨hold.of_eq rfl rfl rfl rfl, hp⟩
  | idle => exact ⟨hold.of_eq rfl rfl rfl rfl, hp⟩
  | resent hwait hw =>
    refine ⟨?_, hp⟩
    dsimp only
    split_ifs
    · exact hold
    · exact hold.of_eq rfl rfl rfl rfl
  | discarded => exact ⟨hold.clear, pending_nil _⟩
  | restarted => exact ⟨hold.clear.of_eq rfl rfl rfl rfl, pending_nil _⟩

/-- One call: the invariant holds of the controller it leaves, and the maximum is the
same. -/
theorem Ok.exec {e' : Endpoint} {c : Call} {o : Outcome} (h : Ok e.frame)
    (hs : e.exec c = some (o, e')) :
    Ok e'.frame ∧ e'.frame.payloadMaxSize = e.frame.payloadMaxSize := by
  obtain ⟨acc, hold, hpend⟩ := h.rx
  obtain ⟨-, acc', hperf⟩ := h.performs hold hpend hs
  cases hperf with
  | got hgot =>
    refine ⟨h.received hgot.frame hgot.holds hgot.pending, ?_⟩
    obtain ⟨_, ⟨_, _, _, hk⟩, heq⟩ := hgot.frame
    rw [heq, hk]
    rfl
  | rejected => exact ⟨h, rfl⟩
  | @accepted cmd payload ret written t' hacc hw => exact ⟨h.sent hacc payload.size_le, rfl⟩
  | idle => exact ⟨h.clearResend, rfl⟩
  | resent =>
    dsimp only
    split_ifs
    · exact ⟨h, rfl⟩
    · exact ⟨h.clearResend, rfl⟩
  | discarded => exact ⟨h.discard, rfl⟩
  | restarted => exact ⟨h.reset e.transport, rfl⟩

/-- Every call is defined, unless it puts a frame that overflows the `int` counter. -/
theorem perform_isSome (h : Ok e.frame) {c : Call}
    (hint : ∀ cmd payload, c = .put cmd payload → Accepts e.frame cmd payload.size →
      payload.size + 17 < 2 ^ 31) : ∃ r, e.perform c = some r := by
  cases c with
  | get =>
    obtain ⟨acc, hold, hpend⟩ := h.rx
    obtain ⟨g, hget, -⟩ := frameArqGet_spec hold hpend e.transport
    exact ⟨_, hget⟩
  | put cmd payload =>
    by_cases hacc : Accepts e.frame cmd payload.size
    · exact ⟨_, frameArqPut_accepted hacc h.retain h.fits payload.size_le
        (hint cmd payload rfl hacc) e.transport⟩
    · obtain ⟨v, -, heq⟩ := frameArqPut_rejected hacc payload.pointer e.transport
      exact ⟨_, heq⟩
  | resend =>
    rcases h.resend_eq e.transport with ⟨-, heq⟩ | ⟨-, heq⟩
    · exact ⟨_, heq⟩
    · exact ⟨_, heq⟩
  | discard => exact ⟨_, rfl⟩
  | reset => exact ⟨_, rfl⟩

/-- Every call is defined if no frame can be so long. -/
theorem perform_isSome_of_max (h : Ok e.frame) (hint : e.frame.payloadMaxSize + 17 < 2 ^ 31)
    (c : Call) : ∃ r, e.perform c = some r :=
  perform_isSome h fun _ _ _ hacc => by have := hacc.2.2.1; omega

end

/-! ## Runs -/

/-- A run of an endpoint over a list of calls, with what each call shows. -/
def Endpoint.run [Build] (e : Endpoint) (calls : List Call) :
    Option (List Outcome × Endpoint) := Runs.run Endpoint.exec e calls

/-- The invariant, in terms of the fields of `frame_arq_t`. -/
structure RepInv [Build] (M : ℕ) (f : FrameArqT) : Prop where
  txSeq : f.txSeq ≤ 63
  expectedRxSeq : f.expectedRxSeq ≤ 63
  resendNeeded : f.resendNeeded = true → f.awaitingAck = true
  retained : f.awaitingAck = true →
    17 ≤ f.retainLength ∧ f.retainLength ≤ M + 17 ∧
      ∃ cmd payload, 1 ≤ cmd ∧ cmd ≤ 127 ∧
        f.retainBuffer.take f.retainLength = (dataFrame cmd f.txSeq payload).encode
  marker : 0 < f.byteCount → 128 ≤ f.start ∧
    ∀ i < min f.byteCount 8, f.readBuffer[i]? = some f.start
  length : 17 ≤ f.byteCount → ∃ size, sizeFromFrame f = some size ∧ 1 ≤ size ∧ size ≤ M ∧
    f.byteCount < 17 + size

theorem Ok.repInv [Build] {f : FrameArqT} (h : Ok f) : RepInv f.payloadMaxSize f := by
  obtain ⟨acc, hold, hpend⟩ := h.rx
  have hcount := hold.count
  refine ⟨h.txSeq_le, h.expectedRxSeq_le, h.resend, ?_, ?_,
    ?_⟩
  · intro hwait
    obtain ⟨cmd, payload, hlo, hhi, hle, hlen, hbuf⟩ := h.retained hwait
    have henc := (dataFrame cmd f.txSeq payload).encode_length
    have hpay : (dataFrame cmd f.txSeq payload).payload = payload := rfl
    rw [hpay] at henc
    exact ⟨by omega, by omega, cmd, payload, hlo, hhi, hbuf⟩
  -- the bytes assembled begin with a run of the candidate
  · intro hpos
    obtain ⟨c, hc, htake⟩ := hpend.run
    have hget : ∀ i < min f.byteCount 8, acc[i]? = some c := by
      intro i hi
      have hi8 : (acc.take 8)[i]? = acc[i]? := by
        rw [List.getElem?_take, if_pos (by omega)]
      rw [← hi8, htake, List.getElem?_replicate, if_pos (by omega)]
    have hstart : f.start = c := by
      apply hold.start
      rw [List.head?_eq_getElem?]
      exact hget 0 (by omega)
    refine ⟨hstart ▸ hc, ?_⟩
    intro i hi
    have := hold.load_eq (i := i) (by omega)
    unfold load at this
    rw [this, hget i hi, hstart]
  · intro h17
    obtain ⟨v, hv, hM, hlt⟩ := hpend.size (by omega)
    exact ⟨v.toNat, hold.sizeFromFrame_eq (by omega) hv, by omega, hM, by omega⟩

/-- **Every run exists and keeps the invariant**, from any state that satisfies it. -/
theorem Ok.run [Build] {e : Endpoint} (h : Ok e.frame)
    (hint : e.frame.payloadMaxSize + 17 < 2 ^ 31) (calls : List Call) :
    ∃ outs e', e.run calls = some (outs, e') ∧ Ok e'.frame ∧
      e'.frame.payloadMaxSize = e.frame.payloadMaxSize := by
  refine run_total (P := fun (_ : List Outcome) (e' : Endpoint) => Ok e'.frame ∧
    e'.frame.payloadMaxSize = e.frame.payloadMaxSize) (A := fun _ => True)
    (h := []) ?_ ⟨h, rfl⟩ (fun _ _ => trivial)
  intro _ e₁ c ⟨hok, hmax⟩ _
  obtain ⟨r, hr⟩ := perform_isSome_of_max hok (by rw [hmax]; exact hint) c
  have hexec := Endpoint.exec_of_perform hr
  obtain ⟨hok', hmax'⟩ := hok.exec hexec
  exact ⟨_, _, hexec, hok', hmax'.trans hmax⟩

/-- **Representation invariant and buffer safety.** On storage of the documented size,
every sequence of calls with any transport is defined, so no access to `read_buffer` or
`retain_buffer` is outside its `payloadMaxSize + 17` bytes, and it ends in a state that
satisfies the invariant. -/
theorem create_run_repInv [Build] (s : Storage) (hint : s.payloadMaxSize + 17 < 2 ^ 31)
    (t : Transport) (calls : List Call) :
    ∃ outs e, Endpoint.run ⟨s.create, t⟩ calls = some (outs, e) ∧
      e.frame.readBuffer.length = s.payloadMaxSize + 17 ∧
      e.frame.retainBuffer.length = s.payloadMaxSize + 17 ∧
      RepInv s.payloadMaxSize e.frame := by
  obtain ⟨outs, e, hrun, hok, hmax⟩ :=
    Ok.run (e := ⟨s.create, t⟩) s.create_ok hint calls
  have hmax' : e.frame.payloadMaxSize = s.payloadMaxSize := hmax
  obtain ⟨acc, hold, -⟩ := hok.rx
  exact ⟨outs, e, hrun, hmax' ▸ hold.buffer, hmax' ▸ hok.retain, hmax' ▸ hok.repInv⟩

theorem create_run_repInv_one :
    letI : Build := build32
    ∃ outs e, Endpoint.run ⟨(Storage.zeroed 1 (by decide)).create, ⟨[some 129, none], [], []⟩⟩
        [.get, .put 1 (.bytes [7]), .resend, .discard, .reset] = some (outs, e) ∧
      e.frame.readBuffer.length = 1 + 17 ∧ e.frame.retainBuffer.length = 1 + 17 ∧
      RepInv 1 e.frame :=
  letI : Build := build32
  create_run_repInv (Storage.zeroed 1 (by decide)) (by decide) _ _

/-! ## Where runs begin -/

/-- A controller that some run from a creation leaves. -/
def Reachable [Build] (f : FrameArqT) : Prop :=
  ∃ (s : Storage) (t : Transport) (calls : List Call) (outs : List Outcome) (e : Endpoint),
    Endpoint.run ⟨s.create, t⟩ calls = some (outs, e) ∧ e.frame = f

/-- A controller just after its creation or a reset. -/
inductive Begins [Build] : FrameArqT → Prop where
  | created (s : Storage) : Begins s.create
  | restarted {f : FrameArqT} (t : Transport) (h : Reachable f) :
      Begins (frameArqReset .valid f t).frame

theorem run_ok [Build] {e e' : Endpoint} {calls : List Call} {outs : List Outcome}
    (h : Ok e.frame) (hrun : e.run calls = some (outs, e')) :
    Ok e'.frame ∧ e'.frame.payloadMaxSize = e.frame.payloadMaxSize := by
  refine run_invariant (h := []) (A := fun _ => True)
    (P := fun (_ : List Outcome) (k : Endpoint) => Ok k.frame ∧
      k.frame.payloadMaxSize = e.frame.payloadMaxSize) ?_ ⟨h, rfl⟩ (fun _ _ => trivial) hrun
  rintro _ k c o k' ⟨hok, hmax⟩ - hs
  obtain ⟨hok', hmax'⟩ := hok.exec hs
  exact ⟨hok', hmax'.trans hmax⟩

/-- The bytes a call consumes are those it takes from the transport. -/
theorem Performs.source [Build] {e e' : Endpoint} {acc acc' : List UInt8} {o : Outcome}
    (h : Performs e acc o e' acc') :
    ∃ used, e.transport.incoming = used ++ e'.transport.incoming ∧
      used.reduceOption = o.consumed := by
  cases h with
  | got h =>
    obtain ⟨used, hcons, hsrc⟩ := h.source
    exact ⟨used, hsrc, hcons.symm⟩
  | rejected => exact ⟨[], rfl, rfl⟩
  | accepted hacc hw => exact ⟨[], hw.incoming.symm, rfl⟩
  | idle => exact ⟨[], rfl, rfl⟩
  | resent hwait hw => exact ⟨[], hw.incoming.symm, rfl⟩
  | discarded => exact ⟨[], rfl, rfl⟩
  | restarted => exact ⟨[], rfl, rfl⟩

/-- A transport that takes every byte goes on to do so. -/
theorem Performs.succeeds [Build] {e e' : Endpoint} {acc acc' : List UInt8} {o : Outcome}
    (h : Performs e acc o e' acc') (ht : e.transport.Succeeds) : e'.transport.Succeeds := by
  cases h with
  | got h => exact (h.replied ht).2
  | rejected => exact ht
  | accepted hacc hw => exact (hw.ok ht).2.2
  | idle => exact ht
  | resent hwait hw => exact (hw.ok ht).2.2
  | discarded => exact ht
  | restarted => exact ht

/-- **The bytes consumed in a run**, call after call, are those taken from the transport. -/
theorem run_source [Build] {e e' : Endpoint} {calls : List Call} {outs : List Outcome}
    (h : Ok e.frame) (hrun : e.run calls = some (outs, e')) :
    ∃ used, e.transport.incoming = used ++ e'.transport.incoming ∧
      used.reduceOption = outs.flatMap Outcome.consumed := by
  refine (run_invariant (h := []) (A := fun _ => True) (P := fun outs k => Ok k.frame ∧
    ∃ used, e.transport.incoming = used ++ k.transport.incoming ∧
      used.reduceOption = outs.flatMap Outcome.consumed) ?_ ⟨h, [], rfl, rfl⟩
    (fun _ _ => trivial) hrun).2
  rintro outs k c o k' ⟨hok, used, hsrc, hused⟩ - hs
  obtain ⟨acc, hold, hp⟩ := hok.rx
  obtain ⟨-, acc', hperf⟩ := hok.performs hold hp hs
  obtain ⟨used', hsrc', hused'⟩ := hperf.source
  refine ⟨(hok.exec hs).1, used ++ used', ?_, ?_⟩
  · rw [hsrc, hsrc', List.append_assoc]
  · rw [List.reduceOption_append, hused, hused', List.flatMap_append, List.flatMap_singleton]

theorem Reachable.ok [Build] {f : FrameArqT} (h : Reachable f) : Ok f := by
  obtain ⟨s, t, calls, outs, e, hrun, rfl⟩ := h
  exact (run_ok s.create_ok hrun).1

/-- The state at the beginning of a run. -/
theorem Begins.spec [Build] {f : FrameArqT} (h : Begins f) :
    Ok f ∧ Holds f [] ∧ f.arq = ⟨faSeqMask, 0, false, false⟩ := by
  cases h with
  | created s =>
    exact ⟨s.create_ok, ⟨s.readBuffer_length, s.fits, rfl, rfl, by simp⟩, rfl⟩
  | restarted t h =>
    obtain ⟨_, hold, -⟩ := h.ok.rx
    exact ⟨h.ok.reset t, hold.clear.of_eq rfl rfl rfl rfl, rfl⟩

end HtcwFrameArq
