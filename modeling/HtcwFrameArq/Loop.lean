import HtcwFrameArq.Firmware
import HtcwFrameArq.Endpoint

/-!
# The loop of the demo

`loop` of `main.cpp` calls the library up to three times: `get`, then a `resend` if a NACK came, the
`put` of a response that is queued, and a `resend` when the frame of a response has not been
acknowledged for `ACK_TIMEOUT_MS`. What a command prints goes out on the same line. The two sources
of corruption that can be compiled in are left out.

A `Library` is what the handle of the sketch designates. `Library.loop_spec` says what one turn
does, `loop_runs` what becomes of the responses in a run, and `loop_timer` that none waits longer
than the timeout to be sent again, whatever `millis` wraps around to. Both are about a run up to the
command that the firmware is not built for.
-/

namespace HtcwFrameArq

namespace Firmware

open BuffersGenC hiding Outcome

/-! ## One turn -/

/-- `ACK_TIMEOUT_MS` -/
def ackTimeoutMs : UInt32 := 500

/-- `millis`, at a time since the start -/
def millis (time : ℕ) : UInt32 := UInt32.ofNat time

/-- What a turn finds: the board, and when it reads the clock. -/
structure Turn extends Board where
  /-- after the `resend` that a NACK asks for -/
  resentAt : ℕ
  /-- after the `put` -/
  sentAt : ℕ
  /-- when it looks at the timer -/
  checkedAt : ℕ
  /-- after the `resend` of the timer -/
  retriedAt : ℕ
  resent_le : resentAt ≤ sentAt
  sent_le : sentAt ≤ checkedAt
  checked_le : checkedAt ≤ retriedAt

/-- What `frame_handle` designates, what its calls do, and the line on which its frames and what is
printed go out. -/
structure Library (σ : Type) where
  frame : σ → FrameArqT
  call : Call → σ → Option (Outcome × σ)
  /-- some bytes go out -/
  print : List UInt8 → σ → σ

/-- The bytes of `Serial.println`. -/
def lineBytes (line : String) : List UInt8 :=
  (line.toList ++ ['\r', '\n']).map fun c => UInt8.ofNat c.toNat

/-- The lines are printed. -/
def Library.printLines {σ : Type} (L : Library σ) (outs : List Output) (x : σ) : σ :=
  outs.foldl (fun x out =>
    match out with
    | .println line => L.print (lineBytes line) x
    | .pin _ => x) x

/-- The library awaits an ACK. -/
def Library.awaitingAck {σ : Type} (L : Library σ) (x : σ) : Bool :=
  frameArqAwaitingAck .valid (L.frame x)

/-- The next call of get returns `CMD_RNG`, for which the firmware does not compile. -/
def Library.GetsRng {σ : Type} (L : Library σ) (x : σ) : Prop :=
  ∃ o x', L.call .get x = some (o, x') ∧ o.ret = cmdRng.toNat

/-- The library performs calls, one after the other, and ASCII text is printed between them. -/
inductive Library.Trace {σ : Type} (L : Library σ) : σ → List Outcome → σ → Prop where
  | nil (x : σ) : L.Trace x [] x
  | cons {x x₁ x' : σ} {o : Outcome} {os : List Outcome} (hcall : L.call o.call x = some (o, x₁))
      (h : L.Trace x₁ os x') : L.Trace x (o :: os) x'
  | print {x x' : σ} {os : List Outcome} {text : List UInt8} (htext : ∀ b ∈ text, b < 128)
      (h : L.Trace (L.print text x) os x') : L.Trace x os x'

theorem Library.Trace.append {σ : Type} {L : Library σ} {x x₁ x' : σ} {os more : List Outcome}
    (h : L.Trace x os x₁) (hmore : L.Trace x₁ more x') : L.Trace x (os ++ more) x' := by
  induction h with
  | nil x => exact hmore
  | cons hcall _ ih => exact .cons hcall (ih hmore)
  | print htext _ ih => exact .print htext (ih hmore)

theorem lineBytes_lt {line : String} (h : Plain line) : ∀ b ∈ lineBytes line, b < 128 := by
  intro b hb
  obtain ⟨c, hc, rfl⟩ := List.mem_map.mp hb
  have hlt : c.toNat < 128 := by
    rcases List.mem_append.mp hc with hc | hc
    · exact h c hc
    · have hends : ∀ c ∈ ['\r', '\n'], c.toNat < 128 := by simp
      exact hends c hc
  rw [UInt8.lt_iff_toNat_lt, UInt8.toNat_ofNat']
  exact lt_of_le_of_lt (Nat.mod_le _ _) hlt

theorem Library.Trace.printed {σ : Type} {L : Library σ} {outs : List Output}
    (hplain : ∀ line, .println line ∈ outs → Plain line) (x : σ) :
    L.Trace x [] (L.printLines outs x) := by
  induction outs generalizing x with
  | nil => exact .nil x
  | cons out outs ih =>
    have hrest := ih fun line h => hplain line (List.mem_cons_of_mem out h)
    cases out with
    | println line => exact .print (lineBytes_lt (hplain line List.mem_cons_self)) (hrest _)
    | pin act => exact hrest x

/-- What a turn shows. -/
structure Done where
  turn : Turn
  got : Outcome
  resent : Option Outcome
  sent : Option Outcome
  retried : Option Outcome
  outputs : List Output

/-- What it does to the pins. -/
def Done.acts (d : Done) : List PinAction := d.outputs.filterMap Output.action

section

variable {σ : Type} (L : Library σ) (t : Turn)

/-- 1) A NACK is answered with a `resend`, a command is handled. -/
def afterGet (got : Outcome) (s : Sketch) (x : σ) :
    Option ((Option Outcome × List Output) × Sketch × σ) :=
  if got.ret = resendNeededCode then do
    let r ← L.call .resend x
    some ((some r.1, []), { s with lastSendMs := millis t.resentAt }, r.2)
  else if 0 < got.ret then do
    let h ← handleCommand t.toBoard s got.ret (got.out.getD [])
    some ((none, h.2), h.1, L.printLines h.2 x)
  else some ((none, []), s, x)

/-- 2) A queued response is sent once the previous one has been acknowledged. -/
def sendQueued (s : Sketch) (x : σ) : Option (Option Outcome × Sketch × σ) :=
  if s.respPending = true ∧ L.awaitingAck x = false then do
    let r ← L.call (.put s.respCmd (.bytes (s.respBuffer.1.take s.respLen))) x
    if r.1.ret = success then
      some (some r.1, { s with respPending := false, lastSendMs := millis t.sentAt }, r.2)
    else if r.1.ret = errorBusy then some (some r.1, s, r.2)
    else some (some r.1, { s with respPending := false }, r.2)    -- drop rather than spin
  else some (none, s, x)

/-- 3) The retransmit timer. -/
def retransmit (s : Sketch) (x : σ) : Option (Option Outcome × Sketch × σ) :=
  if L.awaitingAck x = true ∧ ackTimeoutMs ≤ millis t.checkedAt - s.lastSendMs then do
    let r ← L.call .resend x
    some (some r.1, { s with lastSendMs := millis t.retriedAt }, r.2)
  else some (none, s, x)

/-- `loop` -/
def loop (s : Sketch) (x : σ) : Option (Done × Sketch × σ) := do
  let got ← L.call .get x
  let handled ← afterGet L t got.1 s got.2
  let sent ← sendQueued L t handled.2.1 handled.2.2
  let retried ← retransmit L t sent.2.1 sent.2.2
  some (⟨t, got.1, handled.1.1, sent.1, retried.1, handled.1.2⟩, retried.2)

end

/-! ## What the calls do -/

/-- What is to be sent again. -/
def retained (f : FrameArqT) : List UInt8 := f.retainBuffer.take f.retainLength

/-- The calls are those of the library, over a serial port that takes every byte. -/
structure Library.Faithful [Build] {σ : Type} (L : Library σ) : Prop where
  print_frame : ∀ text x, L.frame (L.print text x) = L.frame x
  exec : ∀ {c x o x'}, L.call c x = some (o, x') → ∃ t t' : Transport, t.results = [] ∧
    Endpoint.exec ⟨L.frame x, t⟩ c = some (o, ⟨L.frame x', t'⟩)
  defined : ∀ {c x}, (∀ t : Transport, ∃ r, Endpoint.exec ⟨L.frame x, t⟩ c = some r) →
    ∃ r, L.call c x = some r

/-- The controller is one that `setup` has created and that has been called since. -/
structure Ready [Build] (f : FrameArqT) : Prop where
  ok : Ok f
  max : f.payloadMaxSize = interfaceMaxSize

theorem interfaceMaxSize_eq : interfaceMaxSize = 16 := by decide +kernel

/-- What the frame handling returns for a message. -/
theorem handle_returns (a : Arq) {fr : Frame} (hret : 0 < (a.handle fr).ret) :
    ∃ cmd : UInt8, (a.handle fr).ret = cmd.toNat ∧ ∃ payload, (a.handle fr).out = some payload := by
  have hcases := a.handles fr
  generalize a.handle fr = r at hcases hret
  have hsuccess : ¬ 0 < success := by decide
  cases hcases with
  | acked => exact absurd hret hsuccess
  | nacked => exact (nomatch hret)
  | ignored => exact absurd hret hsuccess
  | delivered hdata hseq =>
    have hlt := fr.marker.toNat_lt
    dsimp only at hret ⊢
    refine ⟨UInt8.ofNat (fr.marker.toNat - 128), ?_, _, rfl⟩
    rw [UInt8.toNat_ofNat']
    omega
  | duplicate => exact absurd hret hsuccess
  | unexpected => exact absurd hret hsuccess

/-- What a call of get returns for a message. -/
theorem got_returns [Build] {e e' : Endpoint} {acc acc' : List UInt8} {found : Option RxEvent}
    {o : Outcome} (h : Got e acc found acc' o e') (hret : 0 < o.ret) :
    ∃ cmd : UInt8, o.ret = cmd.toNat ∧ ∃ payload, o.out = some payload := by
  rw [h.ret] at hret ⊢
  rw [h.out]
  obtain _ | ev := found
  · exact absurd hret (show ¬ 0 < success by decide)
  · cases ev with
    | crcError => exact (nomatch hret)
    | overflow => exact (nomatch hret)
    | frame fr => exact handle_returns e.frame.arq hret

section

variable [Build] {σ : Type} {L : Library σ} {x : σ}

theorem Library.printLines_frame (hL : L.Faithful) (outs : List Output) (x : σ) :
    L.frame (L.printLines outs x) = L.frame x := by
  induction outs generalizing x with
  | nil => rfl
  | cons out outs ih =>
    cases out with
    | println line => exact (ih _).trans (hL.print_frame _ x)
    | pin act => exact ih x

theorem Library.call_exists (hL : L.Faithful) (h : Ready (L.frame x)) (c : Call) :
    ∃ o x', L.call c x = some (o, x') ∧ o.call = c ∧ Ready (L.frame x') ∧ ∃ t t' : Transport,
      t.results = [] ∧ Endpoint.exec ⟨L.frame x, t⟩ c = some (o, ⟨L.frame x', t'⟩) := by
  obtain ⟨⟨o, x'⟩, hcall⟩ := hL.defined (c := c) (x := x) fun t => by
    obtain ⟨r, hr⟩ := perform_isSome_of_max (e := ⟨L.frame x, t⟩) h.ok
      (by rw [h.max, interfaceMaxSize_eq]; decide) c
    exact ⟨_, Endpoint.exec_of_perform hr⟩
  obtain ⟨t, t', hresults, hexec⟩ := hL.exec hcall
  obtain ⟨hok, hmax⟩ := h.ok.exec hexec
  obtain ⟨acc, hold, hpend⟩ := h.ok.rx
  exact ⟨o, x', hcall, (h.ok.performs hold hpend hexec).1, ⟨hok, hmax.trans h.max⟩, t, t', hresults,
    hexec⟩

/-- A call of get. -/
theorem Library.get_spec (hL : L.Faithful) (h : Ready (L.frame x)) :
    ∃ o x', L.call .get x = some (o, x') ∧ o.call = .get ∧ Ready (L.frame x') ∧
      (L.awaitingAck x' = true →
        L.awaitingAck x = true ∧ retained (L.frame x') = retained (L.frame x)) ∧
      (0 < o.ret → ∃ cmd : UInt8, o.ret = cmd.toNat ∧ ∃ payload, o.out = some payload) := by
  obtain ⟨o, x', hcall, hget, hready, t, t', -, hexec⟩ := L.call_exists hL h .get
  obtain ⟨acc, hold, hpend⟩ := h.ok.rx
  obtain ⟨found, acc', hgot⟩ := Got.of_exec hold hpend hexec
  have hkeeps := (L.frame x).arq.keeps_react found
  obtain ⟨k, ⟨_, _, _, hk⟩, hframe⟩ := hgot.frame
  dsimp only at hk hframe
  refine ⟨o, x', hcall, hget, hready, fun hwait => ⟨?_, ?_⟩, got_returns hgot⟩
  · have hwait' : (L.frame x').awaitingAck = true := hwait
    rw [hframe] at hwait'
    exact hkeeps.waits hwait'
  · rw [hframe, hk]
    rfl

/-- A call of put that the library has room for is accepted. -/
theorem Library.put_spec (hL : L.Faithful) (h : Ready (L.frame x)) (hwait : L.awaitingAck x = false)
    {cmd : UInt8} (hcmd : 1 ≤ cmd ∧ cmd ≤ 127) {bytes : List UInt8}
    (hsize : bytes.length ≤ interfaceMaxSize) :
    ∃ o x', L.call (.put cmd (.bytes bytes)) x = some (o, x') ∧ Ready (L.frame x') ∧
      o.call = .put cmd (.bytes bytes) ∧ o.ret = success ∧ L.awaitingAck x' = true ∧
      o.written = retained (L.frame x') := by
  obtain ⟨o, x', hcall, hput, hready, t, t', hresults, hexec⟩ :=
    L.call_exists hL h (.put cmd (.bytes bytes))
  obtain ⟨acc, hold, hpend⟩ := h.ok.rx
  obtain ⟨-, acc', hperf⟩ := h.ok.performs hold hpend hexec
  have hacc : Accepts (L.frame x) cmd (Payload.bytes bytes).size :=
    ⟨hcmd.1, hcmd.2, h.max ▸ hsize, hwait⟩
  rcases hperf.of_put hput with ⟨hnot, -⟩ | ⟨-, -, ret, written, t'', hw, rfl, heq⟩
  · exact absurd hacc hnot
  · obtain ⟨hret, hwritten, -⟩ := hw.ok (.of_nil hresults)
    have hframe : L.frame x' =
        (L.frame x).sent ((L.frame x).putFrame cmd (some bytes) bytes.length) :=
      congrArg Endpoint.frame heq
    refine ⟨_, x', hcall, hready, rfl, hret, ?_, ?_⟩
    · rw [Library.awaitingAck, hframe]
      rfl
    · rw [hframe]
      refine hwritten.trans ?_
      rw [retained]
      exact List.take_left.symm

/-- A call of resend. -/
theorem Library.resend_spec (hL : L.Faithful) (h : Ready (L.frame x)) :
    ∃ o x', L.call .resend x = some (o, x') ∧ o.call = .resend ∧ Ready (L.frame x') ∧
      L.awaitingAck x' = L.awaitingAck x ∧ retained (L.frame x') = retained (L.frame x) ∧
      (L.awaitingAck x = true → o.written = retained (L.frame x)) := by
  obtain ⟨o, x', hcall, hresend, hready, t, t', hresults, hexec⟩ := L.call_exists hL h .resend
  obtain ⟨acc, hold, hpend⟩ := h.ok.rx
  obtain ⟨-, acc', hperf⟩ := h.ok.performs hold hpend hexec
  obtain ⟨-, ⟨hidle, -, heq⟩ | ⟨hwait, ret, written, t'', hw, rfl, heq⟩⟩ := hperf.of_resend hresend
  · have hframe : L.frame x' = { L.frame x with resendNeeded := false } :=
      congrArg Endpoint.frame heq
    refine ⟨o, x', hcall, hresend, hready, by rw [Library.awaitingAck, hframe]; rfl,
      by rw [hframe]; rfl, ?_⟩
    intro hwait
    exact absurd (hidle.symm.trans hwait) (by decide)
  · obtain ⟨hret, hwritten, -⟩ := hw.ok (.of_nil hresults)
    have hframe : L.frame x' = { L.frame x with resendNeeded := false } := by
      rw [hret] at heq
      exact congrArg Endpoint.frame heq
    exact ⟨_, x', hcall, hresend, hready, by rw [Library.awaitingAck, hframe]; rfl,
      by rw [hframe]; rfl, fun _ => hwritten⟩

end

/-! ## What a turn does -/

/-- A response: the levels of pins, as the function for their struct has written them. -/
def IsResponse (r : UInt8 × List UInt8) : Prop :=
  ∃ v, (codecOf "st_gpio_get_response_message_t").Valid v ∧
    r = (cmdGpioGetResponse, (codecOf "st_gpio_get_response_message_t").encode v)

theorem IsResponse.of_answer {b : Board} {m r : UInt8 × List UInt8} (h : answer b m = some r) :
    IsResponse r := by
  rw [answer] at h
  split_ifs at h with hget
  obtain ⟨msg, -, rfl⟩ := Option.map_eq_some_iff.mp h
  exact ⟨_, gpioGetResponse_valid b.levels msg, rfl⟩

theorem IsResponse.cmd {r : UInt8 × List UInt8} (h : IsResponse r) : 1 ≤ r.1 ∧ r.1 ≤ 127 := by
  obtain ⟨v, -, rfl⟩ := h
  exact (by decide : 1 ≤ cmdGpioGetResponse ∧ cmdGpioGetResponse ≤ 127)

/-- The invariant of the static variables. -/
structure Sketch.Ok (s : Sketch) : Prop where
  response : ∀ r, s.pending = some r → IsResponse r
  fits : s.respPending = true → s.respLen ≤ interfaceMaxSize

theorem Sketch.pending_isSome {s : Sketch} :
    s.respPending = true ↔ ∃ r, s.pending = some r := by
  rw [Sketch.pending]
  split_ifs with h
  · exact ⟨fun _ => ⟨_, rfl⟩, fun _ => h⟩
  · exact ⟨fun h' => absurd h' h, by rintro ⟨_, ⟨⟩⟩⟩

/-- Only the response counts. -/
theorem Sketch.Ok.of_eq {s s' : Sketch} (h : s.Ok) (hpending : s'.pending = s.pending)
    (hlen : s'.respLen = s.respLen) : s'.Ok where
  response := hpending ▸ h.response
  fits hp := by
    rw [hlen]
    exact h.fits (pending_isSome.mpr (hpending ▸ pending_isSome.mp hp))

theorem Sketch.Queues.ok {s s' : Sketch} {m : Option (UInt8 × List UInt8)} (h : s.Queues m s')
    (hs : s.Ok) (hm : ∀ r, m = some r → IsResponse r) :
    s'.Ok ∧ s'.pending = m.or s.pending := by
  cases m with
  | none =>
    obtain rfl := h.none_eq rfl
    exact ⟨hs, rfl⟩
  | some r =>
    obtain ⟨hpending, hfits⟩ := h.pending r rfl
    refine ⟨⟨fun r' hr' => ?_, fun _ => hfits⟩, hpending⟩
    rw [hpending] at hr'
    exact hm r' hr'

/-- The command that a call of get has returned. -/
def commandOf (o : Outcome) : Option (UInt8 × List UInt8) :=
  if 0 < o.ret then some (UInt8.ofNat o.ret.toNat, o.out.getD []) else none

namespace Done

/-- The response to the command that was handled. -/
def answered (d : Done) : Option (UInt8 × List UInt8) :=
  (commandOf d.got).bind (answer d.turn.toBoard)

/-- The message that was put. -/
def put (d : Done) : Option (UInt8 × List UInt8) :=
  d.sent.bind fun o =>
    match o.call with
    | .put cmd (.bytes payload) => some (cmd, payload)
    | _ => none

/-- What was written, and when the clock was read after it. -/
def writes (d : Done) : List (ℕ × List UInt8) :=
  d.resent.toList.map (fun o => (d.turn.resentAt, o.written)) ++
    (d.sent.toList.map (fun o => (d.turn.sentAt, o.written)) ++
      d.retried.toList.map fun o => (d.turn.retriedAt, o.written))

end Done

/-- The clock tells how long ago that was, unless it has run once around. -/
theorem millis_sub {w now : ℕ} (hw : w ≤ now) (haround : now < w + 2 ^ 32) :
    (millis now - millis w).toNat = now - w := by
  rw [millis, millis, UInt32.toNat_sub, UInt32.toNat_ofNat', UInt32.toNat_ofNat']
  omega

/-- The frame that awaits an ACK was written when `last_send_ms` says, at `now` or before, and less
than 500 milliseconds before the timer was `checked`. -/
def Stamped {σ : Type} (L : Library σ) (log : List (ℕ × List UInt8)) (checked now : ℕ) (s : Sketch)
    (x : σ) : Prop :=
  L.awaitingAck x = true → ∃ w ≤ now, checked < w + 500 ∧ s.lastSendMs = millis w ∧
    (w, retained (L.frame x)) ∈ log

theorem Stamped.later {σ : Type} {L : Library σ} {log : List (ℕ × List UInt8)} {checked now : ℕ}
    {s : Sketch} {x : σ} (h : Stamped L log checked now s x) (more : List (ℕ × List UInt8))
    {now' : ℕ} (hnow : now ≤ now') {s' : Sketch} {x' : σ} (hlast : s'.lastSendMs = s.lastSendMs)
    (hkeeps : L.awaitingAck x' = true →
      L.awaitingAck x = true ∧ retained (L.frame x') = retained (L.frame x)) :
    Stamped L (log ++ more) checked now' s' x' := by
  intro hwait
  obtain ⟨hwait, hretained⟩ := hkeeps hwait
  obtain ⟨w, hw, hchecked, hmillis, hmem⟩ := h hwait
  exact ⟨w, hw.trans hnow, hchecked, hlast.trans hmillis,
    List.mem_append_left _ (hretained ▸ hmem)⟩

/-- The frame has just been written. -/
theorem Stamped.fresh {σ : Type} {L : Library σ} {checked w : ℕ} {s : Sketch} {x : σ}
    (hw : checked < w + 500) (hlast : s.lastSendMs = millis w) (log : List (ℕ × List UInt8))
    {o : Outcome} (hwritten : L.awaitingAck x = true → o.written = retained (L.frame x)) :
    Stamped L (log ++ (some o).toList.map fun o => (w, o.written)) checked w s x := by
  intro hwait
  refine ⟨w, Nat.le_refl w, hw, hlast, List.mem_append_right _ ?_⟩
  rw [← hwritten hwait]
  exact List.mem_singleton_self _

section

variable [Build] {σ : Type} {L : Library σ} {x : σ} {t : Turn} {s : Sketch}

/-- Part 1), after the call of get. -/
theorem afterGet_spec (hL : L.Faithful) (h : Ready (L.frame x)) (hs : s.Ok) {got : Outcome}
    (hrng : got.ret ≠ cmdRng.toNat)
    (hcommand : 0 < got.ret →
      ∃ cmd : UInt8, got.ret = cmd.toNat ∧ ∃ payload, got.out = some payload) :
    ∃ resent outs s' x', afterGet L t got s x = some ((resent, outs), s', x') ∧
      L.Trace x resent.toList x' ∧ (∀ o ∈ resent, o.call = .resend) ∧ Ready (L.frame x') ∧ s'.Ok ∧
      L.awaitingAck x' = L.awaitingAck x ∧
      s'.pending = ((commandOf got).bind (answer t.toBoard)).or s.pending ∧
      outs = ((commandOf got).map (outputs t.toBoard)).getD [] ∧
      ∀ log checked now, Stamped L log checked now s x → now ≤ t.resentAt → checked ≤ now →
        Stamped L (log ++ resent.toList.map fun o => (t.resentAt, o.written)) checked t.resentAt
          s' x' := by
  rw [afterGet]
  by_cases hresend : got.ret = resendNeededCode
  · obtain ⟨o, x', hcall, hop, hready, hwait, hretained, hwritten⟩ := L.resend_spec hL h
    have hnone : commandOf got = none := if_neg (by rw [hresend]; decide)
    refine ⟨some o, [], { s with lastSendMs := millis t.resentAt }, x', ?_,
      .cons (hop ▸ hcall) (.nil x'), by simpa using hop, hready, hs.of_eq rfl rfl, hwait,
      by rw [hnone]; rfl, by rw [hnone]; rfl, fun log _ _ _ _ _ => ?_⟩
    · rw [if_pos hresend, hcall]
      rfl
    · refine .fresh (by omega) rfl log fun hwait' => ?_
      rw [hretained]
      exact hwritten (hwait.symm.trans hwait')
  rw [if_neg hresend]
  by_cases hpos : 0 < got.ret
  · obtain ⟨cmd, hret, payload, hout⟩ := hcommand hpos
    have hcmd : cmd ≠ cmdRng := fun heq => hrng (heq ▸ hret)
    obtain ⟨s', hhandle, hqueues⟩ := handleCommand_eq t.toBoard s hcmd payload
    have hsome : commandOf got = some (cmd, payload) := by
      rw [commandOf, if_pos hpos, hret, hout, Int.toNat_natCast, UInt8.ofNat_toNat]
      rfl
    obtain ⟨hs', hpending⟩ := hqueues.ok hs fun r hr => .of_answer hr
    have hframe := L.printLines_frame hL (outputs t.toBoard (cmd, payload)) x
    have hwait : L.awaitingAck (L.printLines (outputs t.toBoard (cmd, payload)) x) =
        L.awaitingAck x := by rw [Library.awaitingAck, hframe]; rfl
    refine ⟨none, _, s', _, ?_, .printed (outputs_plain t.toBoard (cmd, payload)) x, by simp,
      hframe ▸ h, hs', hwait, by rw [hsome]; exact hpending, by rw [hsome],
      fun log _ _ hstamp hnow _ => hstamp.later _ hnow hqueues.lastSendMs fun hwait' =>
        ⟨hwait.symm.trans hwait', by rw [hframe]⟩⟩
    rw [if_pos hpos, hret, hout, Option.getD_some, hhandle]
    rfl
  · have hnone : commandOf got = none := if_neg hpos
    exact ⟨none, [], s, x, by rw [if_neg hpos], .nil x, by simp, h, hs, rfl, by rw [hnone]; rfl,
      by rw [hnone]; rfl,
      fun log _ _ hstamp hnow _ => hstamp.later _ hnow rfl fun hwait => ⟨hwait, rfl⟩⟩

/-- Part 2): a put is never refused. -/
theorem sendQueued_spec (hL : L.Faithful) (h : Ready (L.frame x)) (hs : s.Ok) :
    ∃ sent s' x', sendQueued L t s x = some (sent, s', x') ∧ L.Trace x sent.toList x' ∧
      Ready (L.frame x') ∧ s'.Ok ∧
      (sent = none ∧ s'.pending = s.pending ∧ L.awaitingAck x' = L.awaitingAck x ∧
          (s.pending = none ∨ L.awaitingAck x = true) ∨
        ∃ o r, sent = some o ∧ s.pending = some r ∧ L.awaitingAck x = false ∧
          o.call = .put r.1 (.bytes r.2) ∧ o.ret = success ∧ s'.pending = none) ∧
      ∀ log checked now, Stamped L log checked now s x → now ≤ t.sentAt → checked ≤ now →
        Stamped L (log ++ sent.toList.map fun o => (t.sentAt, o.written)) checked t.sentAt
          s' x' := by
  rw [sendQueued]
  by_cases hsend : s.respPending = true ∧ L.awaitingAck x = false
  · obtain ⟨hpending, hwait⟩ := hsend
    have hsome : s.pending = some (s.respCmd, s.respBuffer.1.take s.respLen) := if_pos hpending
    have hcmd := (hs.response _ hsome).cmd
    have hsize : (s.respBuffer.1.take s.respLen).length ≤ interfaceMaxSize := by
      rw [List.length_take, s.respBuffer.2]
      exact Nat.min_le_right _ _
    obtain ⟨o, x', hcall, hready, hput, hret, hwait', hwritten⟩ := L.put_spec hL h hwait hcmd hsize
    refine ⟨some o, { s with respPending := false, lastSendMs := millis t.sentAt }, x', ?_,
      .cons (hput ▸ hcall) (.nil x'), hready, ⟨fun r hr => (nomatch hr), fun hp => (nomatch hp)⟩,
      .inr ⟨o, _, rfl, hsome, hwait, hput, hret, rfl⟩,
      fun log _ _ _ _ _ => .fresh (by omega) rfl log fun _ => hwritten⟩
    rw [if_pos ⟨hpending, hwait⟩, hcall, Option.bind_eq_bind, Option.bind_some, if_pos hret]
  · rw [if_neg hsend]
    refine ⟨none, s, x, rfl, .nil x, h, hs, .inl ⟨rfl, rfl, rfl, ?_⟩,
      fun log _ _ hstamp hnow _ => hstamp.later _ hnow rfl fun hwait => ⟨hwait, rfl⟩⟩
    rw [Sketch.pending]
    by_cases hpending : s.respPending = true
    · exact .inr (by simpa [hpending] using hsend)
    · exact .inl (if_neg hpending)

/-- Part 3). -/
theorem retransmit_spec (hL : L.Faithful) (h : Ready (L.frame x)) (hs : s.Ok) :
    ∃ retried s' x', retransmit L t s x = some (retried, s', x') ∧
      L.Trace x retried.toList x' ∧ (∀ o ∈ retried, o.call = .resend) ∧ Ready (L.frame x') ∧
      s'.Ok ∧ s'.pending = s.pending ∧
      ∀ log checked now, Stamped L log checked now s x → now ≤ t.checkedAt → checked ≤ now →
        t.checkedAt + 500 ≤ checked + 2 ^ 32 →
        Stamped L (log ++ retried.toList.map fun o => (t.retriedAt, o.written)) t.checkedAt
          t.retriedAt s' x' := by
  have hchecked_le := t.checked_le
  rw [retransmit]
  by_cases hlate : L.awaitingAck x = true ∧ ackTimeoutMs ≤ millis t.checkedAt - s.lastSendMs
  · obtain ⟨o, x', hcall, hop, hready, hwait, hretained, hwritten⟩ := L.resend_spec hL h
    refine ⟨some o, { s with lastSendMs := millis t.retriedAt }, x', ?_,
      .cons (hop ▸ hcall) (.nil x'), by simpa using hop, hready, hs.of_eq rfl rfl, rfl,
      fun log _ _ _ _ _ _ => ?_⟩
    · rw [if_pos hlate, hcall]
      rfl
    · refine .fresh (by omega) rfl log fun hwait' => ?_
      rw [hretained]
      exact hwritten (hwait.symm.trans hwait')
  · refine ⟨none, s, x, by rw [if_neg hlate], .nil x, by simp, h, hs, rfl, ?_⟩
    intro log checked now hstamp hnow hchecked haround hwait
    obtain ⟨w, hw, hwchecked, hlast, hmem⟩ := hstamp hwait
    refine ⟨w, by omega, ?_, hlast, List.mem_append_left _ hmem⟩
    -- otherwise it would have been sent again
    by_contra hover
    refine hlate ⟨hwait, ?_⟩
    rw [UInt32.le_iff_toNat_le, hlast, millis_sub (by omega) (by omega)]
    have hms : ackTimeoutMs.toNat = 500 := rfl
    omega

/-- What a turn does: it handles what get returned, and sends or keeps the response that was queued
last. -/
structure Turns (L : Library σ) (t : Turn) (s : Sketch) (x : σ) (d : Done) (s' : Sketch) (x' : σ) :
    Prop where
  turn : d.turn = t
  trace : L.Trace x (d.got :: (d.resent.toList ++ (d.sent.toList ++ d.retried.toList))) x'
  get : d.got.call = .get
  resends : (∀ o ∈ d.resent, o.call = .resend) ∧ ∀ o ∈ d.retried, o.call = .resend
  outputs : d.outputs = ((commandOf d.got).map (outputs t.toBoard)).getD []
  accepted : ∀ o, d.sent = some o → ∃ r, IsResponse r ∧ o.call = .put r.1 (.bytes r.2) ∧
    o.ret = success
  queue : d.put = none ∧ s'.pending = d.answered.or s.pending ∨
    d.put = d.answered.or s.pending ∧ s'.pending = none
  stamped : ∀ log checked now, Stamped L log checked now s x → now ≤ t.resentAt → checked ≤ now →
    t.checkedAt + 500 ≤ checked + 2 ^ 32 →
      Stamped L (log ++ d.writes) t.checkedAt t.retriedAt s' x'

/-- **One turn**, unless the command is `CMD_RNG`. -/
theorem Library.loop_spec (hL : L.Faithful) (h : Ready (L.frame x)) (hs : s.Ok)
    (hrng : ¬ L.GetsRng x) :
    ∃ d s' x', loop L t s x = some (d, s', x') ∧ Ready (L.frame x') ∧ s'.Ok ∧
      Turns L t s x d s' x' := by
  obtain ⟨got, x₁, hgot, hget, h₁, hkeeps, hcommand⟩ := L.get_spec hL h
  obtain ⟨resent, outs, s₂, x₂, hafter, htrace₂, hcalls₂, h₂, hs₂, hwait₂, hpending₂, houts,
    hstamp₂⟩ :=
    @afterGet_spec _ _ L x₁ t s hL h₁ hs got (fun hret => hrng ⟨got, x₁, hgot, hret⟩) hcommand
  obtain ⟨sent, s₃, x₃, hsend, htrace₃, h₃, hs₃, hcases, hstamp₃⟩ :=
    @sendQueued_spec _ _ L x₂ t s₂ hL h₂ hs₂
  obtain ⟨retried, s₄, x₄, hretry, htrace₄, hcalls₄, h₄, hs₄, hpending₄, hstamp₄⟩ :=
    @retransmit_spec _ _ L x₃ t s₃ hL h₃ hs₃
  have hresent_le := t.resent_le
  have hsent_le := t.sent_le
  refine ⟨⟨t, got, resent, sent, retried, outs⟩, s₄, x₄, ?_, h₄, hs₄, rfl,
    .cons (hget ▸ hgot) (htrace₂.append (htrace₃.append htrace₄)), hget, ⟨hcalls₂, hcalls₄⟩, houts,
    ?_, ?_, ?_⟩
  · simp only [loop, hgot, hafter, hsend, hretry, Option.bind_eq_bind, Option.bind_some]
  · intro o ho
    rcases hcases with ⟨hnone, -⟩ | ⟨o', r, hsome, hr, -, hput, hret, -⟩
    · rw [hnone] at ho
      cases ho
    · rw [hsome] at ho
      cases ho
      exact ⟨r, hs₂.response r hr, hput, hret⟩
  · rcases hcases with ⟨hnone, hpending₃, -, -⟩ | ⟨o, r, hsome, hr, -, hput, -, hpending₃⟩
    · refine .inl ⟨by rw [Done.put, hnone]; rfl, ?_⟩
      rw [hpending₄, hpending₃, hpending₂]
      rfl
    · refine .inr ⟨?_, by rw [hpending₄, hpending₃]⟩
      rw [hpending₂] at hr
      rw [Done.put, hsome, Option.bind_some, hput]
      exact hr.symm
  · intro log checked now hstamp hnow hchecked haround
    have hstamp₁ : Stamped L (log ++ []) checked now s x₁ :=
      hstamp.later [] (Nat.le_refl now) rfl hkeeps
    rw [List.append_nil] at hstamp₁
    have hstamp := hstamp₄ _ _ _ (hstamp₃ _ _ _ (hstamp₂ _ _ _ hstamp₁ hnow hchecked)
      hresent_le (by omega)) hsent_le (by omega) haround
    rw [List.append_assoc, List.append_assoc] at hstamp
    exact hstamp

end

/-! ## Runs of the firmware -/

/-- The controller of the sketch, and its serial port: what `Serial.read` is going to return, and
what has been written. -/
structure Port where
  frame : FrameArqT
  incoming : List (Option UInt8)
  written : List UInt8

/-- The calls on `frame_handle`: `serial_write` returns 0. -/
def port [Build] : Library Port where
  frame := Port.frame
  call c p := (Endpoint.exec ⟨p.frame, p.incoming, [], p.written⟩ c).map fun r =>
    (r.1, ⟨r.2.frame, r.2.transport.incoming, r.2.transport.written⟩)
  print text p := { p with written := p.written ++ text }

theorem port_faithful [Build] : port.Faithful where
  print_frame text p := rfl
  exec {c p o p'} h := by
    obtain ⟨⟨o', e'⟩, hexec, heq⟩ := Option.map_eq_some_iff.mp h
    cases heq
    exact ⟨⟨p.incoming, [], p.written⟩, e'.transport, rfl, hexec⟩
  defined {c p} h := by
    obtain ⟨r, hr⟩ := h ⟨p.incoming, [], p.written⟩
    exact ⟨_, Option.map_eq_some_iff.mpr ⟨r, hr, rfl⟩⟩

/-- The state of the firmware: the variables of the sketch, and the serial port with the
controller that `setup` has created on it. -/
structure Device where
  sketch : Sketch
  port : Port

/-- Some bytes have arrived. -/
def Device.arrived (dev : Device) (bytes : List (Option UInt8)) : Port :=
  { dev.port with incoming := dev.port.incoming ++ bytes }

/-- A turn, before which some bytes may have arrived. -/
def Device.turn [Build] (dev : Device) (i : List (Option UInt8) × Turn) :
    Option (Done × Device) := do
  let r ← loop Firmware.port i.2 dev.sketch (dev.arrived i.1)
  some (r.1, ⟨r.2.1, r.2.2⟩)

/-- The static variables at the start. -/
def Sketch.start : Sketch :=
  ⟨⟨List.replicate interfaceMaxSize 0, List.length_replicate⟩, 0, 0, false, 0⟩

/-- After `setup`, with buffers from `malloc`. -/
def Device.start [Build] (st : Storage) : Device := ⟨.start, ⟨st.create, [], []⟩⟩

/-- The responses that the commands ask for. -/
def answers (dones : List Done) : List (UInt8 × List UInt8) := dones.filterMap Done.answered

/-- The messages that were put. -/
def puts (dones : List Done) : List (UInt8 × List UInt8) := dones.filterMap Done.put

theorem answers_concat (dones : List Done) (d : Done) :
    answers (dones ++ [d]) = answers dones ++ d.answered.toList := by
  cases h : d.answered <;> simp [answers, h]

theorem puts_concat (dones : List Done) (d : Done) :
    puts (dones ++ [d]) = puts dones ++ d.put.toList := by
  cases h : d.put <;> simp [puts, h]

/-- Each command that is answered comes when the responses to those before it have been put. The
sketch has room for one response only, so a host that does not wait for it loses one. -/
def Unhurried (dones : List Done) : Prop :=
  ∀ pre d post, dones = pre ++ d :: post → d.answered ≠ none →
    (answers pre).length ≤ (puts pre).length

theorem unhurried_iff {dones : List Done} : Unhurried dones ↔ ∀ (n : ℕ) (h : n < dones.length),
    dones[n].answered ≠ none →
      (answers (dones.take n)).length ≤ (puts (dones.take n)).length := by
  constructor
  · intro hunhurried n h hanswer
    exact hunhurried (dones.take n) dones[n] (dones.drop (n + 1)) (by simp) hanswer
  · rintro hall pre d post rfl hanswer
    simpa using hall pre.length (by simp) (by simpa using hanswer)

instance : DecidablePred Unhurried := fun _ => decidable_of_iff _ unhurried_iff.symm

/-- The messages that were put, with the response that is queued, are responses in their order; all
of them, if none was overwritten. -/
structure Keeps (dones : List Done) (pending : Option (UInt8 × List UInt8)) : Prop where
  sublist : (puts dones ++ pending.toList).Sublist (answers dones)
  all : Unhurried dones → puts dones ++ pending.toList = answers dones

theorem Keeps.turn {dones : List Done} {pending pending' : Option (UInt8 × List UInt8)} {d : Done}
    (h : Keeps dones pending)
    (hqueue : d.put = none ∧ pending' = d.answered.or pending ∨
      d.put = d.answered.or pending ∧ pending' = none) : Keeps (dones ++ [d]) pending' := by
  have hmoved : puts (dones ++ [d]) ++ pending'.toList =
      puts dones ++ (d.answered.or pending).toList := by
    rw [puts_concat]
    rcases hqueue with ⟨hput, hpending⟩ | ⟨hput, hpending⟩
    · rw [hput, hpending, Option.toList_none, List.append_nil]
    · rw [hput, hpending, Option.toList_none, List.append_nil]
  have hputs : (puts dones).Sublist (answers dones) :=
    (List.sublist_append_left _ _).trans h.sublist
  constructor
  · rw [hmoved, answers_concat]
    cases d.answered with
    | none =>
      rw [Option.none_or, Option.toList_none, List.append_nil]
      exact h.sublist
    | some r => exact hputs.append (List.Sublist.refl _)
  · intro hunhurried
    have hall := h.all fun pre d' post heq => hunhurried pre d' (post ++ [d]) (by rw [heq]; simp)
    rw [hmoved, answers_concat, ← hall]
    cases hanswer : d.answered with
    | none => rw [Option.none_or, Option.toList_none, List.append_nil]
    | some r =>
      have hlen := hunhurried dones d [] rfl (by rw [hanswer]; simp)
      rw [← hall, List.length_append] at hlen
      have hnil : pending.toList = [] := List.eq_nil_of_length_eq_zero (by omega)
      rw [hnil, List.append_nil]
      rfl

section

variable [Build] {dev : Device}

/-- The invariant of the firmware. -/
structure Device.Ok (dev : Device) : Prop where
  ready : Ready dev.port.frame
  sketch : dev.sketch.Ok

theorem Device.start_ok {st : Storage} (hst : st.payloadMaxSize = interfaceMaxSize) :
    (Device.start st).Ok where
  ready := ⟨st.create_ok, hst⟩
  sketch := ⟨fun _ h => (nomatch h), fun h => (nomatch h)⟩

/-- **One turn of the firmware.** -/
theorem Device.Ok.turn (h : dev.Ok) {i : List (Option UInt8) × Turn}
    (hrng : ¬ Firmware.port.GetsRng (dev.arrived i.1)) :
    ∃ d dev', dev.turn i = some (d, dev') ∧ dev'.Ok ∧
      Turns Firmware.port i.2 dev.sketch (dev.arrived i.1) d dev'.sketch dev'.port := by
  obtain ⟨d, s', p', hloop, hready, hs', hturns⟩ :=
    @Library.loop_spec _ _ Firmware.port (dev.arrived i.1) i.2 dev.sketch port_faithful h.ready
      h.sketch hrng
  exact ⟨d, ⟨s', p'⟩, by rw [Device.turn, hloop]; rfl, ⟨hready, hs'⟩, hturns⟩

/-- **What becomes of the responses**, whatever arrives. The firmware goes on until get returns
`CMD_RNG`. Every put is of a response and is accepted, and the messages put are responses to
commands, in their order. All but the one that is queued have been put, if every command that is
answered comes when the responses to those before it have been. -/
theorem loop_runs {st : Storage} (hst : st.payloadMaxSize = interfaceMaxSize)
    (inputs : List (List (Option UInt8) × Turn)) :
    ∃ before after dones dev, inputs = before ++ after ∧
      Runs.run Device.turn (.start st) before = some (dones, dev) ∧
      (∀ i ∈ after.head?, port.GetsRng (dev.arrived i.1)) ∧
      (∀ d ∈ dones, ∀ o, d.sent = some o →
        ∃ r, IsResponse r ∧ o.call = .put r.1 (.bytes r.2) ∧ o.ret = success) ∧
      (puts dones ++ dev.sketch.pending.toList).Sublist (answers dones) ∧
      (Unhurried dones → puts dones ++ dev.sketch.pending.toList = answers dones) := by
  let P (dones : List Done) (dev : Device) : Prop := dev.Ok ∧
    (∀ d ∈ dones, ∀ o, d.sent = some o →
      ∃ r, IsResponse r ∧ o.call = .put r.1 (.bytes r.2) ∧ o.ret = success) ∧
    Keeps dones dev.sketch.pending
  have hstart : P [] (Device.start st) :=
    ⟨Device.start_ok hst, by simp, List.Sublist.refl [], fun _ => rfl⟩
  have hturn {dones : List Done} {dev : Device} {i : List (Option UInt8) × Turn} (h : P dones dev)
      (hrng : ¬ port.GetsRng (dev.arrived i.1)) :
      ∃ d dev', dev.turn i = some (d, dev') ∧ P (dones ++ [d]) dev' := by
    obtain ⟨hok, haccepted, hkeeps⟩ := h
    obtain ⟨d, dev', hturn, hok', hturns⟩ := hok.turn hrng
    refine ⟨d, dev', hturn, hok', ?_, hkeeps.turn hturns.queue⟩
    intro d' hd'
    rcases List.mem_append.mp hd' with hd' | hd'
    · exact haccepted d' hd'
    · rw [List.mem_singleton.mp hd']
      exact hturns.accepted
  obtain ⟨before, after, dones, dev, hinputs, hrun, ⟨-, haccepted, hkeeps⟩, hafter⟩ :=
    Runs.run_until (B := fun dev i => port.GetsRng (Device.arrived dev i.1)) hturn hstart inputs
  exact ⟨before, after, dones, dev, hinputs, hrun, hafter, haccepted, hkeeps.sublist, hkeeps.all⟩

/-- There is no turn for `CMD_RNG`. -/
theorem Device.turn_rng {i : List (Option UInt8) × Turn}
    (h : Firmware.port.GetsRng (dev.arrived i.1)) : dev.turn i = none := by
  obtain ⟨o, p, hcall, hret⟩ := h
  have hresend : (cmdRng.toNat : Int) ≠ resendNeededCode := by decide
  have hpos : (0 : Int) < cmdRng.toNat := by decide
  have hafter : afterGet Firmware.port i.2 o dev.sketch p = none := by
    rw [afterGet, hret, if_neg hresend, if_pos hpos, handleCommand, if_pos rfl]
    rfl
  simp only [Device.turn, loop, hcall, hafter, Option.bind_eq_bind, Option.bind_some,
    Option.bind_none]

/-- A run that does not come to `CMD_RNG`. -/
theorem goes_on {inputs before after : List (List (Option UInt8) × Turn)} {dones : List Done}
    {dev' : Device} (hinputs : inputs = before ++ after)
    (hrun : Runs.run Device.turn dev before = some (dones, dev'))
    (hafter : ∀ i ∈ after.head?, port.GetsRng (dev'.arrived i.1))
    (hall : (Runs.run Device.turn dev inputs).isSome) : inputs = before := by
  cases after with
  | nil => rw [hinputs, List.append_nil]
  | cons i is =>
    rw [hinputs, Runs.run_append hrun, Runs.run, Device.turn_rng (hafter i rfl)] at hall
    cases hall

/-- A turn on a board, at a time. -/
def oddTurn (time : ℕ) : Turn where
  toBoard := oddBoard
  resentAt := time
  sentAt := time
  checkedAt := time
  retriedAt := time
  resent_le := Nat.le_refl time
  sent_le := Nat.le_refl time
  checked_le := Nat.le_refl time

/-- A request for the levels of eight pins. -/
def getPins (seq : UInt8) : List (Option UInt8) :=
  (letI : Build := build32; dataFrame cmdGpioGet seq [255, 0, 0, 0, 0, 0, 0, 0]).encode.map some

/-- The second request comes with the ACK of the response to the first. -/
def twoRequests : List (List (Option UInt8) × Turn) :=
  [(getPins 0, oddTurn 7),
    ((letI : Build := build32; controlFrame faTypeAck 0).encode.map some ++ getPins 1, oddTurn 20),
    ([], oddTurn 30)]

omit [Build] in
/-- Both requests are answered. -/
theorem loop_runs_pins :
    letI : Build := build32
    ∃ dones dev, Runs.run Device.turn (.start (.zeroed interfaceMaxSize (by decide)))
        twoRequests = some (dones, dev) ∧
      answers dones = [(cmdGpioGetResponse, [170, 0, 0, 0, 0, 0, 0, 0]),
        (cmdGpioGetResponse, [170, 0, 0, 0, 0, 0, 0, 0])] ∧
      puts dones ++ dev.sketch.pending.toList = answers dones := by
  let _ : Build := build32
  obtain ⟨before, after, dones, dev, hinputs, hrun, hafter, -, -, hall⟩ :=
    @loop_runs _ (.zeroed interfaceMaxSize (by decide)) rfl twoRequests
  obtain rfl := goes_on hinputs hrun hafter (by decide +kernel)
  have hanswers : (Runs.run Device.turn (.start (.zeroed interfaceMaxSize (by decide)))
      twoRequests).map (fun r => (answers r.1, decide (Unhurried r.1))) =
      some ([(cmdGpioGetResponse, [170, 0, 0, 0, 0, 0, 0, 0]),
        (cmdGpioGetResponse, [170, 0, 0, 0, 0, 0, 0, 0])], true) := by decide +kernel
  rw [hrun] at hanswers
  obtain ⟨hanswers, hunhurried⟩ := Prod.mk.inj (Option.some.inj hanswers)
  exact ⟨dones, dev, hrun, hanswers, hall (of_decide_eq_true hunhurried)⟩

/-- The turns come one after the other, and the timer is checked at least once in the time that
`millis` takes to run around, less the timeout. -/
def Clocked (checked now : ℕ) : List (List (Option UInt8) × Turn) → Prop
  | [] => True
  | i :: is => now ≤ i.2.resentAt ∧ i.2.checkedAt + 500 ≤ checked + 2 ^ 32 ∧
    Clocked i.2.checkedAt i.2.retriedAt is

theorem stamped_runs {inputs : List (List (Option UInt8) × Turn)} {log : List (ℕ × List UInt8)}
    {checked now : ℕ} (hok : dev.Ok) (hclock : Clocked checked now inputs) (hle : checked ≤ now)
    (h : Stamped port log checked now dev.sketch dev.port) :
    ∃ before after dones dev', inputs = before ++ after ∧
      Runs.run Device.turn dev before = some (dones, dev') ∧
      (∀ i ∈ after.head?, port.GetsRng (dev'.arrived i.1)) ∧
      Stamped port (log ++ dones.flatMap Done.writes)
        (before.foldl (fun _ i => i.2.checkedAt) checked)
        (before.foldl (fun _ i => i.2.retriedAt) now) dev'.sketch dev'.port := by
  induction inputs generalizing dev log checked now with
  | nil => exact ⟨[], [], [], dev, rfl, rfl, by simp, by simpa using h⟩
  | cons i is ih =>
    by_cases hrng : port.GetsRng (dev.arrived i.1)
    · exact ⟨[], i :: is, [], dev, rfl, rfl, by simpa using hrng, by simpa using h⟩
    obtain ⟨hnow, haround, hclock⟩ := hclock
    obtain ⟨d, dev₁, hturn, hok₁, hturns⟩ := hok.turn hrng
    have hstamped := hturns.stamped log checked now h hnow hle haround
    obtain ⟨before, after, dones, dev', rfl, hrun, hafter, hstamped'⟩ :=
      ih hok₁ hclock i.2.checked_le hstamped
    refine ⟨i :: before, after, d :: dones, dev', rfl, Runs.run_cons hturn hrun, hafter, ?_⟩
    rw [List.flatMap_cons, ← List.append_assoc]
    exact hstamped'

/-- **The timer.** When a turn ends while a response awaits its ACK, its frame was written less than
500 milliseconds before the timer was checked, although the clock runs around every 49 days. The
firmware goes on until get returns `CMD_RNG`. -/
theorem loop_timer {st : Storage} (hst : st.payloadMaxSize = interfaceMaxSize)
    {inputs : List (List (Option UInt8) × Turn)} (hclock : Clocked 0 0 inputs) :
    ∃ before after dones dev, inputs = before ++ after ∧
      Runs.run Device.turn (.start st) before = some (dones, dev) ∧
      (∀ i ∈ after.head?, port.GetsRng (dev.arrived i.1)) ∧
      (dev.port.frame.awaitingAck = true → ∃ i ∈ before.getLast?, ∃ w ≤ i.2.retriedAt,
        (w, retained dev.port.frame) ∈ dones.flatMap Done.writes ∧ i.2.checkedAt < w + 500) := by
  obtain ⟨before, after, dones, dev, hinputs, hrun, hafter, hstamped⟩ :=
    stamped_runs (Device.start_ok hst) hclock (Nat.le_refl 0)
      (show Stamped port [] 0 0 _ _ from fun hwait => (nomatch hwait))
  rw [List.nil_append] at hstamped
  refine ⟨before, after, dones, dev, hinputs, hrun, hafter, fun hwait => ?_⟩
  obtain ⟨w, hw, hchecked, -, hmem⟩ := hstamped hwait
  obtain rfl | ⟨before, i, rfl⟩ := List.eq_nil_or_concat before
  · cases hrun
    cases hmem
  · rw [List.concat_eq_append, List.foldl_concat] at hw hchecked
    exact ⟨i, by simp, w, hw, hmem, hchecked⟩

omit [Build] in
/-- Nothing has come back 593 milliseconds later. -/
theorem loop_timer_pins :
    letI : Build := build32
    ∃ dones dev, Runs.run Device.turn (.start (.zeroed interfaceMaxSize (by decide)))
        [(getPins 0, oddTurn 7), ([], oddTurn 600)] = some (dones, dev) ∧
      ∃ w ≤ 600, (w, retained dev.port.frame) ∈ dones.flatMap Done.writes ∧ 600 < w + 500 := by
  let _ : Build := build32
  obtain ⟨before, after, dones, dev, hinputs, hrun, hafter, htimer⟩ :=
    @loop_timer _ (.zeroed interfaceMaxSize (by decide)) rfl
      [(getPins 0, oddTurn 7), ([], oddTurn 600)]
      ⟨by decide, by decide, by decide, by decide, trivial⟩
  obtain rfl := goes_on hinputs hrun hafter (by decide +kernel)
  have hwaits : (Runs.run Device.turn (.start (.zeroed interfaceMaxSize (by decide)))
      [(getPins 0, oddTurn 7), ([], oddTurn 600)]).map (fun r => r.2.port.frame.awaitingAck) =
      some true := by decide +kernel
  rw [hrun] at hwaits
  obtain ⟨i, hi, w, hw, hmem, hchecked⟩ := htimer (Option.some.inj hwaits)
  cases hi
  exact ⟨dones, dev, hrun, w, hw, hmem, hchecked⟩

end

end Firmware

end HtcwFrameArq
