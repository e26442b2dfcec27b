import HtcwFrameArq.SendQueue

/-!
# Closing the session

The session with its port: `Open`, `Close`, and the handlers of `SendQueue` in between, each with
its write, which may fail. `Close` ends neither the wait for an ACK nor the ack timer. So a tick
after it transmits again whatever is not acknowledged, and `closing_iff` says that this is the
only way in which a closed session goes on. `History` is what the events up to a tick have shown.
-/

namespace HtcwFrameArq

namespace EspSerialSession

open Runs

/-! ## The session and its port -/

/-- `_handle` and `_boundHandle`: `null`, valid, or disposed. -/
inductive Port : Type where
  | unopened : Port
  | opened : Port
  | closed : Port
  deriving DecidableEq

/-- The ARQ fields of a new session. -/
def Session.new (ackTimeoutMs : Int32) : Session where
  txSeq := 0x3F
  expectedRxSeq := 0
  awaiting := false
  retain := none
  ackTimeoutMs := ackTimeoutMs
  maxRetries := 5
  retries := 0
  deliveryNotified := false
  sendQueue := []
  ackTimer := none

/-- The ARQ fields when a handler starts: the ack timer is one-shot, so a tick finds it not
armed. -/
def Session.started (s : Session) (a : Action) : Session :=
  if a = .onAckTimeout then { s with ackTimer := none } else s

/-- The `FrameError` that a handler means to raise. -/
def Session.failure (s : Session) (a : Action) : Option FrameError :=
  if a = .onAckTimeout then s.onAckTimeout.bind Effects.frameError else none

/-- A timer that is `null` is not armed. -/
def Session.withTimer (s : Session) (hasTimer : Bool) : Session :=
  if hasTimer then s else { s with ackTimer := none }

/-- The session with the fields that `Open`, `Close` and `Dispose` are about. -/
structure SerialSession where
  arq : Session
  port : Port
  /-- `_ackTimer` is not `null` -/
  hasTimer : Bool
  /-- `_disposed` -/
  disposed : Bool
  deriving DecidableEq

/-- What happens to a session. -/
inductive Event : Type where
  /-- a call of `Open`, with what `CreateFile` answers: a handle or not -/
  | openPort (created : Bool) : Event
  /-- a call of `Close` -/
  | closePort : Event
  /-- a step of the ARQ, and whether the port takes what it writes -/
  | act (a : Action) (sent : Bool) : Event
  deriving DecidableEq

/-- What an event shows: the step of the ARQ, if it is one, whether the ack timer is armed when
its handler has released the lock, the `FrameError` that it raises, and the port that it
leaves. -/
structure Shown where
  event : Event
  done : Option Done
  armed : Bool
  frameError : Option FrameError
  port : Port
  deriving DecidableEq

/-- The frame that is handed to `WriteFrame`. -/
def Shown.write (d : Shown) : Option (List UInt8) := d.done.bind Done.write

namespace SerialSession

/-- The constructor. -/
def new (ackTimeoutMs : Int32) : SerialSession where
  arq := .new ackTimeoutMs
  port := .unopened
  hasTimer := true
  disposed := false

/-- `Open`. Without a handle it throws, after the ARQ state has been set. -/
def openPort (s : SerialSession) (created : Bool) : SerialSession :=
  if s.port = .opened then s
  else { s with
    arq := s.arq.opened, port := if created then .opened else s.port, hasTimer := true }

/-- `Close` -/
def closePort (s : SerialSession) : SerialSession :=
  if s.port = .opened then { s with port := .closed } else s

/-- `Dispose(true)` -/
def dispose (s : SerialSession) : SerialSession :=
  if s.disposed then s
  else { s.closePort with
    arq := { s.arq with awaiting := false, retries := 0, sendQueue := [], ackTimer := none },
    hasTimer := false, disposed := true }

/-- `WriteFrame`: whether it returns, and the session. It drops the frame when there never was a
port. On a disposed handle it throws an exception of another kind than the one that it catches. -/
def writeFrame (s : SerialSession) (sent : Bool) : Bool × SerialSession :=
  match s.port with
  | .unopened => (true, s)
  | .opened => (true, if sent then s else s.dispose)
  | .closed => (false, s)

/-- `if (frame != null) WriteFrame(frame);` -/
def writeIf (s : SerialSession) (frame : Option (List UInt8)) (sent : Bool) :
    Bool × SerialSession :=
  if frame = none then (true, s) else s.writeFrame sent

/-- A step of the ARQ with its write. `OnFrameError` raises nothing once the session is
disposed. -/
def act (s : SerialSession) (a : Action) (sent : Bool) : Option (Shown × SerialSession) := do
  let started := s.arq.started a
  let done ← started.perform a
  let arq := done.2.withTimer s.hasTimer
  let wrote := { s with arq }.writeIf done.1.write sent
  some (⟨.act a sent, some done.1, arq.ackTimer.isSome,
    if wrote.1 ∧ wrote.2.disposed = false then started.failure a else none, wrote.2.port⟩,
    wrote.2)

/-- What an event does. -/
def step (s : SerialSession) : Event → Option (Shown × SerialSession)
  | .openPort created =>
    let s := s.openPort created
    some (⟨.openPort created, none, s.arq.ackTimer.isSome, none, s.port⟩, s)
  | .closePort =>
    let s := s.closePort
    some (⟨.closePort, none, s.arq.ackTimer.isSome, none, s.port⟩, s)
  | .act a sent => s.act a sent

/-- A run. -/
def run (s : SerialSession) (events : List Event) : Option (List Shown × SerialSession) :=
  Runs.run SerialSession.step s events

end SerialSession

/-! ## What the events have shown -/

/-- What is known of a session from its events. -/
structure History where
  port : Port
  /-- `Close` has been called, and the session has not been opened since -/
  closed : Bool
  ackTimeoutMs : Int32
  /-- the frames first transmitted since `Open`, and the last of them if it is not acknowledged -/
  seen : Seen
  deriving DecidableEq

/-- Nothing has happened yet. -/
def History.start (ackTimeoutMs : Int32) : History := ⟨.unopened, false, ackTimeoutMs, ⟨0, none⟩⟩

/-- The ack timeout after a step of the ARQ. -/
def Action.ackTimeout (ackTimeoutMs : Int32) : Action → Int32
  | .setAckTimeout value => value
  | _ => ackTimeoutMs

/-- One more event. A failed write closes an open port, and drops the message. -/
def History.next (k : History) (d : Shown) : History where
  port := d.port
  closed := d.port ≠ .opened && (k.closed || d.event = .closePort || d.port = .closed)
  ackTimeoutMs := match d.event with
    | .act a _ => a.ackTimeout k.ackTimeoutMs
    | _ => k.ackTimeoutMs
  seen := match d.event with
    | .openPort _ => if k.port = .opened then k.seen else ⟨0, none⟩
    | .closePort => k.seen
    | .act _ _ =>
      let seen := d.done.elim k.seen k.seen.next
      if k.port = .opened ∧ d.port = .closed then { seen with unacked := none } else seen

/-- What is known after the events that have shown `ds`. -/
def history (ackTimeoutMs : Int32) (ds : List Shown) : History :=
  ds.foldl History.next (.start ackTimeoutMs)

/-- The event is a tick of the ack timer. -/
def Shown.IsTick (d : Shown) : Prop := ∃ sent, d.event = .act .onAckTimeout sent

/-- What a tick must do: nothing after `Close`; in an open session, no more than to transmit the
message last transmitted for the first time since `Open`. -/
structure TickKept (k : History) (d : Shown) : Prop where
  closed : k.closed = true → d.write = none ∧ d.armed = false ∧ d.frameError = none
  opened : k.port = .opened → ∀ frame, d.write = some frame → k.seen.unacked = some frame

/-- Nothing is left to transmit again. -/
def History.Ended (k : History) : Prop := k.ackTimeoutMs ≤ 0 ∨ k.seen.unacked = none

/-! ## The ack timeout -/

namespace Session

variable {s s' : Session}

theorem started_timeout (s : Session) (a : Action) :
    (s.started a).ackTimeoutMs = s.ackTimeoutMs := by
  rw [started]
  split_ifs <;> rfl

theorem withTimer_timeout (s : Session) (hasTimer : Bool) :
    (s.withTimer hasTimer).ackTimeoutMs = s.ackTimeoutMs := by
  rw [withTimer]
  split_ifs <;> rfl

theorem armAckTimer_timeout (s : Session) : s.armAckTimer.ackTimeoutMs = s.ackTimeoutMs := by
  obtain ⟨timer, htimer⟩ := armAckTimer_eq s
  rw [htimer]

theorem prepareTransmit_timeout {cmd : UInt8} {data frame : List UInt8}
    (h : s.prepareTransmit cmd data = some (frame, s')) : s'.ackTimeoutMs = s.ackTimeoutMs := by
  simp only [prepareTransmit, Option.bind_eq_bind, Option.bind_eq_some_iff] at h
  obtain ⟨frame', -, heq⟩ := h
  cases heq
  exact armAckTimer_timeout _

theorem send_timeout {cmd : UInt8} {data : List UInt8} {eff : Effects}
    (h : s.send cmd data = some (.ok eff)) : eff.session.ackTimeoutMs = s.ackTimeoutMs := by
  by_cases hsend : Sendable (cmd, data)
  · rw [send_eq hsend] at h
    by_cases hwait : s.awaiting
    · rw [if_pos hwait] at h
      cases h
      rfl
    · rw [if_neg hwait] at h
      obtain ⟨toWrite, hprepare, heq⟩ := Option.bind_eq_some_iff.mp h
      cases heq
      exact prepareTransmit_timeout hprepare
  · obtain ⟨err, herr⟩ := s.send_error hsend
    rw [herr] at h
    cases h

theorem handleAck_timeout {seq : UInt8} {eff : Effects} (h : s.handleAck seq = some eff) :
    eff.session.ackTimeoutMs = s.ackTimeoutMs := by
  rw [handleAck] at h
  by_cases hstale : s.awaiting = false ∨ seq ≠ s.txSeq
  · rw [if_pos hstale] at h
    cases h
    rfl
  · rw [if_neg hstale] at h
    dsimp only [disarmAckTimer] at h
    rcases hqueue : s.sendQueue with _ | ⟨⟨cmd, data⟩, rest⟩
    · rw [hqueue] at h
      cases h
      rfl
    · rw [hqueue] at h
      obtain ⟨next, hprepare, heq⟩ := Option.bind_eq_some_iff.mp h
      cases heq
      have hnext := prepareTransmit_timeout hprepare
      exact hnext

theorem onAckTimeout_timeout {eff : Effects} (h : s.onAckTimeout = some eff) :
    eff.session.ackTimeoutMs = s.ackTimeoutMs := by
  rw [onAckTimeout] at h
  by_cases hoff : s.awaiting = false ∨ s.ackTimeoutMs ≤ 0
  · rw [if_pos hoff] at h
    cases h
    rfl
  · rw [if_neg hoff] at h
    by_cases hnotice : s.maxRetries ≤ s.retries + 1 ∧ s.deliveryNotified = false
    · rw [if_pos hnotice] at h
      simp only [Option.bind_eq_bind, Option.bind_eq_some_iff] at h
      obtain ⟨_, -, _, -, heq⟩ := h
      cases heq
      exact armAckTimer_timeout _
    · rw [if_neg hnotice] at h
      cases h
      exact armAckTimer_timeout _

/-- Only the setter changes the ack timeout. -/
theorem perform_timeout {a : Action} {d : Done} (h : s.perform a = some (d, s')) :
    s'.ackTimeoutMs = a.ackTimeout s.ackTimeoutMs := by
  cases a with
  | send cmd data =>
    obtain ⟨res, hsend, heq⟩ := Option.bind_eq_some_iff.mp h
    cases res with
    | error err =>
      cases heq
      rfl
    | ok eff =>
      cases heq
      exact send_timeout hsend
  | handleAck seq =>
    obtain ⟨eff, hack, heq⟩ := Option.bind_eq_some_iff.mp h
    cases heq
    exact handleAck_timeout hack
  | handleNack seq =>
    obtain ⟨nack, hnack, heq⟩ := Option.bind_eq_some_iff.mp h
    cases heq
    exact congrArg ackTimeoutMs (handleNack_session hnack)
  | resend =>
    cases h
    rfl
  | onAckTimeout =>
    obtain ⟨eff, htick, heq⟩ := Option.bind_eq_some_iff.mp h
    cases heq
    exact onAckTimeout_timeout htick
  | setAckTimeout value =>
    cases h
    rfl
  | setMaxRetries value =>
    cases h
    rfl

end Session

/-! ## What is known of the state -/

/-- A ledger after its messages in the queue have been dropped, with the one outstanding. -/
def Ledger.drop (l : Ledger) : Ledger := ⟨l.accepted.take l.first, l.first, false⟩

theorem Session.Keeps.started {s : Session} {l : Ledger} (h : s.Keeps l) (a : Action) :
    (s.started a).Keeps l := by
  rw [Session.started]
  split_ifs
  · exact h.of_eq rfl rfl rfl rfl
  · exact h

theorem Session.Keeps.withTimer {s : Session} {l : Ledger} (h : s.Keeps l) (hasTimer : Bool) :
    (s.withTimer hasTimer).Keeps l := by
  rw [Session.withTimer]
  split_ifs
  · exact h
  · exact h.of_eq rfl rfl rfl rfl

theorem Session.Keeps.drop {s : Session} {l : Ledger} (h : s.Keeps l) :
    Session.Keeps { s with awaiting := false, retries := 0, sendQueue := [], ackTimer := none }
      l.drop where
  inv := by
    have hlen : (l.accepted.take l.first).length = l.first := by
      rw [List.length_take, Nat.min_eq_left h.inv.first_le]
    exact ⟨fun m hm => h.inv.sendable m (List.mem_of_mem_take hm), hlen.ge,
      (fun hw => by cases hw), (fun _ => hlen.symm)⟩
  queue := by
    refine (List.drop_eq_nil_of_le ?_).symm
    exact List.length_take_le _ _
  txSeq := h.txSeq
  awaiting := rfl
  retain hw := by cases hw

/-- The session is as its history says. -/
structure SerialSession.Kept (s : SerialSession) (k : History) : Prop where
  port : k.port = s.port
  timeout : k.ackTimeoutMs = s.arq.ackTimeoutMs
  timer : s.port = .opened → s.hasTimer = true
  ledger : ∃ l, s.arq.Keeps l ∧ Follows k.seen l

namespace SerialSession

variable {s : SerialSession} {k : History}

theorem new_kept (ackTimeoutMs : Int32) : (new ackTimeoutMs).Kept (.start ackTimeoutMs) where
  port := rfl
  timeout := rfl
  timer h := by cases h
  ledger := ⟨.fresh, ⟨Ledger.inv_fresh, rfl, rfl, rfl, (fun h => by cases h)⟩, rfl, rfl⟩

theorem Kept.openPort (h : s.Kept k) (created : Bool) :
    ∃ d s', s.step (.openPort created) = some (d, s') ∧ s'.Kept (k.next d) := by
  refine ⟨_, _, rfl, ?_⟩
  by_cases hopen : s.port = .opened
  · -- a call that returns at once
    have hsame : s.openPort created = s := if_pos hopen
    rw [hsame]
    refine ⟨rfl, h.timeout, h.timer, ?_⟩
    rw [History.next]
    dsimp only
    rw [if_pos (h.port.trans hopen)]
    exact h.ledger
  · have hset : s.openPort created = { s with
        arq := s.arq.opened, port := if created then .opened else s.port, hasTimer := true } :=
      if_neg hopen
    rw [hset]
    refine ⟨rfl, h.timeout, (fun _ => rfl), .fresh, s.arq.opened_keeps, ?_⟩
    rw [History.next]
    dsimp only
    rw [if_neg (by rw [h.port]; exact hopen)]
    exact ⟨rfl, rfl⟩

theorem Kept.closePort (h : s.Kept k) :
    ∃ d s', s.step .closePort = some (d, s') ∧ s'.Kept (k.next d) := by
  refine ⟨_, _, rfl, ?_⟩
  have harq : s.closePort.arq = s.arq := by
    rw [SerialSession.closePort]
    split_ifs <;> rfl
  have hport : s.closePort.port ≠ .opened := by
    rw [SerialSession.closePort]
    split_ifs with hopen
    · simp
    · exact hopen
  refine ⟨rfl, ?_, (fun hopen => absurd hopen hport), ?_⟩
  · rw [harq]
    exact h.timeout
  · rw [harq]
    exact h.ledger

/-- A write changes nothing, unless it fails and `WriteFrame` disposes the session. -/
theorem writeIf_cases (s : SerialSession) (frame : Option (List UInt8)) (sent : Bool) :
    (s.writeIf frame sent).2 = s ∨
      s.port = .opened ∧ (s.writeIf frame sent).2 = { s with
        arq := { s.arq with awaiting := false, retries := 0, sendQueue := [], ackTimer := none },
        port := .closed, hasTimer := false, disposed := true } := by
  rw [writeIf]
  by_cases hframe : frame = none
  · exact .inl (by rw [if_pos hframe])
  rw [if_neg hframe, writeFrame]
  cases hport : s.port with
  | unopened => exact .inl rfl
  | closed => exact .inl rfl
  | opened =>
    cases sent with
    | true => exact .inl rfl
    | false =>
      dsimp only
      rw [if_neg Bool.false_ne_true, dispose]
      by_cases hdisposed : s.disposed
      · exact .inl (if_pos hdisposed)
      · refine .inr ⟨rfl, ?_⟩
        rw [if_neg hdisposed, SerialSession.closePort, if_pos hport]

/-- **A step of the ARQ** is one of the ledger; a failed write drops what is outstanding. -/
theorem Kept.act (h : s.Kept k) (a : Action) (sent : Bool) :
    ∃ d s', s.act a sent = some (d, s') ∧ s'.Kept (k.next d) := by
  obtain ⟨l, hkeep, hfollows⟩ := h.ledger
  obtain ⟨done, left, l', hs, hdoes, hkeep'⟩ := (hkeep.started a).perform a
  have hfollows' := hdoes.follows hkeep.inv hfollows
  have htimeout : k.ackTimeoutMs = (s.arq.started a).ackTimeoutMs := by
    rw [Session.started_timeout, h.timeout]
  have hset := Session.perform_timeout hs
  rw [SerialSession.act, hs]
  refine ⟨_, _, rfl, ?_⟩
  dsimp only
  have hcases := writeIf_cases { s with arq := left.withTimer s.hasTimer } done.write sent
  generalize SerialSession.writeIf { s with arq := left.withTimer s.hasTimer } done.write sent =
    wrote at *
  obtain ⟨returned, s'⟩ := wrote
  dsimp only at hcases
  rcases hcases with rfl | ⟨hopen, rfl⟩
  · refine ⟨rfl, ?_, h.timer, l', hkeep'.withTimer _, ?_⟩
    · rw [Session.withTimer_timeout, hset, ← htimeout]
      rfl
    · have hport : ¬ (k.port = .opened ∧ s.port = .closed) := by
        rintro ⟨hopened, hclosed⟩
        rw [h.port, hclosed] at hopened
        cases hopened
      rw [History.next]
      dsimp only
      rw [if_neg hport]
      exact hfollows'
  · refine ⟨rfl, ?_, (fun hopen => by cases hopen), l'.drop,
      (hkeep'.withTimer s.hasTimer).drop, ?_⟩
    · rw [Session.withTimer_timeout, hset, ← htimeout]
      rfl
    · rw [History.next]
      dsimp only
      rw [if_pos ⟨h.port.trans hopen, rfl⟩]
      exact ⟨hfollows'.firsts, rfl⟩

/-- The message that the history has outstanding is the one retained. -/
theorem Kept.unacked (h : s.Kept k) (hwait : s.arq.awaiting = true) :
    ∃ b rest, k.seen.unacked = some (b :: rest) ∧ s.arq.retain = some (b :: rest) := by
  obtain ⟨l, hkeep, hfollows⟩ := h.ledger
  obtain ⟨m, b, rest, hwait', hm, hframe, hretain⟩ := hkeep.retained hwait
  exact ⟨b, rest, hfollows.unacked.trans (Ledger.unacked_eq hwait' rfl hm hframe), hretain⟩

theorem Kept.ended_iff (h : s.Kept k) :
    k.Ended ↔ s.arq.awaiting = false ∨ s.arq.ackTimeoutMs ≤ 0 := by
  rw [History.Ended, h.timeout, or_comm]
  refine or_congr_left ⟨fun hnone => ?_, fun hidle => ?_⟩
  · rw [← Bool.not_eq_true]
    intro hwait
    obtain ⟨b, rest, hsome, -⟩ := h.unacked hwait
    rw [hnone] at hsome
    cases hsome
  · obtain ⟨l, hkeep, hfollows⟩ := h.ledger
    rw [hfollows.unacked, Ledger.unacked, ← hkeep.awaiting, hidle]
    rfl

/-- **What a tick does**: nothing if nothing is left to transmit again; else it transmits that
again and arms the timer. -/
theorem Kept.tick (h : s.Kept k) {sent : Bool} {d : Shown} {s' : SerialSession}
    (hs : s.act .onAckTimeout sent = some (d, s')) :
    k.Ended ∧ d.write = none ∧ d.armed = false ∧ d.frameError = none ∨
      ¬ k.Ended ∧ d.write ≠ none ∧ d.write = k.seen.unacked ∧ d.armed = s.hasTimer := by
  have hstarted : s.arq.started .onAckTimeout = { s.arq with ackTimer := none } := if_pos rfl
  rw [SerialSession.act, hstarted] at hs
  by_cases hoff : s.arq.awaiting = false ∨ s.arq.ackTimeoutMs ≤ 0
  · refine .inl ⟨h.ended_iff.mpr hoff, ?_⟩
    have hcall := Session.onAckTimeout_off (s := { s.arq with ackTimer := none }) hoff
    have hnone : Session.withTimer { s.arq with ackTimer := none } s.hasTimer =
        { s.arq with ackTimer := none } := by
      rw [Session.withTimer]
      split_ifs <;> rfl
    rw [Session.perform, Session.failure, if_pos rfl, hcall] at hs
    simp only [Option.bind_eq_bind, Option.bind_some, hnone, ite_self, Option.some.injEq,
      Prod.mk.injEq] at hs
    obtain ⟨rfl, -⟩ := hs
    exact ⟨rfl, rfl, rfl⟩
  · refine .inr ⟨mt h.ended_iff.mp hoff, ?_⟩
    have hwait : s.arq.awaiting = true := by
      rw [← Bool.not_eq_false]
      exact fun hidle => hoff (.inl hidle)
    obtain ⟨b, rest, hunacked, hretain⟩ := h.unacked hwait
    obtain ⟨eff, notified, hcall, hwrite, hsession⟩ :=
      Session.onAckTimeout_on (s := { s.arq with ackTimer := none }) hoff hretain
    rw [Session.perform, hcall] at hs
    simp only [Option.bind_eq_bind, Option.bind_some, Option.some.injEq, Prod.mk.injEq] at hs
    obtain ⟨rfl, -⟩ := hs
    refine ⟨?_, hwrite.trans hunacked.symm, ?_⟩
    · rw [Shown.write]
      simp [hwrite]
    · dsimp only
      rw [hsession, Session.withTimer]
      cases s.hasTimer <;> rfl

/-- A tick in an open session. -/
theorem Kept.tick_opened (h : s.Kept k) {sent : Bool} {d : Shown} {s' : SerialSession}
    (hs : s.act .onAckTimeout sent = some (d, s')) (hopened : k.port = .opened) :
    (∀ frame, d.write = some frame → k.seen.unacked = some frame) ∧
      (¬ k.Ended → d.write ≠ none ∧ d.armed = true) := by
  rcases h.tick hs with ⟨hended, hwrite, -⟩ | ⟨-, hne, hwrite, harmed⟩
  · refine ⟨fun frame hframe => ?_, fun hgoes => absurd hended hgoes⟩
    rw [hwrite] at hframe
    cases hframe
  · refine ⟨fun frame hframe => hwrite.symm.trans hframe, fun _ => ⟨hne, ?_⟩⟩
    exact harmed.trans (h.timer (h.port.symm.trans hopened))

/-- A tick does what it must exactly when it does not come after `Close` with something left to
transmit again. -/
theorem Kept.tickKept_iff (h : s.Kept k) {sent : Bool} {d : Shown} {s' : SerialSession}
    (hs : s.act .onAckTimeout sent = some (d, s')) :
    TickKept k d ↔ (k.closed = true → k.Ended) := by
  have hopened := fun hport => (h.tick_opened hs hport).1
  rcases h.tick hs with ⟨hended, hsilent⟩ | ⟨hgoes, hne, -, -⟩
  · exact ⟨fun _ _ => hended, fun _ => ⟨fun _ => hsilent, hopened⟩⟩
  · refine ⟨fun hkept hclosed => absurd (hkept.closed hclosed).1 hne, fun hended => ?_⟩
    exact ⟨fun hclosed => absurd (hended hclosed) hgoes, hopened⟩

/-- One event. -/
theorem Kept.step (h : s.Kept k) (event : Event) :
    ∃ d s', s.step event = some (d, s') ∧ s'.Kept (k.next d) := by
  cases event with
  | openPort created => exact h.openPort created
  | closePort => exact h.closePort
  | act a sent => exact h.act a sent

/-- The event that a step shows. -/
theorem step_event {event : Event} {d : Shown} {s' : SerialSession}
    (hs : s.step event = some (d, s')) : d.event = event := by
  cases event with
  | openPort created =>
    cases hs
    rfl
  | closePort =>
    cases hs
    rfl
  | act a sent =>
    obtain ⟨done, -, heq⟩ := Option.bind_eq_some_iff.mp hs
    cases heq
    rfl

end SerialSession

/-! ## Whole lifetimes -/

theorem history_concat (ackTimeoutMs : Int32) (ds : List Shown) (d : Shown) :
    history ackTimeoutMs (ds ++ [d]) = (history ackTimeoutMs ds).next d := List.foldl_concat ..

/-- **Closing and retransmission.** Every run of a new session, with any settings, exists. Its
ticks do what they must exactly when every tick after `Close` and before the next `Open` comes
when the ack timeout is not positive or the message last transmitted for the first time since
`Open` is acknowledged. In an open session they always do: a tick transmits no other message than
that one, and as long as it is not acknowledged and the ack timeout is positive, a tick does
transmit it and arms the timer again. -/
theorem closing_iff (ackTimeoutMs : Int32) (events : List Event) :
    ∃ ds s, (SerialSession.new ackTimeoutMs).run events = some (ds, s) ∧
      ((∀ pre d post, ds = pre ++ d :: post → d.IsTick →
          TickKept (history ackTimeoutMs pre) d) ↔
        ∀ pre d post, ds = pre ++ d :: post → d.IsTick →
          (history ackTimeoutMs pre).closed = true → (history ackTimeoutMs pre).Ended) ∧
      ∀ pre d post, ds = pre ++ d :: post → d.IsTick →
        (history ackTimeoutMs pre).port = .opened →
        (∀ frame, d.write = some frame →
          (history ackTimeoutMs pre).seen.unacked = some frame) ∧
        (¬ (history ackTimeoutMs pre).Ended → d.write ≠ none ∧ d.armed = true) := by
  have hstart : (SerialSession.new ackTimeoutMs).Kept (history ackTimeoutMs []) :=
    SerialSession.new_kept ackTimeoutMs
  have hall : ∀ event ∈ events, True := fun _ _ => trivial
  obtain ⟨ds, s, hrun, -⟩ := run_total
    (P := fun ds (s : SerialSession) => s.Kept (history ackTimeoutMs ds))
    (fun {ds s event} h _ => by
      obtain ⟨d, s', hs, hkept⟩ := h.step event
      exact ⟨d, s', hs, by rw [history_concat]; exact hkept⟩) hstart hall
  -- each tick starts from a state that the events before it account for
  have htick {pre post : List Shown} {d : Shown} (hds : ds = pre ++ d :: post) (hd : d.IsTick) :
      ∃ s₁ s₂ sent, SerialSession.Kept s₁ (history ackTimeoutMs pre) ∧
        s₁.act .onAckTimeout sent = some (d, s₂) := by
    subst hds
    obtain ⟨event, s₁, s₂, -, hkept, hs⟩ := run_at
      (P := fun ds (s : SerialSession) => s.Kept (history ackTimeoutMs ds))
      (fun {ds s event d s'} h _ hs => by
        obtain ⟨d', s'', hs', hkept⟩ := h.step event
        obtain ⟨rfl, rfl⟩ := Prod.mk.inj (Option.some.inj (hs.symm.trans hs'))
        rw [history_concat]
        exact hkept) hstart hall hrun
    obtain ⟨sent, hevent⟩ := hd
    obtain rfl := (SerialSession.step_event hs).symm.trans hevent
    exact ⟨s₁, s₂, sent, hkept, hs⟩
  refine ⟨ds, s, hrun, ⟨fun hticks pre d post hds hd => ?_, fun hended pre d post hds hd => ?_⟩,
    fun pre d post hds hd => ?_⟩
  · obtain ⟨s₁, s₂, sent, hkept, hs⟩ := htick hds hd
    exact (hkept.tickKept_iff hs).mp (hticks pre d post hds hd)
  · obtain ⟨s₁, s₂, sent, hkept, hs⟩ := htick hds hd
    exact (hkept.tickKept_iff hs).mpr (hended pre d post hds hd)
  · obtain ⟨s₁, s₂, sent, hkept, hs⟩ := htick hds hd
    exact hkept.tick_opened hs

/-- A message is sent and the session closed before its ACK: the next tick hands the frame to
`WriteFrame` and arms the timer again. -/
theorem closing_goes_on :
    ∃ ds s, (SerialSession.new 1000).run
        [.openPort true, .act (.send 1 [7]) true, .closePort, .act .onAckTimeout true] =
        some (ds, s) ∧
      (∀ d ∈ ds.drop 3, d.event = .act .onAckTimeout true ∧ d.write ≠ none ∧ d.armed = true) ∧
      ¬ ∀ pre d post, ds = pre ++ d :: post → d.IsTick → TickKept (history 1000 pre) d := by
  have hsome : (((SerialSession.new 1000).run
      [.openPort true, .act (.send 1 [7]) true, .closePort, .act .onAckTimeout true]).map fun r =>
        decide ((history 1000 (r.1.take 3)).closed = true ∧ r.1.length = 4 ∧
          ∀ d ∈ r.1.drop 3, d.event = .act .onAckTimeout true ∧ d.write ≠ none ∧
            d.armed = true)) = some true := by
    decide +kernel
  obtain ⟨⟨ds, s⟩, hrun, hall⟩ := Option.map_eq_some_iff.mp hsome
  obtain ⟨hclosed, hlen, hlast⟩ := of_decide_eq_true hall
  dsimp only at hclosed hlen hlast
  refine ⟨ds, s, hrun, hlast, fun hticks => ?_⟩
  have hdrop : ds.drop 3 = ds[3] :: ds.drop 4 := List.drop_eq_getElem_cons (by omega)
  obtain ⟨hevent, hwrite, -⟩ := hlast ds[3] (by rw [hdrop]; exact List.mem_cons_self ..)
  have hkept := hticks (ds.take 3) ds[3] (ds.drop 4)
    (by rw [← hdrop, List.take_append_drop]) ⟨true, hevent⟩
  exact hwrite (hkept.closed hclosed).1

end EspSerialSession

end HtcwFrameArq
