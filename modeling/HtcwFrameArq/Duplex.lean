import HtcwFrameArq.Line

/-!
# A session and a library, both ways

Both ends send and receive. The frames of the session are written late, as in `Line`; the library
writes at once, and so does the read loop of the session when it answers a DATA frame or a frame
that it cannot read. Each of the two wires carries the DATA frames of one end with its replies to
the other, and the wire to the session also text that the program of the library prints between its
frames. `Duplex.step` runs the functions of both ends. What an end does not read of a piece stays
at the head of its wire.
-/

namespace HtcwFrameArq

namespace EspSerialSession

/-- What the read loop of `Open` does with what it finds: it dispatches a valid frame, and answers
anything else with a NACK. -/
def Session.found (s : Session) : RxEvent → Option Effects
  | .frame fr => s.dispatchValidFrame fr.marker fr.seqByte fr.payload
  | .crcError => do
    let control ← buildControlFrame typeNack s.expectedRxSeq    -- corrupt: seq untrustworthy
    some { session := s, write := some control }
  | .overflow => do
    let control ← buildControlFrame typeNack s.expectedRxSeq
    some { session := s, write := some control }

/-- The handler that is called with what the read loop finds, if it is a control frame. -/
def calledBy : RxEvent → Option Action
  | .frame fr => called fr
  | _ => none

/-- What is found ends a frame: the loop waits for a marker. -/
theorem ReadLoop.read_event {logging : Bool} {loop : ReadLoop} {b : UInt8} {ev : RxEvent}
    (h : (loop.read logging b).event = some ev) :
    ∃ mach, mach.state = 0 ∧ (loop.read logging b).loop = .header mach := by
  cases loop with
  | header mach =>
    simp only [ReadLoop.read] at h ⊢
    split_ifs at h ⊢ with hdone hlong hbody
    · exact ⟨_, rfl, rfl⟩
    · exact ⟨_, rfl, rfl⟩
  | payload mach got =>
    simp only [ReadLoop.read] at h ⊢
    split_ifs at h ⊢ with hmore
    exact ⟨_, rfl, rfl⟩

/-! ## What the handlers leave alone -/

namespace Session

variable {s s' : Session}

theorem prepareTransmit_expected {cmd : UInt8} {data frame : List UInt8}
    (h : s.prepareTransmit cmd data = some (frame, s')) : s'.expectedRxSeq = s.expectedRxSeq := by
  simp only [prepareTransmit, Option.bind_eq_bind, Option.bind_eq_some_iff] at h
  obtain ⟨frame', -, heq⟩ := h
  obtain ⟨timer, htimer⟩ := armAckTimer_eq
    { s with txSeq := (s.txSeq + 1) &&& 0x3F, retain := some frame', awaiting := true, retries := 0,
             deliveryNotified := false }
  rw [htimer] at heq
  cases heq
  rfl

theorem send_expected {cmd : UInt8} {data : List UInt8} {eff : Effects}
    (h : s.send cmd data = some (.ok eff)) : eff.session.expectedRxSeq = s.expectedRxSeq := by
  by_cases hsend : Sendable (cmd, data)
  · rw [send_eq hsend] at h
    by_cases hwait : s.awaiting
    · rw [if_pos hwait] at h
      cases h
      rfl
    · rw [if_neg hwait] at h
      obtain ⟨toWrite, hprepare, heq⟩ := Option.bind_eq_some_iff.mp h
      cases heq
      exact prepareTransmit_expected hprepare
  · obtain ⟨err, herr⟩ := s.send_error hsend
    rw [herr] at h
    cases h

theorem handleAck_expected {seq : UInt8} {eff : Effects} (h : s.handleAck seq = some eff) :
    eff.session.expectedRxSeq = s.expectedRxSeq := by
  rw [handleAck] at h
  by_cases hstale : s.awaiting = false ∨ seq ≠ s.txSeq
  · rw [if_pos hstale] at h
    cases h
    rfl
  · rw [if_neg hstale] at h
    dsimp only [disarmAckTimer] at h
    rcases hqueue : s.sendQueue with _ | ⟨⟨cmd, data⟩, rest⟩
    · rw [hqueue] at h
      cases h
      rfl
    · rw [hqueue] at h
      obtain ⟨next, hprepare, heq⟩ := Option.bind_eq_some_iff.mp h
      cases heq
      have hnext := prepareTransmit_expected hprepare
      exact hnext

theorem onAckTimeout_expected {eff : Effects} (h : s.onAckTimeout = some eff) :
    eff.session.expectedRxSeq = s.expectedRxSeq := by
  have harm (s : Session) : s.armAckTimer.expectedRxSeq = s.expectedRxSeq := by
    obtain ⟨timer, htimer⟩ := armAckTimer_eq s
    rw [htimer]
  rw [onAckTimeout] at h
  by_cases hoff : s.awaiting = false ∨ s.ackTimeoutMs ≤ 0
  · rw [if_pos hoff] at h
    cases h
    rfl
  · rw [if_neg hoff] at h
    by_cases hnotice : s.maxRetries ≤ s.retries + 1 ∧ s.deliveryNotified = false
    · rw [if_pos hnotice] at h
      simp only [Option.bind_eq_bind, Option.bind_eq_some_iff] at h
      obtain ⟨_, -, _, -, heq⟩ := h
      cases heq
      exact harm _
    · rw [if_neg hnotice] at h
      cases h
      exact harm _

/-- Only the dispatch of a DATA frame changes the sequence number that is expected. -/
theorem perform_expected {act : Action} {d : Done} (h : s.perform act = some (d, s')) :
    s'.expectedRxSeq = s.expectedRxSeq := by
  cases act with
  | send cmd data =>
    obtain ⟨res, hsend, heq⟩ := Option.bind_eq_some_iff.mp h
    cases res with
    | error err =>
      cases heq
      rfl
    | ok eff =>
      cases heq
      exact send_expected hsend
  | handleAck seq =>
    obtain ⟨eff, hack, heq⟩ := Option.bind_eq_some_iff.mp h
    cases heq
    exact handleAck_expected hack
  | handleNack seq =>
    obtain ⟨nack, hnack, heq⟩ := Option.bind_eq_some_iff.mp h
    cases heq
    exact congrArg expectedRxSeq (handleNack_session hnack)
  | resend =>
    cases h
    rfl
  | onAckTimeout =>
    obtain ⟨eff, htick, heq⟩ := Option.bind_eq_some_iff.mp h
    cases heq
    exact onAckTimeout_expected htick
  | setAckTimeout value =>
    cases h
    rfl
  | setMaxRetries value =>
    cases h
    rfl

end Session

/-! ## The system -/

/-- The two ends and what is between them, both of which send messages. A frame on its way to the
session is one item of `toSession`, and so is a text that the firmware prints between two
frames on the same serial line. -/
structure Duplex where
  session : Session
  /-- the read loop of the session -/
  loop : ReadLoop
  /-- how many messages of the session have been prepared -/
  prepared : ℕ
  /-- the writes the session is to make: the number of the message, the frame -/
  pending : List (ℕ × List UInt8)
  toLibrary : List (List UInt8)
  frame : FrameArqT
  /-- the frames of the library, and what is printed between them -/
  toSession : List (List UInt8)

namespace Duplex

/-- What can happen next. -/
inductive Move : Type where
  /-- a handler of the session, other than those its read loop calls -/
  | call (act : Action) : Move
  /-- one of the writes of the session is made -/
  | write (i : ℕ) : Move
  /-- the read loop takes the head of its wire -/
  | receive (logging : Bool) : Move
  /-- the head of the wire to the session arrives as `bytes`, which fail the CRC check at the end -/
  | damageToSession (logging : Bool) (bytes : List UInt8) : Move
  | loseToSession : Move
  | put (cmd : UInt8) (payload : List UInt8) : Move
  | resend : Move
  /-- the program of the library prints -/
  | print (text : List UInt8) : Move
  /-- the library calls get, which reads from the head of its wire -/
  | get : Move
  /-- the head of the wire to the library arrives as `bytes`, in which get sees a CRC failure -/
  | damageToLibrary (bytes : List UInt8) : Move
  | loseToLibrary : Move
  deriving DecidableEq

/-- The message that a move passes to `Send`. -/
def Move.message : Move → Option Message
  | .call act => act.message
  | _ => none

/-- What both ends can take: a message of the session is at most as long as the maximum of the
library, a message of the library as that of the session, and what is printed is ASCII text. -/
def Move.Fits (limit : ℕ) : Move → Prop
  | .call act => ∀ m ∈ act.message, m.2.length ≤ limit
  | .put _ payload => payload.length ≤ 32768
  | .print text => ∀ b ∈ text, b < 128
  | _ => True

instance (limit : ℕ) : DecidablePred (Move.Fits limit)
  | .call act => inferInstanceAs (Decidable (∀ m ∈ act.message, m.2.length ≤ limit))
  | .put _ payload => inferInstanceAs (Decidable (payload.length ≤ 32768))
  | .print text => inferInstanceAs (Decidable (∀ b ∈ text, b < 128))
  | .write _ => .isTrue trivial
  | .receive _ => .isTrue trivial
  | .damageToSession _ _ => .isTrue trivial
  | .loseToSession => .isTrue trivial
  | .resend => .isTrue trivial
  | .get => .isTrue trivial
  | .damageToLibrary _ => .isTrue trivial
  | .loseToLibrary => .isTrue trivial

/-- What a step shows: what a handler of the session did and whether it took an ACK, the number
of the message that was written, what the read loop handed over, what a call of the library did. -/
inductive Event : Type where
  | updated (d : Done) (taken : Bool) : Event
  | wrote (k : ℕ) : Event
  | received (m : Option Message) : Event
  | called (o : Outcome) : Event
  | nothing : Event
  deriving DecidableEq

/-- An opened session and a new controller. -/
def opened [Build] (s : Session) (st : Storage) : Duplex :=
  ⟨s.opened, .start, 0, [], [], st.create, []⟩

/-- A handler has updated the state of the session; the frame that it leaves is to be written. -/
def updated (D : Duplex) (d : Done) (s : Session) : Duplex :=
  { D with
    session := s
    prepared := D.prepared + d.first.toList.length
    pending := D.pending ++ d.first.toList.map (fun frame => (D.prepared, frame)) ++
      d.again.toList.map (fun frame => (D.prepared - 1, frame)) }

/-- The library performs a call while `bytes` are available to it, which are no longer on the wire.
What it does not read of them is put back. -/
def exec [Build] (D : Duplex) (c : Call) (bytes : List UInt8) : Option (Outcome × Duplex) := do
  let r ← Endpoint.exec ⟨D.frame, ⟨bytes.map some, [], []⟩⟩ c
  some (r.1, { D with
    toLibrary := piece (bytes.drop r.1.consumed.length) ++ D.toLibrary
    frame := r.2.frame
    toSession := D.toSession ++ piece r.1.written })

/-- The program of the library prints `text`. -/
def printed (D : Duplex) (text : List UInt8) : Duplex :=
  { D with toSession := D.toSession ++ piece text }

/-- The read loop has found `ev`. A handler leaves its frame to be written later, everything else
is answered at once. `HandleNack` is taken with the call of `Resend` at its end. -/
def dispatch (D : Duplex) (ev : RxEvent) : Option (Event × Duplex) := do
  let eff ← D.session.found ev
  match calledBy ev with
  | some act =>
    let d : Done := ⟨act, none, eff.write⟩
    some (.updated d (D.session.takes act), D.updated d eff.session)
  | none =>
    some (.received eff.frameReceived,
      { D with session := eff.session, toLibrary := D.toLibrary ++ eff.write.toList })

/-- The read loop reads `bytes`, which are no longer on the wire, up to the one that completes what
it finds and dispatches that. What it has not read is put back. -/
def receive (D : Duplex) (logging : Bool) (bytes : List UInt8) : Option (Event × Duplex) :=
  match (reader logging).events 0 D.loop bytes with
  | [] => some (.nothing, { D with loop := (reader logging).after D.loop bytes })
  | (n, ev) :: _ => dispatch { D with
      loop := (reader logging).after D.loop (bytes.take n)
      toSession := piece (bytes.drop n) ++ D.toSession } ev

/-- One step. What is not possible changes nothing; `none` is an exception or undefined
behaviour. -/
def step [Build] (D : Duplex) : Move → Option (Event × Duplex)
  | .call act =>
    if act.external then do
      let r ← D.session.perform act
      some (.updated r.1 false, D.updated r.1 r.2)
    else some (.nothing, D)
  | .write i =>
    match D.pending[i]? with
    | none => some (.nothing, D)
    | some (k, bytes) =>
      some (.wrote k,
        { D with pending := D.pending.eraseIdx i, toLibrary := D.toLibrary ++ [bytes] })
  | .receive logging =>
    match D.toSession with
    | [] => some (.nothing, D)
    | bytes :: rest => Duplex.receive { D with toSession := rest } logging bytes
  | .damageToSession logging bytes =>
    match D.toSession with
    | [] => some (.nothing, D)
    | _ :: rest =>
      if (reader logging).events 0 D.loop bytes = [(bytes.length, .crcError)] then
        Duplex.receive { D with toSession := rest } logging bytes
      else some (.nothing, D)
  | .loseToSession =>
    match D.toSession with
    | [] => some (.nothing, D)
    | _ :: rest => some (.nothing, { D with toSession := rest })
  | .put cmd payload => (D.exec (.put cmd (.bytes payload)) []).map (Prod.map .called id)
  | .resend => (D.exec .resend []).map (Prod.map .called id)
  | .print text => some (.nothing, D.printed text)
  | .get =>
    match D.toLibrary with
    | [] => (D.exec .get []).map (Prod.map .called id)
    | bytes :: rest =>
      (Duplex.exec { D with toLibrary := rest } .get bytes).map (Prod.map .called id)
  | .damageToLibrary bytes =>
    match D.toLibrary with
    | [] => some (.nothing, D)
    | _ :: rest => do
      let r ← Duplex.exec { D with toLibrary := rest } .get bytes
      if r.1.ret = errorCrc ∧ r.1.consumed = bytes then some (.called r.1, r.2)
      else some (.nothing, D)
  | .loseToLibrary =>
    match D.toLibrary with
    | [] => some (.nothing, D)
    | _ :: rest => some (.nothing, { D with toLibrary := rest })

/-- A run. -/
def run [Build] (D : Duplex) (moves : List Move) : Option (List Event × Duplex) :=
  Runs.run Duplex.step D moves

/-! ### What a run shows -/

/-- The message that a call of `Send` took. -/
def Event.sent : Event → Option Message
  | .updated d _ => d.accepted
  | _ => none

/-- The frame that a handler prepared. -/
def Event.first : Event → Option (List UInt8)
  | .updated d _ => d.first
  | _ => none

/-- The message that a call of get delivered. -/
def Event.got : Event → Option Message
  | .called o => if o.Delivers then some (UInt8.ofNat o.ret.toNat, o.out.getD []) else none
  | _ => none

/-- The message that a call of put accepted. -/
def Event.put : Event → Option Message
  | .called o =>
    match o.call with
    | .put cmd (.bytes payload) => if o.ret = success then some (cmd, payload) else none
    | _ => none
  | _ => none

/-- The message that `FrameReceived` handed over. -/
def Event.handed : Event → Option Message
  | .received m => m
  | _ => none

/-- The messages passed to `Send`, in order. -/
def sent (evs : List Event) : List Message := evs.filterMap Event.sent

/-- The number of messages that the session prepared. -/
def prepareds (evs : List Event) : ℕ := (evs.filterMap Event.first).length

/-- The messages delivered by get, in order. -/
def got (evs : List Event) : List Message := evs.filterMap Event.got

/-- The messages accepted by put, in order. -/
def puts (evs : List Event) : List Message := evs.filterMap Event.put

/-- The messages handed over by the read loop of the session, in order. -/
def handed (evs : List Event) : List Message := evs.filterMap Event.handed

/-- A message is written while fewer than 62 later messages have been prepared. -/
def InTime (evs : List Event) : Prop :=
  ∀ pre k post, evs = pre ++ .wrote k :: post → prepareds pre - (k + 1) < 62

section

variable {evs : List Event}

theorem filterMap_concat {α β : Type} (f : α → Option β) (as : List α) (a : α) :
    (as ++ [a]).filterMap f = as.filterMap f ++ (f a).toList := by
  rw [List.filterMap_append]
  cases h : f a <;> simp [h]

theorem sent_concat (evs : List Event) (ev : Event) :
    sent (evs ++ [ev]) = sent evs ++ ev.sent.toList :=
  filterMap_concat Event.sent evs ev

theorem got_concat (evs : List Event) (ev : Event) : got (evs ++ [ev]) = got evs ++ ev.got.toList :=
  filterMap_concat Event.got evs ev

theorem puts_concat (evs : List Event) (ev : Event) :
    puts (evs ++ [ev]) = puts evs ++ ev.put.toList :=
  filterMap_concat Event.put evs ev

theorem handed_concat (evs : List Event) (ev : Event) :
    handed (evs ++ [ev]) = handed evs ++ ev.handed.toList :=
  filterMap_concat Event.handed evs ev

theorem prepareds_concat (evs : List Event) (ev : Event) :
    prepareds (evs ++ [ev]) = prepareds evs + ev.first.toList.length := by
  rw [prepareds, filterMap_concat, List.length_append]
  rfl

theorem InTime.of_append {more : List Event} (h : InTime (evs ++ more)) : InTime evs := by
  rintro pre k post rfl
  exact h pre k (post ++ more) (by rw [List.append_assoc, List.cons_append])

/-- With so few messages every write is in time. -/
theorem InTime.of_few (h : prepareds evs ≤ 62) : InTime evs := by
  rintro pre k post rfl
  rw [prepareds, List.filterMap_append, List.length_append] at h
  rw [prepareds]
  omega

end

end Duplex

end EspSerialSession

end HtcwFrameArq
