import HtcwFrameArq.SendQueue
import HtcwFrameArq.SessionReader
import HtcwFrameArq.Soundness

/-!
# A session and a library

The session as a sender and the library as the receiver. A handler of the session updates the
state under its lock and leaves its frame to be written later, so the frames may reach the wire
in another order than they were made in. `Line` is the two ends with the writes to be made, the
frames on the wire and the replies on their way back, all of them as byte strings; `Line.step`
runs the functions of both ends. Nothing bounds the messages: a frame that the library does not take
as a whole stays on the wire in part, and the next call of get reads on from there.
-/

namespace HtcwFrameArq

/-- A call of get that finds no more bytes has read all that there were. -/
theorem Got.consumed_all [Build] {e e' : Endpoint} {acc acc' bytes : List UInt8}
    {found : Option RxEvent} {o : Outcome} (h : Got e acc found acc' o e')
    (hin : e.transport.incoming = bytes.map some) (hrest : e'.transport.incoming = []) :
    o.consumed = bytes := by
  obtain ⟨used, hused, hsplit⟩ := h.source
  rw [hrest, List.append_nil, hin] at hsplit
  rw [hused, ← hsplit]
  simp [List.reduceOption]

namespace EspSerialSession

/-! ## The line -/

/-- The two ends and what is between them. A handler of the session updates its state at once and
writes later, outside its lock: the frames it leaves stand in `pending` until one of the moves
writes them, in whatever order. -/
structure Line where
  session : Session
  /-- the read loop of the session -/
  loop : ReadLoop
  /-- how many messages have been prepared -/
  prepared : ℕ
  /-- the writes to be made: the number of the message, the frame -/
  pending : List (ℕ × List UInt8)
  wire : List (List UInt8)
  frame : FrameArqT
  replies : List (List UInt8)

/-- What can happen next. -/
inductive Move : Type where
  /-- a handler of the session, other than those its read loop calls -/
  | call (act : Action) : Move
  /-- one of the writes is made -/
  | write (i : ℕ) : Move
  /-- the head of the wire is lost -/
  | lose : Move
  /-- the head of the wire arrives as `bytes`, in which get sees a CRC failure -/
  | damage (bytes : List UInt8) : Move
  /-- the library calls get, which reads from the head of the wire -/
  | get : Move
  /-- the read loop takes the head of the replies -/
  | receive (logging : Bool) : Move
  /-- the head of the replies is lost -/
  | loseReply : Move
  deriving DecidableEq

/-- What a step shows: what a handler did and whether it took an ACK, the number of the message
that was written, what a call of get did. -/
inductive Line.Event : Type where
  | updated (d : Done) (taken : Bool) : Line.Event
  | wrote (k : ℕ) : Line.Event
  | got (o : Outcome) : Line.Event
  | nothing : Line.Event
  deriving DecidableEq

/-- The message that a call passes to `Send`. -/
def Action.message : Action → Option Message
  | .send cmd data => some (cmd, data)
  | _ => none

/-- The handlers that are called from outside: the public methods and the timer. `HandleAck` and
`HandleNack` are private, only the read loop calls them. -/
def Action.external : Action → Bool
  | .handleAck _ => false
  | .handleNack _ => false
  | _ => true

/-- The message that a move passes to `Send`. -/
def Move.message : Move → Option Message
  | .call act => act.message
  | _ => none

/-- Bytes on a wire: they lie there in one piece, or there are none. -/
def piece (bytes : List UInt8) : List (List UInt8) := if bytes = [] then [] else [bytes]

@[simp] theorem piece_nil : piece [] = [] := rfl

theorem piece_of_ne {bytes : List UInt8} (h : bytes ≠ []) : piece bytes = [bytes] := if_neg h

/-- Of bytes that are read to their end nothing stays on the wire. -/
theorem piece_drop {bytes consumed : List UInt8} (h : consumed = bytes) :
    piece (bytes.drop consumed.length) = [] := by
  rw [h, List.drop_length, piece_nil]

/-- `HandleAck` takes the ACK: it is not a stale or duplicate one. -/
def Session.takes (s : Session) : Action → Bool
  | .handleAck seq => s.awaiting && decide (seq = s.txSeq)
  | _ => false

/-- The handler that `DispatchValidFrame` calls for a control frame. -/
def called (fr : Frame) : Option Action :=
  let type := (fr.seqByte >>> 6) &&& 0x03
  let seq := fr.seqByte &&& 0x3F
  if fr.marker = 128 ∨ type ≠ typeData then
    if type = typeAck then some (.handleAck seq)
    else if type = typeNack then some (.handleNack seq)
    else none
  else none

namespace Line

/-- An opened session and a new controller. -/
def opened [Build] (s : Session) (st : Storage) : Line :=
  ⟨s.opened, .start, 0, [], [], st.create, []⟩

/-- A handler has updated the state of the session; the frame that it leaves is to be written. -/
def updated (L : Line) (d : Done) (s : Session) : Line :=
  { L with
    session := s
    prepared := L.prepared + d.first.toList.length
    pending := L.pending ++ d.first.toList.map (fun frame => (L.prepared, frame)) ++
      d.again.toList.map (fun frame => (L.prepared - 1, frame)) }

/-- A call of get while `bytes` are available, which are no longer on the wire. What it does not
read of them is put back; what it writes, if anything, is one reply. -/
def get [Build] (L : Line) (bytes : List UInt8) : Option (Outcome × Line) := do
  let r ← Endpoint.exec ⟨L.frame, ⟨bytes.map some, [], []⟩⟩ .get
  some (r.1, { L with
    wire := piece (bytes.drop r.1.consumed.length) ++ L.wire
    frame := r.2.frame
    replies := L.replies ++ piece r.1.written })

/-- The read loop takes a reply and calls the handler. `HandleNack` is taken with the call of
`Resend` at its end; a later call is a move of its own. -/
def receive (L : Line) (logging : Bool) (bytes : List UInt8) : Option (Event × Line) :=
  match (reader logging).events 0 L.loop bytes with
  | [(_, .frame fr)] => do
    let act ← called fr
    let eff ← L.session.dispatchValidFrame fr.marker fr.seqByte fr.payload
    let d : Done := ⟨act, none, eff.write⟩
    let L' := { L with loop := (reader logging).after L.loop bytes }
    some (.updated d (L.session.takes act), L'.updated d eff.session)
  | _ => none

/-- One step. What is not possible changes nothing; `none` is an exception, undefined behaviour
or a reply that is not a control frame. -/
def step [Build] (L : Line) : Move → Option (Event × Line)
  | .call act =>
    if act.external then do
      let r ← L.session.perform act
      some (.updated r.1 false, L.updated r.1 r.2)
    else some (.nothing, L)
  | .write i =>
    match L.pending[i]? with
    | none => some (.nothing, L)
    | some (k, bytes) =>
      some (.wrote k, { L with pending := L.pending.eraseIdx i, wire := L.wire ++ [bytes] })
  | .lose =>
    match L.wire with
    | [] => some (.nothing, L)
    | _ :: rest => some (.nothing, { L with wire := rest })
  | .damage bytes =>
    match L.wire with
    | [] => some (.nothing, L)
    | _ :: rest => do
      let r ← Line.get { L with wire := rest } bytes
      if r.1.ret = errorCrc ∧ r.1.consumed = bytes then some (.got r.1, r.2)
      else some (.nothing, L)
  | .get =>
    match L.wire with
    | [] => (L.get []).map (Prod.map .got id)
    | bytes :: rest => (Line.get { L with wire := rest } bytes).map (Prod.map .got id)
  | .receive logging =>
    match L.replies with
    | [] => some (.nothing, L)
    | bytes :: rest => Line.receive { L with replies := rest } logging bytes
  | .loseReply =>
    match L.replies with
    | [] => some (.nothing, L)
    | _ :: rest => some (.nothing, { L with replies := rest })

/-- A run of the line. -/
def run [Build] (L : Line) (moves : List Move) : Option (List Event × Line) :=
  Runs.run Line.step L moves

end Line

/-! ### What a run shows -/

/-- The message that a call of `Send` took. -/
def Line.Event.accepted : Line.Event → Option Message
  | .updated d _ => d.accepted
  | _ => none

/-- The frame that a handler prepared. -/
def Line.Event.first : Line.Event → Option (List UInt8)
  | .updated d _ => d.first
  | _ => none

/-- The message that a call of get delivered. -/
def Line.Event.delivered : Line.Event → Option Message
  | .got o => if o.Delivers then some (UInt8.ofNat o.ret.toNat, o.out.getD []) else none
  | _ => none

/-- The messages passed to `Send`, in order. -/
def Line.accepted (evs : List Line.Event) : List Message := evs.filterMap Line.Event.accepted

/-- The number of messages prepared. -/
def Line.prepareds (evs : List Line.Event) : ℕ := (evs.filterMap Line.Event.first).length

/-- The messages delivered by get, in order. -/
def Line.delivered (evs : List Line.Event) : List Message := evs.filterMap Line.Event.delivered

/-- A message is written while fewer than 62 later messages have been prepared. -/
def Line.InTime (evs : List Line.Event) : Prop :=
  ∀ pre k post, evs = pre ++ .wrote k :: post → Line.prepareds pre - (k + 1) < 62

section

variable {evs : List Line.Event}

theorem Line.accepted_concat (evs : List Line.Event) (ev : Line.Event) :
    Line.accepted (evs ++ [ev]) = Line.accepted evs ++ ev.accepted.toList := by
  rw [Line.accepted, Line.accepted, List.filterMap_append]
  cases hev : ev.accepted <;> simp [hev]

theorem Line.delivered_concat (evs : List Line.Event) (ev : Line.Event) :
    Line.delivered (evs ++ [ev]) = Line.delivered evs ++ ev.delivered.toList := by
  rw [Line.delivered, Line.delivered, List.filterMap_append]
  cases hev : ev.delivered <;> simp [hev]

theorem Line.prepareds_concat (evs : List Line.Event) (ev : Line.Event) :
    Line.prepareds (evs ++ [ev]) = Line.prepareds evs + ev.first.toList.length := by
  rw [Line.prepareds, Line.prepareds, List.filterMap_append, List.length_append]
  cases hev : ev.first <;> simp [hev]

theorem Line.InTime.of_append {more : List Line.Event} (h : Line.InTime (evs ++ more)) :
    Line.InTime evs := by
  rintro pre k post rfl
  exact h pre k (post ++ more) (by rw [List.append_assoc, List.cons_append])

/-- With so few messages every write is in time. -/
theorem Line.InTime.of_few (h : Line.prepareds evs ≤ 62) : Line.InTime evs := by
  rintro pre k post rfl
  rw [Line.prepareds, List.filterMap_append, List.length_append] at h
  rw [Line.prepareds]
  omega

end

/-! ## Taking a reply -/

section

variable {s s' : Session} {d : Done} {act : Action}

theorem Session.perform_action (h : s.perform act = some (d, s')) : d.action = act := by
  cases act with
  | send cmd data =>
    simp only [Session.perform, Option.bind_eq_bind, Option.bind_eq_some_iff] at h
    obtain ⟨r, -, hr⟩ := h
    cases r <;> cases hr <;> rfl
  | handleAck seq =>
    simp only [Session.perform, Option.bind_eq_bind, Option.bind_eq_some_iff] at h
    obtain ⟨eff, -, hr⟩ := h
    cases hr
    rfl
  | handleNack seq =>
    simp only [Session.perform, Option.bind_eq_bind, Option.bind_eq_some_iff] at h
    obtain ⟨nack, -, hr⟩ := h
    cases hr
    rfl
  | onAckTimeout =>
    simp only [Session.perform, Option.bind_eq_bind, Option.bind_eq_some_iff] at h
    obtain ⟨eff, -, hr⟩ := h
    cases hr
    rfl
  | _ =>
    cases h
    rfl

/-- A message is taken by the call that passes it to `Send`. -/
theorem Session.perform_accepted (h : s.perform act = some (d, s')) : ∀ m ∈ d.accepted,
    m ∈ act.message := by
  cases act with
  | send cmd data =>
    simp only [Session.perform, Option.bind_eq_bind, Option.bind_eq_some_iff] at h
    obtain ⟨r, -, hr⟩ := h
    cases r <;> cases hr
    · rintro m ⟨⟩
    · exact fun m hm => hm
  | handleAck seq =>
    simp only [Session.perform, Option.bind_eq_bind, Option.bind_eq_some_iff] at h
    obtain ⟨eff, -, hr⟩ := h
    cases hr
    rintro m ⟨⟩
  | handleNack seq =>
    simp only [Session.perform, Option.bind_eq_bind, Option.bind_eq_some_iff] at h
    obtain ⟨nack, -, hr⟩ := h
    cases hr
    rintro m ⟨⟩
  | onAckTimeout =>
    simp only [Session.perform, Option.bind_eq_bind, Option.bind_eq_some_iff] at h
    obtain ⟨eff, -, hr⟩ := h
    cases hr
    rintro m ⟨⟩
  | _ =>
    cases h
    rintro m ⟨⟩

/-- What `DispatchValidFrame` does with a control frame is what the handler does. -/
theorem Session.perform_called (s : Session) {fr : Frame} (h : called fr = some act) :
    s.perform act = (s.dispatchValidFrame fr.marker fr.seqByte fr.payload).map
      fun eff => (⟨act, none, eff.write⟩, eff.session) := by
  have hne : typeNack ≠ typeAck := by decide
  rw [called] at h
  rw [Session.dispatchValidFrame]
  split at h
  · next hctl =>
    rw [if_pos hctl]
    split at h
    · next hack =>
      obtain rfl := Option.some.inj h
      rw [if_pos hack, Session.perform]
      cases s.handleAck (fr.seqByte &&& 0x3F) <;> rfl
    · next hack =>
      split at h
      · next hnack =>
        obtain rfl := Option.some.inj h
        rw [if_neg hack, if_pos hnack, Session.perform]
        cases hs : s.handleNack (fr.seqByte &&& 0x3F) with
        | none => rfl
        | some nack =>
          simp only [Option.bind_eq_bind, Option.bind_some, Option.map_some,
            Session.handleNack_session hs]
      · cases h
  · cases h

/-- The replies of the library, as the session dispatches them. -/
theorem called_control {type : UInt8} (htype : type = faTypeAck ∨ type = faTypeNack) (k : ℕ) :
    called (controlFrame type (seqOf k)) =
      some (if type = faTypeAck then .handleAck (seqOf k) else .handleNack (seqOf k)) := by
  have hle : type ≤ 3 := by rcases htype with rfl | rfl <;> decide
  have htype' : ((controlFrame type (seqOf k)).seqByte >>> 6) &&& 0x03 = type :=
    faTypeOf_faSeqByte hle (seqOf k)
  have hseq : (controlFrame type (seqOf k)).seqByte &&& 0x3F = seqOf k :=
    faSeqOf_faSeqByte hle (seqOf_le k)
  have hmark : (controlFrame type (seqOf k)).marker = 128 := rfl
  rw [called]
  simp only [htype', hseq, if_pos (Or.inl hmark)]
  rcases htype with rfl | rfl <;> rfl

end

end EspSerialSession

end HtcwFrameArq
