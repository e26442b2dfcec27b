import HtcwFrameArq.Receiver

/-!
# The session of the PC

`EspSerialSession.cs`, function by function: the encoder, the parser with its read loop, and
the ARQ state with its handlers. `int` is `Int32`, and what is stored in a byte is computed
modulo 256. A function that indexes into an array returns an `Option`: `none` is an exception.

A handler locks the ARQ state, updates it, and writes and raises events after it has released
the lock. It is modelled by the update and by the `Effects` that come after it.
-/

namespace HtcwFrameArq

namespace EspSerialSession

open Memory

/-! ## Constants -/

/-- `FrameHeaderLength` -/
def frameHeaderLength : ℕ := 17
/-- `MaxFrameLength` -/
def maxFrameLength : Int32 := 32768
/-- `TypeData` -/
def typeData : UInt8 := 0
/-- `TypeAck` -/
def typeAck : UInt8 := 1
/-- `TypeNack` -/
def typeNack : UInt8 := 2

/-! ## The CRC -/

/-- `n` turns of the inner loop of `BuildCrcTable`. -/
def crcTurns : ℕ → UInt32 → UInt32
  | 0, c => c
  | n + 1, c =>
    crcTurns n (if c &&& 1 ≠ 0 then (0xEDB88320 : UInt32) ^^^ (c >>> 1) else c >>> 1)

/-- `BuildCrcTable` -/
def buildCrcTable : Array UInt32 := Array.ofFn fun n : Fin 256 => crcTurns 8 (UInt32.ofNat n)

/-- `_crcTable` -/
def crcTable : Array UInt32 := buildCrcTable

/-- `Crc32Byte` -/
def crc32Byte (crc : UInt32) (b : UInt8) : UInt32 :=
  (crc >>> 8) ^^^ crcTable.getD ((crc ^^^ b.toUInt32) &&& 0xFF).toNat 0

/-- The bytes `BinaryPrimitives.WriteUInt32LittleEndian` writes. -/
def littleEndian (v : UInt32) : List UInt8 :=
  [v.toUInt8, (v >>> 8).toUInt8, (v >>> 16).toUInt8, (v >>> 24).toUInt8]

/-- `BinaryPrimitives.WriteUInt32LittleEndian`, to the four bytes of `frame` from `i` on. -/
def writeUInt32LittleEndian (frame : List UInt8) (i : ℕ) (v : UInt32) : Option (List UInt8) :=
  write frame i (littleEndian v)

/-- `BinaryPrimitives.WriteInt32LittleEndian`, to the four bytes of `frame` from `i` on. -/
def writeInt32LittleEndian (frame : List UInt8) (i : ℕ) (v : Int32) : Option (List UInt8) :=
  write frame i (littleEndian v.toUInt32)

/-- `Crc32` -/
def crc32 (seqByte : UInt8) (length : Int32) (payload : List UInt8) : UInt32 :=
  let c : UInt32 := 0xFFFFFFFF
  let c := crc32Byte c seqByte
  let c := (littleEndian length.toUInt32).foldl crc32Byte c
  let c := payload.foldl crc32Byte c
  c ^^^ 0xFFFFFFFF

/-! ## The encoder -/

/-- `BuildDataFrame` -/
def buildDataFrame (cmd seq : UInt8) (payload : List UInt8) : Option (List UInt8) := do
  let marker := cmd + 128
  let seqByte := seq &&& 0x3F
  let frame := List.replicate (frameHeaderLength + payload.length) 0
  let frame ← write frame 0 (List.replicate 8 marker)
  let frame ← store frame 8 seqByte
  let frame ← writeInt32LittleEndian frame 9 (Int32.ofNat payload.length)
  let frame ← write frame frameHeaderLength payload
  writeUInt32LittleEndian frame 13 (crc32 seqByte (Int32.ofNat payload.length) payload)

/-- `BuildControlFrame` -/
def buildControlFrame (type seq : UInt8) : Option (List UInt8) := do
  let seqByte := (type <<< 6) ||| (seq &&& 0x3F)
  let frame := List.replicate frameHeaderLength 0
  let frame ← write frame 0 (List.replicate 8 128)
  let frame ← store frame 8 seqByte
  let frame ← writeInt32LittleEndian frame 9 0
  writeUInt32LittleEndian frame 13 (crc32 seqByte 0 [])

/-! ## The parser -/

/-- `StateMachine` -/
structure StateMachine where
  state : ℕ
  rawCmd : UInt8
  rawSeq : UInt8
  rawLen : UInt32
  rawCrc : UInt32
  deriving DecidableEq

/-- What `Step` leaves: the returned value, the bytes added to the log, the machine. -/
structure Stepped where
  ret : Bool
  log : List UInt8
  machine : StateMachine
  deriving DecidableEq

namespace StateMachine

/-- `default` -/
def fresh : StateMachine := ⟨0, 0, 0, 0, 0⟩

/-- `Length` -/
def length (m : StateMachine) : Int32 := m.rawLen.toInt32

/-- `IsDone` -/
def isDone (m : StateMachine) : Bool := m.state = 17

/-- `Reset` -/
def reset (m : StateMachine) : StateMachine := { m with state := 0 }

/-- `Step`, after a machine that was done has started over. `logging` says that there is a log
and a lock for it. -/
def stepFrom (m : StateMachine) (logging : Bool) (data : UInt8) : Stepped :=
  if m.state = 0 then
    if data < 128 then ⟨false, if logging then [data] else [], m⟩
    else ⟨true, [], ⟨1, data, 0, 0, 0⟩⟩
  else if m.state < 8 then                          -- remaining 7 marker bytes must match
    if m.rawCmd ≠ data then
      ⟨false, if logging then List.replicate m.state m.rawCmd ++ [data] else [],
        { m with state := 0 }⟩
    else ⟨true, [], { m with state := m.state + 1 }⟩
  else if m.state = 8 then ⟨true, [], { m with rawSeq := data, state := m.state + 1 }⟩
  else if m.state < 13 then
    ⟨true, [],
      { m with
        rawLen := m.rawLen ||| (data.toUInt32 <<< UInt32.ofNat (8 * (m.state - 9)))
        state := m.state + 1 }⟩
  else
    ⟨true, [],
      { m with
        rawCrc := m.rawCrc ||| (data.toUInt32 <<< UInt32.ofNat (8 * (m.state - 13)))
        state := m.state + 1 }⟩

/-- `Step` -/
def step (m : StateMachine) (logging : Bool) (data : UInt8) : Stepped :=
  if m.state = 17 then stepFrom m.reset logging data     -- previous frame consumed
  else stepFrom m logging data

end StateMachine

/-- Where the read loop of `Open` waits for a byte: for the next one of a marker or a header,
or for more of the payload. -/
inductive ReadLoop : Type where
  | header (mach : StateMachine) : ReadLoop
  | payload (mach : StateMachine) (got : List UInt8) : ReadLoop
  deriving DecidableEq

/-- What the read loop does with a byte: what it finds, the bytes added to the log, where it
waits next. -/
structure ReadTurn where
  event : Option RxEvent
  log : List UInt8
  loop : ReadLoop
  deriving DecidableEq

namespace ReadLoop

/-- The loop when it starts. -/
def start : ReadLoop := .header .fresh

/-- The CRC check of the read loop. -/
def check (mach : StateMachine) (payload : List UInt8) : RxEvent :=
  if crc32 mach.rawSeq mach.length payload ≠ mach.rawCrc then .crcError
  else .frame ⟨mach.rawCmd, mach.rawSeq, payload⟩

/-- The read loop, from one byte to the next. -/
def read (logging : Bool) : ReadLoop → UInt8 → ReadTurn
  | header mach, b =>
    let stepped := mach.step logging b
    let mach := stepped.machine
    if mach.isDone then
      if mach.length < 0 ∨ maxFrameLength < mach.length then
        ⟨some .overflow, stepped.log, header mach.reset⟩
      else if 0 < mach.length then ⟨none, stepped.log, payload mach []⟩
      else ⟨some (check mach []), stepped.log, header mach.reset⟩
    else ⟨none, stepped.log, header mach⟩
  | payload mach got, b =>
    let got := got ++ [b]
    if got.length < mach.length.toInt.toNat then ⟨none, [], payload mach got⟩
    else ⟨some (check mach got), [], header mach.reset⟩

end ReadLoop

/-! ## The ARQ state -/

/-- A message: the command and the payload. -/
abbrev Message : Type := UInt8 × List UInt8

/-- The fields that `_arq` guards, with the ack timer: `some ms` when it is armed. -/
structure Session where
  txSeq : UInt8
  expectedRxSeq : UInt8
  /-- a sent DATA frame is unacked -/
  awaiting : Bool
  /-- last DATA frame bytes, for resend -/
  retain : Option (List UInt8)
  ackTimeoutMs : Int32
  maxRetries : Int32
  /-- timeout-driven resends so far -/
  retries : Int32
  deliveryNotified : Bool
  sendQueue : List Message
  ackTimer : Option Int32
  deriving DecidableEq

/-- `ResendRequestedEventArgs` -/
structure ResendRequested where
  command : UInt8
  seq : UInt8
  deriving DecidableEq

/-- `FrameErrorEventArgs` -/
structure FrameError where
  command : UInt8
  seq : UInt8
  retries : Int32
  deriving DecidableEq

/-- An `ArgumentOutOfRangeException`. -/
structure ArgumentOutOfRange where
  paramName : String
  message : Option String
  deriving DecidableEq

/-- What a handler does: the state it leaves, the frame it hands to `WriteFrame`, the events it
raises. -/
structure Effects where
  session : Session
  write : Option (List UInt8) := none
  resendRequested : Option ResendRequested := none
  frameError : Option FrameError := none
  frameReceived : Option Message := none
  deriving DecidableEq

namespace Session

/-- The ARQ state that `Open` sets. -/
def opened (s : Session) : Session :=
  { s with txSeq := 0x3F, expectedRxSeq := 0, awaiting := false, retries := 0, sendQueue := [] }

/-- `AckTimeout` -/
def setAckTimeout (s : Session) (value : Int32) : Session := { s with ackTimeoutMs := value }

/-- `MaxRetries` -/
def setMaxRetries (s : Session) (value : Int32) : Session :=
  { s with maxRetries := if value < 0 then 0 else value }

/-- `ArmAckTimer` -/
def armAckTimer (s : Session) : Session :=
  if 0 < s.ackTimeoutMs then { s with ackTimer := some s.ackTimeoutMs } else s

/-- `DisarmAckTimer` -/
def disarmAckTimer (s : Session) : Session := { s with ackTimer := none }

/-- `PrepareTransmit`: the bytes to write, and the state. -/
def prepareTransmit (s : Session) (cmd : UInt8) (payload : List UInt8) :
    Option (List UInt8 × Session) := do
  let txSeq := (s.txSeq + 1) &&& 0x3F
  let frame ← buildDataFrame cmd txSeq payload
  some (frame, armAckTimer
    { s with txSeq, retain := some frame, awaiting := true, retries := 0,
             deliveryNotified := false })

/-- `Send` -/
def send (s : Session) (cmd : UInt8) (data : List UInt8) :
    Option (Except ArgumentOutOfRange Effects) :=
  if cmd > 127 then some (.error ⟨"cmd", none⟩)
  else if cmd < 1 then some (.error ⟨"cmd", some "cmd must be 1..127"⟩)
  else if maxFrameLength.toInt < data.length then some (.error ⟨"data", none⟩)
  else if s.awaiting then                           -- one in flight; queue the rest
    some (.ok { session := { s with sendQueue := s.sendQueue ++ [(cmd, data)] } })
  else do
    let toWrite ← s.prepareTransmit cmd data
    some (.ok { session := toWrite.2, write := some toWrite.1 })

/-- `HandleAck` -/
def handleAck (s : Session) (seq : UInt8) : Option Effects :=
  if s.awaiting = false ∨ seq ≠ s.txSeq then some { session := s }  -- stale/duplicate ack
  else
    let s := { s with awaiting := false }.disarmAckTimer
    match s.sendQueue with
    | [] => some { session := s }
    | (cmd, data) :: rest => do
      let next ← { s with sendQueue := rest }.prepareTransmit cmd data
      some { session := next.2, write := some next.1 }

/-- `Resend`: the returned value, and the frame that is written. -/
def resend (s : Session) : Bool × Option (List UInt8) :=
  if s.awaiting = false ∨ s.retain = none then (false, none) else (true, s.retain)

/-- `HandleNack`, up to the call of `Resend` at its end: whether that call is made, and what
else it does. Its argument is not used. -/
def handleNack (s : Session) (_seq : UInt8) : Option (Bool × Effects) :=
  if s.awaiting = false then some (false, { session := s })
  else do
    let explicitMode := s.ackTimeoutMs < 0
    let cmd := (← load (← s.retain) 0) - 128
    if explicitMode then
      some (false, { session := s, resendRequested := some ⟨cmd, s.txSeq⟩ })
    else some (true, { session := s })

/-- `OnAckTimeout` -/
def onAckTimeout (s : Session) : Option Effects :=
  if s.awaiting = false ∨ s.ackTimeoutMs ≤ 0 then some { session := s }
  else
    let resend := s.retain
    let s := { s with retries := s.retries + 1 }
    if s.maxRetries ≤ s.retries ∧ s.deliveryNotified = false then do
      let cmd := (← load (← s.retain) 0) - 128
      some {
        session := armAckTimer { s with deliveryNotified := true }
        write := resend
        frameError := some ⟨cmd, s.txSeq, s.retries⟩ }
    else some { session := armAckTimer s, write := resend }

/-- The DATA branch of `DispatchValidFrame`. -/
def dispatchData (s : Session) (rawCmd seq : UInt8) (payload : List UInt8) : Option Effects :=
  let cmd := rawCmd - 128
  let expected := s.expectedRxSeq
  if seq = expected then do
    let control ← buildControlFrame typeAck seq     -- ack = "received intact"
    some {
      session := { s with expectedRxSeq := (seq + 1) &&& 0x3F }
      write := some control
      frameReceived := some (cmd, payload) }
  else if seq = (expected - 1) &&& 0x3F then do
    let control ← buildControlFrame typeAck seq     -- duplicate: re-ack only
    some { session := s, write := some control }
  else do
    let control ← buildControlFrame typeNack expected    -- gap: ask for what we expect
    some { session := s, write := some control }

/-- `DispatchValidFrame` -/
def dispatchValidFrame (s : Session) (rawCmd rawSeq : UInt8) (payload : List UInt8) :
    Option Effects :=
  let type := (rawSeq >>> 6) &&& 0x03
  let seq := rawSeq &&& 0x3F
  if rawCmd = 128 ∨ type ≠ typeData then
    if type = typeAck then s.handleAck seq
    else if type = typeNack then do
      let nack ← s.handleNack seq
      some { nack.2 with write := if nack.1 then s.resend.2 else none }
    else some { session := s }                      -- reserved types ignored
  else s.dispatchData rawCmd seq payload

end Session

end EspSerialSession

end HtcwFrameArq
