import HtcwFrameArq.Crc

/-!
# The frame controller

`frame_arq.c`, function by function. A function of the source that touches memory returns
an `Option`: `none` is undefined behaviour, an index outside a buffer or an overflowing
`int`. The two callbacks are scripted by a `Transport`, so that a theorem about every
transport is a theorem about every behaviour of the callbacks.

The read loops recurse on the script of the read callback: each turn consumes one of its
results.
-/

namespace HtcwFrameArq

open Memory

/-! ## Constants -/

/-- `FRAME_ARQ_HEADER_LENGTH`. -/
def headerLength : ℕ := 8 + 1 + 4 + 4

@[simp] theorem headerLength_eq : headerLength = 17 := rfl

/-- `FRAME_ARQ_ERROR_BUSY` -/
def errorBusy : Int := -7
/-- `FRAME_ARQ_ERROR_ARG` -/
def errorArg : Int := -6
/-- `FRAME_ARQ_ERROR_OVERFLOW` -/
def errorOverflow : Int := -4
/-- `FRAME_ARQ_ERROR_CRC` -/
def errorCrc : Int := -3
/-- `FRAME_ARQ_INCOMPLETE` -/
def incomplete : Int := -2
/-- `FRAME_ARQ_RESEND_NEEDED` -/
def resendNeededCode : Int := -1
/-- `FRAME_ARQ_SUCCESS` -/
def success : Int := 0

/-- `FA_TYPE_DATA` -/
def faTypeData : UInt8 := 0
/-- `FA_TYPE_ACK` -/
def faTypeAck : UInt8 := 1
/-- `FA_TYPE_NACK` -/
def faTypeNack : UInt8 := 2
/-- `FA_SEQ_MASK` -/
def faSeqMask : UInt8 := 0x3F
/-- `FA_CTRL_MARKER` -/
def faCtrlMarker : UInt8 := 128
/-- `FA_TYPE_OF` -/
def faTypeOf (b : UInt8) : UInt8 := (b >>> 6) &&& 0x03
/-- `FA_SEQ_OF` -/
def faSeqOf (b : UInt8) : UInt8 := b &&& faSeqMask
/-- `FA_SEQBYTE` -/
def faSeqByte (type seq : UInt8) : UInt8 := (type <<< 6) ||| (seq &&& faSeqMask)

/-- The largest value of a 32-bit `int`. -/
def intMax : ℕ := 2 ^ 31 - 1

/-! ## State -/

/-- `frame_arq_t`, its callbacks aside. -/
structure FrameArqT where
  payloadMaxSize : ℕ
  /-- incoming frame under assembly -/
  readBuffer : List UInt8
  /-- last sent DATA frame, kept for resend -/
  retainBuffer : List UInt8
  /-- bytes valid in `retainBuffer` -/
  retainLength : ℕ
  /-- marker byte candidate during sync -/
  start : UInt8
  /-- bytes assembled in `readBuffer` so far -/
  byteCount : ℕ
  /-- seq of the last DATA frame sent -/
  txSeq : UInt8
  /-- seq we next expect to receive -/
  expectedRxSeq : UInt8
  /-- a sent DATA frame has not yet been ACKed -/
  awaitingAck : Bool
  /-- a NACK was seen; resend is pending -/
  resendNeeded : Bool
  deriving DecidableEq

/-- The two callbacks: what the read callback will answer (`none` for a negative value, no
byte available; nothing more is available once the script is used up), what the write
callback will answer (`0` once that script is used up), and the bytes it has taken. -/
structure Transport where
  incoming : List (Option UInt8)
  results : List Int
  written : List UInt8
  deriving DecidableEq

/-- A pointer argument: all that matters is whether it is `NULL`. -/
inductive Ptr : Type where
  | null : Ptr
  | valid : Ptr
  deriving DecidableEq

/-- What a call leaves behind: the returned `int`, the payload that `*out_data` and
`*out_size` designate if the call set them, the controller and the transport. -/
structure Result where
  ret : Int
  out : Option (List UInt8)
  frame : FrameArqT
  transport : Transport
  deriving DecidableEq

/-! ## Frame fields -/

/-- `fa_rd_u32` at offset `i` of `p`. -/
def faRdU32 (p : List UInt8) (i : ℕ) : Option UInt32 := do
  let p0 ← load p i
  let p1 ← load p (i + 1)
  let p2 ← load p (i + 2)
  let p3 ← load p (i + 3)
  some (p0.toUInt32 ||| (p1.toUInt32 <<< 8) ||| (p2.toUInt32 <<< 16) ||| (p3.toUInt32 <<< 24))

/-- The four bytes `fa_wr_u32` writes. -/
def leBytes (v : UInt32) : List UInt8 :=
  [(v &&& 0xFF).toUInt8, ((v >>> 8) &&& 0xFF).toUInt8,
    ((v >>> 16) &&& 0xFF).toUInt8, ((v >>> 24) &&& 0xFF).toUInt8]

/-- `fa_wr_u32` at offset `i` of `p`. -/
def faWrU32 (p : List UInt8) (i : ℕ) (v : UInt32) : Option (List UInt8) :=
  write p i (leBytes v)

/-- `fa_frame_crc` -/
def faFrameCrc [Build] (buf : List UInt8) (payloadSize : ℕ) : Option UInt32 := do
  let header ← slice buf 8 5
  let payload ← slice buf headerLength payloadSize
  let crc : UInt32 := 0xFFFFFFFF
  let crc := faCrcUpdate crc header
  let crc := faCrcUpdate crc payload
  some (crc ^^^ 0xFFFFFFFF)

/-- `size_from_frame` -/
def sizeFromFrame (frame : FrameArqT) : Option ℕ :=
  (faRdU32 frame.readBuffer 9).map UInt32.toNat

/-- `crc_from_frame` -/
def crcFromFrame (frame : FrameArqT) : Option UInt32 := faRdU32 frame.readBuffer 13

/-! ## Writing -/

/-- One call of the write callback; a byte it answers with a negative value is not taken. -/
def Transport.writeCb (t : Transport) (b : UInt8) : Int × Transport :=
  match t.results with
  | [] => (0, { t with written := t.written ++ [b] })
  | r :: rest =>
    (r, { t with results := rest, written := if r < 0 then t.written else t.written ++ [b] })

/-- `n` more turns of `for (; i < length; ++i) { res = write_cb(p[i]); if (res < 0) return
res; }`, where `counterMax` is the largest value of the type of `i`. -/
def streamOut (counterMax : ℕ) (p : List UInt8) (i : ℕ) :
    ℕ → Transport → Option (Int × Transport)
  | 0, t => some (success, t)
  | n + 1, t => do
    let b ← load p i
    let called := t.writeCb b
    if called.1 < 0 then some called
    else if counterMax ≤ i then none
    else streamOut counterMax p (i + 1) n called.2

/-- `fa_write_control`. Its callers ignore the returned value. The local array `hdr` starts
with unspecified contents; every cell is written before it is read. -/
def faWriteControl [Build] (type seq : UInt8) (t : Transport) : Option (Int × Transport) := do
  let hdr ← write (List.replicate headerLength 0) 0 (List.replicate 8 faCtrlMarker)
  let hdr ← store hdr 8 (faSeqByte type seq)
  let hdr ← faWrU32 hdr 9 0
  let crc ← faFrameCrc hdr 0
  let hdr ← faWrU32 hdr 13 crc
  streamOut intMax hdr 0 headerLength t

/-! ## Reading -/

/-- What a read loop leaves behind. -/
structure Read where
  res : Int
  frame : FrameArqT
  incoming : List (Option UInt8)
  deriving DecidableEq

/-- `frame->read_buffer[frame->byte_count++] = b` -/
def FrameArqT.append (frame : FrameArqT) (b : UInt8) : Option FrameArqT := do
  let readBuffer ← store frame.readBuffer frame.byteCount b
  some { frame with readBuffer, byteCount := frame.byteCount + 1 }

/-- The candidate restart of `read_frame_marker`: `b` becomes the only byte assembled. -/
def FrameArqT.restart (frame : FrameArqT) (b : UInt8) : Option FrameArqT := do
  let readBuffer ← store frame.readBuffer 0 b
  some { frame with start := b, readBuffer, byteCount := 1 }

/-- The body of the loop of `read_frame_marker`, for a byte that was read. -/
def markerByte (frame : FrameArqT) (b : UInt8) : Option FrameArqT :=
  if b < 128 then some { frame with byteCount := 0 }     -- not a marker byte: resync
  else if frame.byteCount = 0 then frame.restart b
  else if b = frame.start then frame.append b
  else frame.restart b                                   -- mismatch: restart

/-- `read_frame_marker` -/
def readFrameMarker (frame : FrameArqT) (incoming : List (Option UInt8)) : Option Read :=
  if frame.byteCount < 8 then
    match incoming with
    | [] => some ⟨incomplete, frame, []⟩
    | none :: rest => some ⟨incomplete, frame, rest⟩
    | some b :: rest => do
      let frame ← markerByte frame b
      readFrameMarker frame rest
  else some ⟨success, frame, incoming⟩

/-- The two other loops of `read_frame`: read until `count` bytes are assembled. -/
def readUpTo (count : ℕ) (frame : FrameArqT) (incoming : List (Option UInt8)) :
    Option Read :=
  if frame.byteCount < count then
    match incoming with
    | [] => some ⟨incomplete, frame, []⟩
    | none :: rest => some ⟨incomplete, frame, rest⟩
    | some b :: rest => do
      let frame ← frame.append b
      readUpTo count frame rest
  else some ⟨success, frame, incoming⟩

/-- The end of `read_frame`, once `size` is known and all bytes are assembled. -/
def readFrameCheck [Build] (size : ℕ) (r : Read) : Option Read := do
  let crc ← crcFromFrame r.frame
  let computed ← faFrameCrc r.frame.readBuffer size
  if crc ≠ computed then some ⟨errorCrc, { r.frame with byteCount := 0 }, r.incoming⟩
  else some ⟨success, r.frame, r.incoming⟩

/-- The part of `read_frame` after the header is assembled. -/
def readFrameBody [Build] (r : Read) : Option Read := do
  let size ← sizeFromFrame r.frame
  if r.frame.payloadMaxSize < size then
    some ⟨errorOverflow, { r.frame with byteCount := 0 }, r.incoming⟩
  else
    let r ← readUpTo (sizeT (headerLength + size)) r.frame r.incoming
    if r.res ≠ success then some r else readFrameCheck size r

/-- The part of `read_frame` after the marker is assembled. -/
def readFrameHeader [Build] (r : Read) : Option Read := do
  let r ← readUpTo headerLength r.frame r.incoming
  if r.res ≠ success then some r else readFrameBody r

/-- `read_frame` -/
def readFrame [Build] (frame : FrameArqT) (incoming : List (Option UInt8)) :
    Option Read := do
  if frame.byteCount < 8 then
    let r ← readFrameMarker frame incoming
    if r.res ≠ success then some r else readFrameHeader r
  else readFrameHeader ⟨success, frame, incoming⟩

/-! ## The API -/

/-- The last part of `frame_arq_get`: the handling of a complete, CRC-valid frame. -/
def handleFrame [Build] (frame : FrameArqT) (t : Transport) : Option Result := do
  let marker ← load frame.readBuffer 0
  let seqbyte ← load frame.readBuffer 8
  let type := faTypeOf seqbyte
  let seq := faSeqOf seqbyte
  if marker = faCtrlMarker ∨ type ≠ faTypeData then
    let frame := { frame with byteCount := 0 }
    if type = faTypeAck then
      if frame.awaitingAck ∧ seq = frame.txSeq then
        some ⟨success, none, { frame with awaitingAck := false, resendNeeded := false }, t⟩
      else some ⟨success, none, frame, t⟩
    else if type = faTypeNack then
      if frame.awaitingAck then
        some ⟨resendNeededCode, none, { frame with resendNeeded := true }, t⟩
      else some ⟨success, none, frame, t⟩
    else some ⟨success, none, frame, t⟩                  -- reserved type: ignore
  else
    let size ← sizeFromFrame frame
    if seq = frame.expectedRxSeq then
      let payload ← slice frame.readBuffer headerLength size
      let wrote ← faWriteControl faTypeAck seq t
      some ⟨(marker.toNat : Int) - 128, some payload,
        { frame with expectedRxSeq := (seq + 1) &&& faSeqMask, byteCount := 0 }, wrote.2⟩
    else if seq = (frame.expectedRxSeq - 1) &&& faSeqMask then
      -- duplicate: re-ACK, do not deliver
      let wrote ← faWriteControl faTypeAck seq t
      some ⟨success, none, { frame with byteCount := 0 }, wrote.2⟩
    else
      -- unexpected seq: ask for the one we actually want
      let wrote ← faWriteControl faTypeNack frame.expectedRxSeq t
      some ⟨success, none, { frame with byteCount := 0 }, wrote.2⟩

/-- `frame_arq_get`. `frame` is what `handle` points to when it is not `NULL`. -/
def frameArqGet [Build] (handle outData outSize : Ptr) (frame : FrameArqT) (t : Transport) :
    Option Result := do
  if handle = .null ∨ outData = .null ∨ outSize = .null then
    some ⟨errorArg, none, frame, t⟩
  else
    let r ← readFrame frame t.incoming
    let t := { t with incoming := r.incoming }
    if r.res = incomplete then some ⟨success, none, r.frame, t⟩
    else if r.res = errorCrc then
      let wrote ← faWriteControl faTypeNack r.frame.expectedRxSeq t
      some ⟨errorCrc, none, { r.frame with byteCount := 0 }, wrote.2⟩
    else if r.res < 0 then some ⟨r.res, none, { r.frame with byteCount := 0 }, t⟩
    else handleFrame r.frame t

/-- `frame_arq_discard` -/
def frameArqDiscard (handle : Ptr) (frame : FrameArqT) (t : Transport) : Result :=
  if handle = .null then ⟨errorArg, none, frame, t⟩
  else ⟨success, none, { frame with byteCount := 0 }, t⟩

/-- `memcpy`, reading `size` bytes behind `payload`. -/
def memcpy (p : List UInt8) (i : ℕ) (payload : List UInt8) (size : ℕ) :
    Option (List UInt8) := do
  let bytes ← slice payload 0 size
  write p i bytes

/-- `if (size > 0 && payload != NULL) memcpy(..)` of `frame_arq_put`. -/
def copyPayload (p : List UInt8) (payload : Option (List UInt8)) (size : ℕ) :
    Option (List UInt8) :=
  match payload with
  | some bytes => if 0 < size then memcpy p headerLength bytes size else some p
  | none => some p

/-- The frame building of `frame_arq_put`, into the retain buffer `p`. -/
def buildFrame [Build] (p : List UInt8) (cmd seq : UInt8) (payload : Option (List UInt8))
    (size : ℕ) : Option (List UInt8) := do
  let p ← write p 0 (List.replicate 8 (cmd + 128))
  let p ← store p 8 (faSeqByte faTypeData seq)
  let p ← faWrU32 p 9 (UInt32.ofNat size)
  let p ← copyPayload p payload size
  let crc ← faFrameCrc p size
  faWrU32 p 13 crc

/-- `frame_arq_put`. `payload` is `none` for a `NULL` pointer, else the bytes it points to. -/
def frameArqPut [Build] (handle : Ptr) (frame : FrameArqT) (cmd : UInt8)
    (payload : Option (List UInt8)) (size : ℕ) (t : Transport) : Option Result := do
  if handle = .null then some ⟨errorArg, none, frame, t⟩
  else if cmd < 1 ∨ cmd > 127 then some ⟨errorArg, none, frame, t⟩
  else if frame.payloadMaxSize < size then some ⟨errorOverflow, none, frame, t⟩
  else if frame.awaitingAck then some ⟨errorBusy, none, frame, t⟩
  else
    let txSeq := (frame.txSeq + 1) &&& faSeqMask
    let p ← buildFrame frame.retainBuffer cmd txSeq payload size
    let frame := { frame with
      txSeq, retainBuffer := p, retainLength := sizeT (headerLength + size),
      awaitingAck := true, resendNeeded := false }
    let sent ← streamOut intMax p 0 frame.retainLength t
    some ⟨sent.1, none, frame, sent.2⟩

/-- `frame_arq_resend` -/
def frameArqResend [Build] (handle : Ptr) (frame : FrameArqT) (t : Transport) :
    Option Result := do
  if handle = .null then some ⟨errorArg, none, frame, t⟩
  else if frame.awaitingAck = false ∨ frame.retainLength = 0 then
    some ⟨success, none, { frame with resendNeeded := false }, t⟩
  else
    let sent ← streamOut (2 ^ Build.sizeBits - 1) frame.retainBuffer 0 frame.retainLength t
    if sent.1 < 0 then some ⟨sent.1, none, frame, sent.2⟩
    else some ⟨success, none, { frame with resendNeeded := false }, sent.2⟩

/-- `frame_arq_awaiting_ack` -/
def frameArqAwaitingAck (handle : Ptr) (frame : FrameArqT) : Bool :=
  if handle = .null then false else frame.awaitingAck

/-- `frame_arq_resend_needed` -/
def frameArqResendNeeded (handle : Ptr) (frame : FrameArqT) : Bool :=
  if handle = .null then false else frame.resendNeeded

/-- `frame_arq_reset` -/
def frameArqReset (handle : Ptr) (frame : FrameArqT) (t : Transport) : Result :=
  if handle = .null then ⟨errorArg, none, frame, t⟩
  else ⟨success, none,
    { frame with
      byteCount := 0, retainLength := 0, txSeq := faSeqMask, expectedRxSeq := 0,
      awaitingAck := false, resendNeeded := false }, t⟩

/-! ## Creation -/

/-- `fa_init_state` -/
def faInitState (maxPayloadSize : ℕ) (readBuffer retainBuffer : List UInt8) : FrameArqT where
  payloadMaxSize := maxPayloadSize
  readBuffer := readBuffer
  retainBuffer := retainBuffer
  retainLength := 0
  start := 0
  byteCount := 0
  txSeq := faSeqMask
  expectedRxSeq := 0
  awaitingAck := false
  resendNeeded := false

/-- The answer of one call of `malloc`: `NULL`, or a block with whatever contents. -/
abbrev Malloc : Type := ℕ → Option (List UInt8)

/-- A block has as many bytes as were asked for. -/
def Malloc.Exact (malloc : Malloc) : Prop :=
  ∀ n block, malloc n = some block → block.length = n

/-- `frame_arq_create`: `rx`, `tx` and `state` are the answers of its three calls of `malloc`. -/
def frameArqCreate [Build] (maxPayloadSize : ℕ) (readCb writeCb : Ptr) (rx tx : Malloc)
    (state : Ptr) : Option FrameArqT := do
  if readCb = .null ∨ writeCb = .null then none
  else
    let rxBuffer ← rx (sizeT (maxPayloadSize + headerLength))
    let txBuffer ← tx (sizeT (maxPayloadSize + headerLength))
    if state = .null then none else some (faInitState maxPayloadSize rxBuffer txBuffer)

/-- `frame_arq_create_za`; a buffer argument is `none` for `NULL`. -/
def frameArqCreateZa (maxPayloadSize : ℕ) (state : Ptr)
    (readBuffer retainBuffer : Option (List UInt8)) (readCb writeCb : Ptr) :
    Option FrameArqT :=
  if readCb = .null ∨ writeCb = .null ∨ state = .null then none
  else match readBuffer, retainBuffer with
    | some readBuffer, some retainBuffer =>
      some (faInitState maxPayloadSize readBuffer retainBuffer)
    | _, _ => none

/-- The storage the documentation of `frame_arq_create_za` asks its caller for: two buffers
of `FRAME_ARQ_HEADER_LENGTH + max_payload_size` bytes each. The size of an object fits in
`size_t`. -/
structure Storage [Build] where
  payloadMaxSize : ℕ
  readBuffer : List UInt8
  retainBuffer : List UInt8
  readBuffer_length : readBuffer.length = payloadMaxSize + 17
  retainBuffer_length : retainBuffer.length = payloadMaxSize + 17
  fits : payloadMaxSize + 17 < 2 ^ Build.sizeBits

/-- Storage whose bytes are all zero. -/
def Storage.zeroed [Build] (payloadMaxSize : ℕ)
    (fits : payloadMaxSize + 17 < 2 ^ Build.sizeBits) : Storage where
  payloadMaxSize := payloadMaxSize
  readBuffer := List.replicate (payloadMaxSize + 17) 0
  retainBuffer := List.replicate (payloadMaxSize + 17) 0
  readBuffer_length := List.length_replicate
  retainBuffer_length := List.length_replicate
  fits := fits

/-- A newly created controller. -/
def Storage.create [Build] (s : Storage) : FrameArqT :=
  faInitState s.payloadMaxSize s.readBuffer s.retainBuffer

theorem Storage.frameArqCreateZa_eq [Build] (s : Storage) :
    frameArqCreateZa s.payloadMaxSize .valid (some s.readBuffer) (some s.retainBuffer)
      .valid .valid = some s.create := rfl

end HtcwFrameArq
