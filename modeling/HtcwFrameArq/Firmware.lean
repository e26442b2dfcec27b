import HtcwFrameArq.Generated

/-!
# The commands of the demo

`main.cpp` up to `handle_command`: the two cursors, the functions that `buffers_gen_c.py` generates
from `interface.h`, and what the firmware does with a command: what it prints on the line of the
frames, what it does to the pins and what it answers. The branch for random numbers uses fields that
`interface.h` does not have, `msg.count` and `resp.values`, so there is nothing to model; a command
that reaches it is stuck here.

`handleCommand_eq` says what any other command does, whatever its payload is.
-/

namespace HtcwFrameArq

namespace Firmware

open BuffersGenC hiding Outcome
open Streams

/-! ## The generated functions -/

/-- The structs of `interface.h`. -/
def interfaceStructs : Structs := (parseHeader interfaceH).toOption.getD []

/-- The functions of `interface_buffers.c`. -/
def interfaceC : List Def := (generateC "" interfaceStructs false false).toOption.getD []

/-- `INTERFACE_MAX_SIZE` -/
def interfaceMaxSize : ℕ := (computeMaxWireSize interfaceStructs false).toOption.getD 0

theorem interfaceC_generated :
    Generated interfaceH "" false false interfaceStructs interfaceC where
  usual := interfaceH_usual
  parsed := by decide +kernel
  generated := by decide +kernel
  linked := linked_of_names (by decide +kernel) (by decide +kernel)
  resolved := by decide +kernel
  arrays := by decide +kernel

theorem interface_wide : letI : Platform := ilp32; interfaceStructs.AsWide := by
  let _ : Platform := ilp32
  unfold Structs.AsWide
  decide +kernel

/-- How a struct of `interface.h` is written. -/
def codecOf (name : String) : Codec UInt8 Int Value := interfaceStructs.codec false false name

/-! ## Cursors -/

/-- `resp_buffer` -/
abbrev RespBuffer : Type := {bytes : List UInt8 // bytes.length = interfaceMaxSize}

/-- `buffer_write_cursor_t` on the response buffer; the pointer is an index. -/
structure BufferWriteCursor where
  buffer : RespBuffer
  ptr : ℕ
  remaining : ℕ
  fits : ptr + remaining = interfaceMaxSize

/-- `write_cur` at the start of `handle_command`. -/
def BufferWriteCursor.start (buffer : RespBuffer) : BufferWriteCursor where
  buffer := buffer
  ptr := 0
  remaining := interfaceMaxSize
  fits := Nat.zero_add _

/-- `*cur->ptr++=value; --cur->remaining;` -/
def BufferWriteCursor.store (cur : BufferWriteCursor) (h : cur.remaining ≠ 0) (value : UInt8) :
    BufferWriteCursor where
  buffer := ⟨cur.buffer.1.set cur.ptr value, by rw [List.length_set, cur.buffer.2]⟩
  ptr := cur.ptr + 1
  remaining := cur.remaining - 1
  fits := by
    have hfits := cur.fits
    omega

/-- `on_write_buffer` -/
def onWriteBuffer (value : UInt8) (cur : BufferWriteCursor) : Int × BufferWriteCursor :=
  if h : cur.remaining = 0 then (buffersErrorEof, cur) else (1, cur.store h value)

/-- `on_read_buffer`, on the bytes that remain. -/
def onReadBuffer : List UInt8 → Int × List UInt8
  | [] => (-1, [])
  | b :: rest => (b.toNat, rest)

/-- The callbacks of a function that reads, which does not write. -/
def reading : Callbacks (List UInt8) := ⟨onReadBuffer, fun _ rest => (buffersErrorEof, rest)⟩

/-- The callbacks of a function that writes, which does not read. -/
def writing : Callbacks BufferWriteCursor := ⟨fun cur => (buffersErrorEof, cur), onWriteBuffer⟩

/-- A call of a function that reads: what it returns, and the object. -/
def readMessage (fn : String) (msg : Value) (payload : List UInt8) : Option (Int × Value) := do
  let k ← @call ilp32 _ reading interfaceStructs interfaceC fn
  let out ← k msg payload
  some (out.ret, out.obj)

/-- A call of a function that writes: what it returns, and the buffer. -/
def writeMessage (fn : String) (resp : Value) (buffer : RespBuffer) :
    Option (Int × RespBuffer) := do
  let k ← @call ilp32 _ writing interfaceStructs interfaceC fn
  let out ← k resp (.start buffer)
  some (out.ret, out.io.buffer)

/-- What is left of the bytes does not matter. -/
theorem reading_supplies (bs rest : List UInt8) :
    Supplies (readByte reading.read) (bs ++ rest) bs rest := by
  induction bs with
  | nil => exact .nil rest
  | cons b bs ih =>
    refine .cons ?_ ih
    have hnonneg : ¬ ((b.toNat : Int) = -1) ∧ ¬ ((b.toNat : Int) < 0) := by omega
    have hread : reading.read (b :: bs ++ rest) = ((b.toNat : Int), bs ++ rest) := rfl
    rw [readByte, hread]
    dsimp only
    rw [if_neg hnonneg.1, if_neg hnonneg.2, Int.toNat_natCast, UInt8.ofNat_toNat]

/-- Bytes for which there is room are taken, and stand where the cursor was. -/
theorem writing_takes {bs : List UInt8} {cur : BufferWriteCursor} (h : bs.length ≤ cur.remaining) :
    ∃ cur', push (putByte writing.write) bs cur = (none, cur') ∧ cur'.buffer.1 =
      cur.buffer.1.take cur.ptr ++ bs ++ cur.buffer.1.drop (cur.ptr + bs.length) := by
  induction bs generalizing cur with
  | nil => exact ⟨cur, rfl, by simp⟩
  | cons b bs ih =>
    rw [List.length_cons] at h
    have hroom : cur.remaining ≠ 0 := by omega
    have hfits := cur.fits
    have hlen := cur.buffer.2
    have hwrite : writing.write b cur = (1, cur.store hroom b) := dif_neg hroom
    have hput : putByte writing.write b cur = (none, cur.store hroom b) := by
      rw [putByte, hwrite]
      rfl
    have hbuffer₁ : (cur.store hroom b).buffer.1 = cur.buffer.1.set cur.ptr b := rfl
    have hptr₁ : (cur.store hroom b).ptr = cur.ptr + 1 := rfl
    have hremaining₁ : (cur.store hroom b).remaining = cur.remaining - 1 := rfl
    rw [push, hput]
    dsimp only
    obtain ⟨cur', hpush, hbuffer⟩ := @ih (cur.store hroom b) (by omega)
    refine ⟨cur', hpush, ?_⟩
    have htake : (cur.buffer.1.set cur.ptr b).take (cur.ptr + 1) =
        cur.buffer.1.take cur.ptr ++ [b] := by
      rw [List.take_succ_eq_append_getElem (by rw [List.length_set]; omega),
        List.take_set_of_le (Nat.le_refl _), List.getElem_set_self]
    rw [hbuffer, hbuffer₁, hptr₁, htake, List.drop_set_of_lt (by omega), List.length_cons]
    simp [Nat.add_assoc, Nat.add_comm 1]

/-! ## Messages -/

/-- The codecs of the fields of a struct of `interface.h`. -/
def messageCodecs : List (String × List (Codec UInt8 Int Value)) :=
  [("st_rng_message_t", []), ("st_gpio_get_message_t", [bitsCodec 8 false]),
    ("st_gpio_set_message_t", [bitsCodec 8 false, bitsCodec 8 false]),
    ("st_gpio_mode_message_t", [bitsCodec 1 false, enumCodec "uint8_t" false]),
    ("st_rng_response_message_t", [bitsCodec 4 false]),
    ("st_gpio_get_response_message_t", [bitsCodec 8 false])]

theorem interface_names : interfaceStructs.map Prod.fst = messageCodecs.map Prod.fst := by
  decide +kernel

theorem codecOf_eq : ∀ e ∈ messageCodecs, codecOf e.1 = recordCodec e.2 := by
  have hdepth : interfaceStructs.depth = 7 := by decide +kernel
  have hkey {name : String} {fields : List Field}
      (hfields : interfaceStructs.fields name = fields) :
      codecOf name = recordCodec (fields.map (fieldCodec interfaceStructs false false
        (structCodec interfaceStructs false false 6))) := by
    rw [codecOf, Structs.codec, hdepth, structCodec, hfields]
    rfl
  have hwire {name wire : String} (hwire : wire ∉ messageCodecs.map Prod.fst) (type : String)
      (htype : type ≠ "bool") : fieldCodec interfaceStructs false false
        (structCodec interfaceStructs false false 6) ⟨name, type, wire, none, false⟩ =
          bitsCodec (wireSize wire) false := by
    dsimp only [fieldCodec, itemCodec]
    rw [interface_names, if_neg hwire, if_neg (by decide), if_neg htype]
  have hu64 (name : String) := @hwire name "uint64_t" (by decide) "uint64_t" (by decide)
  have hu32 (name : String) := @hwire name "uint32_t" (by decide) "uint32_t" (by decide)
  have hu8 (name : String) := @hwire name "uint8_t" (by decide) "uint8_t" (by decide)
  have henum : fieldCodec interfaceStructs false false
      (structCodec interfaceStructs false false 6)
        ⟨"mode", "st_gpio_mode_t", "uint8_t", none, true⟩ = enumCodec "uint8_t" false := by
    dsimp only [fieldCodec, itemCodec]
    rw [interface_names, if_neg (by decide), if_pos rfl]
  simp only [messageCodecs, List.forall_mem_cons]
  refine ⟨?_, ?_, ?_, ?_, ?_, ?_, by simp⟩
  · exact @hkey "st_rng_message_t" [] (by decide +kernel)
  · rw [@hkey "st_gpio_get_message_t" [⟨"mask", "uint64_t", "uint64_t", none, false⟩]
      (by decide +kernel), List.map_singleton, hu64]
    rfl
  · rw [@hkey "st_gpio_set_message_t" [⟨"mask", "uint64_t", "uint64_t", none, false⟩,
      ⟨"values", "uint64_t", "uint64_t", none, false⟩] (by decide +kernel), List.map_cons,
      List.map_singleton, hu64, hu64]
    rfl
  · rw [@hkey "st_gpio_mode_message_t" [⟨"gpio", "uint8_t", "uint8_t", none, false⟩,
      ⟨"mode", "st_gpio_mode_t", "uint8_t", none, true⟩] (by decide +kernel), List.map_cons,
      List.map_singleton, hu8, henum]
    rfl
  · rw [@hkey "st_rng_response_message_t" [⟨"value", "uint32_t", "uint32_t", none, false⟩]
      (by decide +kernel), List.map_singleton, hu32]
    rfl
  · rw [@hkey "st_gpio_get_response_message_t" [⟨"values", "uint64_t", "uint64_t", none, false⟩]
      (by decide +kernel), List.map_singleton, hu64]
    rfl

/-- No struct has a text: it is read as it was written. -/
theorem codecOf_exact {name : String} (hname : name ∈ interfaceStructs.map Prod.fst) :
    (codecOf name).Exact := by
  have hbits (n : ℕ) : (bitsCodec n false).Exact := Codec.imap_exact Codec.block_exact
  have henum : (enumCodec "uint8_t" false).Exact := Codec.block_exact
  have hall : ∀ e ∈ messageCodecs, ∀ c ∈ e.2, c.Exact := by
    simp only [messageCodecs, List.forall_mem_cons]
    simp [hbits, henum]
  rw [interface_names] at hname
  obtain ⟨e, he, rfl⟩ := List.mem_map.mp hname
  rw [codecOf_eq e he]
  exact Codec.imap_exact (Codec.all_exact (hall e he))

/-- What a payload is read as. -/
def received (name : String) (old : Value) (payload : List UInt8) : Option Value :=
  (((codecOf name).decode old).run (readByte onReadBuffer) payload).result.toOption

/-- No struct takes more than `INTERFACE_MAX_SIZE` bytes. -/
theorem interface_measured {name : String} (hname : name ∈ interfaceStructs.map Prod.fst) :
    ∃ n ≤ interfaceMaxSize, interfaceStructs.Measured false name n := by
  have hall : ∀ name ∈ interfaceStructs.map Prod.fst, interfaceStructs.size false name =
      .ok ((interfaceStructs.size false name).toOption.getD 0) ∧
        (interfaceStructs.size false name).toOption.getD 0 ≤ interfaceMaxSize := by decide +kernel
  have hmax : interfaceMaxSize = 16 := by decide +kernel
  obtain ⟨hsize, hle⟩ := hall name hname
  exact ⟨_, hle, hname, hsize, by rw [BuffersGenC.intMax]; omega⟩

/-- A function that reads. -/
theorem readMessage_cases {name fn : String} (hfn : readFnName "" name = fn)
    (hname : name ∈ interfaceStructs.map Prod.fst) {old : Value} (hold : (codecOf name).Room old)
    (payload : List UInt8) : ∃ ret v, readMessage fn old payload = some (ret, v) ∧
      (-1 < ret ∧ received name old payload = some v ∨
        ¬ -1 < ret ∧ received name old payload = none) := by
  obtain ⟨n, -, hmeasured⟩ := interface_measured hname
  let _ : Platform := ilp32
  obtain ⟨k, hk, hreads⟩ := interfaceC_generated.reads interface_wide hmeasured reading
  rw [hfn] at hk
  have hcall {ret : Int} {v : Value} {rest : List UInt8}
      (h : k old payload = some ⟨ret, v, 0, rest⟩) :
      readMessage fn old payload = some (ret, v) := by
    rw [readMessage, hk, Option.bind_eq_bind, Option.bind_some, h]
    rfl
  have hreceived {result : Except Int Value} {taken : ℕ} {rest : List UInt8}
      (h : ((codecOf name).decode old).run (readByte onReadBuffer) payload =
        ⟨result, taken, rest⟩) :
      received name old payload = result.toOption := by rw [received, h]
  obtain ⟨ret, v, rest, h, -, ⟨hneg, taken, -, hrun⟩ | ⟨taken, -, rfl, hrun⟩⟩ :=
    hreads old hold payload
  · exact ⟨ret, v, hcall h, .inr ⟨by omega, hreceived hrun⟩⟩
  · exact ⟨taken, v, hcall h, .inl ⟨by omega, hreceived hrun⟩⟩

/-- The buffer after some bytes have been written at its start. -/
def RespBuffer.fill (buffer : RespBuffer) (bs : List UInt8) (h : bs.length ≤ interfaceMaxSize) :
    RespBuffer :=
  ⟨bs ++ buffer.1.drop bs.length, by
    rw [List.length_append, List.length_drop, buffer.2]
    omega⟩

theorem encode_fits {name : String} (hname : name ∈ interfaceStructs.map Prod.fst) {v : Value}
    (hv : (codecOf name).Valid v) : ((codecOf name).encode v).length ≤ interfaceMaxSize := by
  obtain ⟨n, hn, hmeasured⟩ := interface_measured hname
  have hencode := (codecOf name).encode_le hv
  have hcodec : (codecOf name).max = n := (interfaceC_generated.codec_max hmeasured.size).1
  omega

/-- A function that writes. -/
theorem writeMessage_eq {name : String} (hname : name ∈ interfaceStructs.map Prod.fst) {v : Value}
    (hv : (codecOf name).Valid v) (buffer : RespBuffer) :
    writeMessage (writeFnName "" name) v buffer =
      some ((((codecOf name).encode v).length : Int), buffer.fill _ (encode_fits hname hv)) := by
  obtain ⟨n, -, hmeasured⟩ := interface_measured hname
  let _ : Platform := ilp32
  obtain ⟨k, hk, hwrites⟩ := interfaceC_generated.writes hmeasured writing
  have hcodec : interfaceStructs.codec false false name = codecOf name := rfl
  have hcall := hwrites v hv (.start buffer)
  obtain ⟨cur, hpush, hbytes⟩ := @writing_takes ((codecOf name).encode v) (.start buffer)
    (encode_fits hname hv)
  have hwritten : written writing.write ((codecOf name).encode v) 0 (.start buffer) =
      ((((codecOf name).encode v).length : Int), cur) := by
    rw [written, hpush, Int.zero_add]
  rw [hcodec, hwritten] at hcall
  have hcur : cur.buffer = buffer.fill _ (encode_fits hname hv) := by
    refine Subtype.ext ?_
    rw [hbytes, BufferWriteCursor.start, List.take_zero, List.nil_append, Nat.zero_add]
    rfl
  rw [writeMessage, hk, Option.bind_eq_bind, Option.bind_some, hcall, Option.bind_eq_bind,
    Option.bind_some, ← hcur]

/-! ## Commands -/

/-- `st_message_command_t` -/
def cmdRng : UInt8 := 1
def cmdGpioMode : UInt8 := 2
def cmdGpioGet : UInt8 := 3
def cmdGpioSet : UInt8 := 4
def cmdGpioGetResponse : UInt8 := 6

/-- The modes of a pin. -/
inductive PinMode : Type where
  | input : PinMode
  | inputPullup : PinMode
  | inputPulldown : PinMode
  | output : PinMode
  | outputOpenDrain : PinMode
  deriving DecidableEq

/-- What is done to a pin. -/
inductive PinAction : Type where
  | digitalWrite (pin : ℕ) (high : Bool) : PinAction
  | pinMode (pin : ℕ) (mode : PinMode) : PinAction
  deriving DecidableEq

/-- What comes out of `handle_command` besides the response: a line on `Serial`, on which the frames
go out too, or something done to a pin. -/
inductive Output : Type where
  | println (line : String) : Output
  | pin (act : PinAction) : Output
  deriving DecidableEq

/-- What it does to a pin, if anything. -/
def Output.action : Output → Option PinAction
  | println _ => none
  | pin act => some act

/-- What `handle_command` finds on its stack and gets from the board. Nothing has been stored in the
variable `msg` before it is read, so it need not be a valid object; only its type is known. -/
structure Board where
  /-- what the variable `msg` of a type holds before it is read -/
  stack : String → Value
  /-- `digitalRead(i)==HIGH` -/
  levels : ℕ → Bool
  stack_room : ∀ name ∈ interfaceStructs.map Prod.fst, (codecOf name).Room (stack name)

/-- The static variables of the response. -/
structure Sketch where
  respBuffer : RespBuffer
  respLen : ℕ
  respCmd : UInt8
  respPending : Bool
  lastSendMs : UInt32

/-- `queue_response` -/
def Sketch.queueResponse (s : Sketch) (cmd : UInt8) (count : Int) : Sketch :=
  if count < 0 then s    -- message writer failed; nothing to send
  else { s with respCmd := cmd, respLen := count.toNat, respPending := true }

/-- A response is written to the buffer, and queued. -/
def Sketch.respond (s : Sketch) (cmd : UInt8) (fn : String) (resp : Value) : Option Sketch := do
  let w ← writeMessage fn resp s.respBuffer
  some ({ s with respBuffer := w.2 }.queueResponse cmd w.1)

/-- A field of a message. -/
def field (msg : Value) (i : ℕ) : Value := msg.fields.getD i (.bits 0)

/-- `((uint64_t)1)<<i` -/
def bit (i : ℕ) : UInt64 := (1 : UInt64) <<< UInt64.ofNat i

/-- The loop of `CMD_GPIO_GET` over the first `n` pins. -/
def gpioGet (levels : ℕ → Bool) (mask : UInt64) (n : ℕ) : UInt64 :=
  (List.range n).foldl (fun result i =>
    if mask &&& bit i ≠ 0 then if levels i then result ||| bit i else result else result) 0

/-- What the loop of `CMD_GPIO_GET` prints. -/
def gpioGetLines (mask : UInt64) : List Output :=
  (List.range 64).filterMap fun i =>
    if mask &&& bit i ≠ 0 then some (.println ("GPIO get request for " ++ toString i)) else none

/-- The loop of `CMD_GPIO_SET`. -/
def gpioSet (mask values : UInt64) : List Output :=
  (List.range 64).flatMap fun i =>
    if mask &&& bit i ≠ 0 then
      let line := "GPIO set level request for " ++ toString i
      if values &&& bit i ≠ 0 then [.println (line ++ " to on"), .pin (.digitalWrite i true)]
      else [.println (line ++ " to off"), .pin (.digitalWrite i false)]
    else []

/-- The switch of `CMD_GPIO_MODE`. -/
def gpioMode (gpio : ℕ) : Int → List PinAction
  | 0 => [.pinMode gpio .input]
  | 1 => [.pinMode gpio .inputPullup]
  | 2 => [.pinMode gpio .inputPulldown]
  | 3 => [.pinMode gpio .output]
  | 4 => [.pinMode gpio .outputOpenDrain]
  | _ => []

/-- The response to `CMD_GPIO_GET`. -/
def gpioGetResponse (levels : ℕ → Bool) (msg : Value) : Value :=
  .record [.bits (gpioGet levels (UInt64.ofNat (field msg 0).toBits) 64).toNat]

/-- What `CMD_GPIO_SET` does. -/
def gpioSetOutputs (msg : Value) : List Output :=
  gpioSet (UInt64.ofNat (field msg 0).toBits) (UInt64.ofNat (field msg 1).toBits)

/-- What `CMD_GPIO_MODE` does. -/
def gpioModeOutputs (msg : Value) : List Output :=
  .println ("GPIO set mode for " ++ toString (field msg 0).toBits) ::
    (gpioMode (field msg 0).toBits (field msg 1).toEnum).map .pin

/-- `handle_command` -/
def handleCommand (b : Board) (s : Sketch) (cmd : Int) (payload : List UInt8) :
    Option (Sketch × List Output) := do
  if cmd = cmdRng.toNat then none    -- does not compile with interface.h
  else if cmd = cmdGpioGet.toNat then
    let msg ← readMessage "st_gpio_get_message_read" (b.stack "st_gpio_get_message_t") payload
    if -1 < msg.1 then
      let s ← s.respond cmdGpioGetResponse "st_gpio_get_response_message_write"
        (gpioGetResponse b.levels msg.2)
      some (s, gpioGetLines (UInt64.ofNat (field msg.2 0).toBits))
    else some (s, [])
  else if cmd = cmdGpioSet.toNat then
    let msg ← readMessage "st_gpio_set_message_read" (b.stack "st_gpio_set_message_t") payload
    some (s, if -1 < msg.1 then gpioSetOutputs msg.2 else [])
  else if cmd = cmdGpioMode.toNat then
    let msg ← readMessage "st_gpio_mode_message_read" (b.stack "st_gpio_mode_message_t") payload
    some (s, if -1 < msg.1 then gpioModeOutputs msg.2 else [])
  else some (s, [.println ("Unknown command received " ++ toString cmd)])

/-! ### What a command does -/

/-- The response to a command. -/
def answer (b : Board) (m : UInt8 × List UInt8) : Option (UInt8 × List UInt8) :=
  if m.1 = cmdGpioGet then
    (received "st_gpio_get_message_t" (b.stack "st_gpio_get_message_t") m.2).map fun msg =>
      (cmdGpioGetResponse, (codecOf "st_gpio_get_response_message_t").encode
        (gpioGetResponse b.levels msg))
  else none

/-- What comes out of it. -/
def outputs (b : Board) (m : UInt8 × List UInt8) : List Output :=
  if m.1 = cmdGpioGet then
    ((received "st_gpio_get_message_t" (b.stack "st_gpio_get_message_t") m.2).map fun msg =>
      gpioGetLines (UInt64.ofNat (field msg 0).toBits)).getD []
  else if m.1 = cmdGpioSet then
    ((received "st_gpio_set_message_t" (b.stack "st_gpio_set_message_t") m.2).map
      gpioSetOutputs).getD []
  else if m.1 = cmdGpioMode then
    ((received "st_gpio_mode_message_t" (b.stack "st_gpio_mode_message_t") m.2).map
      gpioModeOutputs).getD []
  else [.println ("Unknown command received " ++ toString (m.1.toNat : Int))]

/-- What is done to the pins. -/
def actions (b : Board) (m : UInt8 × List UInt8) : List PinAction :=
  (outputs b m).filterMap Output.action

/-- The response that is queued. -/
def Sketch.pending (s : Sketch) : Option (UInt8 × List UInt8) :=
  if s.respPending then some (s.respCmd, s.respBuffer.1.take s.respLen) else none

/-- A response to be queued: nothing, or one that fits. -/
structure Sketch.Queues (s : Sketch) (m : Option (UInt8 × List UInt8)) (s' : Sketch) : Prop where
  none_eq : m = none → s' = s
  pending : ∀ r, m = some r → s'.pending = some r ∧ s'.respLen ≤ interfaceMaxSize
  lastSendMs : s'.lastSendMs = s.lastSendMs

theorem Sketch.respond_eq (s : Sketch) (cmd : UInt8) {name : String}
    (hname : name ∈ interfaceStructs.map Prod.fst) {v : Value} (hv : (codecOf name).Valid v) :
    ∃ s', s.respond cmd (writeFnName "" name) v = some s' ∧
      s.Queues (some (cmd, (codecOf name).encode v)) s' := by
  refine ⟨_, by rw [Sketch.respond, writeMessage_eq hname hv]; rfl, fun h => (nomatch h), ?_, ?_⟩
  · intro r hr
    cases hr
    have hfits := encode_fits hname hv
    rw [queueResponse, if_neg (by omega)]
    refine ⟨?_, hfits⟩
    rw [Sketch.pending, if_pos rfl]
    exact congrArg (fun bs => some (cmd, bs)) List.take_left
  · rw [queueResponse, if_neg (by omega)]

theorem gpioGetResponse_valid (levels : ℕ → Bool) (msg : Value) :
    (codecOf "st_gpio_get_response_message_t").Valid (gpioGetResponse levels msg) := by
  rw [codecOf_eq ("st_gpio_get_response_message_t", [bitsCodec 8 false]) (by simp [messageCodecs])]
  exact ⟨_, rfl, .cons ⟨_, rfl, UInt64.toNat_lt _⟩ .nil⟩

/-- **What a command does**, whatever its payload is. -/
theorem handleCommand_eq (b : Board) (s : Sketch) {cmd : UInt8} (hcmd : cmd ≠ cmdRng)
    (payload : List UInt8) :
    ∃ s', handleCommand b s cmd.toNat payload = some (s', outputs b (cmd, payload)) ∧
      s.Queues (answer b (cmd, payload)) s' := by
  have hmem {name : String} (h : name ∈ messageCodecs.map Prod.fst) :
      name ∈ interfaceStructs.map Prod.fst := interface_names ▸ h
  have hsame (c : UInt8) : ((cmd.toNat : Int) = c.toNat) ↔ cmd = c := by
    rw [Int.natCast_inj, UInt8.toNat_inj]
  have hread {name fn : String} (hfn : readFnName "" name = fn)
      (h : name ∈ messageCodecs.map Prod.fst) :=
    readMessage_cases hfn (hmem h) (b.stack_room name (hmem h)) payload
  have hnothing : s.Queues none s := ⟨fun _ => rfl, fun _ h => (nomatch h), rfl⟩
  rw [handleCommand, answer, outputs]
  simp only [hsame, if_neg hcmd]
  by_cases hget : cmd = cmdGpioGet
  · subst hget
    obtain ⟨ret, v, hcall, ⟨hret, hreceived⟩ | ⟨hret, hreceived⟩⟩ :=
      @hread "st_gpio_get_message_t" "st_gpio_get_message_read" (by decide +kernel) (by decide)
    · obtain ⟨s', hrespond, hqueues⟩ := s.respond_eq cmdGpioGetResponse (hmem (by decide))
        (gpioGetResponse_valid b.levels v)
      have hfn : writeFnName "" "st_gpio_get_response_message_t" =
          "st_gpio_get_response_message_write" := by decide +kernel
      rw [hfn] at hrespond
      refine ⟨s', ?_, ?_⟩
      · rw [if_pos rfl, if_pos rfl, hcall, hreceived, Option.bind_eq_bind, Option.bind_some,
          if_pos hret, hrespond]
        rfl
      · rw [if_pos rfl, hreceived]
        exact hqueues
    · refine ⟨s, ?_, ?_⟩
      · rw [if_pos rfl, if_pos rfl, hcall, hreceived, Option.bind_eq_bind, Option.bind_some,
          if_neg hret]
        rfl
      · rw [if_pos rfl, hreceived]
        exact hnothing
  refine ⟨s, ?_, by rw [if_neg hget]; exact hnothing⟩
  rw [if_neg hget, if_neg hget]
  by_cases hset : cmd = cmdGpioSet
  · obtain ⟨ret, v, hcall, ⟨hret, hreceived⟩ | ⟨hret, hreceived⟩⟩ :=
      @hread "st_gpio_set_message_t" "st_gpio_set_message_read" (by decide +kernel) (by decide)
    · rw [if_pos hset, hcall, if_pos hset, hreceived, Option.bind_eq_bind, Option.bind_some,
        if_pos hret]
      rfl
    · rw [if_pos hset, hcall, if_pos hset, hreceived, Option.bind_eq_bind, Option.bind_some,
        if_neg hret]
      rfl
  by_cases hmode : cmd = cmdGpioMode
  · obtain ⟨ret, v, hcall, ⟨hret, hreceived⟩ | ⟨hret, hreceived⟩⟩ :=
      @hread "st_gpio_mode_message_t" "st_gpio_mode_message_read" (by decide +kernel) (by decide)
    · rw [if_neg hset, if_pos hmode, hcall, if_neg hset, if_pos hmode, hreceived,
        Option.bind_eq_bind, Option.bind_some, if_pos hret]
      rfl
    · rw [if_neg hset, if_pos hmode, hcall, if_neg hset, if_pos hmode, hreceived,
        Option.bind_eq_bind, Option.bind_some, if_neg hret]
      rfl
  rw [if_neg hset, if_neg hmode, if_neg hset, if_neg hmode]

/-! ### What is printed -/

/-- ASCII text, none of which can be taken for a marker. -/
def Plain (line : String) : Prop := ∀ c ∈ line.toList, c.toNat < 128

theorem Plain.append {line more : String} (h : Plain line) (hmore : Plain more) :
    Plain (line ++ more) := by
  intro c hc
  rw [String.toList_append, List.mem_append] at hc
  exact hc.elim (h c) (hmore c)

theorem plain_toString (n : ℕ) : Plain (toString n) := by
  intro c hc
  have hdigits : c ∈ Nat.toDigits 10 n := by
    simpa [toString, Nat.repr] using hc
  have hdigit := Nat.isDigit_of_mem_toDigits (by decide) (by decide) hdigits
  have hle : c.val ≤ 57 := by
    simp only [Char.isDigit, Bool.and_eq_true, decide_eq_true_iff] at hdigit
    exact hdigit.2
  have hnat : c.val.toNat ≤ 57 := hle
  exact lt_of_le_of_lt hnat (by decide)

/-- Nothing else is printed. -/
theorem outputs_plain (b : Board) (m : UInt8 × List UInt8) :
    ∀ line, .println line ∈ outputs b m → Plain line := by
  intro line h
  rw [outputs] at h
  split_ifs at h
  · cases hmsg : received "st_gpio_get_message_t" (b.stack "st_gpio_get_message_t") m.2 with
    | none => simp [hmsg] at h
    | some msg =>
      rw [hmsg, Option.map_some, Option.getD_some, gpioGetLines, List.mem_filterMap] at h
      obtain ⟨i, -, hi⟩ := h
      split_ifs at hi
      cases hi
      exact Plain.append (by simp [Plain]) (plain_toString i)
  · cases hmsg : received "st_gpio_set_message_t" (b.stack "st_gpio_set_message_t") m.2 with
    | none => simp [hmsg] at h
    | some msg =>
      rw [hmsg, Option.map_some, Option.getD_some, gpioSetOutputs, gpioSet, List.mem_flatMap] at h
      obtain ⟨i, -, hi⟩ := h
      have hfor : Plain "GPIO set level request for " := by simp [Plain]
      have hline := hfor.append (plain_toString i)
      split_ifs at hi
      · obtain rfl : line = _ := by simpa using hi
        exact hline.append (by simp [Plain])
      · obtain rfl : line = _ := by simpa using hi
        exact hline.append (by simp [Plain])
      · cases hi
  · cases hmsg : received "st_gpio_mode_message_t" (b.stack "st_gpio_mode_message_t") m.2 with
    | none => simp [hmsg] at h
    | some msg =>
      rw [hmsg, Option.map_some, Option.getD_some, gpioModeOutputs] at h
      obtain rfl : line = _ := by simpa using h
      exact Plain.append (by simp [Plain]) (plain_toString _)
  · obtain rfl : line = _ := by simpa using h
    exact Plain.append (by simp [Plain]) (plain_toString m.1.toNat)

/-! ## A board -/

/-- Objects with zeros. -/
def zeros : List (String × Value) :=
  [("st_rng_message_t", .record []), ("st_gpio_get_message_t", .record [.bits 0]),
    ("st_gpio_set_message_t", .record [.bits 0, .bits 0]),
    ("st_gpio_mode_message_t", .record [.bits 0, .enum 0]),
    ("st_rng_response_message_t", .record [.bits 0]),
    ("st_gpio_get_response_message_t", .record [.bits 0])]

theorem zeros_room : ∀ name ∈ interfaceStructs.map Prod.fst,
    (codecOf name).Room ((zeros.lookup name).getD (.record [])) := by
  have hbits (n : ℕ) : (bitsCodec n false).Room (.bits 0) := ⟨0, rfl, trivial⟩
  have henum : (enumCodec "uint8_t" false).Room (.enum 0) := trivial
  have hall : ∀ e ∈ messageCodecs,
      (recordCodec e.2).Room ((zeros.lookup e.1).getD (.record [])) := by
    simp only [messageCodecs, List.forall_mem_cons]
    exact ⟨⟨_, rfl, .nil⟩, ⟨_, rfl, .cons (hbits 8) .nil⟩,
      ⟨_, rfl, .cons (hbits 8) (.cons (hbits 8) .nil)⟩,
      ⟨_, rfl, .cons (hbits 1) (.cons henum .nil)⟩,
      ⟨_, rfl, .cons (hbits 4) .nil⟩, ⟨_, rfl, .cons (hbits 8) .nil⟩, by simp⟩
  rw [interface_names, List.forall_mem_map]
  intro e he
  rw [codecOf_eq e he]
  exact hall e he

/-- A board on which the odd pins are high. -/
def oddBoard : Board where
  stack name := (zeros.lookup name).getD (.record [])
  levels i := i % 2 = 1
  stack_room := zeros_room

end Firmware

end HtcwFrameArq
