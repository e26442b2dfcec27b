import HtcwFrameArq.CheckSum
import HtcwFrameArq.Endpoint

/-!
# With and without the CRC table

`FRAME_ARQ_NO_CRC_TABLE` chooses how `fa_crc_update` computes. The two ways agree on every byte
(`faCrcByteTable_eq`), hence on all data; nothing else in the library depends on the choice, so
function by function, and over whole runs, a build can stand in for the other.
-/

namespace HtcwFrameArq

/-- The build for the same platform in which `FRAME_ARQ_NO_CRC_TABLE` is defined or not. -/
abbrev Build.choose (b : Build) (noCrcTable : Bool) : Build := { b with noCrcTable }

section

variable (b : Build) (x y : Bool)

/-! ## Function by function -/

theorem sizeT_choose : @sizeT (b.choose x) = @sizeT (b.choose y) := rfl

theorem faCrcUpdate_choose : @faCrcUpdate (b.choose x) = @faCrcUpdate (b.choose y) := by
  funext crc data
  exact (@faCrcUpdate_eq_bits (b.choose x) crc data).trans
    (@faCrcUpdate_eq_bits (b.choose y) crc data).symm

theorem faFrameCrc_choose : @faFrameCrc (b.choose x) = @faFrameCrc (b.choose y) := by
  funext buf payloadSize
  unfold faFrameCrc
  rw [faCrcUpdate_choose b x y]

theorem faWriteControl_choose : @faWriteControl (b.choose x) = @faWriteControl (b.choose y) := by
  funext type seq t
  unfold faWriteControl
  rw [faFrameCrc_choose b x y]

theorem readFrameCheck_choose : @readFrameCheck (b.choose x) = @readFrameCheck (b.choose y) := by
  funext size r
  unfold readFrameCheck
  rw [faFrameCrc_choose b x y]

theorem readFrameBody_choose : @readFrameBody (b.choose x) = @readFrameBody (b.choose y) := by
  funext r
  unfold readFrameBody
  rw [readFrameCheck_choose b x y, sizeT_choose b x y]

theorem readFrameHeader_choose :
    @readFrameHeader (b.choose x) = @readFrameHeader (b.choose y) := by
  funext r
  unfold readFrameHeader
  rw [readFrameBody_choose b x y]

theorem readFrame_choose : @readFrame (b.choose x) = @readFrame (b.choose y) := by
  funext f incoming
  unfold readFrame
  rw [readFrameHeader_choose b x y]

theorem handleFrame_choose : @handleFrame (b.choose x) = @handleFrame (b.choose y) := by
  funext f t
  unfold handleFrame
  rw [faWriteControl_choose b x y]

theorem frameArqGet_choose : @frameArqGet (b.choose x) = @frameArqGet (b.choose y) := by
  funext handle outData outSize f t
  unfold frameArqGet
  rw [readFrame_choose b x y, handleFrame_choose b x y,
    faWriteControl_choose b x y]

theorem buildFrame_choose : @buildFrame (b.choose x) = @buildFrame (b.choose y) := by
  funext p cmd seq payload size
  unfold buildFrame
  rw [faFrameCrc_choose b x y]

theorem frameArqPut_choose : @frameArqPut (b.choose x) = @frameArqPut (b.choose y) := by
  funext handle f cmd payload size t
  unfold frameArqPut
  rw [buildFrame_choose b x y, sizeT_choose b x y]

theorem frameArqResend_choose :
    @frameArqResend (b.choose x) = @frameArqResend (b.choose y) := rfl

/-! ## Whole runs -/

theorem exec_choose : @Endpoint.exec (b.choose x) = @Endpoint.exec (b.choose y) := by
  funext e c
  have hperform : @Endpoint.perform (b.choose x) = @Endpoint.perform (b.choose y) := by
    funext e c
    unfold Endpoint.perform
    rw [frameArqGet_choose b x y, frameArqPut_choose b x y, frameArqResend_choose b x y]
  have hrecognised : @recognised (b.choose x) = @recognised (b.choose y) := by
    funext f incoming
    unfold recognised
    rw [readFrame_choose b x y]
  unfold Endpoint.exec
  rw [hperform, hrecognised]

theorem run_choose : @Endpoint.run (b.choose x) = @Endpoint.run (b.choose y) := by
  funext e calls
  unfold Endpoint.run
  rw [exec_choose b x y]

end

/-- **The two builds agree.** From every CRC, over all data, they compute the same CRC; so they
compute the same CRC of a frame, write the same control frames, do the same in a put and in
`read_frame`, and show the same in every run of an endpoint. Whatever an end was built with, it
writes the same bytes and accepts the same frames. -/
theorem builds_agree (b : Build) (x y : Bool) :
    (∀ crc data, @faCrcUpdate (b.choose x) crc data = @faCrcUpdate (b.choose y) crc data) ∧
      (∀ buf size, @faFrameCrc (b.choose x) buf size = @faFrameCrc (b.choose y) buf size) ∧
      (∀ type seq t,
        @faWriteControl (b.choose x) type seq t = @faWriteControl (b.choose y) type seq t) ∧
      (∀ handle f cmd payload size t, @frameArqPut (b.choose x) handle f cmd payload size t =
        @frameArqPut (b.choose y) handle f cmd payload size t) ∧
      (∀ f incoming, @readFrame (b.choose x) f incoming = @readFrame (b.choose y) f incoming) ∧
      ∀ e calls, @Endpoint.run (b.choose x) e calls = @Endpoint.run (b.choose y) e calls := by
  refine ⟨?_, ?_, ?_, ?_, ?_, ?_⟩
  · rw [faCrcUpdate_choose b x y]
    exact fun _ _ => rfl
  · rw [faFrameCrc_choose b x y]
    exact fun _ _ => rfl
  · rw [faWriteControl_choose b x y]
    exact fun _ _ _ => rfl
  · rw [frameArqPut_choose b x y]
    exact fun _ _ _ _ _ _ => rfl
  · rw [readFrame_choose b x y]
    exact fun _ _ => rfl
  · rw [run_choose b x y]
    exact fun _ _ => rfl

end HtcwFrameArq
