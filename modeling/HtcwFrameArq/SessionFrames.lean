import HtcwFrameArq.CheckSum
import HtcwFrameArq.EspSerialSession

/-!
# The frames of the session

The encoder of the session writes what the encoder of the library writes: the table it builds
at run time holds the same values (`crcTable_getD`), its CRC covers the same bytes in the same
order (`crc32_eq`), and the fields are laid out alike (`buildDataFrame_eq`,
`buildControlFrame_eq`).
-/

namespace HtcwFrameArq

namespace EspSerialSession

open Memory

/-! ## The CRC -/

theorem crcTurns_eq (n : ℕ) (c : UInt32) : crcTurns n c = faCrcBits n c := by
  induction n generalizing c with
  | zero => rfl
  | succ n ih =>
    rw [crcTurns, faCrcBits, ih, UInt32.xor_comm]

/-- **The table built at run time.** -/
theorem crcTable_getD {n : ℕ} (hn : n < 256) :
    crcTable.getD n 0 = faCrcBits 8 (UInt32.ofNat n) := by
  rw [crcTable, buildCrcTable, Array.getD_eq_getD_getElem?, Array.getElem?_ofFn, dif_pos hn,
    Option.getD_some, crcTurns_eq]

theorem crc32Byte_eq (crc : UInt32) (b : UInt8) : crc32Byte crc b = faCrcByteTable crc b := by
  have hlow : ((crc ^^^ b.toUInt32) &&& 0xFF).toNat < 256 := by
    rw [and_255_toNat]
    exact Nat.mod_lt _ (by decide)
  rw [crc32Byte, faCrcByteTable, crcTable_getD hlow, faCrcTable_eq hlow, UInt32.xor_comm]

theorem foldl_crc32Byte [Build] (crc : UInt32) (data : List UInt8) :
    data.foldl crc32Byte crc = faCrcUpdate crc data := by
  have hbyte : crc32Byte = faCrcByteBits := by
    funext crc b
    rw [crc32Byte_eq, faCrcByteTable_eq]
  rw [faCrcUpdate_eq_bits, hbyte]

theorem littleEndian_eq (v : UInt32) : littleEndian v = leBytes v := (leBytes_eq v).symm

/-- **The CRC of the session** is that of the library, in all its builds. -/
theorem crc32_eq [Build] (seqByte : UInt8) (length : Int32) (payload : List UInt8) :
    crc32 seqByte length payload = crcOf (seqByte :: leBytes length.toUInt32) payload := by
  rw [crc32, littleEndian_eq, crcOf, ← foldl_crc32Byte, ← foldl_crc32Byte, List.foldl_cons]

/-! ## The frames -/

theorem writeUInt32LittleEndian_eq (p : List UInt8) (i : ℕ) (v : UInt32) :
    writeUInt32LittleEndian p i v = faWrU32 p i v := by
  rw [writeUInt32LittleEndian, littleEndian_eq, faWrU32]

theorem writeInt32LittleEndian_eq (p : List UInt8) (i : ℕ) (v : Int32) :
    writeInt32LittleEndian p i v = faWrU32 p i v.toUInt32 := by
  rw [writeInt32LittleEndian, littleEndian_eq, faWrU32]

/-- A new array of zeros is a header and a rest. -/
theorem replicate_fields (n : ℕ) :
    List.replicate (frameHeaderLength + n) (0 : UInt8) =
      fields (List.replicate 8 0) 0 0 0 ++ List.replicate n 0 := by
  rw [List.replicate_add]
  rfl

/-- **The DATA frames** of the session. -/
theorem buildDataFrame_eq [Build] (cmd seq : UInt8) (payload : List UInt8) :
    buildDataFrame cmd seq payload = some (dataFrame cmd seq payload).encode := by
  have hzero : (List.replicate 8 (0 : UInt8)).length = 8 := List.length_replicate
  have hm : (List.replicate 8 (cmd + 128)).length = 8 := List.length_replicate
  have hseq : faSeqByte faTypeData seq = seq &&& 0x3F := UInt8.zero_or
  have hbody (s : UInt8) (v w : UInt32) :
      write (fields (List.replicate 8 (cmd + 128)) s v w ++ List.replicate payload.length 0)
        frameHeaderLength payload =
        some (fields (List.replicate 8 (cmd + 128)) s v w ++ payload) := by
    have hlen : (List.replicate payload.length (0 : UInt8)).length = payload.length :=
      List.length_replicate
    have h := write_body (s := s) (v := v) (w := w) hm [] hlen
    rwa [List.append_nil, List.append_nil] at h
  simp only [buildDataFrame, replicate_fields, write_marker hzero hm, store_seq hm,
    writeInt32LittleEndian_eq, faWrU32_size hm, hbody, writeUInt32LittleEndian_eq,
    faWrU32_crc hm, crc32_eq, Option.bind_eq_bind, Option.bind_some]
  rw [← hseq]
  rfl

/-- **The control frames** of the session. -/
theorem buildControlFrame_eq [Build] (type seq : UInt8) :
    buildControlFrame type seq = some (controlFrame type seq).encode := by
  have hzero : (List.replicate 8 (0 : UInt8)).length = 8 := List.length_replicate
  have hm : (List.replicate 8 (128 : UInt8)).length = 8 := List.length_replicate
  have hnew : List.replicate frameHeaderLength (0 : UInt8) =
      fields (List.replicate 8 0) 0 0 0 ++ [] := replicate_fields 0
  simp only [buildControlFrame, hnew, write_marker hzero hm, store_seq hm,
    writeInt32LittleEndian_eq, faWrU32_size hm, writeUInt32LittleEndian_eq, faWrU32_crc hm,
    crc32_eq, Option.bind_eq_bind, Option.bind_some]
  rfl

end EspSerialSession

end HtcwFrameArq
