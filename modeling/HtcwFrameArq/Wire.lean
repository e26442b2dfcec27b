import Mathlib.Tactic.IntervalCases
import HtcwFrameArq.Controller

/-!
# The wire format

`Frame` is what a complete frame says: a marker, a sequence/type byte and a payload;
`Frame.encode` is its bytes. The two encoders of the source produce these bytes
(`buildFrame_eq`, `faWriteControl_eq`), and a block of bytes that carries the right fields
is such an encoding (`fields_eq_encode`).

Every block of at least `headerLength` bytes is `fields m s v w ++ body`: eight marker
cells, the sequence byte, the length field, the CRC field. All lemmas about encoders and
decoders are stated on that form.
-/

namespace HtcwFrameArq

open Memory

/-! ## Little-endian fields -/

/-- The value `fa_rd_u32` reads from four bytes. -/
def ofLeBytes (p0 p1 p2 p3 : UInt8) : UInt32 :=
  p0.toUInt32 ||| (p1.toUInt32 <<< 8) ||| (p2.toUInt32 <<< 16) ||| (p3.toUInt32 <<< 24)

@[simp] theorem leBytes_length (v : UInt32) : (leBytes v).length = 4 := rfl

theorem toUInt8_mask (v : UInt32) : (v &&& 0xFF).toUInt8 = v.toUInt8 := by
  apply UInt8.toNat_inj.mp
  have h (n : ℕ) : n &&& 255 = n % 256 := Nat.and_two_pow_sub_one_eq_mod n 8
  simp [h]

theorem leBytes_eq (v : UInt32) :
    leBytes v = [v.toUInt8, (v >>> 8).toUInt8, (v >>> 16).toUInt8, (v >>> 24).toUInt8] := by
  simp only [leBytes, toUInt8_mask]

theorem ofLeBytes_toUInt8 (v : UInt32) :
    ofLeBytes v.toUInt8 (v >>> 8).toUInt8 (v >>> 16).toUInt8 (v >>> 24).toUInt8 = v := by
  apply UInt32.toBitVec_inj.mp
  apply BitVec.eq_of_getLsbD_eq
  intro i hi
  rw [ofLeBytes]
  interval_cases i <;> simp [-UInt32.toUInt32_toUInt8]

theorem leBytes_ofLeBytes (p0 p1 p2 p3 : UInt8) :
    leBytes (ofLeBytes p0 p1 p2 p3) = [p0, p1, p2, p3] := by
  rw [leBytes_eq]
  have bits (a b : UInt8) (h : ∀ i < 8, a.toBitVec.getLsbD i = b.toBitVec.getLsbD i) :
      a = b := UInt8.toBitVec_inj.mp (BitVec.eq_of_getLsbD_eq (fun i hi => h i hi))
  rw [bits (ofLeBytes p0 p1 p2 p3).toUInt8 p0,
    bits (ofLeBytes p0 p1 p2 p3 >>> 8).toUInt8 p1,
    bits (ofLeBytes p0 p1 p2 p3 >>> 16).toUInt8 p2,
    bits (ofLeBytes p0 p1 p2 p3 >>> 24).toUInt8 p3]
  all_goals
    intro i hi
    rw [ofLeBytes]
    interval_cases i <;> simp

/-- Every four bytes are a little-endian field. -/
theorem exists_leBytes {l : List UInt8} (h : l.length = 4) : ∃ v, l = leBytes v := by
  obtain ⟨p0, p1, p2, p3, rfl⟩ := List.length_eq_four.mp h
  exact ⟨ofLeBytes p0 p1 p2 p3, (leBytes_ofLeBytes p0 p1 p2 p3).symm⟩

/-- `faRdU32` reads back what `faWrU32` wrote. -/
theorem faRdU32_pieces (front post : List UInt8) (v : UInt32) {i : ℕ}
    (hi : i = front.length) : faRdU32 (front ++ leBytes v ++ post) i = some v := by
  subst hi
  have hv := ofLeBytes_toUInt8 v
  rw [ofLeBytes] at hv
  simp [faRdU32, load, leBytes_eq, -UInt32.toUInt32_toUInt8, hv]

/-! ## The fields of a block -/

/-- Marker cells, sequence byte, length field, CRC field. -/
def fields (m : List UInt8) (s : UInt8) (v w : UInt32) : List UInt8 :=
  m ++ s :: leBytes v ++ leBytes w

/-- The CRC the code computes from the five bytes after the marker and the payload. -/
def crcOf [Build] (head body : List UInt8) : UInt32 :=
  faCrcUpdate (faCrcUpdate 0xFFFFFFFF head) body ^^^ 0xFFFFFFFF

section

variable {m : List UInt8} {s : UInt8} {v w : UInt32} {d : List UInt8}

theorem fields_length (hm : m.length = 8) : (fields m s v w).length = 17 := by
  simp [fields, hm]

/-- A block that holds a whole header is its fields and a rest. -/
theorem exists_fields {acc : List UInt8} (h : 17 ≤ acc.length) :
    ∃ (m : List UInt8) (s : UInt8) (v w : UInt32) (d : List UInt8),
      m.length = 8 ∧ acc = fields m s v w ++ d := by
  have hlen {i n : ℕ} (hle : i + n ≤ 17) : ((acc.drop i).take n).length = n := by
    rw [List.length_take, List.length_drop]
    omega
  obtain ⟨s, hs⟩ := List.length_eq_one_iff.mp (hlen (i := 8) (n := 1) (by decide))
  obtain ⟨v, hv⟩ := exists_leBytes (hlen (i := 9) (by decide))
  obtain ⟨w, hw⟩ := exists_leBytes (hlen (i := 13) (by decide))
  refine ⟨acc.take 8, s, v, w, acc.drop 17, by rw [List.length_take]; omega, ?_⟩
  have split (i n : ℕ) : acc.drop i = (acc.drop i).take n ++ acc.drop (i + n) := by
    rw [← List.drop_drop, List.take_append_drop]
  calc acc = acc.take 8 ++ acc.drop 8 := (List.take_append_drop 8 acc).symm
    _ = acc.take 8 ++ ([s] ++ (leBytes v ++ (leBytes w ++ acc.drop 17))) := by
      rw [split 8 1, hs, split 9 4, hv, split 13 4, hw]
    _ = fields (acc.take 8) s v w ++ acc.drop 17 := by simp [fields]

theorem load_seq (hm : m.length = 8) : load (fields m s v w ++ d) 8 = some s := by
  have : load (m ++ s :: (leBytes v ++ leBytes w ++ d)) 8 = some s := load_append hm.symm
  simpa [fields] using this

theorem faRdU32_size (hm : m.length = 8) :
    faRdU32 (fields m s v w ++ d) 9 = some v := by
  have := faRdU32_pieces (m ++ [s]) (leBytes w ++ d) v (i := 9) (by simp [hm])
  simpa [fields] using this

theorem faRdU32_crc (hm : m.length = 8) :
    faRdU32 (fields m s v w ++ d) 13 = some w := by
  have := faRdU32_pieces (m ++ s :: leBytes v) d w (i := 13) (by simp [hm])
  simpa [fields] using this

theorem slice_body (hm : m.length = 8) (rest : List UInt8) :
    slice (fields m s v w ++ d ++ rest) headerLength d.length = some d :=
  slice_pieces _ d rest (by rw [fields_length hm]; rfl) rfl

theorem faFrameCrc_eq [Build] (hm : m.length = 8) (rest : List UInt8) :
    faFrameCrc (fields m s v w ++ d ++ rest) d.length =
      some (crcOf (s :: leBytes v) d) := by
  have hhead : slice (fields m s v w ++ d ++ rest) 8 5 = some (s :: leBytes v) := by
    have := slice_pieces m (s :: leBytes v) (leBytes w ++ d ++ rest) (n := 5) hm.symm rfl
    simpa [fields] using this
  rw [faFrameCrc, hhead, slice_body hm]
  rfl

/-! ### Overwriting one field -/

theorem write_marker (hm : m.length = 8) {m' : List UInt8} (hm' : m'.length = 8) :
    write (fields m s v w ++ d) 0 m' = some (fields m' s v w ++ d) := by
  have := write_pieces [] m m' (s :: leBytes v ++ leBytes w ++ d) (i := 0) rfl
    (hm.trans hm'.symm)
  simpa [fields] using this

theorem store_seq (hm : m.length = 8) (s' : UInt8) :
    store (fields m s v w ++ d) 8 s' = some (fields m s' v w ++ d) := by
  have := store_pieces m (leBytes v ++ leBytes w ++ d) s s'
  rw [hm] at this
  simpa [fields] using this

theorem faWrU32_size (hm : m.length = 8) (v' : UInt32) :
    faWrU32 (fields m s v w ++ d) 9 v' = some (fields m s v' w ++ d) := by
  have := write_pieces (m ++ [s]) (leBytes v) (leBytes v') (leBytes w ++ d) (i := 9)
    (by simp [hm]) rfl
  simpa [fields, faWrU32] using this

theorem faWrU32_crc (hm : m.length = 8) (w' : UInt32) :
    faWrU32 (fields m s v w ++ d) 13 w' = some (fields m s v w' ++ d) := by
  have := write_pieces (m ++ s :: leBytes v) (leBytes w) (leBytes w') d (i := 13)
    (by simp [hm]) rfl
  simpa [fields, faWrU32] using this

theorem write_body (hm : m.length = 8) {d' : List UInt8} (rest : List UInt8)
    (h : d.length = d'.length) :
    write (fields m s v w ++ d ++ rest) headerLength d' =
      some (fields m s v w ++ d' ++ rest) :=
  write_pieces _ d d' rest (by rw [fields_length hm]; rfl) h

end

/-! ## Frames -/

/-- A frame: marker byte, sequence/type byte, payload. -/
structure Frame where
  marker : UInt8
  seqByte : UInt8
  payload : List UInt8
  deriving DecidableEq

namespace Frame

/-- The length field. -/
def size (f : Frame) : UInt32 := UInt32.ofNat f.payload.length

/-- The CRC field. -/
def crc [Build] (f : Frame) : UInt32 := crcOf (f.seqByte :: leBytes f.size) f.payload

/-- The bytes of a frame. -/
def encode [Build] (f : Frame) : List UInt8 :=
  fields (List.replicate 8 f.marker) f.seqByte f.size f.crc ++ f.payload

theorem encode_length [Build] (f : Frame) : f.encode.length = 17 + f.payload.length := by
  rw [encode, List.length_append, fields_length List.length_replicate]

theorem size_toNat {f : Frame} (h : f.payload.length < 2 ^ 32) :
    f.size.toNat = f.payload.length := UInt32.toNat_ofNat_of_lt' h

end Frame

/-- The DATA frame `frame_arq_put` builds. -/
def dataFrame (cmd seq : UInt8) (payload : List UInt8) : Frame :=
  ⟨cmd + 128, faSeqByte faTypeData seq, payload⟩

/-- The control frame `fa_write_control` builds. -/
def controlFrame (type seq : UInt8) : Frame := ⟨faCtrlMarker, faSeqByte type seq, []⟩

/-- A block with the right fields is the encoding of the frame it carries. -/
theorem fields_eq_encode [Build] {marker s : UInt8} {v w : UInt32} {body : List UInt8}
    (hv : v.toNat = body.length) (hw : w = crcOf (s :: leBytes v) body) :
    fields (List.replicate 8 marker) s v w ++ body = (Frame.mk marker s body).encode := by
  have hsize : (Frame.mk marker s body).size = v := by
    rw [Frame.size, ← hv, UInt32.ofNat_toNat]
  rw [Frame.encode, Frame.crc, hsize, hw]

/-! ## The encoders -/

/-- What `frame_arq_put` takes as payload: behind a `NULL` pointer the retain buffer `p`
keeps the bytes it had. -/
def putBody (p : List UInt8) (payload : Option (List UInt8)) (size : ℕ) : List UInt8 :=
  match payload with
  | some bytes => bytes.take size
  | none => (p.drop 17).take size

theorem copyPayload_eq {m : List UInt8} {s : UInt8} {v w : UInt32} {tail : List UInt8}
    {payload : Option (List UInt8)} {size : ℕ} (hm : m.length = 8)
    (htail : size ≤ tail.length)
    (hpay : ∀ bytes, payload = some bytes → size ≤ bytes.length) :
    copyPayload (fields m s v w ++ tail) payload size =
      some (fields m s v w ++
        (putBody (fields m s v w ++ tail) payload size ++ tail.drop size)) := by
  have hsplit : tail = tail.take size ++ tail.drop size := (List.take_append_drop _ _).symm
  cases payload with
  | none =>
    rw [putBody, List.drop_left' (fields_length hm), ← hsplit, copyPayload]
  | some bytes =>
    have hlen := hpay bytes rfl
    by_cases hsize : 0 < size
    · have hbytes : slice bytes 0 size = some (bytes.take size) := by
        rw [slice_of_le (by omega), List.drop_zero]
      have htake : (tail.take size).length = (bytes.take size).length := by
        rw [List.length_take, List.length_take, Nat.min_eq_left htail, Nat.min_eq_left hlen]
      have hwrite := write_body (s := s) (v := v) (w := w) hm (tail.drop size) htake
      rw [List.append_assoc, ← hsplit, List.append_assoc] at hwrite
      simp only [copyPayload, if_pos hsize, memcpy, hbytes, Option.bind_eq_bind,
        Option.bind_some]
      exact hwrite
    · obtain rfl : size = 0 := by omega
      simp [copyPayload, putBody]

/-- **The frame `frame_arq_put` builds** in its retain buffer. -/
theorem buildFrame_eq [Build] {p : List UInt8} {cmd seq : UInt8}
    {payload : Option (List UInt8)} {size : ℕ} (hp : 17 + size ≤ p.length)
    (hpay : ∀ bytes, payload = some bytes → size ≤ bytes.length) :
    buildFrame p cmd seq payload size =
      some ((dataFrame cmd seq (putBody p payload size)).encode ++ p.drop (17 + size)) := by
  have h17 : 17 ≤ p.length := by omega
  obtain ⟨m, s, v, w, tail, hm, rfl⟩ := exists_fields h17
  rw [List.length_append, fields_length hm] at hp
  have htail : size ≤ tail.length := by omega
  have hm' : (List.replicate 8 (cmd + 128)).length = 8 := List.length_replicate
  have hdrop {m : List UInt8} {s : UInt8} {v : UInt32} (hm : m.length = 8) :
      (fields m s v w ++ tail).drop 17 = tail := List.drop_left' (fields_length hm)
  -- behind a `NULL` pointer the body is what lies past the header, whatever the header is
  have hbodyEq : putBody (fields (List.replicate 8 (cmd + 128)) (faSeqByte faTypeData seq)
      (UInt32.ofNat size) w ++ tail) payload size =
      putBody (fields m s v w ++ tail) payload size := by
    unfold putBody
    rw [hdrop hm, hdrop hm']
  have hbody : (putBody (fields m s v w ++ tail) payload size).length = size := by
    unfold putBody
    cases payload with
    | none =>
      dsimp only
      rw [hdrop hm, List.length_take]
      omega
    | some bytes => simp [hpay bytes rfl]
  have hcrc := faFrameCrc_eq (s := faSeqByte faTypeData seq) (v := UInt32.ofNat size)
    (w := w) (d := putBody (fields m s v w ++ tail) payload size) hm' (tail.drop size)
  rw [hbody, List.append_assoc] at hcrc
  simp only [buildFrame, write_marker hm hm', store_seq hm', faWrU32_size hm',
    copyPayload_eq hm' htail hpay, hbodyEq, hcrc,
    faWrU32_crc hm', Option.bind_eq_bind, Option.bind_some]
  rw [← List.drop_drop, hdrop hm]
  simp only [dataFrame, Frame.encode, Frame.crc, Frame.size, hbody, List.append_assoc]

/-- **The frame `fa_write_control` sends**, whatever its local array held before. -/
theorem faWriteControl_eq [Build] (type seq : UInt8) (t : Transport) :
    faWriteControl type seq t =
      streamOut intMax (controlFrame type seq).encode 0 headerLength t := by
  have hm : (List.replicate 8 faCtrlMarker).length = 8 := List.length_replicate
  have h17 : 17 ≤ (List.replicate headerLength (0 : UInt8)).length := by simp
  obtain ⟨m, s, v, w, body, hm₀, h₀⟩ := exists_fields h17
  obtain rfl : body = [] := by
    have := congrArg List.length h₀
    rw [List.length_append, fields_length hm₀, List.length_replicate] at this
    exact List.eq_nil_of_length_eq_zero (by simpa using this)
  have hcrc := faFrameCrc_eq (s := faSeqByte type seq) (v := 0) (w := w) (d := []) hm []
  rw [List.append_nil, List.length_nil] at hcrc
  simp only [faWriteControl, h₀, write_marker hm₀ hm, store_seq hm, faWrU32_size hm,
    Option.bind_eq_bind, Option.bind_some]
  rw [hcrc, Option.bind_some, faWrU32_crc hm, Option.bind_some]
  rfl

end HtcwFrameArq
