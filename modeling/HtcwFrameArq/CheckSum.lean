import HtcwFrameArq.Crc
import HtcwFrameArq.Sequence
import HtcwFrameArq.ShiftRegister

/-!
# The CRC as a shift register

Both builds of `fa_crc_update` feed the bits of the data, low bit first, into one shift
register (`faCrcUpdate_feed`): the table-free build shifts eight times for each byte, and
the table holds what eight shifts make of a byte (`faCrcTable_eq`). So the two builds agree
(`faCrcUpdate_eq_bits`), and a change of up to four consecutive bytes changes the CRC
(`faCrcUpdate_burst`).
-/

namespace HtcwFrameArq

open ShiftRegister

/-- The polynomial `0xEDB88320`. -/
def crcPolynomial : BitVec 32 := 0xEDB88320

theorem crcPolynomial_top : crcPolynomial.getLsbD (32 - 1) = true := by decide

/-! ## The table-free build -/

theorem crc_and_one (crc : UInt32) : crc &&& 1 ≠ 0 ↔ crc.toBitVec.getLsbD 0 = true := by
  rw [ne_eq, ← UInt32.toBitVec_inj, UInt32.toBitVec_and, UInt32.toBitVec_one,
    BitVec.and_one_eq_setWidth_ofBool_getLsbD]
  cases crc.toBitVec.getLsbD 0 <;> decide

/-- The inner loop shifts the register. -/
theorem faCrcBits_toBitVec (n : ℕ) (crc : UInt32) :
    (faCrcBits n crc).toBitVec = (step crcPolynomial)^[n] crc.toBitVec := by
  induction n generalizing crc with
  | zero => rfl
  | succ n ih =>
    rw [faCrcBits, ih, Function.iterate_succ_apply]
    congr 1
    by_cases h : crc &&& 1 ≠ 0
    · rw [if_pos h, step, if_pos ((crc_and_one crc).mp h)]
      rfl
    · rw [if_neg h, step, if_neg (fun hbit => h ((crc_and_one crc).mpr hbit))]
      rfl

/-! ## The bits of a byte -/

/-- The bits of a byte, low bit first. -/
def byteBits (b : UInt8) : List Bool := (List.range 8).map b.toBitVec.getLsbD

theorem byteBits_length (b : UInt8) : (byteBits b).length = 8 := by simp [byteBits]

theorem byteBits_injective : Function.Injective byteBits := by
  intro a b h
  apply UInt8.toBitVec_inj.mp
  apply BitVec.eq_of_getLsbD_eq
  intro i hi
  exact List.map_inj_left.mp h i (List.mem_range.mpr hi)

theorem word_byteBits (b : UInt8) : word (byteBits b) = b.toUInt32.toBitVec :=
  byte_all (P := fun b => word (byteBits b) = b.toUInt32.toBitVec) (by decide +kernel) b

/-- One byte of the table-free build feeds the bits of the byte. -/
theorem faCrcByteBits_toBitVec (crc : UInt32) (b : UInt8) :
    (faCrcByteBits crc b).toBitVec = feed crcPolynomial crc.toBitVec (byteBits b) := by
  rw [feed_eq_iterate _ _ (by rw [byteBits_length]; decide), byteBits_length, word_byteBits,
    faCrcByteBits, faCrcBits_toBitVec, UInt32.toBitVec_xor]

/-! ## The table build -/

/-- **The table**: an entry is what eight shifts make of its index. -/
theorem faCrcTable_eq {n : ℕ} (hn : n < 256) :
    faCrcTable.getD n 0 = faCrcBits 8 (UInt32.ofNat n) := by
  revert n
  decide +kernel

theorem and_255_toNat (x : UInt32) : (x &&& 0xFF).toNat = x.toNat % 256 := by
  rw [UInt32.toNat_and]
  exact Nat.and_two_pow_sub_one_eq_mod x.toNat 8

/-- Eight shifts of `x`: those of its low byte, and the other bytes moved down. -/
theorem faCrcBits_eight (x : UInt32) :
    faCrcBits 8 x = faCrcBits 8 (x &&& 0xFF) ^^^ (x >>> 8) := by
  have low (i : ℕ) (hi : i < 32) : (0xFF#32).getLsbD i = decide (i < 8) := by
    rw [show (0xFF#32) = BitVec.ofNat 32 (2 ^ 8 - 1) from rfl, BitVec.getLsbD_ofNat,
      Nat.testBit_two_pow_sub_one]
    simp [hi]
  have hsplit : x.toBitVec =
      (x.toBitVec &&& 0xFF#32) ^^^ ((x.toBitVec >>> 8) <<< 8) := by
    apply BitVec.eq_of_getLsbD_eq
    intro i hi
    rw [BitVec.getLsbD_xor, BitVec.getLsbD_and, low i hi, BitVec.getLsbD_shiftLeft,
      BitVec.getLsbD_ushiftRight]
    by_cases h8 : i < 8
    · simp [h8, hi]
    · have : 8 + (i - 8) = i := by omega
      simp [h8, hi, this]
  have hshift : ((x.toBitVec >>> 8) <<< 8) >>> 8 = x.toBitVec >>> 8 := by
    apply BitVec.eq_of_getLsbD_eq
    intro i hi
    rw [BitVec.getLsbD_ushiftRight, BitVec.getLsbD_shiftLeft, Nat.add_sub_cancel_left,
      BitVec.getLsbD_ushiftRight]
    by_cases h : 8 + i < 32
    · simp [h]
    · simp [h, BitVec.getLsbD_of_ge x.toBitVec (8 + i) (by omega)]
  have hclear : ∀ i < 8, ((x.toBitVec >>> 8) <<< 8).getLsbD i = false := by
    intro i hi
    simp [BitVec.getLsbD_shiftLeft, hi]
  apply UInt32.toBitVec_inj.mp
  rw [faCrcBits_toBitVec]
  conv => lhs; rw [hsplit]
  rw [iterate_xor, iterate_of_clear _ hclear, hshift, UInt32.toBitVec_xor, faCrcBits_toBitVec]
  rfl

/-- **The two builds agree** on a byte. -/
theorem faCrcByteTable_eq (crc : UInt32) (b : UInt8) :
    faCrcByteTable crc b = faCrcByteBits crc b := by
  have hlow : ((crc ^^^ b.toUInt32) &&& 0xFF).toNat < 256 := by
    rw [and_255_toNat]
    exact Nat.mod_lt _ (by decide)
  have hhigh : (crc ^^^ b.toUInt32) >>> 8 = crc >>> 8 := by
    have hb : b.toUInt32 >>> 8 = 0 :=
      byte_all (P := fun b => b.toUInt32 >>> 8 = 0) (by decide +kernel) b
    rw [UInt32.shiftRight_xor, hb, UInt32.xor_zero]
  rw [faCrcByteTable, faCrcTable_eq hlow, UInt32.ofNat_toNat, ← hhigh]
  exact (faCrcBits_eight _).symm

/-! ## Both builds -/

/-- **Every build computes the same CRC.** -/
theorem faCrcUpdate_eq_bits [Build] (crc : UInt32) (data : List UInt8) :
    faCrcUpdate crc data = data.foldl faCrcByteBits crc := by
  have hbyte : faCrcByteTable = faCrcByteBits := by
    funext crc b
    exact faCrcByteTable_eq crc b
  rw [faCrcUpdate, hbyte, ite_self]

/-- `fa_crc_update` feeds the bits of the data. -/
theorem faCrcUpdate_feed [Build] (crc : UInt32) (data : List UInt8) :
    (faCrcUpdate crc data).toBitVec =
      feed crcPolynomial crc.toBitVec (data.flatMap byteBits) := by
  rw [faCrcUpdate_eq_bits]
  induction data generalizing crc with
  | nil => rfl
  | cons b data ih =>
    rw [List.foldl_cons, ih, faCrcByteBits_toBitVec, List.flatMap_cons]
    exact List.foldl_append.symm

theorem flatMap_byteBits_length (data : List UInt8) :
    (data.flatMap byteBits).length = 8 * data.length := by
  induction data with
  | nil => rfl
  | cons b data ih =>
    rw [List.flatMap_cons, List.length_append, byteBits_length, ih, List.length_cons]
    omega

theorem flatMap_byteBits_inj {as bs : List UInt8} (hlen : as.length = bs.length)
    (h : as.flatMap byteBits = bs.flatMap byteBits) : as = bs := by
  induction as generalizing bs with
  | nil => exact (List.eq_nil_of_length_eq_zero hlen.symm).symm
  | cons a as ih =>
    obtain _ | ⟨b, bs⟩ := bs
    · cases hlen
    · rw [List.flatMap_cons, List.flatMap_cons] at h
      obtain ⟨hhead, htail⟩ := List.append_inj h (by rw [byteBits_length, byteBits_length])
      rw [byteBits_injective hhead, ih (by simpa using hlen) htail]

/-- **Bursts change the CRC**: bytes that differ within four consecutive ones, whatever
follows them. -/
theorem faCrcUpdate_burst [Build] (crc : UInt32) {as bs : List UInt8}
    (hlen : as.length = bs.length) (hle : as.length ≤ 4) (hne : as ≠ bs) (post : List UInt8) :
    faCrcUpdate crc (as ++ post) ≠ faCrcUpdate crc (bs ++ post) := by
  intro h
  have hbits := congrArg UInt32.toBitVec h
  rw [faCrcUpdate_feed, faCrcUpdate_feed, List.flatMap_append, List.flatMap_append] at hbits
  apply feed_burst crcPolynomial_top crc.toBitVec _ _ _ _ hbits
  · rw [flatMap_byteBits_length, flatMap_byteBits_length, hlen]
  · rw [flatMap_byteBits_length]
    omega
  · exact fun h => hne (flatMap_byteBits_inj hlen h)

end HtcwFrameArq
