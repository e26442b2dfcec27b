import HtcwFrameArq.Wire

/-!
# Sequence numbers

`seqOf k` is the sequence number of message number `k`: the counters of the code run modulo
64. Both steps the code takes on a counter, to the next number (`seqOf_succ`) and back to
the previous one (`seqOf_pred`), are steps of `k`; two messages share a number exactly when
they are a multiple of 64 apart (`seqOf_eq_iff`).
-/

namespace HtcwFrameArq

/-- The sequence number of message number `k`. -/
def seqOf (k : ℕ) : UInt8 := UInt8.ofNat (k % 64)

/-- A property of bytes can be checked on the 256 numbers. -/
theorem byte_all {P : UInt8 → Prop} (h : ∀ n < 256, P (UInt8.ofNat n)) (b : UInt8) : P b := by
  have := h b.toNat b.toNat_lt
  rwa [UInt8.ofNat_toNat] at this

/-! ## Counting modulo 64 -/

@[simp] theorem seqOf_zero : seqOf 0 = 0 := rfl

theorem seqOf_le (k : ℕ) : seqOf k ≤ 63 := by
  have h : ∀ n < 64, UInt8.ofNat n ≤ 63 := by decide
  exact h (k % 64) (Nat.mod_lt k (by decide))

theorem seqOf_succ (k : ℕ) : (seqOf k + 1) &&& faSeqMask = seqOf (k + 1) := by
  have h : ∀ n < 64, (UInt8.ofNat n + 1) &&& faSeqMask = UInt8.ofNat ((n + 1) % 64) := by
    decide
  have := h (k % 64) (Nat.mod_lt k (by decide))
  rwa [Nat.mod_add_mod] at this

theorem seqOf_pred (k : ℕ) : (seqOf (k + 1) - 1) &&& faSeqMask = seqOf k := by
  have h : ∀ n < 64, (UInt8.ofNat ((n + 1) % 64) - 1) &&& faSeqMask = UInt8.ofNat n := by
    decide
  have := h (k % 64) (Nat.mod_lt k (by decide))
  rwa [Nat.mod_add_mod] at this

theorem seqOf_eq_iff {j k : ℕ} : seqOf j = seqOf k ↔ j % 64 = k % 64 := by
  refine ⟨?_, fun h => by rw [seqOf, seqOf, h]⟩
  intro h
  have hn := congrArg UInt8.toNat h
  have hj : j % 64 < 64 := Nat.mod_lt j (by decide)
  have hk : k % 64 < 64 := Nat.mod_lt k (by decide)
  unfold seqOf at hn
  rwa [UInt8.toNat_ofNat_of_lt' (Nat.lt_trans hj (by decide)),
    UInt8.toNat_ofNat_of_lt' (Nat.lt_trans hk (by decide))] at hn

/-! ## The sequence/type byte -/

theorem faTypeOf_faSeqByte {type : UInt8} (h : type ≤ 3) (seq : UInt8) :
    faTypeOf (faSeqByte type seq) = type := by
  have key : ∀ t < 4, ∀ n < 256,
      faTypeOf (faSeqByte (UInt8.ofNat t) (UInt8.ofNat n)) = UInt8.ofNat t := by
    decide +kernel
  have := key type.toNat (Nat.lt_succ_of_le (UInt8.le_iff_toNat_le.mp h)) seq.toNat
    seq.toNat_lt
  rwa [UInt8.ofNat_toNat, UInt8.ofNat_toNat] at this

theorem faSeqOf_faSeqByte {type seq : UInt8} (ht : type ≤ 3) (hs : seq ≤ 63) :
    faSeqOf (faSeqByte type seq) = seq := by
  have key : ∀ t < 4, ∀ n < 64,
      faSeqOf (faSeqByte (UInt8.ofNat t) (UInt8.ofNat n)) = UInt8.ofNat n := by
    decide +kernel
  have := key type.toNat (Nat.lt_succ_of_le (UInt8.le_iff_toNat_le.mp ht)) seq.toNat
    (Nat.lt_succ_of_le (UInt8.le_iff_toNat_le.mp hs))
  rwa [UInt8.ofNat_toNat, UInt8.ofNat_toNat] at this

/-- A byte is its type and its sequence number. -/
theorem faSeqByte_faTypeOf (b : UInt8) : faSeqByte (faTypeOf b) (faSeqOf b) = b :=
  byte_all (P := fun b => faSeqByte (faTypeOf b) (faSeqOf b) = b) (by decide +kernel) b

theorem faSeqOf_le (b : UInt8) : faSeqOf b ≤ 63 :=
  byte_all (P := fun b => faSeqOf b ≤ 63) (by decide +kernel) b

end HtcwFrameArq
