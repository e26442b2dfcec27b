import Mathlib.Data.Nat.Notation
import Mathlib.Logic.Function.Iterate

/-!
# Shift registers

A register of `w` bits is shifted down by one place, and when the bit that falls out is set,
a polynomial is added (`step`). A check sum takes in one bit after the other, each at the
low end of the register (`feed`).

A step is linear (`step_xor`), and if the polynomial has the top bit it loses nothing
(`step_injective`). As many bits as the register has places therefore go in side by side
(`feed_eq_iterate`), and no change of them escapes the register: `feed_burst`.
-/

namespace ShiftRegister

variable {w : ℕ}

/-- One shift. -/
def step (poly x : BitVec w) : BitVec w :=
  if x.getLsbD 0 then (x >>> 1) ^^^ poly else x >>> 1

/-- A bit at the low end. -/
def ofBit (b : Bool) : BitVec w := (BitVec.ofBool b).setWidth w

/-- Take in one bit. -/
def feedBit (poly x : BitVec w) (b : Bool) : BitVec w := step poly (x ^^^ ofBit b)

/-- Take in bits, one after the other. -/
def feed (poly x : BitVec w) (bits : List Bool) : BitVec w := bits.foldl (feedBit poly) x

/-- Bits side by side, the first one at the low end. -/
def word : List Bool → BitVec w
  | [] => 0#w
  | b :: bits => ofBit b ^^^ (word bits <<< 1)

/-! ## A step -/

theorem step_xor (poly x y : BitVec w) :
    step poly (x ^^^ y) = step poly x ^^^ step poly y := by
  have twice (a b : BitVec w) : a ^^^ b = (a ^^^ poly) ^^^ (b ^^^ poly) := by
    rw [BitVec.xor_comm b, ← BitVec.xor_assoc, BitVec.xor_assoc a, BitVec.xor_self,
      BitVec.xor_zero]
  simp only [step, BitVec.getLsbD_xor, BitVec.ushiftRight_xor_distrib]
  cases x.getLsbD 0 <;> cases y.getLsbD 0
  · rfl
  · exact BitVec.xor_assoc _ _ _
  · exact (BitVec.xor_assoc _ _ _).trans
      ((congrArg _ (BitVec.xor_comm _ _)).trans (BitVec.xor_assoc _ _ _).symm)
  · exact twice _ _

theorem iterate_xor (poly x y : BitVec w) (n : ℕ) :
    (step poly)^[n] (x ^^^ y) = (step poly)^[n] x ^^^ (step poly)^[n] y := by
  induction n generalizing x y with
  | zero => rfl
  | succ n ih => rw [Function.iterate_succ_apply, step_xor, ih]; rfl

/-- While the low bit is clear, a step only shifts. -/
theorem step_of_clear {x : BitVec w} (poly : BitVec w) (h : x.getLsbD 0 = false) :
    step poly x = x >>> 1 := by simp [step, h]

/-- While low bits are clear, steps only shift. -/
theorem iterate_of_clear {x : BitVec w} (poly : BitVec w) {n : ℕ}
    (h : ∀ i < n, x.getLsbD i = false) : (step poly)^[n] x = x >>> n := by
  induction n with
  | zero => simp
  | succ n ih =>
    have hn : (x >>> n).getLsbD 0 = false := by
      rw [BitVec.getLsbD_ushiftRight]
      exact h n (Nat.lt_succ_self n)
    rw [Function.iterate_succ_apply', ih (fun i hi => h i (Nat.lt_succ_of_lt hi)),
      step_of_clear poly hn, BitVec.shiftRight_add]

/-- **A step loses nothing**, if the polynomial has the top bit. -/
theorem step_injective {poly : BitVec w} (hpoly : poly.getLsbD (w - 1) = true) :
    Function.Injective (step poly) := by
  have zero {d : BitVec w} (hd : step poly d = 0#w) : d = 0#w := by
    have bit (i : ℕ) : (step poly d).getLsbD i = false := by simp [hd]
    cases hlow : d.getLsbD 0 with
    | true =>
      -- the top bit of the result is that of the polynomial
      have htop := bit (w - 1)
      have hgone : d.getLsbD (1 + (w - 1)) = false := BitVec.getLsbD_of_ge _ _ (by omega)
      simp [step, hlow, hpoly, hgone] at htop
    | false =>
      apply BitVec.eq_of_getLsbD_eq
      intro i hi
      rcases Nat.eq_zero_or_pos i with rfl | hpos
      · simpa using hlow
      · have := bit (i - 1)
        rw [step_of_clear poly hlow, BitVec.getLsbD_ushiftRight, Nat.add_sub_cancel' hpos] at this
        simpa using this
  intro x y hxy
  have hd : x ^^^ y = 0#w := by
    apply zero
    rw [step_xor, hxy, BitVec.xor_self]
  exact BitVec.xor_eq_zero_iff.mp hd

theorem iterate_injective {poly : BitVec w} (hpoly : poly.getLsbD (w - 1) = true) (n : ℕ) :
    Function.Injective (step poly)^[n] := (step_injective hpoly).iterate n

/-! ## Bits side by side -/

theorem getLsbD_ofBit (b : Bool) (i : ℕ) :
    (ofBit b : BitVec w).getLsbD i = (decide (i = 0 ∧ 0 < w) && b) := by
  rcases Nat.eq_zero_or_pos i with rfl | hpos
  · simp [ofBit]
  · have hne : i ≠ 0 := by omega
    simp [ofBit, hne]

theorem getLsbD_word (bits : List Bool) (i : ℕ) :
    (word bits : BitVec w).getLsbD i = (decide (i < w) && bits.getD i false) := by
  induction bits generalizing i with
  | nil => simp [word]
  | cons b bits ih =>
    rw [word, BitVec.getLsbD_xor, getLsbD_ofBit, BitVec.getLsbD_shiftLeft, ih]
    obtain _ | i := i
    · simp
    · by_cases hi : i + 1 < w
      · simp [hi, Nat.lt_of_succ_lt hi]
      · simp [hi]

/-- No more bits than places: they can be read back. -/
theorem word_injective {as bs : List Bool} (hlen : as.length = bs.length)
    (hle : as.length ≤ w) (h : (word as : BitVec w) = word bs) : as = bs := by
  apply List.ext_getElem hlen
  intro i ha hb
  have hbit := congrArg (fun x => x.getLsbD i) h
  simp only [getLsbD_word, List.getD_eq_getElem?_getD, List.getElem?_eq_getElem ha,
    List.getElem?_eq_getElem hb, Option.getD_some] at hbit
  have hi : i < w := Nat.lt_of_lt_of_le ha hle
  simpa [hi] using hbit

/-- A word below the top place, moved up, comes down by one step. -/
theorem step_shiftLeft {x : BitVec w} (poly : BitVec w) (h : x.getLsbD (w - 1) = false) :
    step poly (x <<< 1) = x := by
  rw [step_of_clear poly (by simp)]
  apply BitVec.eq_of_getLsbD_eq
  intro i hi
  rw [BitVec.getLsbD_ushiftRight, BitVec.getLsbD_shiftLeft]
  by_cases hlt : 1 + i < w
  · simp [hlt]
  · obtain rfl : i = w - 1 := by omega
    simp [hlt, h]

/-- **Feeding bits is adding them side by side**, then shifting. -/
theorem feed_eq_iterate (poly x : BitVec w) {bits : List Bool} (h : bits.length ≤ w) :
    feed poly x bits = (step poly)^[bits.length] (x ^^^ word bits) := by
  induction bits generalizing x with
  | nil => simp [feed, word]
  | cons b bits ih =>
    have hlt : bits.length < w := h
    have htop : (word bits : BitVec w).getLsbD (w - 1) = false := by
      have hnone : bits.getD (w - 1) false = false := by
        rw [List.getD_eq_getElem?_getD, List.getElem?_eq_none (by omega), Option.getD_none]
      rw [getLsbD_word, hnone, Bool.and_false]
    calc feed poly x (b :: bits) = feed poly (feedBit poly x b) bits := rfl
      _ = (step poly)^[bits.length] (step poly (x ^^^ ofBit b) ^^^ word bits) :=
        ih _ (Nat.le_of_lt hlt)
      _ = (step poly)^[bits.length] (step poly (x ^^^ ofBit b ^^^ (word bits <<< 1))) := by
        rw [step_xor poly (x ^^^ ofBit b), step_shiftLeft poly htop]
      _ = (step poly)^[(b :: bits).length] (x ^^^ word (b :: bits)) := by
        rw [BitVec.xor_assoc, List.length_cons, Function.iterate_succ_apply, word]

/-- Feeding loses nothing of the state. -/
theorem feed_injective {poly : BitVec w} (hpoly : poly.getLsbD (w - 1) = true)
    (bits : List Bool) : Function.Injective fun x => feed poly x bits := by
  induction bits with
  | nil => exact fun x y h => h
  | cons b bits ih =>
    intro x y h
    have hfirst : feedBit poly x b = feedBit poly y b := ih h
    exact (BitVec.xor_left_inj _).mp (step_injective hpoly hfirst)

/-- **Bursts are seen**: bits that differ within as many places as the register has lead to
different states, whatever follows them. -/
theorem feed_burst {poly : BitVec w} (hpoly : poly.getLsbD (w - 1) = true) (x : BitVec w)
    {as bs : List Bool} (hlen : as.length = bs.length) (hle : as.length ≤ w) (hne : as ≠ bs)
    (post : List Bool) : feed poly x (as ++ post) ≠ feed poly x (bs ++ post) := by
  intro h
  have hsplit (l : List Bool) : feed poly x (l ++ post) = feed poly (feed poly x l) post :=
    List.foldl_append
  rw [hsplit, hsplit] at h
  have hstate := feed_injective hpoly post h
  rw [feed_eq_iterate poly x hle, feed_eq_iterate poly x (hlen ▸ hle), ← hlen] at hstate
  have hword := (BitVec.xor_right_inj _).mp (iterate_injective hpoly _ hstate)
  exact hne (word_injective hlen hle hword)

end ShiftRegister
