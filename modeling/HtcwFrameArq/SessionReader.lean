import HtcwFrameArq.Framing
import HtcwFrameArq.SessionFrames
import HtcwFrameArq.Transducer

/-!
# The two parsers side by side

The parser of the library remembers the bytes it has assembled, the read loop of the session a
numbered state and the fields read so far. `Synced` says that the second is what the first
amounts to. One difference is left: at a byte that does not continue a marker run, the library
starts a run with it and the session drops it, so while both look for a marker the library can
be one byte ahead (`Ahead`). `Abreast.read` says that they take every byte alike, except the
one with which the library completes a marker while it is ahead.
-/

namespace HtcwFrameArq

namespace EspSerialSession

open Memory

/-! ## The fields read so far -/

/-- The value of the bytes of a field read so far. -/
def leValue (l : List UInt8) : UInt32 :=
  l.zipIdx.foldl (fun v p => v ||| (p.1.toUInt32 <<< UInt32.ofNat (8 * p.2))) 0

theorem leValue_concat (l : List UInt8) (b : UInt8) :
    leValue (l ++ [b]) = leValue l ||| (b.toUInt32 <<< UInt32.ofNat (8 * l.length)) := by
  rw [leValue, List.zipIdx_append, List.foldl_append, Nat.zero_add]
  rfl

theorem leValue_leBytes (v : UInt32) : leValue (leBytes v) = v := by
  have hof (p0 p1 p2 p3 : UInt8) : leValue [p0, p1, p2, p3] = ofLeBytes p0 p1 p2 p3 := by
    have hzero : p0.toUInt32 <<< (0 : UInt32) = p0.toUInt32 := UInt32.shiftLeft_zero
    change (0 : UInt32) ||| p0.toUInt32 <<< 0 ||| p1.toUInt32 <<< 8 ||| p2.toUInt32 <<< 16 |||
      p3.toUInt32 <<< 24 = _
    rw [UInt32.zero_or, hzero, ofLeBytes]
  rw [leBytes_eq, hof, ofLeBytes_toUInt8]

/-- The machine that has read `acc`. -/
def machineOf (acc : List UInt8) : StateMachine where
  state := acc.length
  rawCmd := acc.headD 0
  rawSeq := (acc[8]?).getD 0
  rawLen := leValue ((acc.drop 9).take 4)
  rawCrc := leValue ((acc.drop 13).take 4)

theorem machineOf_fields {c s : UInt8} {v w : UInt32} :
    machineOf (fields (List.replicate 8 c) s v w) = ⟨17, c, s, v, w⟩ := by
  have hm : (List.replicate 8 c).length = 8 := List.length_replicate
  have hlen : ((fields (List.replicate 8 c) s v w).drop 9).take 4 = leBytes v := rfl
  have hcrc : ((fields (List.replicate 8 c) s v w).drop 13).take 4 = leBytes w := rfl
  rw [machineOf, hlen, hcrc, leValue_leBytes, leValue_leBytes, fields_length hm]
  rfl

theorem machineOf_replicate {c : UInt8} {n : ℕ} (hpos : 0 < n) (h8 : n ≤ 8) :
    machineOf (List.replicate n c) = ⟨n, c, 0, 0, 0⟩ := by
  obtain ⟨n, rfl⟩ := Nat.exists_eq_succ_of_ne_zero (Nat.pos_iff_ne_zero.mp hpos)
  have hdrop (k : ℕ) (hk : 8 ≤ k) : (List.replicate n.succ c).drop k = [] :=
    List.drop_of_length_le (by rw [List.length_replicate]; omega)
  have hseq : (List.replicate n.succ c)[8]? = none :=
    List.getElem?_eq_none (by rw [List.length_replicate]; omega)
  rw [machineOf, hdrop 9 (by decide), hdrop 13 (by decide), hseq, List.length_replicate]
  rfl

/-- In the header, a byte is one more byte read. -/
theorem machineOf_step {acc : List UInt8} (h8 : 8 ≤ acc.length) (h17 : acc.length < 17)
    (logging : Bool) (b : UInt8) :
    (machineOf acc).step logging b = ⟨true, [], machineOf (acc ++ [b])⟩ := by
  have hhead : (acc ++ [b]).headD 0 = acc.headD 0 := by
    obtain _ | ⟨a, as⟩ := acc
    · cases h8
    · rfl
  have hdrop {k : ℕ} (hk : k ≤ acc.length) : (acc ++ [b]).drop k = acc.drop k ++ [b] :=
    List.drop_append_of_le_length hk
  have hbefore {k : ℕ} (hk : acc.length < k) : acc.drop k = [] ∧ (acc ++ [b]).drop k = [] :=
    ⟨List.drop_of_length_le (by omega),
      List.drop_of_length_le (by rw [List.length_append, List.length_singleton]; omega)⟩
  -- a field that is complete is not changed, one that is not gets one more byte
  have hfull {k : ℕ} (hk : k + 4 ≤ acc.length) :
      ((acc ++ [b]).drop k).take 4 = (acc.drop k).take 4 := by
    rw [hdrop (by omega), List.take_append_of_le_length (by rw [List.length_drop]; omega)]
  have hmore {k : ℕ} (hk : k ≤ acc.length) (hk4 : acc.length < k + 4) :
      leValue (((acc ++ [b]).drop k).take 4) =
        leValue ((acc.drop k).take 4) |||
          (b.toUInt32 <<< UInt32.ofNat (8 * (acc.length - k))) := by
    have hshort : (acc.drop k).length + 1 ≤ 4 := by rw [List.length_drop]; omega
    rw [hdrop hk, List.take_of_length_le (by rw [List.length_append]; exact hshort),
      List.take_of_length_le (by omega), leValue_concat, List.length_drop]
  have hlen : (acc ++ [b]).length = acc.length + 1 := by simp
  have hstate : (machineOf acc).state = acc.length := rfl
  rw [StateMachine.step, hstate, if_neg (by omega), StateMachine.stepFrom, hstate,
    if_neg (by omega), if_neg (by omega)]
  by_cases hseq : acc.length = 8
  · have hb : (acc ++ [b])[8]? = some b := by
      rw [← hseq, List.getElem?_concat_length]
    rw [if_pos hseq]
    simp only [machineOf, hlen, hhead, hb, (hbefore (k := 9) (by omega)).1,
      (hbefore (k := 9) (by omega)).2, (hbefore (k := 13) (by omega)).1,
      (hbefore (k := 13) (by omega)).2, Option.getD_some]
  · have hb : (acc ++ [b])[8]? = acc[8]? := List.getElem?_append_left (by omega)
    rw [if_neg hseq]
    by_cases hsize : acc.length < 13
    · have hcrc : ((acc ++ [b]).drop 13).take 4 = (acc.drop 13).take 4 := by
        rw [(hbefore hsize).1, (hbefore hsize).2]
      rw [if_pos hsize]
      simp only [machineOf, hlen, hhead, hb, hmore (k := 9) (by omega) (by omega), hcrc]
    · rw [if_neg hsize]
      simp only [machineOf, hlen, hhead, hb, hfull (k := 9) (by omega),
        hmore (k := 13) (by omega) (by omega)]

/-! ## The length -/

theorem toInt32_toInt {v : UInt32} (h : v.toNat ≤ 32768) : v.toInt32.toInt = v.toNat := by
  have hlt : 2 * v.toBitVec.toNat < 2 ^ 32 := by
    rw [UInt32.toNat_toBitVec]
    omega
  exact BitVec.toInt_eq_toNat_of_lt hlt

/-- A negative length is one above the maximum, as the library reads it. -/
theorem oversize_iff (v : UInt32) :
    (v.toInt32 < 0 ∨ maxFrameLength < v.toInt32) ↔ 32768 < v.toNat := by
  have hmax : maxFrameLength.toInt = 32768 := by decide
  have hcases : v.toInt32.toInt =
      if 2 * v.toNat < 2 ^ 32 then (v.toNat : Int) else (v.toNat : Int) - (2 ^ 32 : ℕ) :=
    BitVec.toInt_eq_toNat_cond v.toBitVec
  have hlt := v.toNat_lt
  rw [Int32.lt_iff_toInt_lt, Int32.lt_iff_toInt_lt, hmax, hcases, Int32.toInt_zero]
  split <;> omega

theorem length_pos_iff {v : UInt32} (h : v.toNat ≤ 32768) : 0 < v.toInt32 ↔ 0 < v.toNat := by
  rw [Int32.lt_iff_toInt_lt, Int32.toInt_zero, toInt32_toInt h]
  omega

/-! ## Both parsers as transducers -/

/-- The parser of the library, for the maximum of the session. -/
def library [Build] : Transducer (List UInt8) UInt8 RxEvent := (receiver 32768).transducer

/-- The read loop of the session. -/
def reader (logging : Bool) : Transducer ReadLoop UInt8 RxEvent where
  step loop b := ((loop.read logging b).event, (loop.read logging b).loop)

/-- A byte that leads to an incomplete header. -/
theorem reader_header {mach : StateMachine} {logging : Bool} {b : UInt8} {stepped : Stepped}
    (hstep : mach.step logging b = stepped) (hstate : stepped.machine.state ≠ 17) :
    (reader logging).step (.header mach) b = (none, .header stepped.machine) := by
  have hdone : stepped.machine.isDone = false := decide_eq_false hstate
  simp only [reader, ReadLoop.read, hstep, hdone, Bool.false_eq_true, if_false]

/-- The session has read what the library has assembled. -/
inductive Synced : List UInt8 → ReadLoop → Prop where
  | idle {mach} (hstate : mach.state = 0) : Synced [] (.header mach)
  | header {acc} (hne : acc ≠ []) (hlen : acc.length < 17) (hrun : MarkerRun acc) :
      Synced acc (.header (machineOf acc))
  | payload {c s v w d} (hc : 128 ≤ c) (hle : v.toNat ≤ 32768) (hlt : d.length < v.toNat) :
      Synced (fields (List.replicate 8 c) s v w ++ d) (.payload ⟨17, c, s, v, w⟩ d)

/-- Both parsers find the same at a byte, and are related by `R` after it. -/
structure Agree [Build] (logging : Bool) (R : List UInt8 → ReadLoop → Prop) (acc : List UInt8)
    (loop : ReadLoop) (b : UInt8) : Prop where
  event : (library.step acc b).1 = ((reader logging).step loop b).1
  next : R (library.step acc b).2 ((reader logging).step loop b).2

section

variable [Build] {logging : Bool} {acc : List UInt8} {b c s : UInt8} {v w : UInt32}

theorem library_silent (h : verdict 32768 (pushByte acc b) = none) :
    library.step acc b = (none, pushByte acc b) := Decoder.transducer_none h

/-- Before the header is complete, the library finds nothing. -/
theorem library_short {acc' : List UInt8} (hpush : pushByte acc b = acc')
    (hlen : acc'.length < 17) : library.step acc b = (none, acc') := by
  rw [library_silent (verdict_of_short (by rw [hpush]; exact hlen)), hpush]

theorem library_event {e : RxEvent} (h : verdict 32768 (pushByte acc b) = some e) :
    library.step acc b = (some e, []) := Decoder.transducer_some h

theorem agree_of {R : List UInt8 → ReadLoop → Prop} {loop loop' : ReadLoop} {acc' : List UInt8}
    {o : Option RxEvent} (hlib : library.step acc b = (o, acc'))
    (hread : (reader logging).step loop b = (o, loop')) (hR : R acc' loop') :
    Agree logging R acc loop b := by
  constructor
  · rw [hlib, hread]
  · rw [hlib, hread]
    exact hR

/-! ### The last bytes -/

theorem check_eq (body : List UInt8) :
    ReadLoop.check ⟨17, c, s, v, w⟩ body =
      if w ≠ crcOf (s :: leBytes v) body then .crcError else .frame ⟨c, s, body⟩ := by
  have hlength : (v.toInt32).toUInt32 = v := rfl
  rw [ReadLoop.check, StateMachine.length, crc32_eq, hlength]
  simp only [ne_comm]

/-- The last byte of the header. -/
theorem agree_header_end (hc : 128 ≤ c) (h16 : acc.length = 16)
    (hacc : acc ++ [b] = fields (List.replicate 8 c) s v w) :
    Agree logging Synced acc (.header (machineOf acc)) b := by
  have hm : (List.replicate 8 c).length = 8 := List.length_replicate
  have hpush : pushByte acc b = fields (List.replicate 8 c) s v w ++ [] := by
    rw [pushByte_long (by omega), hacc, List.append_nil]
  have hstep : (machineOf acc).step logging b = ⟨true, [], ⟨17, c, s, v, w⟩⟩ := by
    rw [machineOf_step (by omega) (by omega), hacc, machineOf_fields]
  have hdone : StateMachine.isDone ⟨17, c, s, v, w⟩ = true := rfl
  have hlength : StateMachine.length ⟨17, c, s, v, w⟩ = v.toInt32 := rfl
  have hnone : ([] : List UInt8).length ≤ v.toNat := Nat.zero_le _
  have hverdict := verdict_fields (M := 32768) (s := s) (w := w) hm hnone
  rw [← hpush] at hverdict
  have hread : (reader logging).step (.header (machineOf acc)) b =
      if v.toInt32 < 0 ∨ maxFrameLength < v.toInt32 then
        (some .overflow, .header ⟨0, c, s, v, w⟩)
      else if 0 < v.toInt32 then (none, .payload ⟨17, c, s, v, w⟩ [])
      else (some (ReadLoop.check ⟨17, c, s, v, w⟩ []), .header ⟨0, c, s, v, w⟩) := by
    simp only [reader, ReadLoop.read, hstep, hdone, hlength, if_true, StateMachine.reset]
    split_ifs <;> rfl
  -- an oversized length, a payload to come, or none
  by_cases hover : 32768 < v.toNat
  · rw [if_pos hover] at hverdict
    rw [if_pos ((oversize_iff v).mpr hover)] at hread
    exact agree_of (library_event hverdict) hread (.idle rfl)
  · have hle : v.toNat ≤ 32768 := Nat.le_of_not_lt hover
    rw [if_neg hover, List.length_nil] at hverdict
    rw [if_neg (mt (oversize_iff v).mp hover)] at hread
    by_cases hpos : 0 < v.toNat
    · rw [if_pos hpos] at hverdict
      rw [if_pos ((length_pos_iff hle).mpr hpos)] at hread
      refine agree_of (library_silent hverdict) hread ?_
      rw [hpush]
      exact .payload hc hle hpos
    · rw [if_neg hpos] at hverdict
      rw [if_neg (mt (length_pos_iff hle).mp hpos), check_eq] at hread
      have hidle : Synced [] (.header ⟨0, c, s, v, w⟩) := .idle rfl
      refine agree_of (library_event ?_) hread hidle
      rw [hverdict]
      split_ifs <;> rfl

/-- A byte of the payload. -/
theorem agree_payload {d : List UInt8} (hc : 128 ≤ c) (hle : v.toNat ≤ 32768)
    (hlt : d.length < v.toNat) :
    Agree logging Synced (fields (List.replicate 8 c) s v w ++ d)
      (.payload ⟨17, c, s, v, w⟩ d) b := by
  have hm : (List.replicate 8 c).length = 8 := List.length_replicate
  have hpush : pushByte (fields (List.replicate 8 c) s v w ++ d) b =
      fields (List.replicate 8 c) s v w ++ (d ++ [b]) := by
    rw [pushByte_long (by rw [List.length_append, fields_length hm]; omega), List.append_assoc]
  have hlen : (d ++ [b]).length = d.length + 1 := by simp
  have hbody : (d ++ [b]).length ≤ v.toNat := by omega
  have hverdict := verdict_fields (M := 32768) (s := s) (w := w) hm hbody
  rw [← hpush, if_neg (Nat.not_lt.mpr hle)] at hverdict
  have hlength : (StateMachine.length ⟨17, c, s, v, w⟩).toInt.toNat = v.toNat := by
    rw [StateMachine.length, toInt32_toInt hle, Int.toNat_natCast]
  have hread : (reader logging).step (.payload ⟨17, c, s, v, w⟩ d) b =
      if (d ++ [b]).length < v.toNat then (none, .payload ⟨17, c, s, v, w⟩ (d ++ [b]))
      else (some (ReadLoop.check ⟨17, c, s, v, w⟩ (d ++ [b])), .header ⟨0, c, s, v, w⟩) := by
    simp only [reader, ReadLoop.read, hlength, StateMachine.reset]
    split_ifs <;> rfl
  -- the last byte of the payload is where both check the CRC
  by_cases hmore : (d ++ [b]).length < v.toNat
  · rw [if_pos hmore] at hverdict hread
    refine agree_of (library_silent hverdict) hread ?_
    rw [hpush]
    exact .payload hc hle hmore
  · rw [if_neg hmore] at hverdict hread
    rw [check_eq] at hread
    have hidle : Synced [] (.header ⟨0, c, s, v, w⟩) := .idle rfl
    refine agree_of (library_event ?_) hread hidle
    rw [hverdict]
    split_ifs <;> rfl

/-! ### Looking for a marker -/

omit [Build] in
/-- Before a marker, a byte below 128 is dropped. -/
theorem step_idle_low {mach : StateMachine} (hstate : mach.state = 0) (hb : b < 128) :
    (mach.step logging b).machine.state = 0 := by
  rw [StateMachine.step, hstate, if_neg (by decide), StateMachine.stepFrom, hstate, if_pos rfl,
    if_pos hb]
  exact hstate

omit [Build] in
/-- Before a marker, a byte from 128 on starts a run. -/
theorem step_idle_high {mach : StateMachine} (hstate : mach.state = 0) (hb : 128 ≤ b) :
    mach.step logging b = ⟨true, [], machineOf [b]⟩ := by
  rw [StateMachine.step, hstate, if_neg (by decide), StateMachine.stepFrom, hstate, if_pos rfl,
    if_neg (UInt8.not_lt.mpr hb)]
  exact congrArg (Stepped.mk true []) (machineOf_replicate (n := 1) (by decide) (by decide)).symm

omit [Build] in
/-- A byte that continues the run. -/
theorem step_same {n : ℕ} (hpos : 0 < n) (h8 : n < 8) :
    (machineOf (List.replicate n c)).step logging c =
      ⟨true, [], machineOf (List.replicate (n + 1) c)⟩ := by
  rw [machineOf_replicate hpos (by omega), machineOf_replicate (by omega) h8, StateMachine.step,
    if_neg (show n ≠ 17 by omega), StateMachine.stepFrom]
  simp only [if_neg (show n ≠ 0 by omega), if_pos h8, ne_eq, not_true_eq_false, if_false]

omit [Build] in
/-- A byte that does not continue the run ends it. -/
theorem step_other {n : ℕ} (hpos : 0 < n) (h8 : n < 8) (hne : b ≠ c) :
    ((machineOf (List.replicate n c)).step logging b).machine.state = 0 := by
  rw [machineOf_replicate hpos (by omega), StateMachine.step, if_neg (show n ≠ 17 by omega),
    StateMachine.stepFrom]
  simp only [if_neg (show n ≠ 0 by omega), if_pos h8, ne_eq, hne.symm, not_false_eq_true, if_true]

/-- While both look for a marker, the library has one byte more. -/
inductive Ahead : List UInt8 → ReadLoop → Prop where
  | one {c mach} (hc : 128 ≤ c) (hstate : mach.state = 0) : Ahead [c] (.header mach)
  | more {c n} (hc : 128 ≤ c) (hpos : 0 < n) (h7 : n < 7) :
      Ahead (List.replicate (n + 1) c) (.header (machineOf (List.replicate n c)))

/-- The parsers are where they can be on a stream they agree on. -/
def Abreast (acc : List UInt8) (loop : ReadLoop) : Prop := Synced acc loop ∨ Ahead acc loop

/-- The byte `b` completes the marker of the library while the session has counted six. -/
def CompletesAhead (acc : List UInt8) (loop : ReadLoop) (b : UInt8) : Prop :=
  acc.length = 7 ∧ acc.head? = some b ∧ ∃ mach, loop = .header mach ∧ mach.state = 6

/-- **Synced parsers stay synced** at a byte that is appended to those assembled. -/
theorem Synced.grow {loop : ReadLoop} (h : Synced acc loop) (hpush : pushByte acc b = acc ++ [b]) :
    Agree logging Synced acc loop b := by
  have hsilent (hlen : acc.length < 16) : library.step acc b = (none, acc ++ [b]) :=
    library_short hpush (by rw [List.length_append, List.length_singleton]; omega)
  cases h with
  | @idle mach hstate =>
    have hb : 128 ≤ b := by
      by_contra hlow
      rw [pushByte_low (by decide) (UInt8.not_le.mp hlow)] at hpush
      cases hpush
    have hread := @reader_header mach logging b _ (step_idle_high hstate hb)
      (show 1 ≠ 17 by decide)
    exact agree_of (hsilent (by decide)) hread
      (.header (by simp) (by simp) (markerRun_singleton hb))
  | header hne hlen hrun =>
    have hrun' : MarkerRun (acc ++ [b]) := by
      rw [← hpush]
      exact hrun.pushByte b
    have hne' : acc ++ [b] ≠ [] := by simp
    have hlen' : (acc ++ [b]).length = acc.length + 1 := by simp
    -- both assemble the header up to its last byte
    rcases Nat.lt_or_ge acc.length 16 with h16 | h16
    · have hmach : ((machineOf acc).step logging b) = ⟨true, [], machineOf (acc ++ [b])⟩ := by
        rcases Nat.lt_or_ge acc.length 8 with h8 | h8
        · obtain ⟨c, hc, hrep⟩ := hrun'.eq_replicate (by omega)
          rw [hlen', List.replicate_succ'] at hrep
          obtain ⟨hacc, hbc⟩ := List.append_inj' hrep rfl
          obtain rfl : b = c := List.singleton_inj.mp hbc
          have hpos := List.length_pos_of_ne_nil hne
          rw [hacc, ← List.replicate_succ', step_same hpos h8]
        · exact machineOf_step h8 hlen logging b
      exact agree_of (hsilent h16)
        (reader_header hmach (show (acc ++ [b]).length ≠ 17 by omega))
        (.header hne' (by omega) hrun')
    · have h17 : 17 ≤ (acc ++ [b]).length := by omega
      obtain ⟨m, s, v, w, d, hm, hacc⟩ := exists_fields h17
      obtain rfl : d = [] := by
        have := congrArg List.length hacc
        rw [hlen', List.length_append, fields_length hm] at this
        exact List.eq_nil_of_length_eq_zero (by omega)
      obtain ⟨c, hc, hrep⟩ := hrun'
      obtain rfl : m = List.replicate 8 c := by
        rw [hlen', Nat.min_eq_left (by omega), hacc, List.append_nil] at hrep
        rw [← hrep, fields, List.append_assoc, ← hm, List.take_left]
      rw [List.append_nil] at hacc
      exact agree_header_end hc (by omega) hacc
  | payload hc hle hlt => exact agree_payload hc hle hlt

/-- What a byte below 128 does before a marker is complete. -/
theorem library_low (hlen : acc.length < 8) (hb : b < 128) : library.step acc b = (none, []) :=
  library_short (pushByte_low hlen hb) (by decide)

/-- What a byte that starts a new run does. -/
theorem library_restart {n : ℕ} (h8 : n < 8) (hb : 128 ≤ b) (hne : b ≠ c) :
    library.step (List.replicate n c) b = (none, [b]) :=
  library_short (pushByte_other h8 hb hne) (show 1 < 17 by decide)

/-- A run that the session ends, at a byte that starts a new run for the library. -/
theorem agree_other {n k : ℕ} (h8 : k < 8) (hpos : 0 < n) (hn8 : n < 8) (hb : 128 ≤ b)
    (hne : b ≠ c) :
    Agree logging Abreast (List.replicate k c) (.header (machineOf (List.replicate n c))) b := by
  have hzero : ((machineOf (List.replicate n c)).step logging b).machine.state = 0 :=
    step_other hpos hn8 hne
  exact agree_of (library_restart h8 hb hne)
    (reader_header rfl (by rw [hzero]; decide)) (.inr (.one hb hzero))

/-- A run that both end at a byte below 128. -/
theorem agree_low {n : ℕ} (hlen : acc.length < 8) (hpos : 0 < n) (hn8 : n < 8) (hc : 128 ≤ c)
    (hb : b < 128) :
    Agree logging Abreast acc (.header (machineOf (List.replicate n c))) b := by
  have hne : b ≠ c := by
    rintro rfl
    exact absurd hc (UInt8.not_le.mpr hb)
  have hzero : ((machineOf (List.replicate n c)).step logging b).machine.state = 0 :=
    step_other hpos hn8 hne
  exact agree_of (library_low hlen hb) (reader_header rfl (by rw [hzero]; decide))
    (.inl (.idle hzero))

theorem Agree.mono {R R' : List UInt8 → ReadLoop → Prop} {loop : ReadLoop}
    (h : Agree logging R acc loop b) (hR : ∀ {acc loop}, R acc loop → R' acc loop) :
    Agree logging R' acc loop b := ⟨h.event, hR h.next⟩

/-- Synced parsers take every byte alike. -/
theorem Synced.read {loop : ReadLoop} (h : Synced acc loop) (b : UInt8) :
    Agree logging Abreast acc loop b := by
  have hgrow (hpush : pushByte acc b = acc ++ [b]) : Agree logging Abreast acc loop b :=
    (h.grow hpush).mono .inl
  cases h with
  | @idle mach hstate =>
    rcases UInt8.lt_or_le b 128 with hb | hb
    · have hzero : (mach.step logging b).machine.state = 0 := step_idle_low hstate hb
      exact agree_of (library_low (by decide) hb) (reader_header rfl (by rw [hzero]; decide))
        (.inl (.idle hzero))
    · exact hgrow (pushByte_nil hb)
  | header hne hlen hrun =>
    -- the runs can part only while the marker is being assembled
    rcases Nat.lt_or_ge acc.length 8 with h8 | h8
    · obtain ⟨c, hc, hacc⟩ := hrun.eq_replicate (by omega)
      have hpos := List.length_pos_of_ne_nil hne
      generalize acc.length = n at hacc h8 hpos
      subst hacc
      rcases UInt8.lt_or_le b 128 with hb | hb
      · exact agree_low (by rwa [List.length_replicate]) hpos h8 hc hb
      · by_cases hbc : b = c
        · subst hbc
          exact hgrow (by rw [pushByte_same h8 hc, List.replicate_succ'])
        · exact agree_other h8 hpos h8 hb hbc
    · exact hgrow (pushByte_long h8)
  | payload hc hle hlt =>
    exact hgrow (pushByte_long (by
      rw [List.length_append, fields_length List.length_replicate]
      omega))

/-- While the library is ahead, they take every byte alike except the one that completes its
marker. -/
theorem Ahead.read {loop : ReadLoop} (h : Ahead acc loop) {b : UInt8}
    (hkeep : ¬ CompletesAhead acc loop b) : Agree logging Abreast acc loop b := by
  cases h with
  | @one c mach hc hstate =>
    rcases UInt8.lt_or_le b 128 with hb | hb
    · have hzero : (mach.step logging b).machine.state = 0 := step_idle_low hstate hb
      exact agree_of (library_low (show 1 < 8 by decide) hb)
        (reader_header rfl (by rw [hzero]; decide)) (.inl (.idle hzero))
    · have hread := @reader_header mach logging b _ (step_idle_high hstate hb)
        (show 1 ≠ 17 by decide)
      by_cases hbc : b = c
      · subst hbc
        have hpush : pushByte [b] b = List.replicate 2 b := pushByte_same (n := 1) (by decide) hc
        exact agree_of (library_short hpush (show 2 < 17 by decide)) hread
          (.inr (.more (n := 1) hc (by decide) (by decide)))
      · refine agree_of (library_restart (n := 1) (by decide) hb hbc) hread (.inl ?_)
        exact .header (by simp) (by simp) (markerRun_singleton hb)
  | @more c n hc hpos h7 =>
    rcases UInt8.lt_or_le b 128 with hb | hb
    · exact agree_low (by rw [List.length_replicate]; omega) hpos (by omega) hc hb
    · by_cases hbc : b = c
      · subst hbc
        -- with six counted, this byte would complete the marker of the library
        have hn6 : n ≠ 6 := by
          rintro rfl
          refine hkeep ⟨rfl, rfl, _, rfl, rfl⟩
        have hpush := pushByte_same (n := n + 1) (by omega) hc
        exact agree_of (library_short hpush (by rw [List.length_replicate]; omega))
          (reader_header (step_same hpos (by omega))
            (show (List.replicate (n + 1) b).length ≠ 17 by rw [List.length_replicate]; omega))
          (.inr (.more hc (by omega) (by omega)))
      · exact agree_other (by omega) hpos (by omega) hb hbc

/-- **One byte**: parsers that are abreast take it alike and stay abreast, unless it completes
the marker of the library while it is ahead. -/
theorem Abreast.read {loop : ReadLoop} (h : Abreast acc loop) {b : UInt8}
    (hkeep : ¬ CompletesAhead acc loop b) : Agree logging Abreast acc loop b := by
  rcases h with h | h
  · exact h.read b
  · exact h.read hkeep

end

end EspSerialSession

end HtcwFrameArq
