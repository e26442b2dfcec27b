import Mathlib.Data.List.Induction
import HtcwFrameArq.Decoder
import HtcwFrameArq.Wire

/-!
# The receiver

What `read_frame` is for: a decoder whose state is the list of bytes assembled so far, and
whose verdicts are a complete frame, a CRC failure or an oversized length (`receiver`).

`readFrame_spec` is the refinement: as long as the buffer holds the assembled bytes
(`Holds`), one call of `readFrame` is one `pump` of the decoder, it touches no byte outside
the buffer, and it leaves the sender's half of the controller alone.
-/

namespace HtcwFrameArq

open Memory

/-! ## The decoder -/

/-- What the parser can find. -/
inductive RxEvent : Type where
  /-- a complete, CRC-valid frame -/
  | frame : Frame → RxEvent
  /-- a complete frame whose CRC does not match -/
  | crcError : RxEvent
  /-- a length field above the maximum -/
  | overflow : RxEvent
  deriving DecidableEq

/-- One more byte. While the marker is incomplete, a byte below 128 drops what was
assembled, and a byte that does not continue the run starts a new one. -/
def pushByte (acc : List UInt8) (b : UInt8) : List UInt8 :=
  if acc.length < 8 then
    if b < 128 then []
    else match acc with
      | [] => [b]
      | c :: _ => if b = c then acc ++ [b] else [b]
  else acc ++ [b]

/-- The frame a block of assembled bytes carries. -/
def frameOf (acc : List UInt8) : Frame :=
  ⟨acc.headD 0, (acc[8]?).getD 0, acc.drop headerLength⟩

/-- What the assembled bytes amount to; nothing as long as more bytes are needed. -/
def verdict [Build] (payloadMaxSize : ℕ) (acc : List UInt8) : Option RxEvent :=
  if acc.length < headerLength then none
  else do
    let size ← faRdU32 acc 9
    if payloadMaxSize < size.toNat then some .overflow
    else if acc.length < headerLength + size.toNat then none
    else
      let crc ← faRdU32 acc 13
      let computed ← faFrameCrc acc size.toNat
      if crc ≠ computed then some .crcError else some (.frame (frameOf acc))

/-- The receiver as a decoder of bytes. -/
def receiver [Build] (payloadMaxSize : ℕ) : Decoder (List UInt8) UInt8 RxEvent where
  init := []
  push := pushByte
  verdict := verdict payloadMaxSize

section

variable [Build] (M : ℕ)

@[simp] theorem receiver_push (acc : List UInt8) (b : UInt8) :
    (receiver M).push acc b = pushByte acc b := rfl

@[simp] theorem receiver_verdict (acc : List UInt8) :
    (receiver M).verdict acc = verdict M acc := rfl

end

theorem verdict_of_short [Build] {M : ℕ} {acc : List UInt8} (h : acc.length < 17) :
    verdict M acc = none := if_pos h

/-- The verdict in terms of the header fields. -/
theorem verdict_fields [Build] {M : ℕ} {m : List UInt8} {s : UInt8} {v w : UInt32}
    {body : List UInt8} (hm : m.length = 8) (hbody : body.length ≤ v.toNat) :
    verdict M (fields m s v w ++ body) =
      if M < v.toNat then some .overflow
      else if body.length < v.toNat then none
      else if w ≠ crcOf (s :: leBytes v) body then some .crcError
      else some (.frame ⟨m.headD 0, s, body⟩) := by
  have hlen : (fields m s v w ++ body).length = 17 + body.length := by
    rw [List.length_append, fields_length hm]
  rw [verdict, if_neg (by rw [hlen, headerLength_eq]; omega), faRdU32_size hm]
  simp only [Option.bind_eq_bind, Option.bind_some, faRdU32_crc hm]
  by_cases hM : M < v.toNat
  · rw [if_pos hM, if_pos hM]
  · rw [if_neg hM, if_neg hM]
    by_cases hlt : body.length < v.toNat
    · rw [if_pos (by rw [hlen, headerLength_eq]; omega), if_pos hlt]
    -- as many bytes are there as the length field says: the CRC decides
    · have heq : v.toNat = body.length := by omega
      have hcrc := faFrameCrc_eq (s := s) (v := v) (w := w) (d := body) hm []
      rw [List.append_nil] at hcrc
      rw [if_neg (by rw [hlen, headerLength_eq]; omega), if_neg hlt, heq, hcrc,
        Option.bind_some]
      have hframe : frameOf (fields m s v w ++ body) = ⟨m.headD 0, s, body⟩ := by
        obtain ⟨c, m', rfl⟩ : ∃ c m', m = c :: m' := by
          obtain _ | ⟨c, m'⟩ := m
          · cases hm
          · exact ⟨c, m', rfl⟩
        have hseq := load_seq (s := s) (v := v) (w := w) (d := body) hm
        rw [load] at hseq
        rw [frameOf, hseq, headerLength_eq, List.drop_left' (fields_length hm)]
        rfl
      rw [hframe]

/-- Nothing is decided before as many bytes are assembled as the length field says. -/
theorem verdict_header [Build] {M : ℕ} {m : List UInt8} {s : UInt8} {v : UInt32}
    {rest : List UInt8} (hm : m.length = 8) (hv : v.toNat ≤ M)
    (hrest : rest.length < 4 + v.toNat) : verdict M (m ++ s :: leBytes v ++ rest) = none := by
  rcases Nat.lt_or_ge rest.length 4 with hlt | hge
  · apply verdict_of_short
    simp [hm]
    omega
  · obtain ⟨w, hw⟩ := exists_leBytes (l := rest.take 4) (by simp [hge])
    have hsplit : m ++ s :: leBytes v ++ rest = fields m s v w ++ rest.drop 4 := by
      rw [fields, ← hw, List.append_assoc _ (rest.take 4), List.take_append_drop]
    have hbody : (rest.drop 4).length < v.toNat := by
      rw [List.length_drop]
      omega
    rw [hsplit, verdict_fields hm (Nat.le_of_lt hbody), if_neg (Nat.not_lt.mpr hv),
      if_pos hbody]

/-! ## Marker runs -/

/-- The marker cells assembled so far are equal, and each is at least 128. -/
def MarkerRun (acc : List UInt8) : Prop :=
  ∃ c : UInt8, 128 ≤ c ∧ acc.take 8 = List.replicate (min 8 acc.length) c

theorem markerRun_nil : MarkerRun [] := ⟨128, by decide, rfl⟩

theorem markerRun_singleton {b : UInt8} (h : 128 ≤ b) : MarkerRun [b] := ⟨b, h, rfl⟩

/-- While the marker is incomplete, all of `acc` is the run. -/
theorem MarkerRun.eq_replicate {acc : List UInt8} (h : MarkerRun acc)
    (hlen : acc.length ≤ 8) : ∃ c, 128 ≤ c ∧ acc = List.replicate acc.length c := by
  obtain ⟨c, hc, heq⟩ := h
  rw [List.take_of_length_le hlen, Nat.min_eq_right hlen] at heq
  exact ⟨c, hc, heq⟩

theorem markerRun_replicate {c : UInt8} (hc : 128 ≤ c) (n : ℕ) :
    MarkerRun (List.replicate n c) :=
  ⟨c, hc, by rw [List.take_replicate, List.length_replicate]⟩

/-- Bytes after the marker do not matter. -/
theorem MarkerRun.append {acc : List UInt8} (h : MarkerRun acc) (hlen : 8 ≤ acc.length)
    (l : List UInt8) : MarkerRun (acc ++ l) := by
  obtain ⟨c, hc, heq⟩ := h
  refine ⟨c, hc, ?_⟩
  rw [List.take_append_of_le_length hlen, heq, List.length_append, Nat.min_eq_left hlen,
    Nat.min_eq_left (by omega)]

/-! ### `pushByte`, case by case -/

section

variable {acc : List UInt8} {b c : UInt8}

theorem pushByte_low (hlen : acc.length < 8) (hb : b < 128) : pushByte acc b = [] := by
  unfold pushByte
  rw [if_pos hlen, if_pos hb]

theorem pushByte_nil (hb : 128 ≤ b) : pushByte [] b = [b] := by
  rw [pushByte, if_pos (by decide), if_neg (UInt8.not_lt.mpr hb)]

theorem pushByte_same {n : ℕ} (hn : n < 8) (hc : 128 ≤ c) :
    pushByte (List.replicate n c) c = List.replicate (n + 1) c := by
  obtain _ | n := n
  · exact pushByte_nil hc
  · unfold pushByte
    rw [if_pos (by simpa using hn), if_neg (UInt8.not_lt.mpr hc)]
    simp only [List.replicate_succ, if_pos]
    rw [← List.replicate_succ, ← List.replicate_succ', List.replicate_succ]

theorem pushByte_other {n : ℕ} (hn : n < 8) (hb : 128 ≤ b) (hne : b ≠ c) :
    pushByte (List.replicate n c) b = [b] := by
  obtain _ | n := n
  · exact pushByte_nil hb
  · unfold pushByte
    rw [if_pos (by simpa using hn), if_neg (UInt8.not_lt.mpr hb)]
    simp only [List.replicate_succ, if_neg hne]

theorem pushByte_long (hlen : 8 ≤ acc.length) : pushByte acc b = acc ++ [b] := by
  unfold pushByte
  rw [if_neg (by omega)]

end

theorem MarkerRun.pushByte {acc : List UInt8} (h : MarkerRun acc) (b : UInt8) :
    MarkerRun (pushByte acc b) := by
  rcases Nat.lt_or_ge acc.length 8 with hlen | hlen
  · rcases UInt8.lt_or_le b 128 with hb | hb
    · rw [pushByte_low hlen hb]
      exact markerRun_nil
    · obtain ⟨c, hc, heq⟩ := h.eq_replicate (by omega)
      rw [heq]
      by_cases hbc : b = c
      · rw [hbc, pushByte_same hlen hc]
        exact markerRun_replicate hc _
      · rw [pushByte_other hlen hb hbc]
        exact markerRun_singleton hb
  · rw [pushByte_long hlen]
    exact h.append hlen [b]

theorem MarkerRun.of_append {acc l : List UInt8} (h : MarkerRun (acc ++ l)) : MarkerRun acc := by
  obtain ⟨c, hc, heq⟩ := h
  refine ⟨c, hc, List.eq_replicate_iff.mpr ⟨by simp, ?_⟩⟩
  intro b hb
  have hmem : b ∈ (acc ++ l).take 8 := by
    rw [List.take_append]
    exact List.mem_append_left _ hb
  rw [heq] at hmem
  exact List.eq_of_mem_replicate hmem

/-- A marker run and what follows it are assembled as they are. -/
theorem MarkerRun.pushByte_eq {acc : List UInt8} {b : UInt8} (h : MarkerRun (acc ++ [b])) :
    HtcwFrameArq.pushByte acc b = acc ++ [b] := by
  rcases Nat.lt_or_ge acc.length 8 with hlen | hlen
  · obtain ⟨c, hc, heq⟩ := h.eq_replicate (by rw [List.length_append]; exact hlen)
    rw [List.length_append, List.length_singleton, List.replicate_succ'] at heq
    obtain ⟨hacc, hb⟩ := List.append_inj' heq rfl
    obtain rfl : b = c := by simpa using hb
    rw [hacc, pushByte_same hlen hc, List.replicate_succ']
  · exact pushByte_long hlen

theorem MarkerRun.foldl {acc : List UInt8} (h : MarkerRun acc) :
    acc.foldl HtcwFrameArq.pushByte [] = acc := by
  induction acc using List.reverseRecOn with
  | nil => rfl
  | append_singleton acc b ih =>
    rw [List.foldl_append, ih h.of_append]
    exact h.pushByte_eq

/-- What the parser guarantees of a frame it recognises. -/
structure Frame.Fits (M : ℕ) (f : Frame) : Prop where
  length_le : f.payload.length ≤ M
  length_lt : f.payload.length < 2 ^ 32
  marker_ge : 128 ≤ f.marker

/-- **A recognised frame is its encoding**: bytes that start with a marker run and are
judged a frame are exactly what an encoder writes for it. -/
theorem encode_of_verdict [Build] {M : ℕ} {acc : List UInt8} {f : Frame}
    (hrun : MarkerRun acc) (hlast : ∀ v, faRdU32 acc 9 = some v → acc.length ≤ 17 + v.toNat)
    (h : verdict M acc = some (.frame f)) :
    acc = f.encode ∧ f.Fits M := by
  have hlen : 17 ≤ acc.length := by
    by_contra hlt
    rw [verdict_of_short (by omega)] at h
    cases h
  obtain ⟨m, s, v, w, body, hm, rfl⟩ := exists_fields hlen
  have hle := hlast v (faRdU32_size hm)
  rw [List.length_append, fields_length hm] at hle
  rw [verdict_fields hm (by omega)] at h
  by_cases hM : M < v.toNat
  · rw [if_pos hM] at h
    cases h
  · rw [if_neg hM] at h
    by_cases hlt : body.length < v.toNat
    · rw [if_pos hlt] at h
      cases h
    · rw [if_neg hlt] at h
      by_cases hw : w = crcOf (s :: leBytes v) body
      · rw [if_neg (not_not.mpr hw)] at h
        obtain ⟨c, hc, heq⟩ := hrun
        -- the eight bytes of the marker are one run
        have hmrun : m = List.replicate 8 c := by
          rw [Nat.min_eq_left (by omega)] at heq
          rw [← heq]
          simp [fields, hm]
        obtain rfl : Frame.mk c s body = f := by
          rw [hmrun] at h
          exact RxEvent.frame.inj (Option.some.inj h)
        have hv : v.toNat = body.length := by omega
        refine ⟨?_, by dsimp only; omega, hv ▸ v.toNat_lt, hc⟩
        rw [hmrun]
        exact fields_eq_encode hv hw
      · rw [if_pos hw] at h
        cases h

/-! ## States between calls -/

/-- What is assembled between two calls: a marker run that needs more bytes. -/
structure Pending [Build] (M : ℕ) (acc : List UInt8) : Prop where
  run : MarkerRun acc
  waiting : verdict M acc = none

theorem pending_nil [Build] (M : ℕ) : Pending M [] :=
  ⟨markerRun_nil, verdict_of_short (by decide)⟩

namespace Pending

variable [Build] {M : ℕ} {acc : List UInt8}

/-- Once the length field is known it is within the maximum, and the frame incomplete. -/
theorem size (h : Pending M acc) (hlen : 17 ≤ acc.length) :
    ∃ v, faRdU32 acc 9 = some v ∧ v.toNat ≤ M ∧ acc.length < 17 + v.toNat := by
  obtain ⟨m, s, v, w, body, hm, rfl⟩ := exists_fields hlen
  have hw := h.waiting
  rw [verdict, if_neg (by rw [headerLength_eq]; omega), faRdU32_size hm] at hw
  simp only [Option.bind_eq_bind, Option.bind_some] at hw
  refine ⟨v, faRdU32_size hm, ?_⟩
  by_cases hM : M < v.toNat
  · rw [if_pos hM] at hw
    cases hw
  · rw [if_neg hM] at hw
    by_cases hlt : (fields m s v w ++ body).length < headerLength + v.toNat
    · exact ⟨by omega, hlt⟩
    · have hbody : v.toNat ≤ body.length := by
        rw [List.length_append, fields_length hm, headerLength_eq] at hlt
        omega
      -- were it complete, the CRC would have decided
      have hsplit : fields m s v w ++ body =
          fields m s v w ++ body.take v.toNat ++ body.drop v.toNat := by
        rw [List.append_assoc, List.take_append_drop]
      have hcrc := faFrameCrc_eq (s := s) (v := v) (w := w) (d := body.take v.toNat) hm
        (body.drop v.toNat)
      rw [← hsplit, List.length_take, Nat.min_eq_left hbody] at hcrc
      rw [if_neg hlt, faRdU32_crc hm, hcrc] at hw
      simp only [Option.bind_some] at hw
      by_cases heq : w ≠ crcOf (s :: leBytes v) (body.take v.toNat)
      · rw [if_pos heq] at hw
        cases hw
      · rw [if_neg heq] at hw
        cases hw

/-- There is room for one more byte. -/
theorem length_lt (h : Pending M acc) : acc.length < M + 17 := by
  rcases Nat.lt_or_ge acc.length 17 with hlen | hlen
  · omega
  · obtain ⟨v, -, hM, hlt⟩ := h.size hlen
    omega

/-- The next byte is at most the last one of the frame. -/
theorem length_push_le (h : Pending M acc) (b : UInt8) {v : UInt32}
    (hv : faRdU32 (pushByte acc b) 9 = some v) : (pushByte acc b).length ≤ 17 + v.toNat := by
  rcases Nat.lt_or_ge acc.length 8 with h8 | h8
  · obtain ⟨c, hc, heq⟩ := h.run.eq_replicate (by omega)
    rcases UInt8.lt_or_le b 128 with hb | hb
    · rw [pushByte_low h8 hb]
      exact Nat.zero_le _
    · rw [heq]
      by_cases hbc : b = c
      · rw [hbc, pushByte_same h8 hc, List.length_replicate]
        omega
      · rw [pushByte_other h8 hb hbc, List.length_singleton]
        omega
  · rw [pushByte_long h8] at hv ⊢
    rw [List.length_append, List.length_singleton]
    rcases Nat.lt_or_ge acc.length 17 with h17 | h17
    · omega
    · obtain ⟨v', hv', -, hlt⟩ := h.size h17
      obtain ⟨m, s, u, w, body, hm, rfl⟩ := exists_fields h17
      rw [List.append_assoc, faRdU32_size hm] at hv
      rw [faRdU32_size hm] at hv'
      obtain rfl : v' = v := Option.some.inj (hv'.symm.trans hv)
      omega

/-- A byte that completes nothing leaves a pending state. -/
theorem push (h : Pending M acc) {b : UInt8} (hv : verdict M (pushByte acc b) = none) :
    Pending M (pushByte acc b) := ⟨h.run.pushByte b, hv⟩

/-- **What completes a frame is its encoding.** -/
theorem encode_of_push (h : Pending M acc) {b : UInt8} {f : Frame}
    (hv : verdict M (pushByte acc b) = some (.frame f)) :
    pushByte acc b = f.encode ∧ f.Fits M :=
  encode_of_verdict (h.run.pushByte b) (fun _ hv => h.length_push_le b hv) hv

end Pending

/-! ## The buffer holds the assembled bytes -/

/-- The read buffer of `f` holds `acc`. -/
structure Holds [Build] (f : FrameArqT) (acc : List UInt8) : Prop where
  buffer : f.readBuffer.length = f.payloadMaxSize + 17
  fits : f.payloadMaxSize + 17 < 2 ^ Build.sizeBits
  count : f.byteCount = acc.length
  contents : f.readBuffer.take acc.length = acc
  start : ∀ c, acc.head? = some c → f.start = c

/-- `g` is `f` up to the fields the parser writes. -/
def Moved (f g : FrameArqT) : Prop :=
  ∃ readBuffer start byteCount, g = { f with readBuffer, start, byteCount }

theorem Moved.refl (f : FrameArqT) : Moved f f := ⟨_, _, _, rfl⟩

theorem Moved.trans {f g k : FrameArqT} (h₁ : Moved f g) (h₂ : Moved g k) : Moved f k := by
  obtain ⟨_, _, _, rfl⟩ := h₁
  obtain ⟨_, _, _, rfl⟩ := h₂
  exact ⟨_, _, _, rfl⟩

theorem Moved.payloadMaxSize {f g : FrameArqT} (h : Moved f g) :
    g.payloadMaxSize = f.payloadMaxSize := by
  obtain ⟨_, _, _, rfl⟩ := h
  rfl

section

variable [Build] {f : FrameArqT} {acc : List UInt8}

theorem Holds.length_le (h : Holds f acc) : acc.length ≤ f.readBuffer.length := by
  have := congrArg List.length h.contents
  rw [List.length_take] at this
  omega

theorem Holds.load_eq (h : Holds f acc) {i : ℕ} (hi : i < acc.length) :
    load f.readBuffer i = load acc i := by
  rw [← load_take hi, h.contents]

theorem Holds.slice_eq (h : Holds f acc) {i n : ℕ} (hi : i + n ≤ acc.length) :
    slice f.readBuffer i n = slice acc i n := by
  rw [← slice_take hi h.length_le, h.contents]

theorem Holds.faRdU32_eq (h : Holds f acc) {i : ℕ} (hi : i + 4 ≤ acc.length) :
    faRdU32 f.readBuffer i = faRdU32 acc i := by
  unfold faRdU32
  rw [h.load_eq (by omega), h.load_eq (by omega), h.load_eq (by omega), h.load_eq (by omega)]

theorem Holds.faFrameCrc_eq (h : Holds f acc) {n : ℕ} (hn : 17 + n ≤ acc.length) :
    faFrameCrc f.readBuffer n = faFrameCrc acc n := by
  unfold faFrameCrc
  rw [h.slice_eq (by omega), h.slice_eq (by rw [headerLength_eq]; omega)]

/-- Setting `byte_count` to 0 forgets what was assembled. -/
theorem Holds.clear (h : Holds f acc) : Holds { f with byteCount := 0 } [] :=
  ⟨h.buffer, h.fits, rfl, rfl, by simp⟩

/-- Only the parser's fields matter. -/
theorem Holds.of_eq {g : FrameArqT} (h : Holds f acc) (hbuffer : g.readBuffer = f.readBuffer)
    (hmax : g.payloadMaxSize = f.payloadMaxSize) (hcount : g.byteCount = f.byteCount)
    (hstart : g.start = f.start) : Holds g acc where
  buffer := by rw [hbuffer, hmax, h.buffer]
  fits := by
    rw [hmax]
    exact h.fits
  count := hcount.trans h.count
  contents := by rw [hbuffer, h.contents]
  start c hc := hstart.trans (h.start c hc)

omit [Build] in
theorem FrameArqT.append_eq (b : UInt8) (hidx : f.byteCount < f.readBuffer.length) :
    f.append b = some { f with
      readBuffer := f.readBuffer.set f.byteCount b, byteCount := f.byteCount + 1 } := by
  rw [FrameArqT.append, store_of_lt b hidx]
  rfl

omit [Build] in
theorem FrameArqT.restart_eq (b : UInt8) (hidx : 0 < f.readBuffer.length) :
    f.restart b = some { f with
      start := b, readBuffer := f.readBuffer.set 0 b, byteCount := 1 } := by
  rw [FrameArqT.restart, store_of_lt b hidx]
  rfl

theorem append_spec (h : Holds f acc) (b : UInt8) (hne : acc ≠ [])
    (hlt : acc.length < f.payloadMaxSize + 17) :
    ∃ g, f.append b = some g ∧ Holds g (acc ++ [b]) ∧ Moved f g := by
  have hidx : f.byteCount < f.readBuffer.length := by rw [h.count, h.buffer]; exact hlt
  refine ⟨_, f.append_eq b hidx, ?_, _, _, _, rfl⟩
  refine ⟨by simp [h.buffer], h.fits, by simp [h.count], ?_, ?_⟩
  · rw [List.length_append, List.length_singleton, h.count,
      take_succ_set b (by rw [h.buffer]; exact hlt), h.contents]
  · intro c hc
    obtain _ | ⟨a, acc⟩ := acc
    · exact absurd rfl hne
    · exact h.start c hc

theorem restart_spec (h : Holds f acc) (b : UInt8) :
    ∃ g, f.restart b = some g ∧ Holds g [b] ∧ Moved f g := by
  have hidx : 0 < f.readBuffer.length := by rw [h.buffer]; omega
  refine ⟨_, f.restart_eq b hidx, ?_, _, _, _, rfl⟩
  refine ⟨by simp [h.buffer], h.fits, rfl, ?_, ?_⟩
  · exact take_succ_set b hidx
  · intro c hc
    exact Option.some.inj hc

/-- The loop body of `read_frame_marker` is `pushByte`. -/
theorem markerByte_spec (h : Holds f acc) (hrun : MarkerRun acc) (hlt : acc.length < 8)
    (b : UInt8) : ∃ g, markerByte f b = some g ∧ Holds g (pushByte acc b) ∧ Moved f g := by
  -- text discards the run; a marker byte begins it, carries it on or begins another
  rcases UInt8.lt_or_le b 128 with hb | hb
  · rw [pushByte_low hlt hb]
    exact ⟨_, by rw [markerByte, if_pos hb], h.clear, _, _, _, rfl⟩
  · obtain ⟨c, hc, heq⟩ := hrun.eq_replicate (by omega)
    have hb' : ¬ b < 128 := UInt8.not_lt.mpr hb
    obtain _ | ⟨a, acc'⟩ := acc
    · rw [pushByte_nil hb]
      obtain ⟨g, hg, hold, hmove⟩ := restart_spec h b
      exact ⟨g, by rw [markerByte, if_neg hb', if_pos (show f.byteCount = 0 from h.count), hg],
        hold, hmove⟩
    · have hstart : f.start = a := h.start a rfl
      have hcount : f.byteCount ≠ 0 := by rw [h.count]; simp
      obtain rfl : a = c := by
        rw [List.length_cons, List.replicate_succ] at heq
        exact (List.cons.inj heq).1
      by_cases hba : b = a
      · subst hba
        obtain ⟨g, hg, hold, hmove⟩ := append_spec h b (by simp) (by omega)
        refine ⟨g, ?_, ?_, hmove⟩
        · rw [markerByte, if_neg hb', if_neg hcount, if_pos hstart.symm, hg]
        · rw [heq, pushByte_same hlt hc, List.replicate_succ', ← heq]
          exact hold
      · obtain ⟨g, hg, hold, hmove⟩ := restart_spec h b
        refine ⟨g, ?_, ?_, hmove⟩
        · rw [markerByte, if_neg hb', if_neg hcount, if_neg (by rw [hstart]; exact hba), hg]
        · rw [heq, pushByte_other hlt hb hba]
          exact hold

end

/-! ## One byte of `read_frame` -/

/-- The value `read_frame` returns for an event. -/
def RxEvent.code : RxEvent → Int
  | .frame _ => success
  | .crcError => errorCrc
  | .overflow => errorOverflow

/-- What `read_frame` leaves in the controller for an event: an error clears
`byte_count`. -/
def RxEvent.leave (f : FrameArqT) : RxEvent → FrameArqT
  | .frame _ => f
  | .crcError => { f with byteCount := 0 }
  | .overflow => { f with byteCount := 0 }

section

variable {f g : FrameArqT} {b : UInt8} {count : ℕ}

theorem readUpTo_of_ge (incoming : List (Option UInt8)) (h : count ≤ f.byteCount) :
    readUpTo count f incoming = some ⟨success, f, incoming⟩ := by
  unfold readUpTo
  rw [if_neg (by omega)]

theorem readUpTo_nil (h : f.byteCount < count) :
    readUpTo count f [] = some ⟨incomplete, f, []⟩ := by
  rw [readUpTo, if_pos h]

theorem readUpTo_none (rest : List (Option UInt8)) (h : f.byteCount < count) :
    readUpTo count f (none :: rest) = some ⟨incomplete, f, rest⟩ := by
  rw [readUpTo, if_pos h]

theorem readUpTo_some (rest : List (Option UInt8)) (h : f.byteCount < count)
    (hg : f.append b = some g) :
    readUpTo count f (some b :: rest) = readUpTo count g rest := by
  rw [readUpTo]
  simp only [if_pos h, hg, Option.bind_eq_bind, Option.bind_some]

theorem readFrameMarker_of_ge (incoming : List (Option UInt8)) (h : 8 ≤ f.byteCount) :
    readFrameMarker f incoming = some ⟨success, f, incoming⟩ := by
  unfold readFrameMarker
  rw [if_neg (by omega)]

theorem readFrameMarker_nil (h : f.byteCount < 8) :
    readFrameMarker f [] = some ⟨incomplete, f, []⟩ := by
  rw [readFrameMarker, if_pos h]

theorem readFrameMarker_none (rest : List (Option UInt8)) (h : f.byteCount < 8) :
    readFrameMarker f (none :: rest) = some ⟨incomplete, f, rest⟩ := by
  rw [readFrameMarker, if_pos h]

theorem readFrameMarker_some (rest : List (Option UInt8)) (h : f.byteCount < 8)
    (hg : markerByte f b = some g) :
    readFrameMarker f (some b :: rest) = readFrameMarker g rest := by
  rw [readFrameMarker]
  simp only [if_pos h, hg, Option.bind_eq_bind, Option.bind_some]

end

section

variable [Build] {f : FrameArqT} {acc : List UInt8}

theorem readFrame_of_ge (incoming : List (Option UInt8)) (h : 8 ≤ f.byteCount) :
    readFrame f incoming = readFrameHeader ⟨success, f, incoming⟩ := by
  rw [readFrame, if_neg (by omega)]

/-- In the marker, one byte of `read_frame` is one turn of `read_frame_marker`. -/
theorem readFrame_marker {g : FrameArqT} {b : UInt8} (rest : List (Option UInt8))
    (h : f.byteCount < 8) (hg : markerByte f b = some g) :
    readFrame f (some b :: rest) = readFrame g rest := by
  rcases Nat.lt_or_ge g.byteCount 8 with hlt | hge
  · unfold readFrame
    rw [if_pos h, if_pos hlt, readFrameMarker_some rest h hg]
  · rw [readFrame_of_ge rest hge]
    rw [readFrame, if_pos h, readFrameMarker_some rest h hg, readFrameMarker_of_ge rest hge]
    rfl

/-- In the header, one byte of `read_frame` is one turn of its first loop. -/
theorem readFrame_header {g : FrameArqT} {b : UInt8} (rest : List (Option UInt8))
    (h8 : 8 ≤ f.byteCount) (h17 : f.byteCount < 17) (hg : f.append b = some g)
    (hcount : g.byteCount = f.byteCount + 1) :
    readFrame f (some b :: rest) = readFrame g rest := by
  rw [readFrame_of_ge _ h8, readFrame_of_ge rest (by omega)]
  unfold readFrameHeader
  rw [readUpTo_some rest (by rw [headerLength_eq]; exact h17) hg]

/-- Once the header is assembled, `read_frame` goes on with the payload. -/
theorem readFrame_of_header (incoming : List (Option UInt8)) (h : 17 ≤ f.byteCount) :
    readFrame f incoming = readFrameBody ⟨success, f, incoming⟩ := by
  rw [readFrame_of_ge incoming (by omega), readFrameHeader,
    readUpTo_of_ge incoming (by rw [headerLength_eq]; exact h)]
  rfl

/-- The size `read_frame` goes by is the length field of the assembled bytes. -/
theorem Holds.sizeFromFrame_eq (h : Holds f acc) (hlen : 17 ≤ acc.length) {v : UInt32}
    (hv : faRdU32 acc 9 = some v) : sizeFromFrame f = some v.toNat := by
  rw [sizeFromFrame, h.faRdU32_eq (by omega), hv]
  rfl

/-- The loop bound of the payload loop does not wrap. -/
theorem Holds.sizeT_eq (h : Holds f acc) {n : ℕ} (hn : n ≤ f.payloadMaxSize) :
    sizeT (headerLength + n) = 17 + n := by
  have := h.fits
  exact sizeT_of_lt (by rw [headerLength_eq]; omega)

/-- While the payload is incomplete, `read_frame` is its last loop. -/
theorem readFrame_payload (h : Holds f acc) (hlen : 17 ≤ acc.length) {v : UInt32}
    (hv : faRdU32 acc 9 = some v) (hM : v.toNat ≤ f.payloadMaxSize)
    (incoming : List (Option UInt8)) :
    readFrame f incoming = (readUpTo (17 + v.toNat) f incoming).bind fun r =>
      if r.res ≠ success then some r else readFrameCheck v.toNat r := by
  rw [readFrame_of_header incoming (by rw [h.count]; exact hlen)]
  simp only [readFrameBody, h.sizeFromFrame_eq hlen hv, Option.bind_eq_bind, Option.bind_some,
    if_neg (Nat.not_lt.mpr hM), h.sizeT_eq hM]

/-- **One byte**: in a pending state, a byte that is available is pushed, and `read_frame`
goes on from there. -/
theorem readFrame_push (h : Holds f acc) (hp : Pending f.payloadMaxSize acc) (b : UInt8)
    (rest : List (Option UInt8)) :
    ∃ g, readFrame f (some b :: rest) = readFrame g rest ∧ Holds g (pushByte acc b) ∧
      Moved f g := by
  have hcount := h.count
  rcases Nat.lt_or_ge acc.length 8 with h8 | h8
  · obtain ⟨g, hg, hold, hmove⟩ := markerByte_spec h hp.run h8 b
    exact ⟨g, readFrame_marker rest (by omega) hg, hold, hmove⟩
  · obtain ⟨g, hg, hold, hmove⟩ := append_spec h b (by rintro rfl; cases h8) hp.length_lt
    rw [pushByte_long h8]
    have hgcount : g.byteCount = f.byteCount + 1 := by
      rw [hold.count, hcount, List.length_append, List.length_singleton]
    refine ⟨g, ?_, hold, hmove⟩
    rcases Nat.lt_or_ge acc.length 17 with h17 | h17
    · exact readFrame_header rest (by omega) (by omega) hg hgcount
    · obtain ⟨v, hv, hM, hlt⟩ := hp.size h17
      have hv' : faRdU32 (acc ++ [b]) 9 = some v := by
        obtain ⟨m, s, u, w, body, hm, rfl⟩ := exists_fields h17
        rw [faRdU32_size hm] at hv
        rw [List.append_assoc, faRdU32_size hm, hv]
      rw [readFrame_payload h h17 hv hM,
        readFrame_payload hold (by rw [List.length_append]; omega) hv'
          (by rw [hmove.payloadMaxSize]; exact hM),
        readUpTo_some rest (by omega) hg]

/-- **Nothing available**: in a pending state `read_frame` reports an incomplete frame. -/
theorem readFrame_stall (h : Holds f acc) (hp : Pending f.payloadMaxSize acc)
    (rest : List (Option UInt8)) :
    readFrame f [] = some ⟨incomplete, f, []⟩ ∧
      readFrame f (none :: rest) = some ⟨incomplete, f, rest⟩ := by
  have hcount := h.count
  rcases Nat.lt_or_ge acc.length 8 with h8 | h8
  · have hlt : f.byteCount < 8 := by omega
    unfold readFrame
    rw [if_pos hlt, if_pos hlt, readFrameMarker_nil hlt, readFrameMarker_none rest hlt]
    exact ⟨rfl, rfl⟩
  · rcases Nat.lt_or_ge acc.length 17 with h17 | h17
    · have hlt : f.byteCount < headerLength := by rw [headerLength_eq]; omega
      rw [readFrame_of_ge _ (by omega), readFrame_of_ge _ (by omega)]
      unfold readFrameHeader
      rw [readUpTo_nil hlt, readUpTo_none rest hlt]
      exact ⟨rfl, rfl⟩
    · obtain ⟨v, hv, hM, hlt⟩ := hp.size h17
      rw [readFrame_payload h h17 hv hM, readFrame_payload h h17 hv hM,
        readUpTo_nil (by omega), readUpTo_none rest (by omega)]
      exact ⟨rfl, rfl⟩

/-- **A verdict**: when the assembled bytes decide something, `read_frame` returns at
once. -/
theorem readFrame_verdict (h : Holds f acc)
    (hlast : ∀ v, faRdU32 acc 9 = some v → acc.length ≤ 17 + v.toNat) {e : RxEvent}
    (he : verdict f.payloadMaxSize acc = some e) (incoming : List (Option UInt8)) :
    readFrame f incoming = some ⟨e.code, e.leave f, incoming⟩ := by
  have hlen : 17 ≤ acc.length := by
    by_contra hlt
    rw [verdict_of_short (by omega)] at he
    cases he
  have hcount := h.count
  obtain ⟨m, s, v, w, body, hm, hacc⟩ := exists_fields hlen
  have hv : faRdU32 acc 9 = some v := by rw [hacc, faRdU32_size hm]
  have hle := hlast v hv
  have hbody : acc.length = 17 + body.length := by
    rw [hacc, List.length_append, fields_length hm]
  rw [hacc, verdict_fields hm (by omega)] at he
  -- a length over the maximum returns before the payload is read
  by_cases hM : f.payloadMaxSize < v.toNat
  · rw [if_pos hM] at he
    obtain rfl := Option.some.inj he
    rw [readFrame_of_header incoming (by omega)]
    simp only [readFrameBody, h.sizeFromFrame_eq hlen hv, Option.bind_eq_bind,
      Option.bind_some, if_pos hM]
    rfl
  · rw [if_neg hM] at he
    by_cases hlt : body.length < v.toNat
    · rw [if_pos hlt] at he
      cases he
    · rw [if_neg hlt] at he
      have heq : v.toNat = body.length := by omega
      have hcrc : faFrameCrc f.readBuffer v.toNat = some (crcOf (s :: leBytes v) body) := by
        have := faFrameCrc_eq (s := s) (v := v) (w := w) (d := body) hm []
        rw [List.append_nil, ← hacc] at this
        rw [h.faFrameCrc_eq (by omega), heq, this]
      have hw : crcFromFrame f = some w := by
        rw [crcFromFrame, h.faRdU32_eq (by omega), hacc, faRdU32_crc hm]
      rw [readFrame_payload h hlen hv (by omega), readUpTo_of_ge incoming (by omega),
        Option.bind_some, if_neg (not_not.mpr rfl)]
      simp only [readFrameCheck, hw, hcrc, Option.bind_eq_bind, Option.bind_some]
      by_cases hbad : w ≠ crcOf (s :: leBytes v) body
      · rw [if_pos hbad] at he ⊢
        obtain rfl := Option.some.inj he
        rfl
      · rw [if_neg hbad] at he ⊢
        obtain rfl := Option.some.inj he
        rfl

/-! ## One call of `read_frame` -/

/-- What a call of `read_frame` that answers `o` leaves: nothing decided, and the buffer
holds the pending bytes `acc`; or a frame, and the buffer holds its encoding; or an error,
and the buffer is empty. -/
def Left (g : FrameArqT) (acc : List UInt8) : Option RxEvent → Prop
  | none => Holds g acc
  | some (.frame fr) =>
    acc = [] ∧ Holds g fr.encode ∧ fr.Fits g.payloadMaxSize
  | some _ => acc = [] ∧ Holds g []

/-- The value `read_frame` returns. -/
def readCode : Option RxEvent → Int
  | none => incomplete
  | some e => e.code

/-- **Refinement**: one call of `read_frame` is one `pump` of the decoder. -/
theorem readFrame_spec (h : Holds f acc) (hp : Pending f.payloadMaxSize acc)
    (incoming : List (Option UInt8)) :
    ∃ g, readFrame f incoming =
        some ⟨readCode ((receiver f.payloadMaxSize).pump acc incoming).1, g,
          ((receiver f.payloadMaxSize).pump acc incoming).2.2⟩ ∧
      Moved f g ∧
      Left g ((receiver f.payloadMaxSize).pump acc incoming).2.1
        ((receiver f.payloadMaxSize).pump acc incoming).1 ∧
      Pending f.payloadMaxSize ((receiver f.payloadMaxSize).pump acc incoming).2.1 := by
  -- byte by byte: each is assembled, and the loop goes on while nothing is decided
  induction incoming generalizing f acc with
  | nil => exact ⟨f, (readFrame_stall h hp []).1, Moved.refl f, h, hp⟩
  | cons o rest ih =>
    obtain _ | b := o
    · exact ⟨f, (readFrame_stall h hp rest).2, Moved.refl f, h, hp⟩
    · obtain ⟨g, hg, hold, hmove⟩ := readFrame_push h hp b rest
      have hmax := hmove.payloadMaxSize
      rcases hv : verdict f.payloadMaxSize (pushByte acc b) with _ | e
      · have hpump : (receiver f.payloadMaxSize).pump acc (some b :: rest) =
            (receiver f.payloadMaxSize).pump (pushByte acc b) rest := by
          simp only [Decoder.pump, receiver, hv]
        have hp' : Pending g.payloadMaxSize (pushByte acc b) := by
          rw [hmax]
          exact hp.push hv
        obtain ⟨k, hk, hmove', hleft, hpend⟩ := ih hold hp'
        rw [hmax] at hk hleft hpend
        rw [hpump, hg]
        exact ⟨k, hk, hmove.trans hmove', hleft, hpend⟩
      · have hpump : (receiver f.payloadMaxSize).pump acc (some b :: rest) =
            (some e, [], rest) := by
          simp only [Decoder.pump, receiver, hv]
        rw [hpump, hg, readFrame_verdict hold (fun _ hv => hp.length_push_le b hv)
          (by rw [hmax]; exact hv) rest]
        refine ⟨e.leave g, rfl, ?_, ?_, pending_nil _⟩
        · obtain ⟨_, _, _, rfl⟩ := hmove
          cases e <;> exact ⟨_, _, _, rfl⟩
        · cases e with
          | frame fr =>
            obtain ⟨henc, hfits⟩ := hp.encode_of_push hv
            exact ⟨rfl, henc ▸ hold, hmax ▸ hfits⟩
          | crcError => exact ⟨rfl, hold.clear⟩
          | overflow => exact ⟨rfl, hold.clear⟩

end

end HtcwFrameArq
