import HtcwFrameArq.Soundness

/-!
# Sizes near the limits

`frame_arq_create` takes any `max_payload_size`, and nothing checks it. `limits_iff` says which
ones are safe: those with `max_payload_size + 17 < 2^31`. Above, put can send a frame that its
`int` loop counter does not reach; further above, the size of the two buffers wraps, and they
are smaller than a header.
-/

namespace HtcwFrameArq

open Memory

section

variable [Build]

/-- A controller for payloads of up to `M` bytes keeps within the limits of its machine. -/
structure WithinLimits (M : ℕ) (f : FrameArqT) : Prop where
  /-- no call uses an index outside a buffer or overflows its `int` counter -/
  defined : ∀ (t : Transport) (calls : List Call),
    ∃ outs e, Endpoint.run ⟨f, t⟩ calls = some (outs, e)
  /-- the sum of create (of `M`) and those of the parser and of put (of a size up to `M`) do
  not wrap -/
  sums : ∀ n ≤ M, sizeT (headerLength + n) = headerLength + n
  /-- the length field that put writes is the size of the payload -/
  length : ∀ (t : Transport) (calls : List Call) (outs : List Outcome) (e : Endpoint)
    (cmd : UInt8) (payload : Payload) (o : Outcome) (e' : Endpoint),
    Endpoint.run ⟨f, t⟩ calls = some (outs, e) → Accepts e.frame cmd payload.size →
    e.exec (.put cmd payload) = some (o, e') →
    ∃ v, faRdU32 e'.frame.retainBuffer 9 = some v ∧ v.toNat = payload.size

/-- The length field of an accepted message. -/
theorem Ok.length_field {e e' : Endpoint} (h : Ok e.frame) {cmd : UInt8} {payload : Payload}
    {o : Outcome} (hacc : Accepts e.frame cmd payload.size) (hlt : payload.size < 2 ^ 32)
    (hs : e.exec (.put cmd payload) = some (o, e')) :
    ∃ v, faRdU32 e'.frame.retainBuffer 9 = some v ∧ v.toNat = payload.size := by
  obtain ⟨acc, hold, hp⟩ := h.rx
  obtain ⟨hcall, acc', hperf⟩ := h.performs hold hp hs
  rcases hperf.of_put hcall with ⟨hnot, -⟩ | ⟨-, -, ret, written, t', hw, -, rfl⟩
  · exact absurd hacc hnot
  · have hbody : (e.frame.putFrame cmd payload.pointer payload.size).payload.length =
        payload.size :=
      putBody_length (by rw [h.retain]; have := hacc.2.2.1; omega) payload.size_le
    refine ⟨(e.frame.putFrame cmd payload.pointer payload.size).size, ?_, ?_⟩
    · rw [FrameArqT.sent, Frame.encode, List.append_assoc]
      exact faRdU32_size List.length_replicate
    · rw [Frame.size_toNat (by rw [hbody]; exact hlt), hbody]

/-- Below the bound the buffers are as large as documented. -/
theorem frameArqCreate_eq {M : ℕ} {readCb writeCb : Ptr} {rx tx : Malloc} {state : Ptr}
    (hrx : rx.Exact) (htx : tx.Exact) (hfits : M + 17 < 2 ^ Build.sizeBits) {f : FrameArqT}
    (h : frameArqCreate M readCb writeCb rx tx state = some f) :
    ∃ s : Storage, s.payloadMaxSize = M ∧ f = s.create := by
  rw [frameArqCreate] at h
  by_cases hcb : readCb = .null ∨ writeCb = .null
  · rw [if_pos hcb] at h
    cases h
  rw [if_neg hcb] at h
  obtain ⟨rxBuffer, hrxBuffer, h⟩ := Option.bind_eq_some_iff.mp h
  obtain ⟨txBuffer, htxBuffer, h⟩ := Option.bind_eq_some_iff.mp h
  by_cases hstate : state = .null
  · rw [if_pos hstate] at h
    cases h
  rw [if_neg hstate] at h
  obtain rfl := Option.some.inj h
  have hsum : sizeT (M + headerLength) = M + 17 := sizeT_of_lt hfits
  refine ⟨⟨M, rxBuffer, txBuffer, ?_, ?_, hfits⟩, rfl, rfl⟩
  · rw [hrx _ _ hrxBuffer, hsum]
  · rw [htx _ _ htxBuffer, hsum]

/-- **Sizes near the limits.** For every maximum that `frame_arq_create` can be given: whatever
`malloc` answers, the controllers it returns keep within the limits, in every sequence of calls,
exactly when the maximum and a header together are below `2^31`. -/
theorem limits_iff {M : ℕ} (hM : M < 2 ^ Build.sizeBits) :
    (∀ (readCb writeCb : Ptr) (rx tx : Malloc) (state : Ptr) (f : FrameArqT), rx.Exact → tx.Exact →
      frameArqCreate M readCb writeCb rx tx state = some f → WithinLimits M f) ↔
      M + 17 < 2 ^ 31 := by
  have hbits : 2 ^ 32 ≤ 2 ^ Build.sizeBits :=
    Nat.pow_le_pow_right (by decide) Build.sizeBits_ge
  constructor
  · intro h
    let zeroes : Malloc := fun n => some (List.replicate n 0)
    have hexact : zeroes.Exact := by
      intro n block hblock
      rw [← Option.some.inj hblock, List.length_replicate]
    have hlimits := h .valid .valid zeroes zeroes .valid _ hexact hexact rfl
    -- the sum of create does not wrap, so the buffers are as large as documented
    have hfits : M + 17 < 2 ^ Build.sizeBits := by
      have hsum := hlimits.sums M (Nat.le_refl M)
      have hlt : sizeT (headerLength + M) < 2 ^ Build.sizeBits :=
        Nat.mod_lt _ (Nat.two_pow_pos _)
      rw [hsum, headerLength_eq] at hlt
      omega
    obtain ⟨s, hs, hf⟩ := frameArqCreate_eq hexact hexact hfits
      (show frameArqCreate M .valid .valid zeroes zeroes .valid = some _ from rfl)
    rw [hf] at hlimits
    -- a put of the largest size sends as many bytes as its counter can count
    obtain ⟨outs, e, hrun⟩ := hlimits.defined ⟨[], [], []⟩ [.put 1 (.null M)]
    obtain ⟨o, e₁, outs', hput, -, -⟩ := Runs.run_cons_eq_some hrun
    obtain ⟨r, hr, -⟩ := Endpoint.exec_eq_some hput
    have hacc : Accepts s.create 1 M := ⟨by decide, by decide, Nat.le_of_eq hs.symm, rfl⟩
    exact frameArqPut_size_lt hacc s.create_ok.retain s.create_ok.fits (Payload.size_le (.null M))
      (.of_nil rfl) (Option.isSome_iff_exists.mpr ⟨r, hr⟩)
  · intro hint readCb writeCb rx tx state f hrx htx hcreate
    obtain ⟨s, rfl, rfl⟩ := frameArqCreate_eq hrx htx (by omega) hcreate
    have hok := s.create_ok
    refine ⟨?_, ?_, ?_⟩
    · intro t calls
      obtain ⟨outs, e, hrun, -⟩ := Ok.run (e := ⟨s.create, t⟩) hok hint calls
      exact ⟨outs, e, hrun⟩
    · intro n hn
      apply sizeT_of_lt
      rw [headerLength_eq]
      omega
    · intro t calls outs e cmd payload o e' hrun hacc hput
      obtain ⟨hok', hmax⟩ := run_ok (e := ⟨s.create, t⟩) hok hrun
      have hmax' : e.frame.payloadMaxSize = s.payloadMaxSize := hmax
      exact hok'.length_field hacc (by have := hacc.2.2.1; omega) hput

end

theorem limits_iff_one :
    letI : Build := build32
    ∃ f, frameArqCreate 1 .valid .valid (fun n => some (List.replicate n 0))
        (fun n => some (List.replicate n 0)) .valid = some f ∧ WithinLimits 1 f := by
  let _ : Build := build32
  have hexact : Malloc.Exact fun n => some (List.replicate n 0) := by
    intro n block hblock
    rw [← Option.some.inj hblock, List.length_replicate]
  have hsafe := (limits_iff (M := 1) (by decide)).mpr (by decide)
  exact ⟨_, rfl, hsafe .valid .valid _ _ .valid _ hexact hexact rfl⟩

/-- Where `size_t` has 32 bits, 17 bytes below its range the buffers are empty, and the first
put writes outside them. -/
theorem create_wraps :
    letI : Build := build32
    ∃ (rx tx : Malloc) (f : FrameArqT), rx.Exact ∧ tx.Exact ∧
      frameArqCreate (2 ^ 32 - 17) .valid .valid rx tx .valid = some f ∧
      f.retainBuffer = [] ∧ Endpoint.run ⟨f, ⟨[], [], []⟩⟩ [.put 1 (.bytes [])] = none ∧
      ¬ WithinLimits (2 ^ 32 - 17) f := by
  let _ : Build := build32
  have hexact : Malloc.Exact fun n => some (List.replicate n 0) := by
    intro n block hblock
    rw [← Option.some.inj hblock, List.length_replicate]
  have hundefined : Endpoint.run ⟨faInitState (2 ^ 32 - 17) [] [], ⟨[], [], []⟩⟩
      [.put 1 (.bytes [])] = none := by
    decide +kernel
  refine ⟨_, _, faInitState (2 ^ 32 - 17) [] [], hexact, hexact, by decide +kernel, rfl, hundefined,
    ?_⟩
  intro h
  obtain ⟨outs, e, hrun⟩ := h.defined ⟨[], [], []⟩ [.put 1 (.bytes [])]
  rw [hundefined] at hrun
  cases hrun

end HtcwFrameArq
