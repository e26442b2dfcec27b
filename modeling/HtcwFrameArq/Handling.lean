import HtcwFrameArq.Receiver

/-!
# What each operation does

One specification lemma per function of the API, over every transport:

* `frameArqGet_spec` — one `pump` of the receiver, and the reaction of the ARQ fields to
  what it found (`Arq.react`);
* `frameArqPut_rejected`, `frameArqPut_accepted` — the two outcomes of a put;
* `frameArqResend_idle`, `frameArqResend_outstanding` — the two outcomes of a resend.

Later modules cite these and never unfold the functions.
-/

namespace HtcwFrameArq

open Memory

/-! ## Writing to the transport -/

namespace Transport

/-- The write callback refuses no byte from here on: none of its results is negative. -/
def Succeeds (t : Transport) : Prop := ∀ r ∈ t.results, 0 ≤ r

instance (t : Transport) : Decidable t.Succeeds := inferInstanceAs (Decidable (∀ r ∈ _, 0 ≤ r))

theorem Succeeds.of_nil {t : Transport} (h : t.results = []) : t.Succeeds := by
  intro r hr
  rw [h] at hr
  cases hr

/-- Write `bs` until the write callback refuses a byte. -/
def writeAll : List UInt8 → Transport → Int × Transport
  | [], t => (success, t)
  | b :: bs, t => if (t.writeCb b).1 < 0 then t.writeCb b else writeAll bs (t.writeCb b).2

/-- Write a reply, if there is one. The code ignores whether that succeeds. -/
def reply [Build] (t : Transport) : Option Frame → Transport
  | none => t
  | some f => (t.writeAll f.encode).2

theorem writeCb_incoming (t : Transport) (b : UInt8) :
    (t.writeCb b).2.incoming = t.incoming := by
  rw [writeCb]
  cases t.results <;> rfl

theorem writeCb_written (t : Transport) (b : UInt8) :
    (t.writeCb b).2.written = if (t.writeCb b).1 < 0 then t.written else t.written ++ [b] := by
  rw [writeCb]
  cases t.results <;> rfl

/-- A byte is refused with the next result. -/
theorem writeCb_refused {t : Transport} {b : UInt8} (h : (t.writeCb b).1 < 0) :
    t.results[0]? = some (t.writeCb b).1 := by
  rw [writeCb] at h ⊢
  rcases hres : t.results with _ | ⟨r, rest⟩
  · rw [hres] at h
    cases h
  · rfl

theorem writeCb_results (t : Transport) (b : UInt8) :
    (t.writeCb b).2.results = t.results.tail := by
  rw [writeCb]
  cases t.results <;> rfl

theorem Succeeds.writeCb {t : Transport} (h : t.Succeeds) (b : UInt8) :
    ¬ (t.writeCb b).1 < 0 ∧ (t.writeCb b).2.Succeeds := by
  refine ⟨?_, ?_⟩
  · intro hneg
    have hpos := h _ (List.mem_of_getElem? (writeCb_refused hneg))
    omega
  · intro r hr
    rw [writeCb_results] at hr
    exact h r (List.mem_of_mem_tail hr)

@[simp] theorem writeAll_incoming (bs : List UInt8) (t : Transport) :
    (t.writeAll bs).2.incoming = t.incoming := by
  induction bs generalizing t with
  | nil => rfl
  | cons b bs ih =>
    rw [writeAll]
    by_cases h : (t.writeCb b).1 < 0
    · rw [if_pos h]
      exact writeCb_incoming t b
    · rw [if_neg h, ih, writeCb_incoming]

/-- The written bytes grow by a prefix of what was to be written, by all of it if the loop
returns success; otherwise the returned value is the callback's, and negative. -/
theorem writeAll_written (bs : List UInt8) (t : Transport) :
    ∃ pre, pre <+: bs ∧ (t.writeAll bs).2.written = t.written ++ pre ∧
      ((t.writeAll bs).1 = success ∧ pre = bs ∨ (t.writeAll bs).1 < 0) := by
  induction bs generalizing t with
  | nil => exact ⟨[], List.prefix_refl [], by simp [writeAll], Or.inl ⟨rfl, rfl⟩⟩
  | cons b bs ih =>
    rw [writeAll]
    have hw := writeCb_written t b
    by_cases h : (t.writeCb b).1 < 0
    · rw [if_pos h] at hw ⊢
      exact ⟨[], List.nil_prefix, by rw [hw, List.append_nil], Or.inr h⟩
    · rw [if_neg h] at hw ⊢
      obtain ⟨pre, hpre, hwritten, hret⟩ := ih (t.writeCb b).2
      refine ⟨b :: pre, (List.prefix_append_right_inj [b]).mpr hpre, ?_, ?_⟩
      · rw [hwritten, hw, List.append_assoc, List.singleton_append]
      · rcases hret with ⟨hret, rfl⟩ | hret
        · exact Or.inl ⟨hret, rfl⟩
        · exact Or.inr hret

theorem writeAll_ret (bs : List UInt8) (t : Transport) :
    (t.writeAll bs).1 = success ∨ (t.writeAll bs).1 < 0 := by
  obtain ⟨_, -, -, ⟨h, -⟩ | h⟩ := writeAll_written bs t
  · exact Or.inl h
  · exact Or.inr h

/-- A transport whose writes succeed takes every byte. -/
theorem writeAll_ok (bs : List UInt8) {t : Transport} (h : t.Succeeds) :
    (t.writeAll bs).1 = success ∧ (t.writeAll bs).2.written = t.written ++ bs ∧
      (t.writeAll bs).2.Succeeds := by
  induction bs generalizing t with
  | nil => exact ⟨rfl, (List.append_nil _).symm, h⟩
  | cons b bs ih =>
    obtain ⟨hpos, hnext⟩ := h.writeCb b
    obtain ⟨hret, hwritten, hsucceeds⟩ := ih hnext
    rw [writeAll, if_neg hpos]
    refine ⟨hret, ?_, hsucceeds⟩
    rw [hwritten, writeCb_written, if_neg hpos, List.append_assoc]
    rfl

/-- A write that fails returns the result with which the callback refused the byte after those
it took. -/
theorem writeAll_refused (bs : List UInt8) {t : Transport} (h : (t.writeAll bs).1 < 0) :
    ∃ pre b, pre ++ [b] <+: bs ∧ (t.writeAll bs).2.written = t.written ++ pre ∧
      t.results[pre.length]? = some (t.writeAll bs).1 := by
  induction bs generalizing t with
  | nil => cases h
  | cons b bs ih =>
    rw [writeAll] at h ⊢
    have hw := writeCb_written t b
    by_cases hneg : (t.writeCb b).1 < 0
    · rw [if_pos hneg] at hw ⊢
      exact ⟨[], b, by simp, by rw [hw, List.append_nil], writeCb_refused hneg⟩
    · rw [if_neg hneg] at h hw ⊢
      obtain ⟨pre, c, hpre, hwritten, hres⟩ := ih h
      refine ⟨b :: pre, c, (List.prefix_append_right_inj [b]).mpr hpre, ?_, ?_⟩
      · rw [hwritten, hw, List.append_assoc, List.singleton_append]
      · rw [writeCb_results, List.getElem?_tail] at hres
        exact hres

@[simp] theorem reply_incoming [Build] (t : Transport) (f : Option Frame) :
    (t.reply f).incoming = t.incoming := by
  cases f with
  | none => rfl
  | some f => exact writeAll_incoming _ _

end Transport

/-- The write loop, as long as its counter does not overflow. -/
theorem streamOut_eq {m : ℕ} {p : List UInt8} {i n : ℕ} (hp : i + n ≤ p.length)
    (hmax : i + n ≤ m) (t : Transport) :
    streamOut m p i n t = some (t.writeAll ((p.drop i).take n)) := by
  induction n generalizing i t with
  | zero => simp [streamOut, Transport.writeAll]
  | succ n ih =>
    have hi : i < p.length := by omega
    have hdrop : (p.drop i).take (n + 1) = p[i] :: (p.drop (i + 1)).take n := by
      rw [List.drop_eq_getElem_cons hi, List.take_succ_cons]
    have hload : load p i = some p[i] := List.getElem?_eq_getElem hi
    rw [streamOut, hload, hdrop, Transport.writeAll]
    simp only [Option.bind_eq_bind, Option.bind_some]
    by_cases hneg : (t.writeCb p[i]).1 < 0
    · rw [if_pos hneg, if_pos hneg]
    · rw [if_neg hneg, if_neg hneg, if_neg (by omega), ih (by omega) (by omega)]

/-- A write loop that is defined writes what `writeAll` writes. -/
theorem streamOut_some {m : ℕ} {p : List UInt8} {i n : ℕ} {t : Transport}
    {r : Int × Transport} (hp : i + n ≤ p.length) (h : streamOut m p i n t = some r) :
    r = t.writeAll ((p.drop i).take n) := by
  induction n generalizing i t with
  | zero => simpa [streamOut, Transport.writeAll] using h.symm
  | succ n ih =>
    have hi : i < p.length := by omega
    have hload : load p i = some p[i] := List.getElem?_eq_getElem hi
    rw [List.drop_eq_getElem_cons hi, List.take_succ_cons, Transport.writeAll]
    rw [streamOut, hload] at h
    simp only [Option.bind_eq_bind, Option.bind_some] at h
    by_cases hneg : (t.writeCb p[i]).1 < 0
    · rw [if_pos hneg] at h ⊢
      exact (Option.some.inj h).symm
    · rw [if_neg hneg] at h ⊢
      by_cases hmax : m ≤ i
      · rw [if_pos hmax] at h
        cases h
      · rw [if_neg hmax] at h
        exact ih (by omega) h

/-- A loop that goes past the largest value of its counter, all writes succeeding, is
undefined. -/
theorem streamOut_overflow {m : ℕ} {p : List UInt8} {i n : ℕ}
    (hp : i + n ≤ p.length) (hi : i ≤ m) (hmax : m < i + n) {t : Transport}
    (ht : t.Succeeds) : streamOut m p i n t = none := by
  induction n generalizing i t with
  | zero => omega
  | succ n ih =>
    have hload : load p i = some p[i] := List.getElem?_eq_getElem (by omega)
    obtain ⟨hpos, hnext⟩ := ht.writeCb p[i]
    rw [streamOut, hload]
    simp only [Option.bind_eq_bind, Option.bind_some, if_neg hpos]
    by_cases hlast : m ≤ i
    · rw [if_pos hlast]
    · rw [if_neg hlast]
      exact ih (by omega) (by omega) (by omega) hnext

/-- `fa_write_control` writes the control frame, whatever the transport answers. -/
theorem faWriteControl_spec [Build] (type seq : UInt8) (t : Transport) :
    faWriteControl type seq t = some (t.writeAll (controlFrame type seq).encode) := by
  have hlen : (controlFrame type seq).encode.length = headerLength := Frame.encode_length _
  rw [faWriteControl_eq, streamOut_eq (by omega) (by rw [headerLength_eq]; decide),
    List.drop_zero, ← hlen, List.take_length]

/-! ## The ARQ fields -/

/-- The fields of the controller that the protocol is about. -/
structure Arq where
  txSeq : UInt8
  expectedRxSeq : UInt8
  awaitingAck : Bool
  resendNeeded : Bool
  deriving DecidableEq

/-- What a call of `frame_arq_get` does besides reading: the value it returns, the payload
it delivers, the control frame it writes, the ARQ fields it leaves. -/
structure Reaction where
  ret : Int
  out : Option (List UInt8)
  reply : Option Frame
  arq : Arq
  deriving DecidableEq

namespace Arq

/-- The frame handling of `frame_arq_get`. -/
def handle (a : Arq) (f : Frame) : Reaction :=
  let type := faTypeOf f.seqByte
  let seq := faSeqOf f.seqByte
  if f.marker = faCtrlMarker ∨ type ≠ faTypeData then
    if type = faTypeAck then
      if a.awaitingAck ∧ seq = a.txSeq then
        ⟨success, none, none, { a with awaitingAck := false, resendNeeded := false }⟩
      else ⟨success, none, none, a⟩
    else if type = faTypeNack then
      if a.awaitingAck then ⟨resendNeededCode, none, none, { a with resendNeeded := true }⟩
      else ⟨success, none, none, a⟩
    else ⟨success, none, none, a⟩
  else if seq = a.expectedRxSeq then
    ⟨(f.marker.toNat : Int) - 128, some f.payload, some (controlFrame faTypeAck seq),
      { a with expectedRxSeq := (seq + 1) &&& faSeqMask }⟩
  else if seq = (a.expectedRxSeq - 1) &&& faSeqMask then
    ⟨success, none, some (controlFrame faTypeAck seq), a⟩
  else ⟨success, none, some (controlFrame faTypeNack a.expectedRxSeq), a⟩

/-- The reaction to what the parser found, if it found anything. -/
def react (a : Arq) : Option RxEvent → Reaction
  | none => ⟨success, none, none, a⟩
  | some (.frame f) => a.handle f
  | some .crcError => ⟨errorCrc, none, some (controlFrame faTypeNack a.expectedRxSeq), a⟩
  | some .overflow => ⟨errorOverflow, none, none, a⟩

end Arq

/-- A DATA frame, as the frame handling tells it from a control frame. -/
def Frame.IsData (f : Frame) : Prop :=
  f.marker ≠ faCtrlMarker ∧ faTypeOf f.seqByte = faTypeData

instance (f : Frame) : Decidable f.IsData := inferInstanceAs (Decidable (_ ∧ _))

/-- The branches of the frame handling: what each one is taken for, and what it does. -/
inductive Handles (a : Arq) (f : Frame) : Reaction → Prop where
  | acked (hack : faTypeOf f.seqByte = faTypeAck) (hwait : a.awaitingAck = true)
      (hseq : faSeqOf f.seqByte = a.txSeq) :
      Handles a f
        ⟨success, none, none, { a with awaitingAck := false, resendNeeded := false }⟩
  | nacked (hnack : faTypeOf f.seqByte = faTypeNack) (hwait : a.awaitingAck = true) :
      Handles a f ⟨resendNeededCode, none, none, { a with resendNeeded := true }⟩
  | ignored (hctrl : ¬ f.IsData)
      (hack : ¬ (faTypeOf f.seqByte = faTypeAck ∧ a.awaitingAck = true ∧
        faSeqOf f.seqByte = a.txSeq))
      (hnack : ¬ (faTypeOf f.seqByte = faTypeNack ∧ a.awaitingAck = true)) :
      Handles a f ⟨success, none, none, a⟩
  | delivered (hdata : f.IsData) (hseq : faSeqOf f.seqByte = a.expectedRxSeq) :
      Handles a f
        ⟨(f.marker.toNat : Int) - 128, some f.payload,
          some (controlFrame faTypeAck (faSeqOf f.seqByte)),
          { a with expectedRxSeq := (faSeqOf f.seqByte + 1) &&& faSeqMask }⟩
  | duplicate (hdata : f.IsData) (hseq : faSeqOf f.seqByte ≠ a.expectedRxSeq)
      (hprev : faSeqOf f.seqByte = (a.expectedRxSeq - 1) &&& faSeqMask) :
      Handles a f ⟨success, none, some (controlFrame faTypeAck (faSeqOf f.seqByte)), a⟩
  | unexpected (hdata : f.IsData) (hseq : faSeqOf f.seqByte ≠ a.expectedRxSeq)
      (hprev : faSeqOf f.seqByte ≠ (a.expectedRxSeq - 1) &&& faSeqMask) :
      Handles a f ⟨success, none, some (controlFrame faTypeNack a.expectedRxSeq), a⟩

/-- The frame handling takes exactly one of these branches. -/
theorem Arq.handles (a : Arq) (f : Frame) : Handles a f (a.handle f) := by
  rw [Arq.handle]
  by_cases hctrl : f.marker = faCtrlMarker ∨ faTypeOf f.seqByte ≠ faTypeData
  · have hdata : ¬ f.IsData := by
      intro h
      exact hctrl.elim h.1 (fun ht => ht h.2)
    rw [if_pos hctrl]
    -- control frames: an ACK, a NACK or neither
    by_cases hack : faTypeOf f.seqByte = faTypeAck
    · have hnack : ¬ (faTypeOf f.seqByte = faTypeNack ∧ a.awaitingAck = true) := by
        rw [hack]
        rintro ⟨h, -⟩
        exact absurd h (by decide)
      rw [if_pos hack]
      by_cases hmine : a.awaitingAck ∧ faSeqOf f.seqByte = a.txSeq
      · rw [if_pos hmine]
        exact .acked hack hmine.1 hmine.2
      · rw [if_neg hmine]
        exact .ignored hdata (fun h => hmine h.2) hnack
    · rw [if_neg hack]
      by_cases hnack : faTypeOf f.seqByte = faTypeNack
      · rw [if_pos hnack]
        by_cases hwait : a.awaitingAck
        · rw [if_pos hwait]
          exact .nacked hnack hwait
        · rw [if_neg hwait]
          exact .ignored hdata (fun h => hack h.1) (fun h => hwait h.2)
      · rw [if_neg hnack]
        exact .ignored hdata (fun h => hack h.1) (fun h => hnack h.1)
  · have hdata : f.IsData := by
      rw [not_or, not_not] at hctrl
      exact hctrl
    rw [if_neg hctrl]
    -- DATA frames: the next, the last one again, or another
    by_cases hexp : faSeqOf f.seqByte = a.expectedRxSeq
    · rw [if_pos hexp]
      exact .delivered hdata hexp
    · rw [if_neg hexp]
      by_cases hdup : faSeqOf f.seqByte = (a.expectedRxSeq - 1) &&& faSeqMask
      · rw [if_pos hdup]
        exact .duplicate hdata hexp hdup
      · rw [if_neg hdup]
        exact .unexpected hdata hexp hdup

section

variable {a : Arq} {f : Frame}

theorem Arq.handle_delivered (hdata : f.IsData) (hseq : faSeqOf f.seqByte = a.expectedRxSeq) :
    a.handle f = ⟨(f.marker.toNat : Int) - 128, some f.payload,
      some (controlFrame faTypeAck (faSeqOf f.seqByte)),
      { a with expectedRxSeq := (faSeqOf f.seqByte + 1) &&& faSeqMask }⟩ := by
  have hctrl : ¬ (f.marker = faCtrlMarker ∨ faTypeOf f.seqByte ≠ faTypeData) :=
    not_or.mpr ⟨hdata.1, not_not.mpr hdata.2⟩
  rw [Arq.handle]
  simp only [if_neg hctrl, if_pos hseq]

theorem Arq.handle_duplicate (hdata : f.IsData) (hseq : faSeqOf f.seqByte ≠ a.expectedRxSeq)
    (hprev : faSeqOf f.seqByte = (a.expectedRxSeq - 1) &&& faSeqMask) :
    a.handle f =
      ⟨success, none, some (controlFrame faTypeAck (faSeqOf f.seqByte)), a⟩ := by
  have hctrl : ¬ (f.marker = faCtrlMarker ∨ faTypeOf f.seqByte ≠ faTypeData) :=
    not_or.mpr ⟨hdata.1, not_not.mpr hdata.2⟩
  rw [Arq.handle]
  simp only [if_neg hctrl, if_neg hseq, if_pos hprev]

theorem Arq.handle_unexpected (hdata : f.IsData) (hseq : faSeqOf f.seqByte ≠ a.expectedRxSeq)
    (hprev : faSeqOf f.seqByte ≠ (a.expectedRxSeq - 1) &&& faSeqMask) :
    a.handle f = ⟨success, none, some (controlFrame faTypeNack a.expectedRxSeq), a⟩ := by
  have hctrl : ¬ (f.marker = faCtrlMarker ∨ faTypeOf f.seqByte ≠ faTypeData) :=
    not_or.mpr ⟨hdata.1, not_not.mpr hdata.2⟩
  rw [Arq.handle]
  simp only [if_neg hctrl, if_neg hseq, if_neg hprev]

/-- What the frame handling returns: nothing of note, that the peer asks for a resend, or the
command of a DATA frame. -/
theorem Arq.handle_ret (a : Arq) (f : Frame) :
    (a.handle f).ret = success ∨ (a.handle f).ret = resendNeededCode ∨
      (a.handle f).ret = (f.marker.toNat : Int) - 128 := by
  have hcases := a.handles f
  generalize a.handle f = r at hcases
  cases hcases with
  | nacked => exact Or.inr (Or.inl rfl)
  | delivered => exact Or.inr (Or.inr rfl)
  | acked => exact Or.inl rfl
  | ignored => exact Or.inl rfl
  | duplicate => exact Or.inl rfl
  | unexpected => exact Or.inl rfl

/-- The frame handling reports neither a CRC failure nor an overflow. -/
theorem Arq.handle_noError (hmark : 128 ≤ f.marker) :
    (a.handle f).ret ≠ errorCrc ∧ (a.handle f).ret ≠ errorOverflow := by
  have hle : 128 ≤ f.marker.toNat := UInt8.le_iff_toNat_le.mp hmark
  rcases a.handle_ret f with h | h | h
  · rw [h]
    decide
  · rw [h]
    decide
  · rw [h, errorCrc, errorOverflow]
    refine ⟨?_, ?_⟩
    · intro heq
      omega
    · intro heq
      omega

/-- A control frame is not answered and does not concern the receiving half. -/
theorem Arq.handle_control (hctrl : ¬ f.IsData) :
    (a.handle f).ret ≤ 0 ∧ (a.handle f).reply = none ∧
      (a.handle f).arq.expectedRxSeq = a.expectedRxSeq := by
  have hcases := a.handles f
  generalize a.handle f = r at hcases
  cases hcases with
  | acked => exact ⟨Int.le_refl 0, rfl, rfl⟩
  | nacked => exact ⟨show resendNeededCode ≤ 0 by decide, rfl, rfl⟩
  | ignored => exact ⟨Int.le_refl 0, rfl, rfl⟩
  | delivered hdata => exact absurd hdata hctrl
  | duplicate hdata => exact absurd hdata hctrl
  | unexpected hdata => exact absurd hdata hctrl

/-- A frame that is not an ACK leaves the wait for one as it is. -/
theorem Arq.handle_not_ack (hack : faTypeOf f.seqByte ≠ faTypeAck) :
    (a.handle f).arq.awaitingAck = a.awaitingAck := by
  have hcases := a.handles f
  generalize a.handle f = r at hcases
  cases hcases with
  | acked h => exact absurd h hack
  | nacked => rfl
  | ignored => rfl
  | delivered => rfl
  | duplicate => rfl
  | unexpected => rfl

/-- An ACK ends the wait exactly when it carries the outstanding sequence number. -/
theorem Arq.handle_ack (hack : faTypeOf f.seqByte = faTypeAck) :
    (a.handle f).ret = success ∧ (a.handle f).reply = none ∧
      (a.handle f).arq.awaitingAck =
        (a.awaitingAck && !decide (faSeqOf f.seqByte = a.txSeq)) := by
  have hcases := a.handles f
  generalize a.handle f = r at hcases
  have hne {type : UInt8} (h : faTypeOf f.seqByte = type) : type = faTypeAck := h.symm.trans hack
  cases hcases with
  | acked _ hwait hseq => exact ⟨rfl, rfl, by simp [hseq]⟩
  | nacked h => exact absurd (hne h) (by decide)
  | ignored hctrl hno hnack =>
    refine ⟨rfl, rfl, ?_⟩
    rcases Bool.eq_false_or_eq_true a.awaitingAck with hwait | hwait
    · have hseq : faSeqOf f.seqByte ≠ a.txSeq := by
        intro h
        exact hno ⟨hack, hwait, h⟩
      simp [hwait, hseq]
    · simp [hwait]
  | delivered h => exact absurd (hne h.2) (by decide)
  | duplicate h => exact absurd (hne h.2) (by decide)
  | unexpected h => exact absurd (hne h.2) (by decide)

end

namespace FrameArqT

/-- The ARQ fields of a controller. -/
def arq (f : FrameArqT) : Arq :=
  ⟨f.txSeq, f.expectedRxSeq, f.awaitingAck, f.resendNeeded⟩

/-- Replace the ARQ fields. -/
def setArq (f : FrameArqT) (a : Arq) : FrameArqT :=
  { f with
    txSeq := a.txSeq, expectedRxSeq := a.expectedRxSeq, awaitingAck := a.awaitingAck,
    resendNeeded := a.resendNeeded }

end FrameArqT

theorem Holds.setArq [Build] {f : FrameArqT} {acc : List UInt8} (h : Holds f acc)
    (a : Arq) : Holds (f.setArq a) acc :=
  h.of_eq rfl rfl rfl rfl

/-- The fields of the encoding of a frame, as the code reads them out of the buffer. -/
theorem Holds.frame_fields [Build] {f : FrameArqT} {fr : Frame} (h : Holds f fr.encode)
    (hlen : fr.payload.length < 2 ^ 32) :
    load f.readBuffer 0 = some fr.marker ∧ load f.readBuffer 8 = some fr.seqByte ∧
      sizeFromFrame f = some fr.payload.length ∧
      slice f.readBuffer headerLength fr.payload.length = some fr.payload := by
  have hm : (List.replicate 8 fr.marker).length = 8 := List.length_replicate
  have henc : fr.encode.length = 17 + fr.payload.length := fr.encode_length
  refine ⟨?_, ?_, ?_, ?_⟩
  · rw [h.load_eq (by omega)]
    rfl
  · rw [h.load_eq (by omega), Frame.encode, load_seq hm]
  · have hrd : faRdU32 fr.encode 9 = some fr.size := faRdU32_size hm
    rw [h.sizeFromFrame_eq (by omega) hrd, Frame.size_toNat hlen]
  · rw [h.slice_eq (by rw [headerLength_eq]; omega)]
    have := slice_body (s := fr.seqByte) (v := fr.size) (w := fr.crc) (d := fr.payload) hm []
    rwa [List.append_nil] at this

/-- **The frame handling** of the code is `Arq.handle`. -/
theorem handleFrame_spec [Build] {f : FrameArqT} {fr : Frame} (h : Holds f fr.encode)
    (hlen : fr.payload.length < 2 ^ 32) (t : Transport) :
    handleFrame f t =
      some ⟨(f.arq.handle fr).ret, (f.arq.handle fr).out,
        ({ f with byteCount := 0 }).setArq (f.arq.handle fr).arq,
        t.reply (f.arq.handle fr).reply⟩ := by
  obtain ⟨hmarker, hseq, hsize, hbody⟩ := h.frame_fields hlen
  unfold handleFrame Arq.handle
  rw [hmarker, hseq]
  simp only [Option.bind_eq_bind, Option.bind_some, hsize, hbody, faWriteControl_spec]
  -- the two sides branch on the same conditions
  by_cases hctrl : fr.marker = faCtrlMarker ∨ faTypeOf fr.seqByte ≠ faTypeData
  · rw [if_pos hctrl, if_pos hctrl]
    by_cases hack : faTypeOf fr.seqByte = faTypeAck
    · rw [if_pos hack, if_pos hack]
      by_cases hmine : f.awaitingAck ∧ faSeqOf fr.seqByte = f.txSeq
      · rw [if_pos hmine, if_pos (show f.arq.awaitingAck ∧ _ = f.arq.txSeq from hmine)]
        rfl
      · rw [if_neg hmine, if_neg (show ¬ (f.arq.awaitingAck ∧ _ = f.arq.txSeq) from hmine)]
        rfl
    · rw [if_neg hack, if_neg hack]
      by_cases hnack : faTypeOf fr.seqByte = faTypeNack
      · rw [if_pos hnack, if_pos hnack]
        by_cases hwait : f.awaitingAck
        · rw [if_pos hwait, if_pos (show f.arq.awaitingAck from hwait)]
          rfl
        · rw [if_neg hwait, if_neg (show ¬ f.arq.awaitingAck from hwait)]
          rfl
      · rw [if_neg hnack, if_neg hnack]
        rfl
  · rw [if_neg hctrl, if_neg hctrl]
    by_cases hexp : faSeqOf fr.seqByte = f.expectedRxSeq
    · rw [if_pos hexp, if_pos (show _ = f.arq.expectedRxSeq from hexp)]
      rfl
    · rw [if_neg hexp, if_neg (show ¬ _ = f.arq.expectedRxSeq from hexp)]
      by_cases hdup : faSeqOf fr.seqByte = (f.expectedRxSeq - 1) &&& faSeqMask
      · rw [if_pos hdup,
          if_pos (show _ = (f.arq.expectedRxSeq - 1) &&& faSeqMask from hdup)]
        rfl
      · rw [if_neg hdup,
          if_neg (show ¬ _ = (f.arq.expectedRxSeq - 1) &&& faSeqMask from hdup)]
        rfl

/-! ## `frame_arq_get` -/

/-- `g` is `f` after a call that left the ARQ fields `a`: the parser's fields aside, nothing
else changed. -/
def Received (f : FrameArqT) (a : Arq) (g : FrameArqT) : Prop :=
  ∃ k, Moved f k ∧ g = k.setArq a

section

variable [Build] {f : FrameArqT} {acc : List UInt8}

/-- **One call of `frame_arq_get`** is one `pump` of the receiver followed by the reaction
to what it found. -/
theorem frameArqGet_spec (h : Holds f acc) (hp : Pending f.payloadMaxSize acc)
    (t : Transport) :
    ∃ g, frameArqGet .valid .valid .valid f t =
        some ⟨(f.arq.react ((receiver f.payloadMaxSize).pump acc t.incoming).1).ret,
          (f.arq.react ((receiver f.payloadMaxSize).pump acc t.incoming).1).out, g,
          Transport.reply
            { t with incoming := ((receiver f.payloadMaxSize).pump acc t.incoming).2.2 }
            (f.arq.react ((receiver f.payloadMaxSize).pump acc t.incoming).1).reply⟩ ∧
      Received f (f.arq.react ((receiver f.payloadMaxSize).pump acc t.incoming).1).arq g ∧
      Holds g ((receiver f.payloadMaxSize).pump acc t.incoming).2.1 ∧
      Pending f.payloadMaxSize ((receiver f.payloadMaxSize).pump acc t.incoming).2.1 := by
  obtain ⟨k, hread, hmove, hleft, hpend⟩ := readFrame_spec h hp t.incoming
  have harq : k.arq = f.arq := by
    obtain ⟨_, _, _, rfl⟩ := hmove
    rfl
  have hself : k = k.setArq f.arq := by rw [← harq]; rfl
  have hclear : Moved k { k with byteCount := 0 } := ⟨_, _, _, rfl⟩
  have hcleared : ({ k with byteCount := 0 } : FrameArqT) =
      ({ k with byteCount := 0 } : FrameArqT).setArq f.arq := by rw [← harq]; rfl
  -- only the outcome of the pump matters from here on
  generalize (receiver f.payloadMaxSize).pump acc t.incoming = p at *
  obtain ⟨o, acc', rest⟩ := p
  dsimp only at hread hleft hpend ⊢
  have hptr : ¬ (Ptr.valid = .null ∨ Ptr.valid = .null ∨ Ptr.valid = .null) := by decide
  rw [frameArqGet, if_neg hptr]
  simp only [hread, Option.bind_eq_bind, Option.bind_some]
  obtain _ | e := o
  · -- nothing complete yet
    have hcode : readCode none = incomplete := rfl
    exact ⟨k, by rw [if_pos hcode]; rfl, ⟨k, hmove, hself⟩, hleft, hpend⟩
  · cases e with
    | frame fr =>
      obtain ⟨rfl, hold, hfits⟩ := hleft
      have hcode : readCode (some (RxEvent.frame fr)) = success := rfl
      refine ⟨_, ?_, ⟨_, hmove.trans hclear, rfl⟩, hold.clear.setArq _, hpend⟩
      rw [hcode, if_neg (by decide), if_neg (by decide), if_neg (by decide),
        handleFrame_spec hold hfits.length_lt, harq]
      rfl
    | crcError =>
      obtain ⟨rfl, hold⟩ := hleft
      have hcode : readCode (some RxEvent.crcError) = errorCrc := rfl
      have hexp : k.expectedRxSeq = f.arq.expectedRxSeq := by rw [← harq]; rfl
      refine ⟨{ k with byteCount := 0 }, ?_,
        ⟨{ k with byteCount := 0 }, hmove.trans hclear, hcleared⟩, hold.clear, hpend⟩
      rw [hcode, if_neg (by decide), if_pos rfl, faWriteControl_spec, hexp]
      rfl
    | overflow =>
      obtain ⟨rfl, hold⟩ := hleft
      have hcode : readCode (some RxEvent.overflow) = errorOverflow := rfl
      refine ⟨{ k with byteCount := 0 }, ?_,
        ⟨{ k with byteCount := 0 }, hmove.trans hclear, hcleared⟩, hold.clear, hpend⟩
      rw [hcode, if_neg (by decide), if_neg (by decide), if_pos (by decide)]
      rfl

end

/-! ## `frame_arq_put` -/

/-- When `frame_arq_put` accepts a message. -/
def Accepts (f : FrameArqT) (cmd : UInt8) (size : ℕ) : Prop :=
  1 ≤ cmd ∧ cmd ≤ 127 ∧ size ≤ f.payloadMaxSize ∧ f.awaitingAck = false

instance (f : FrameArqT) (cmd : UInt8) (size : ℕ) : Decidable (Accepts f cmd size) :=
  inferInstanceAs (Decidable (_ ∧ _ ∧ _ ∧ _))

/-- The sequence number the next accepted message gets. -/
def FrameArqT.nextSeq (f : FrameArqT) : UInt8 := (f.txSeq + 1) &&& faSeqMask

/-- The controller after an accepted put of the frame `fr`. -/
def FrameArqT.sent [Build] (f : FrameArqT) (fr : Frame) : FrameArqT :=
  { f with
    txSeq := f.nextSeq
    retainBuffer := fr.encode ++ f.retainBuffer.drop fr.encode.length
    retainLength := fr.encode.length
    awaitingAck := true
    resendNeeded := false }

section

variable [Build] {f : FrameArqT} {cmd : UInt8} {payload : Option (List UInt8)} {size : ℕ}

/-- The code of a put that is not accepted. -/
def putError (payloadMaxSize : ℕ) (cmd : UInt8) (size : ℕ) : Int :=
  if cmd < 1 ∨ cmd > 127 then errorArg
  else if payloadMaxSize < size then errorOverflow
  else errorBusy

/-- A put that is not accepted changes nothing. -/
theorem frameArqPut_putError (hnot : ¬ Accepts f cmd size) (payload : Option (List UInt8))
    (t : Transport) :
    frameArqPut .valid f cmd payload size t =
      some ⟨putError f.payloadMaxSize cmd size, none, f, t⟩ := by
  have hptr : Ptr.valid ≠ .null := by decide
  rw [frameArqPut, if_neg hptr, putError]
  by_cases hcmd : cmd < 1 ∨ cmd > 127
  · rw [if_pos hcmd, if_pos hcmd]
  · rw [if_neg hcmd, if_neg hcmd]
    by_cases hsize : f.payloadMaxSize < size
    · rw [if_pos hsize, if_pos hsize]
    · rw [if_neg hsize, if_neg hsize]
      by_cases hwait : f.awaitingAck
      · rw [if_pos hwait]
      · rw [not_or, UInt8.not_lt, gt_iff_lt, UInt8.not_lt] at hcmd
        exact absurd ⟨hcmd.1, hcmd.2, by omega, by simpa using hwait⟩ hnot

/-- It returns one of three errors. -/
theorem frameArqPut_rejected (h : ¬ Accepts f cmd size) (payload : Option (List UInt8))
    (t : Transport) :
    ∃ r, (r = errorArg ∨ r = errorOverflow ∨ r = errorBusy) ∧
      frameArqPut .valid f cmd payload size t = some ⟨r, none, f, t⟩ := by
  refine ⟨_, ?_, frameArqPut_putError h payload t⟩
  rw [putError]
  split_ifs
  · exact Or.inl rfl
  · exact Or.inr (Or.inl rfl)
  · exact Or.inr (Or.inr rfl)

/-- The frame an accepted put sends. -/
def FrameArqT.putFrame (f : FrameArqT) (cmd : UInt8) (payload : Option (List UInt8))
    (size : ℕ) : Frame :=
  dataFrame cmd f.nextSeq (putBody f.retainBuffer payload size)

omit [Build] in
theorem putBody_length {p : List UInt8} (hp : 17 + size ≤ p.length)
    (hpay : ∀ bytes, payload = some bytes → size ≤ bytes.length) :
    (putBody p payload size).length = size := by
  unfold putBody
  cases payload with
  | none =>
    dsimp only
    rw [List.length_take, List.length_drop]
    omega
  | some bytes => simp [hpay bytes rfl]

/-- An accepted put, up to its write loop. -/
theorem frameArqPut_eq (h : Accepts f cmd size)
    (hbuf : f.retainBuffer.length = f.payloadMaxSize + 17)
    (hfits : f.payloadMaxSize + 17 < 2 ^ Build.sizeBits)
    (hpay : ∀ bytes, payload = some bytes → size ≤ bytes.length) (t : Transport) :
    frameArqPut .valid f cmd payload size t =
      (streamOut intMax (f.sent (f.putFrame cmd payload size)).retainBuffer 0 (17 + size)
        t).bind fun sent =>
          some ⟨sent.1, none, f.sent (f.putFrame cmd payload size), sent.2⟩ := by
  obtain ⟨hlo, hhi, hsize, hidle⟩ := h
  have hp : 17 + size ≤ f.retainBuffer.length := by omega
  have hlen : (f.putFrame cmd payload size).encode.length = 17 + size := by
    rw [Frame.encode_length]
    exact congrArg (17 + ·) (putBody_length hp hpay)
  have hbuild := @buildFrame_eq _ _ cmd f.nextSeq _ _ hp hpay
  have hcmd : ¬ (cmd < 1 ∨ cmd > 127) := by
    rw [not_or, UInt8.not_lt, gt_iff_lt, UInt8.not_lt]
    exact ⟨hlo, hhi⟩
  rw [frameArqPut]
  rw [if_neg (by decide), if_neg hcmd, if_neg (by omega), if_neg (by rw [hidle]; decide)]
  rw [FrameArqT.nextSeq] at hbuild
  simp only [hbuild, Option.bind_eq_bind, Option.bind_some]
  rw [sizeT_of_lt (by rw [headerLength_eq]; omega), headerLength_eq]
  simp only [FrameArqT.sent, hlen]
  rfl

/-- An accepted put that is defined, whatever the size of the message. -/
theorem frameArqPut_some (h : Accepts f cmd size)
    (hbuf : f.retainBuffer.length = f.payloadMaxSize + 17)
    (hfits : f.payloadMaxSize + 17 < 2 ^ Build.sizeBits)
    (hpay : ∀ bytes, payload = some bytes → size ≤ bytes.length) {t : Transport} {r : Result}
    (hr : frameArqPut .valid f cmd payload size t = some r) :
    r = ⟨(t.writeAll (f.putFrame cmd payload size).encode).1, none,
      f.sent (f.putFrame cmd payload size),
      (t.writeAll (f.putFrame cmd payload size).encode).2⟩ := by
  have hp : 17 + size ≤ f.retainBuffer.length := by have := h.2.2.1; omega
  have hlen : (f.putFrame cmd payload size).encode.length = 17 + size := by
    rw [Frame.encode_length]
    exact congrArg (17 + ·) (putBody_length hp hpay)
  have hbuf' : (f.sent (f.putFrame cmd payload size)).retainBuffer =
      (f.putFrame cmd payload size).encode ++
        f.retainBuffer.drop (f.putFrame cmd payload size).encode.length := rfl
  rw [frameArqPut_eq h hbuf hfits hpay, Option.bind_eq_some_iff] at hr
  obtain ⟨sent, hsent, heq⟩ := hr
  have := streamOut_some (by rw [hbuf', List.length_append, hlen]; omega) hsent
  rw [List.drop_zero, hbuf', ← hlen, List.take_left] at this
  subst this
  exact (Option.some.inj heq).symm

/-- **An accepted put** retains the frame and writes it as far as the transport takes it. -/
theorem frameArqPut_accepted (h : Accepts f cmd size)
    (hbuf : f.retainBuffer.length = f.payloadMaxSize + 17)
    (hfits : f.payloadMaxSize + 17 < 2 ^ Build.sizeBits)
    (hpay : ∀ bytes, payload = some bytes → size ≤ bytes.length)
    (hint : size + 17 < 2 ^ 31) (t : Transport) :
    frameArqPut .valid f cmd payload size t =
      some ⟨(t.writeAll (f.putFrame cmd payload size).encode).1, none,
        f.sent (f.putFrame cmd payload size),
        (t.writeAll (f.putFrame cmd payload size).encode).2⟩ := by
  have hp : 17 + size ≤ f.retainBuffer.length := by have := h.2.2.1; omega
  have hlen : (f.putFrame cmd payload size).encode.length = 17 + size := by
    rw [Frame.encode_length]
    exact congrArg (17 + ·) (putBody_length hp hpay)
  have hbuf' : (f.sent (f.putFrame cmd payload size)).retainBuffer =
      (f.putFrame cmd payload size).encode ++
        f.retainBuffer.drop (f.putFrame cmd payload size).encode.length := rfl
  have hstream := streamOut_eq (m := intMax) (i := 0) (n := 17 + size)
    (p := (f.sent (f.putFrame cmd payload size)).retainBuffer)
    (by rw [hbuf', List.length_append, hlen]; omega) (by unfold intMax; omega) t
  rw [List.drop_zero, hbuf', ← hlen, List.take_left] at hstream
  rw [frameArqPut_eq h hbuf hfits hpay, ← hlen, hbuf', hstream]
  rfl

/-- A put whose write loop would overflow its `int` counter is undefined: a message that
put can send, on a transport that takes every byte, has fewer than `2 ^ 31 - 17` bytes. -/
theorem frameArqPut_size_lt (h : Accepts f cmd size)
    (hbuf : f.retainBuffer.length = f.payloadMaxSize + 17)
    (hfits : f.payloadMaxSize + 17 < 2 ^ Build.sizeBits)
    (hpay : ∀ bytes, payload = some bytes → size ≤ bytes.length) {t : Transport}
    (ht : t.Succeeds) (hsome : (frameArqPut .valid f cmd payload size t).isSome) :
    size + 17 < 2 ^ 31 := by
  by_contra hbig
  have hsize := h.2.2.1
  have hlen : (f.putFrame cmd payload size).encode.length = 17 + size := by
    rw [Frame.encode_length]
    exact congrArg (17 + ·) (putBody_length (by omega) hpay)
  have hnone := streamOut_overflow (m := intMax) (i := 0) (n := 17 + size)
    (p := (f.sent (f.putFrame cmd payload size)).retainBuffer)
    (by simp only [FrameArqT.sent, List.length_append, hlen]; omega) (Nat.zero_le _)
    (by unfold intMax; omega) ht
  rw [frameArqPut_eq h hbuf hfits hpay, hnone] at hsome
  cases hsome

end

/-! ## `frame_arq_resend` -/

section

variable [Build] {f : FrameArqT}

/-- With nothing outstanding a resend writes nothing. -/
theorem frameArqResend_idle (h : f.awaitingAck = false) (t : Transport) :
    frameArqResend .valid f t = some ⟨success, none, { f with resendNeeded := false }, t⟩ := by
  rw [frameArqResend, if_neg (by decide), if_pos (Or.inl h)]

/-- **A resend of an outstanding frame** writes the retained bytes as far as the transport
takes them. -/
theorem frameArqResend_outstanding {bytes : List UInt8} (h : f.awaitingAck = true)
    (hlen : f.retainLength = bytes.length) (hpos : bytes ≠ [])
    (hret : f.retainBuffer.take bytes.length = bytes)
    (hmax : bytes.length < 2 ^ Build.sizeBits) (t : Transport) :
    frameArqResend .valid f t =
      some ⟨(t.writeAll bytes).1, none,
        if (t.writeAll bytes).1 < 0 then f else { f with resendNeeded := false },
        (t.writeAll bytes).2⟩ := by
  have hle : bytes.length ≤ f.retainBuffer.length := by
    have := congrArg List.length hret
    rw [List.length_take] at this
    omega
  have hne : f.retainLength ≠ 0 := by
    rw [hlen]
    exact fun h0 => hpos (List.eq_nil_of_length_eq_zero h0)
  have hstream := streamOut_eq (m := 2 ^ Build.sizeBits - 1) (i := 0)
    (n := bytes.length) (p := f.retainBuffer) (by omega) (by omega) t
  rw [List.drop_zero, hret] at hstream
  rw [frameArqResend]
  rw [if_neg (by decide), if_neg (by rw [h, not_or]; exact ⟨by decide, hne⟩), hlen, hstream]
  simp only [Option.bind_eq_bind, Option.bind_some]
  by_cases hneg : (t.writeAll bytes).1 < 0
  · rw [if_pos hneg, if_pos hneg]
  · rw [if_neg hneg, if_neg hneg]
    obtain hret | hret := Transport.writeAll_ret bytes t
    · rw [hret]
    · exact absurd hret hneg

end

end HtcwFrameArq
