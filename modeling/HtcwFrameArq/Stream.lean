import HtcwFrameArq.Framing
import HtcwFrameArq.Soundness

/-!
# From bytes to frames

A sequence of calls of get on any source (`Gets`) finds what the receiver decodes from the
bytes the source yields, wherever it pauses. `gets_stream` says what that is for frames with
text between them: get recognises these frames, stops at the end of each, and acts as its
frame handling does on one frame after the other.
-/

namespace HtcwFrameArq

section

variable [Build]

/-- Calls of get, one after the other: what they find and show. -/
inductive Gets : Endpoint → List UInt8 → List (Option RxEvent) → List UInt8 → List Outcome →
    Endpoint → Prop where
  | nil {e acc} : Gets e acc [] acc [] e
  | cons {e acc found acc₁ o e₁ founds acc' outs e'} (hgot : Got e acc found acc₁ o e₁)
      (hrest : Gets e₁ acc₁ founds acc' outs e') :
      Gets e acc (found :: founds) acc' (o :: outs) e'

variable {e e' e₁ : Endpoint} {acc acc' acc₁ : List UInt8} {founds : List (Option RxEvent)}
  {outs : List Outcome} {o : Outcome} {found : Option RxEvent}

theorem Got.max (h : Got e acc found acc' o e') :
    e'.frame.payloadMaxSize = e.frame.payloadMaxSize := by
  obtain ⟨_, ⟨_, _, _, rfl⟩, heq⟩ := h.frame
  rw [heq]
  rfl

namespace Gets

/-- Every number of calls is possible. -/
theorem exists_run (hold : Holds e.frame acc) (hp : Pending e.frame.payloadMaxSize acc) (n : ℕ) :
    ∃ founds acc' outs e', e.run (List.replicate n .get) = some (outs, e') ∧
      Gets e acc founds acc' outs e' := by
  induction n generalizing e acc with
  | zero => exact ⟨[], acc, [], e, rfl, .nil⟩
  | succ n ih =>
    obtain ⟨found, acc₁, o, e₁, hs, hgot⟩ := exec_get hold hp
    obtain ⟨founds, acc', outs, e', hrun, hgets⟩ := ih hgot.holds (hgot.max ▸ hgot.pending)
    exact ⟨_, _, _, _, Runs.run_cons hs hrun, .cons hgot hgets⟩

/-- Inversion: every sequence of calls of get is of that form. -/
theorem of_run (hold : Holds e.frame acc) (hp : Pending e.frame.payloadMaxSize acc) {n : ℕ}
    (hrun : e.run (List.replicate n .get) = some (outs, e')) :
    ∃ founds acc', Gets e acc founds acc' outs e' := by
  obtain ⟨founds, acc', outs', e'', hrun', hgets⟩ := exists_run hold hp n
  obtain ⟨rfl, rfl⟩ := Prod.mk.inj (Option.some.inj (hrun'.symm.trans hrun))
  exact ⟨founds, acc', hgets⟩

/-- The bytes taken from the source. -/
theorem source (h : Gets e acc founds acc' outs e') :
    ∃ used, used.reduceOption = outs.flatMap Outcome.consumed ∧
      e.transport.incoming = used ++ e'.transport.incoming := by
  induction h with
  | nil => exact ⟨[], rfl, rfl⟩
  | cons hgot hrest ih =>
    obtain ⟨used, hcons, hsrc⟩ := hgot.source
    obtain ⟨used', hcons', hsrc'⟩ := ih
    refine ⟨used ++ used', ?_, ?_⟩
    · rw [List.reduceOption_append, ← hcons, hcons', List.flatMap_cons]
    · rw [hsrc, hsrc', List.append_assoc]

/-- Calls take a first part of the source's bytes. -/
theorem consumed_prefix (h : Gets e acc founds acc' outs e') :
    outs.flatMap Outcome.consumed <+: e.transport.incoming.reduceOption := by
  obtain ⟨used, hcons, hsrc⟩ := h.source
  rw [← hcons, hsrc, List.reduceOption_append]
  exact List.prefix_append _ _

/-- Calls that use the source up take all its bytes. -/
theorem consumed_all (h : Gets e acc founds acc' outs e') (hused : e'.transport.incoming = []) :
    outs.flatMap Outcome.consumed = e.transport.incoming.reduceOption := by
  obtain ⟨used, hcons, hsrc⟩ := h.source
  rw [hused, List.append_nil] at hsrc
  rw [← hcons, hsrc]

/-- As many calls as the source has answers use it up. -/
theorem used_up (h : Gets e acc founds acc' outs e')
    (hlen : e.transport.incoming.length ≤ outs.length) : e'.transport.incoming = [] := by
  induction h with
  | nil => simpa using hlen
  | @cons e acc found acc₁ o e₁ founds acc' outs e' hgot hrest ih =>
    apply ih
    have hpump := hgot.pump
    rcases hsrc : e.transport.incoming with _ | ⟨a, source⟩
    · rw [hsrc] at hpump
      obtain ⟨-, -, hnil⟩ : none = found ∧ acc = acc₁ ∧ [] = e₁.transport.incoming := by
        simpa [Decoder.pump] using hpump
      simp [← hnil]
    · have hlt := Decoder.pump_length_lt (D := receiver e.frame.payloadMaxSize) (s := acc)
        (show e.transport.incoming ≠ [] by simp [hsrc])
      rw [hpump] at hlt
      exact Nat.le_of_lt_succ (Nat.lt_of_lt_of_le hlt hlen)

theorem max (h : Gets e acc founds acc' outs e') :
    e'.frame.payloadMaxSize = e.frame.payloadMaxSize := by
  induction h with
  | nil => rfl
  | cons hgot hrest ih => exact ih.trans hgot.max

theorem holds (h : Gets e acc founds acc' outs e') (hold : Holds e.frame acc)
    (hp : Pending e.frame.payloadMaxSize acc) :
    Holds e'.frame acc' ∧ Pending e'.frame.payloadMaxSize acc' := by
  induction h with
  | nil => exact ⟨hold, hp⟩
  | cons hgot hrest ih => exact ih hgot.holds (hgot.max ▸ hgot.pending)

/-- **What the calls find** is what the receiver decodes from the bytes they take. -/
theorem feed (h : Gets e acc founds acc' outs e') :
    (receiver e.frame.payloadMaxSize).feed acc (outs.flatMap Outcome.consumed) =
      (founds.reduceOption, acc') := by
  induction h with
  | nil => rfl
  | @cons e acc found acc₁ o e₁ founds acc' outs e' hgot hrest ih =>
    rw [hgot.max] at ih
    rw [List.flatMap_cons, Decoder.feed_append, hgot.feed, ih]
    cases found <;> rfl

/-- Cutting a sequence of calls at one of them. -/
theorem split {pre post : List Outcome} (h : Gets e acc founds acc' (pre ++ o :: post) e') :
    ∃ founds₁ acc₁ e₁ found acc₂ e₂ founds₂, Gets e acc founds₁ acc₁ pre e₁ ∧
      Got e₁ acc₁ found acc₂ o e₂ ∧ Gets e₂ acc₂ founds₂ acc' post e' := by
  induction pre generalizing e acc founds with
  | nil =>
    cases h with
    | cons hgot hrest => exact ⟨[], acc, e, _, _, _, _, .nil, hgot, hrest⟩
  | cons p pre ih =>
    cases h with
    | cons hgot hrest =>
      obtain ⟨founds₁, acc₁, e₁, found, acc₂, e₂, founds₂, hpre, ho, hpost⟩ := ih hrest
      exact ⟨_, acc₁, e₁, found, acc₂, e₂, founds₂, .cons hgot hpre, ho, hpost⟩

end Gets

/-! ## Frames with text between them -/

omit [Build] in
/-- The reactions to frames, one after the other, and the fields they leave. -/
def Arq.handleAll (a : Arq) : List Frame → List Reaction × Arq
  | [] => ([], a)
  | fr :: frs =>
    (a.handle fr :: ((a.handle fr).arq.handleAll frs).1, ((a.handle fr).arq.handleAll frs).2)

/-- The frames that endpoints write: the DATA frames of put, the ACKs and NACKs of get. -/
inductive Frame.Sent (M : ℕ) : Frame → Prop where
  | data {cmd seq payload} (hlo : 1 ≤ cmd) (hhi : cmd ≤ 127) (hle : payload.length ≤ M) :
      Sent M (dataFrame cmd seq payload)
  | control {type seq} (htype : type = faTypeAck ∨ type = faTypeNack) :
      Sent M (controlFrame type seq)

/-- Frames with text before each of them and after the last. -/
def stream (pieces : List (List UInt8 × Frame)) (last : List UInt8) : List UInt8 :=
  pieces.flatMap (fun p => p.1 ++ p.2.encode) ++ last

/-- Calls of get act as the frame handling does on `frs`: they recognise these frames, and
the calls that do so return, hand over and write what the reactions to the frames say; the
other calls do nothing. -/
structure Answers (e : Endpoint) (frs : List Frame) (outs : List Outcome) (e' : Endpoint) :
    Prop where
  recognised : outs.filterMap Outcome.received = frs
  results : (outs.filter fun o => o.received.isSome).map (fun o => (o.ret, o.out)) =
    (e.frame.arq.handleAll frs).1.map fun r => (r.ret, r.out)
  replies : e.transport.Succeeds →
    (outs.filter fun o => o.received.isSome).map Outcome.written =
      (e.frame.arq.handleAll frs).1.map fun r => replyBytes r.reply
  others : ∀ o ∈ outs, o.received = none → o.ret = success ∧ o.out = none ∧ o.written = []
  noError : ∀ o ∈ outs, o.ret ≠ errorCrc ∧ o.ret ≠ errorOverflow
  arq : e'.frame.arq = (e.frame.arq.handleAll frs).2
  transport : e'.transport = (e.frame.arq.handleAll frs).1.foldl (fun t r => t.reply r.reply)
    { e.transport with incoming := e'.transport.incoming }

theorem Transport.reply_with (t : Transport) (incoming : List (Option UInt8))
    (fr : Option Frame) :
    Transport.reply { t with incoming } fr = { t.reply fr with incoming } := by
  have hall (bs : List UInt8) : ∀ t : Transport,
      (Transport.writeAll bs { t with incoming }).2 = { (t.writeAll bs).2 with incoming } := by
    induction bs with
    | nil => exact fun t => rfl
    | cons b bs ih =>
      intro t
      have hcb : Transport.writeCb { t with incoming } b =
          ((t.writeCb b).1, { (t.writeCb b).2 with incoming }) := by
        rcases t with ⟨_, _ | ⟨r, results⟩, _⟩ <;> rfl
      rw [Transport.writeAll, Transport.writeAll, hcb]
      by_cases hneg : (t.writeCb b).1 < 0
      · rw [if_pos hneg, if_pos hneg]
      · rw [if_neg hneg, if_neg hneg, ih]
  cases fr with
  | none => rfl
  | some fr => exact hall fr.encode t

/-- A call that finds the source paused. -/
theorem Answers.cons_none {frs : List Frame} (hgot : Got e acc none acc₁ o e₁)
    (h : Answers e₁ frs outs e') : Answers e frs (o :: outs) e' := by
  have hnone : o.received = none := hgot.received
  have hsuccess : o.ret = success := hgot.ret
  have harq : e₁.frame.arq = e.frame.arq := hgot.arq
  have htrans : e₁.transport = { e.transport with incoming := e₁.transport.incoming } :=
    hgot.transport
  obtain ⟨hrecog, hres, hrep, hothers, hno, ha, ht⟩ := h
  rw [harq] at hres hrep ha ht
  rw [htrans] at ht
  refine ⟨?_, ?_, ?_, ?_, ?_, ha, ht⟩
  · simpa [hnone] using hrecog
  · simpa [hnone] using hres
  · intro hsucceeds
    have hsucceeds' : e₁.transport.Succeeds := by rw [htrans]; exact hsucceeds
    simpa [hnone] using hrep hsucceeds'
  · intro o' ho' hn
    rcases List.mem_cons.mp ho' with rfl | ho'
    · exact ⟨hsuccess, hgot.out, List.prefix_nil.mp hgot.written⟩
    · exact hothers o' ho' hn
  · intro o' ho'
    rcases List.mem_cons.mp ho' with rfl | ho'
    · rw [hsuccess]
      decide
    · exact hno o' ho'

/-- A call that finds a frame. -/
theorem Answers.cons_frame {fr : Frame} {frs : List Frame}
    (hgot : Got e acc (some (.frame fr)) acc₁ o e₁) (hmark : 128 ≤ fr.marker)
    (h : Answers e₁ frs outs e') : Answers e (fr :: frs) (o :: outs) e' := by
  have hsome : o.received = some fr := hgot.received
  have hret : o.ret = (e.frame.arq.handle fr).ret := hgot.ret
  have hout : o.out = (e.frame.arq.handle fr).out := hgot.out
  have harq : e₁.frame.arq = (e.frame.arq.handle fr).arq := hgot.arq
  obtain ⟨hrecog, hres, hrep, hothers, hno, ha, ht⟩ := h
  rw [harq] at hres hrep ha ht
  -- the head answers as the handling does, the rest by the hypothesis
  refine ⟨?_, ?_, ?_, ?_, ?_, ha, ?_⟩
  · simpa [hsome] using hrecog
  · simp only [hsome, Option.isSome_some, List.filter_cons_of_pos, List.map_cons, hres, hret,
      hout]
    rfl
  · intro hsucceeds
    obtain ⟨hhead, hsucceeds'⟩ := hgot.replied hsucceeds
    simp only [hsome, Option.isSome_some, List.filter_cons_of_pos, List.map_cons,
      hrep hsucceeds', hhead]
    rfl
  · intro o' ho' hn
    rcases List.mem_cons.mp ho' with rfl | ho'
    · rw [hsome] at hn
      cases hn
    · exact hothers o' ho' hn
  · intro o' ho'
    rcases List.mem_cons.mp ho' with rfl | ho'
    · rw [hret]
      exact Arq.handle_noError hmark
    · exact hno o' ho'
  · have hreply : e₁.transport = { Transport.reply e.transport (e.frame.arq.handle fr).reply
        with incoming := e₁.transport.incoming } :=
      hgot.transport.trans (Transport.reply_with _ _ _)
    apply ht.trans
    rw [hreply]
    simp only [Arq.handleAll, List.foldl_cons, Transport.reply_with]

/-- **Calls that find only frames** act as the frame handling does. -/
theorem Gets.answers {frs : List Frame} (h : Gets e acc founds acc' outs e')
    (hp : Pending e.frame.payloadMaxSize acc)
    (hfound : founds.reduceOption = frs.map RxEvent.frame) : Answers e frs outs e' := by
  induction h generalizing frs with
  | nil =>
    obtain rfl : frs = [] := by simpa using hfound.symm
    exact ⟨rfl, rfl, fun _ => rfl, by simp, by simp, rfl, rfl⟩
  | @cons e acc found acc₁ o e₁ founds acc' outs e' hgot hrest ih =>
    have hp₁ : Pending e₁.frame.payloadMaxSize acc₁ := hgot.max ▸ hgot.pending
    obtain _ | ev := found
    · exact (ih hp₁ hfound).cons_none hgot
    · obtain _ | ⟨fr, frs⟩ := frs
      · cases hfound
      obtain ⟨rfl, hfound'⟩ := List.cons.inj hfound
      exact (ih hp₁ hfound').cons_frame hgot (hgot.fits hp fr rfl).marker_ge

/-! ## What the receiver decodes from them -/

omit [Build] in
theorem Frame.Sent.fits {M : ℕ} {fr : Frame} (h : fr.Sent M) (hM : M < 2 ^ 32) : fr.Fits M := by
  cases h with
  | data hlo hhi hle => exact dataFrame_fits hhi hle (Nat.lt_of_le_of_lt hle hM)
  | control => exact controlFrame_fits _ _ _

variable {M : ℕ} {pieces : List (List UInt8 × Frame)} {last : List UInt8}

theorem stream_cons (p : List UInt8 × Frame) (pieces : List (List UInt8 × Frame))
    (last : List UInt8) :
    stream (p :: pieces) last = p.1 ++ (p.2.encode ++ stream pieces last) := by
  simp [stream]

theorem stream_append (ps qs : List (List UInt8 × Frame)) (last : List UInt8) :
    stream (ps ++ qs) last = stream ps [] ++ stream qs last := by
  simp [stream]

/-- **The stream is the frames.** -/
theorem feed_stream (hfits : ∀ p ∈ pieces, p.2.Fits M) (htext : ∀ p ∈ pieces, ∀ b ∈ p.1, b < 128)
    (hlast : ∀ b ∈ last, b < 128) :
    (receiver M).feed [] (stream pieces last) =
      (pieces.map fun p => RxEvent.frame p.2, []) := by
  induction pieces with
  | nil => exact feed_text hlast
  | cons p pieces ih =>
    have hp := feed_text (M := M) (htext p List.mem_cons_self)
    have hfr := feed_encode (hfits p List.mem_cons_self)
    have hrest := ih (fun q hq => hfits q (List.mem_cons_of_mem p hq))
      (fun q hq => htext q (List.mem_cons_of_mem p hq))
    rw [stream_cons, Decoder.feed_append, hp, Decoder.feed_append, hfr, hrest]
    rfl

/-- The last byte of a stream that ends with a frame completes it. -/
theorem stream_concat (hfits : ∀ p ∈ pieces, p.2.Fits M)
    (htext : ∀ p ∈ pieces, ∀ b ∈ p.1, b < 128) (hne : pieces ≠ []) :
    ∃ init b, stream pieces [] = init ++ [b] ∧
      ((receiver M).feed [] init).1.length < pieces.length := by
  obtain ⟨front, p, rfl⟩ : ∃ front p, pieces = front ++ [p] :=
    ⟨pieces.dropLast, pieces.getLast hne, (List.dropLast_append_getLast hne).symm⟩
  obtain ⟨b, hsplit, -⟩ := encode_eq_concat p.2
  have hlen := p.2.encode_length
  have hnil : ∀ b ∈ ([] : List UInt8), b < 128 := by simp
  have hfits' : ∀ q ∈ front, q.2.Fits M := by
    intro q hq
    exact hfits q (List.mem_append_left [p] hq)
  have htext' : ∀ q ∈ front, ∀ b ∈ q.1, b < 128 := by
    intro q hq
    exact htext q (List.mem_append_left [p] hq)
  have hfront := feed_stream hfits' htext' hnil
  have hp := feed_text (M := M) (htext p (by simp))
  have hfr := feed_encode_take (n := p.2.encode.length - 1) (hfits p (by simp)) (by omega)
  refine ⟨stream front [] ++ (p.1 ++ p.2.encode.take (p.2.encode.length - 1)), b, ?_, ?_⟩
  · rw [stream_append, stream_cons, hsplit]
    simp [stream]
  · rw [Decoder.feed_append, hfront, Decoder.feed_append, hp, hfr]
    simp

/-- The bytes of a stream up to the end of frame number `k` are those on whose last one the
receiver decides for the `k + 1`st time. -/
theorem stream_cut {front : List UInt8} {b : UInt8} {k : ℕ} (hfits : ∀ p ∈ pieces, p.2.Fits M)
    (htext : ∀ p ∈ pieces, ∀ b ∈ p.1, b < 128) (hlast : ∀ b ∈ last, b < 128)
    (hpre : front ++ [b] <+: stream pieces last)
    (hk : ((receiver M).feed [] front).1.length = k)
    (hsucc : ((receiver M).feed [] (front ++ [b])).1.length = k + 1) :
    front ++ [b] = stream (pieces.take (k + 1)) [] := by
  have hmore : k + 1 ≤ pieces.length := by
    have hle := (Decoder.feed_mono (D := receiver M) hpre []).length_le
    rw [hsucc, feed_stream hfits htext hlast] at hle
    simpa using hle
  have htotal : (pieces.take (k + 1)).length = k + 1 := by
    rw [List.length_take, Nat.min_eq_left hmore]
  have hfits' : ∀ p ∈ pieces.take (k + 1), p.2.Fits M := by
    intro p hmem
    exact hfits p (List.mem_of_mem_take hmem)
  have htext' : ∀ p ∈ pieces.take (k + 1), ∀ b ∈ p.1, b < 128 := by
    intro p hmem
    exact htext p (List.mem_of_mem_take hmem)
  have hnil : ∀ b ∈ ([] : List UInt8), b < 128 := by simp
  have hfeed := feed_stream hfits' htext' hnil
  obtain ⟨init, c, hsplit, hless⟩ := stream_concat hfits' htext'
    (List.ne_nil_of_length_pos (by omega))
  have hfirst : stream (pieces.take (k + 1)) [] <+: stream pieces last := by
    conv_rhs => rw [← List.take_append_drop (k + 1) pieces, stream_append]
    exact List.prefix_append _ _
  rw [hsplit] at hfeed hfirst ⊢
  -- two beginnings that end where the same event is decided are equal
  refine Decoder.feed_exact (D := receiver M) (s := []) hpre hfirst ?_ ?_ ?_
  · rw [hsucc, hfeed, List.length_map, htotal]
  · rw [hk, hsucc]
    exact Nat.lt_succ_self k
  · rw [hfeed, List.length_map]
    exact hless

/-- The call that recognises a frame decides on its last byte, for the first time in the
call. -/
theorem Gets.decides {pre post : List Outcome} {fr : Frame}
    (h : Gets e acc founds acc' (pre ++ o :: post) e') (hrecv : o.received = some fr) :
    ∃ founds₁ acc₁ e₁ front b, Gets e acc founds₁ acc₁ pre e₁ ∧
      (pre ++ [o]).flatMap Outcome.consumed = front ++ [b] ∧
      ((receiver e.frame.payloadMaxSize).feed acc front).1 = founds₁.reduceOption ∧
      ((receiver e.frame.payloadMaxSize).feed acc (front ++ [b])).1 =
        founds₁.reduceOption ++ [.frame fr] := by
  obtain ⟨founds₁, acc₁, e₁, found, acc₂, e₂, founds₂, hpre, hgot, -⟩ := h.split
  obtain rfl := hgot.found_frame hrecv
  obtain ⟨init, b, acc₃, hcons, hinit, hv, -⟩ := hgot.found_at
  rw [hpre.max] at hinit hv
  refine ⟨founds₁, acc₁, e₁, pre.flatMap Outcome.consumed ++ init, b, hpre, by simp [hcons], ?_, ?_⟩
  · rw [Decoder.feed_append, hpre.feed, hinit, List.append_nil]
  · rw [Decoder.feed_append, Decoder.feed_append, hpre.feed, hinit,
      Decoder.feed_cons_some (D := receiver e.frame.payloadMaxSize) hv]
    simp

/-- **Where a call stops**: the call that recognises frame number `k` has taken exactly the
bytes up to the end of that frame. -/
theorem Gets.stops {pre post : List Outcome} {fr : Frame}
    (h : Gets e [] founds acc' (pre ++ o :: post) e')
    (hfits : ∀ p ∈ pieces, p.2.Fits e.frame.payloadMaxSize)
    (htext : ∀ p ∈ pieces, ∀ b ∈ p.1, b < 128) (hlast : ∀ b ∈ last, b < 128)
    (hall : (pre ++ o :: post).flatMap Outcome.consumed = stream pieces last)
    (hrecv : o.received = some fr) :
    (pre ++ [o]).flatMap Outcome.consumed =
      stream (pieces.take ((pre.filterMap Outcome.received).length + 1)) [] := by
  obtain ⟨founds₁, acc₁, e₁, front, b, hpre, hbytes, hbefore, hafter⟩ := h.decides hrecv
  have hprefix : front ++ [b] <+: stream pieces last := by
    rw [← hbytes, ← hall]
    simp
  -- what was decided before this call are the first frames of the stream
  have hevents : founds₁.reduceOption <+: pieces.map fun p => RxEvent.frame p.2 := by
    have hpfx := Decoder.feed_mono (D := receiver e.frame.payloadMaxSize)
      ((List.prefix_append _ _).trans hprefix) []
    rwa [hbefore, feed_stream hfits htext hlast] at hpfx
  have hfounds : founds₁.reduceOption =
      ((pieces.take founds₁.reduceOption.length).map Prod.snd).map RxEvent.frame := by
    rw [List.map_map, List.map_take]
    exact List.prefix_iff_eq_take.mp hevents
  have hcount : (pre.filterMap Outcome.received).length = founds₁.reduceOption.length := by
    rw [(hpre.answers (pending_nil _) hfounds).recognised]
    simpa using congrArg List.length hfounds.symm
  rw [hbytes, hcount]
  apply stream_cut hfits htext hlast hprefix (by rw [hbefore])
  rw [hafter]
  simp

end

/-- **A stream of bytes is a stream of frames.** Frames that endpoints write, with text before
each of them and after the last, in whatever portions they arrive, at a controller that is
between two frames: every number of calls of get is possible, enough of them use the input
up, and then they acted as the frame handling does on these frames one after the other, no
call took a byte past the end of the frame it recognised, and nothing is left assembled. -/
theorem gets_stream [Build] {f : FrameArqT} (hreach : Reachable f) (hcount : f.byteCount = 0)
    (hint : f.payloadMaxSize + 17 < 2 ^ 31) {pieces : List (List UInt8 × Frame)}
    {last : List UInt8} (hsent : ∀ p ∈ pieces, p.2.Sent f.payloadMaxSize)
    (htext : ∀ p ∈ pieces, ∀ b ∈ p.1, b < 128) (hlast : ∀ b ∈ last, b < 128) (t : Transport)
    (hin : t.incoming.reduceOption = stream pieces last) (n : ℕ) :
    ∃ outs e, Endpoint.run ⟨f, t⟩ (List.replicate n .get) = some (outs, e) ∧
      (t.incoming.length ≤ n → e.transport.incoming = []) ∧
      (e.transport.incoming = [] →
        Answers ⟨f, t⟩ (pieces.map Prod.snd) outs e ∧ e.frame.byteCount = 0 ∧
          ∀ pre o post fr, outs = pre ++ o :: post → o.received = some fr →
            (pre ++ [o]).flatMap Outcome.consumed =
              stream (pieces.take ((pre.filterMap Outcome.received).length + 1)) []) := by
  obtain ⟨acc, hold, hp⟩ := hreach.ok.rx
  obtain rfl : acc = [] := List.length_eq_zero_iff.mp (hold.count.symm.trans hcount)
  obtain ⟨founds, acc', outs, e, hrun, hgets⟩ :=
    Gets.exists_run (e := ⟨f, t⟩) (n := n) hold hp
  have hfits : ∀ p ∈ pieces, p.2.Fits f.payloadMaxSize := by
    intro p hmem
    exact (hsent p hmem).fits (by omega)
  refine ⟨outs, e, hrun, fun hlen => hgets.used_up ?_, ?_⟩
  · rw [Runs.run_length hrun, List.length_replicate]
    exact hlen
  · intro hused
    have hall : outs.flatMap Outcome.consumed = stream pieces last :=
      (hgets.consumed_all hused).trans hin
    have hfeed := hgets.feed
    rw [hall, feed_stream hfits htext hlast] at hfeed
    obtain ⟨hfounds, rfl⟩ := Prod.mk.inj hfeed
    refine ⟨hgets.answers hp (hfounds.symm.trans ?_), (hgets.holds hold hp).1.count, ?_⟩
    · rw [List.map_map]
      rfl
    · rintro pre o post fr rfl hrecv
      exact hgets.stops hfits htext hlast hall hrecv

theorem gets_stream_four :
    letI : Build := build32
    let f := (Storage.zeroed 1 (by decide)).create
    let pieces := [([65], dataFrame 1 0 [7]), ([], controlFrame faTypeAck 5)]
    let t : Transport := ⟨none :: (stream pieces [10]).map some, [], []⟩
    ∃ outs e, Endpoint.run ⟨f, t⟩ (List.replicate 4 .get) = some (outs, e) ∧
      (t.incoming.length ≤ 4 → e.transport.incoming = []) ∧
      (e.transport.incoming = [] →
        Answers ⟨f, t⟩ (pieces.map Prod.snd) outs e ∧ e.frame.byteCount = 0 ∧
          ∀ pre o post fr, outs = pre ++ o :: post → o.received = some fr →
            (pre ++ [o]).flatMap Outcome.consumed =
              stream (pieces.take ((pre.filterMap Outcome.received).length + 1)) []) := by
  let _ : Build := build32
  intro f pieces t
  have hreach : Reachable f := ⟨Storage.zeroed 1 (by decide), t, [], [], ⟨f, t⟩, rfl, rfl⟩
  have hsent : ∀ p ∈ pieces, p.2.Sent f.payloadMaxSize := by
    have hdata : (dataFrame 1 0 [7]).Sent f.payloadMaxSize :=
      .data (by decide) (by decide) (by decide)
    have hack : (controlFrame faTypeAck 5).Sent f.payloadMaxSize := .control (Or.inl rfl)
    simp [pieces, hdata, hack]
  have htext : ∀ p ∈ pieces, ∀ b ∈ p.1, b < 128 := by
    simp [pieces]
  have hlast : ∀ b ∈ [(10 : UInt8)], b < 128 := by
    simp
  have hin : t.incoming.reduceOption = stream pieces [10] := by
    simp [t, List.reduceOption]
  exact gets_stream hreach rfl (by decide) hsent htext hlast t hin 4

end HtcwFrameArq
