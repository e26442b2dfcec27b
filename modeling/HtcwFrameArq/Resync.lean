import HtcwFrameArq.Stream

/-!
# Finding the frames again

What happens when the same frame is sent again and again to a controller whose parser is
anywhere. If it is between two frames, or inside a marker of another kind, the first copy is
recognised. Otherwise the first copies complete whatever was assembled, and the parser starts
over somewhere inside a copy; it finds the next one if the copies look like a marker nowhere
but at their beginnings. `resynchronises` puts this together; `livelock` is a frame and a
state from which it is never delivered, however often it is sent.
-/

namespace HtcwFrameArq

/-! ## Hunting for a marker -/

/-- No eight equal bytes of at least 128 in a row. -/
def NoMarker (bytes : List UInt8) : Prop :=
  ∀ c : UInt8, 128 ≤ c → ¬ List.replicate 8 c <:+: bytes

theorem NoMarker.of_infix {bytes part : List UInt8} (h : NoMarker bytes) (hpart : part <:+: bytes) :
    NoMarker part := fun c hc hmark => h c hc (hmark.trans hpart)

section

variable [Build] {M : ℕ} {fr : Frame}

/-- Over bytes without a marker nothing is decided, and a run at their end is all that is
assembled. -/
theorem feed_noMarker {bytes : List UInt8} (h : NoMarker bytes) :
    ∃ run, (receiver M).feed [] bytes = ([], run) ∧ run <:+ bytes ∧ run.length < 8 ∧
      MarkerRun run := by
  induction bytes using List.reverseRecOn with
  | nil => exact ⟨[], rfl, List.suffix_refl [], by decide, markerRun_nil⟩
  | append_singleton bytes b ih =>
    obtain ⟨run, hfeed, hsuffix, hlt, hrun⟩ := ih (h.of_infix (List.prefix_append _ _).isInfix)
    have hsuffix' : pushByte run b <:+ bytes ++ [b] := by
      obtain ⟨front, rfl⟩ := hsuffix
      rw [List.append_assoc]
      exact (pushByte_suffix run b).trans (List.suffix_append front _)
    have hle : (pushByte run b).length ≤ 8 := by
      have hlen := (pushByte_suffix run b).length_le
      rw [List.length_append, List.length_singleton] at hlen
      omega
    have hrun' := hrun.pushByte b
    -- a run of eight would be a marker among the bytes
    have hlt' : (pushByte run b).length < 8 := by
      apply Nat.lt_of_le_of_ne hle
      intro heq
      obtain ⟨c, hc, hrep⟩ := hrun'.eq_replicate hle
      rw [heq] at hrep
      rw [hrep] at hsuffix'
      exact h c hc hsuffix'.isInfix
    have hv : (receiver M).verdict ((receiver M).push run b) = none :=
      verdict_of_short (Nat.lt_of_lt_of_le hlt' (by decide))
    refine ⟨pushByte run b, ?_, hsuffix', hlt', hrun'⟩
    rw [Decoder.feed_append, hfeed, Decoder.feed_cons_none hv]
    rfl

/-- The first byte of an encoding. -/
theorem encode_cons (fr : Frame) : ∃ rest, fr.encode = fr.marker :: rest :=
  ⟨List.replicate 7 fr.marker ++ (fr.seqByte :: leBytes fr.size ++ leBytes fr.crc ++ fr.payload),
    by simp [Frame.encode, fields, List.replicate_succ]⟩

/-- **A run of another marker byte** is dropped at the beginning of a frame. -/
theorem feed_run_encode (hfits : fr.Fits M) {run : List UInt8} (hrun : MarkerRun run)
    (hlt : run.length < 8) (hother : run.head? ≠ some fr.marker) :
    (receiver M).feed run fr.encode = ([.frame fr], []) := by
  obtain ⟨rest, hcons⟩ := encode_cons fr
  obtain ⟨c, hc, hrep⟩ := hrun.eq_replicate (Nat.le_of_lt hlt)
  -- the first byte of the frame begins a run of its own
  have hpush : pushByte run fr.marker = pushByte [] fr.marker := by
    rw [pushByte_nil hfits.marker_ge]
    obtain _ | ⟨d, run⟩ := run
    · exact pushByte_nil hfits.marker_ge
    · rw [hrep]
      apply pushByte_other hlt hfits.marker_ge
      intro heq
      apply hother
      rw [hrep, heq]
      rfl
  have hv : (receiver M).verdict ((receiver M).push [] fr.marker) = none := by
    rw [receiver_push, pushByte_nil hfits.marker_ge, receiver_verdict]
    apply verdict_of_short
    simp
  have hv' : (receiver M).verdict ((receiver M).push run fr.marker) = none := by
    rw [receiver_push, hpush]
    exact hv
  have hnil := feed_encode hfits
  rw [hcons, Decoder.feed_cons_none hv] at hnil
  rw [hcons, Decoder.feed_cons_none hv', receiver_push, hpush]
  exact hnil

/-! ## Copies of a frame -/

/-- Copies of a frame, back to back. -/
def copies (fr : Frame) (N : ℕ) : List UInt8 := (List.replicate N fr.encode).flatten

theorem copies_succ (fr : Frame) (N : ℕ) : copies fr (N + 1) = fr.encode ++ copies fr N := by
  simp [copies, List.replicate_succ]

theorem copies_length (fr : Frame) (N : ℕ) :
    (copies fr N).length = N * (17 + fr.payload.length) := by
  simp [copies, fr.encode_length]

/-- In copies of the frame back to back, only their beginnings look like a marker. A parser that
starts over inside a copy, wherever that is, then finds the next one. -/
def SelfFraming (fr : Frame) : Prop := NoMarker (fr.encode ++ fr.encode.take 7).tail

/-- **From inside a copy**, the next one is found. -/
theorem SelfFraming.feed_drop (h : SelfFraming fr) (hfits : fr.Fits M) {j : ℕ} (hj : 0 < j) :
    (receiver M).feed [] (fr.encode.drop j ++ fr.encode) = ([.frame fr], []) := by
  have hdrop : fr.encode.drop j ++ fr.encode.take 7 <:+: (fr.encode ++ fr.encode.take 7).tail := by
    have htail : (fr.encode ++ fr.encode.take 7).tail = fr.encode.tail ++ fr.encode.take 7 :=
      List.tail_append_of_ne_nil (by obtain ⟨rest, hcons⟩ := encode_cons fr; simp [hcons])
    obtain ⟨k, rfl⟩ : ∃ k, j = 1 + k := ⟨j - 1, by omega⟩
    have hsplit : fr.encode.tail ++ fr.encode.take 7 =
        fr.encode.tail.take k ++ (fr.encode.drop (1 + k) ++ fr.encode.take 7) := by
      rw [← List.append_assoc, ← List.drop_drop, List.drop_one, List.take_append_drop]
    rw [htail, hsplit]
    exact (List.suffix_append _ _).isInfix
  obtain ⟨run, hfeed, hsuffix, hlt, hrun⟩ :=
    feed_noMarker (M := M) (h.of_infix ((List.prefix_append _ _).isInfix.trans hdrop))
  rw [Decoder.feed_append, hfeed]
  have hother : run.head? ≠ some fr.marker := by
    intro hhead
    -- the run would go on in the marker of the next copy
    obtain ⟨n, hn⟩ : ∃ n, run.length = n + 1 :=
      Nat.exists_eq_succ_of_ne_zero fun hzero => by
        rw [List.length_eq_zero_iff.mp hzero] at hhead
        cases hhead
    obtain ⟨c, -, hrep⟩ := hrun.eq_replicate (Nat.le_of_lt hlt)
    rw [hn, List.replicate_succ] at hrep
    rw [hrep] at hhead hsuffix
    obtain rfl : c = fr.marker := Option.some.inj hhead
    have hmark : List.replicate 8 fr.marker <:+: fr.encode.drop j ++ fr.encode.take 7 := by
      obtain ⟨front, hfront⟩ := hsuffix
      refine ⟨front, List.replicate n fr.marker, ?_⟩
      rw [← hfront, encode_take_marker fr (by decide), List.append_assoc, List.append_assoc,
        ← List.replicate_succ, List.replicate_append_replicate, List.replicate_append_replicate]
      congr 2
      omega
    exact h fr.marker hfits.marker_ge (hmark.trans hdrop)
  rw [feed_run_encode hfits hrun hlt hother]
  rfl

/-- **From the end of any prefix of the copies**, the next whole copy is found. -/
theorem SelfFraming.feed_rest (h : SelfFraming fr) (hfits : fr.Fits M) {pre post : List UInt8}
    {N : ℕ} (hsplit : copies fr N = pre ++ post) (hN : pre.length + 2 ≤ N) :
    ∃ more, ((receiver M).feed [] post).1 = .frame fr :: more := by
  induction N generalizing pre with
  | zero => omega
  | succ N ih =>
    rw [copies_succ] at hsplit
    have hlen := fr.encode_length
    rcases Nat.lt_or_ge pre.length fr.encode.length with hlt | hge
    · -- `pre` ends in the first copy
      have hpost : post = fr.encode.drop pre.length ++ copies fr N := by
        have hdrop := congrArg (List.drop pre.length) hsplit
        rw [List.drop_left, List.drop_append_of_le_length (Nat.le_of_lt hlt)] at hdrop
        exact hdrop.symm
      obtain ⟨K, rfl⟩ : ∃ K, N = K + 1 := ⟨N - 1, by omega⟩
      rcases Nat.eq_zero_or_pos pre.length with hzero | hpos
      · rw [hpost, hzero, List.drop_zero, Decoder.feed_append, feed_encode hfits]
        exact ⟨_, rfl⟩
      · rw [hpost, copies_succ, ← List.append_assoc, Decoder.feed_append,
          h.feed_drop hfits hpos]
        exact ⟨_, rfl⟩
    · -- the first copy is a part of `pre`
      obtain ⟨front, rfl⟩ : ∃ front, pre = fr.encode ++ front := by
        have hpre : fr.encode <+: pre := List.prefix_of_prefix_length_le
          ⟨copies fr N, hsplit⟩ (List.prefix_append pre post) hge
        obtain ⟨front, hfront⟩ := hpre
        exact ⟨front, hfront.symm⟩
      rw [List.append_assoc] at hsplit
      apply ih (List.append_cancel_left hsplit)
      rw [List.length_append] at hN
      omega

/-! ## From any state -/

/-- Enough bytes decide something. -/
theorem feed_ne_nil {acc bytes : List UInt8} (hp : Pending M acc)
    (hrun : MarkerRun (acc ++ bytes)) (hlen : M + 17 ≤ bytes.length) :
    ((receiver M).feed acc bytes).1 ≠ [] := by
  intro hnil
  have hstate := Decoder.feed_of_silent hnil
  have hp' := (hp.feed bytes).length_lt
  have hfold : bytes.foldl (receiver M).push acc = acc ++ bytes := foldl_markerRun hrun
  rw [hstate, hfold, List.length_append] at hp'
  omega

/-- **From any state in which the marker goes on with the copies**: the receiver decides about
what was assembled, at most `M + 17` bytes later, and then finds the frame. -/
theorem SelfFraming.feed_copies (h : SelfFraming fr) (hfits : fr.Fits M) {acc : List UInt8}
    (hp : Pending M acc) {N : ℕ} (hN : M + 19 ≤ N) (hrun : MarkerRun (acc ++ copies fr N)) :
    ∃ n ev more, ((receiver M).feed acc (copies fr N)).1 = ev :: .frame fr :: more ∧
      ∀ g, ev = .frame g → acc ++ (copies fr N).take n = g.encode := by
  have hlong : M + 17 ≤ (copies fr N).length := by
    rw [copies_length]
    have := Nat.le_mul_of_pos_right N (show 0 < 17 + fr.payload.length by omega)
    omega
  -- the first verdict, and the copies from there on
  obtain ⟨pre, b, post, ev, hsplit, hpre, hv, hfeed⟩ :=
    Decoder.feed_first (feed_ne_nil hp hrun hlong)
  have hrun' : MarkerRun (acc ++ (pre ++ [b])) := by
    rw [hsplit, List.append_cons, ← List.append_assoc] at hrun
    exact hrun.of_append
  have hfold : pre.foldl (receiver M).push acc = acc ++ pre := by
    rw [← List.append_assoc] at hrun'
    exact foldl_markerRun hrun'.of_append
  have hp₁ := hp.feed pre
  rw [hpre, hfold] at hp₁
  have hshort := hp₁.length_lt
  rw [List.length_append] at hshort
  have hsplit' : copies fr N = (pre ++ [b]) ++ post := by rw [hsplit, List.append_cons]
  obtain ⟨more, hmore⟩ := h.feed_rest hfits hsplit'
    (by rw [List.length_append, List.length_singleton]; omega)
  refine ⟨pre.length + 1, ev, more, ?_, ?_⟩
  · rw [hfeed]
    exact congrArg (ev :: ·) hmore
  · rintro g rfl
    -- a frame found there is all that was assembled
    rw [hfold, receiver_push] at hv
    have hlast : pushByte (acc ++ pre) b = acc ++ (pre ++ [b]) := by
      rw [← List.append_assoc] at hrun' ⊢
      exact hrun'.pushByte_eq
    rw [← (hp₁.encode_of_push hv).1, hlast, hsplit', List.take_left' (by simp)]

/-! ## Calls of get -/

variable {e e' : Endpoint} {acc acc' : List UInt8} {founds : List (Option RxEvent)}
  {outs : List Outcome}

/-- A call that finds the DATA frame of a message with the expected sequence number delivers
that message. -/
theorem Got.delivers_message {o : Outcome} {cmd : UInt8} {payload : List UInt8}
    (hp : Pending e.frame.payloadMaxSize acc)
    (h : Got e acc (some (.frame (dataFrame cmd e.frame.expectedRxSeq payload))) acc' o e')
    (hseq : e.frame.expectedRxSeq ≤ 63) (hlo : 1 ≤ cmd) (hhi : cmd ≤ 127) :
    o.Delivers ∧ o.ret = cmd.toNat ∧ o.out = some payload := by
  have hdata := dataFrame_isData hlo hhi e.frame.expectedRxSeq payload
  have hsame := faSeqOf_dataFrame hseq cmd payload
  refine ⟨(h.deliversSeq hp hdata hsame).1, ?_⟩
  rcases e.frame.arq.react_delivers (h.fits hp) with
    ⟨cmd', payload', -, -, -, hfound, hreact⟩ | ⟨-, -, -, hne⟩
  · obtain ⟨rfl, -, rfl⟩ : cmd = cmd' ∧ _ ∧ payload = payload' := by
      simpa [dataFrame] using hfound
    exact ⟨by rw [h.ret, hreact], by rw [h.out, hreact]⟩
  · exact absurd hsame (hne _ rfl hdata)

/-- The first DATA frame with the expected sequence number that the calls find is
delivered. -/
theorem Gets.delivers (h : Gets e acc founds acc' outs e')
    (hp : Pending e.frame.payloadMaxSize acc) (hseq : e.frame.expectedRxSeq ≤ 63) {cmd : UInt8}
    {payload : List UInt8} (hlo : 1 ≤ cmd) (hhi : cmd ≤ 127) {evs more : List RxEvent}
    (hfound : founds.reduceOption =
      evs ++ .frame (dataFrame cmd e.frame.expectedRxSeq payload) :: more)
    (hevs : ∀ g, .frame g ∈ evs → g.IsData → faSeqOf g.seqByte ≠ e.frame.expectedRxSeq) :
    ∃ o ∈ outs, o.Delivers ∧ o.ret = cmd.toNat ∧ o.out = some payload := by
  induction h generalizing evs with
  | nil => simp at hfound
  | @cons e acc found acc₁ o e₁ founds acc' outs e' hgot hrest ih =>
    -- a call that passes leaves the rest to the calls after it
    have hnext {evs' : List RxEvent}
        (hno : ∀ g, found = some (.frame g) → g.IsData →
          faSeqOf g.seqByte ≠ e.frame.expectedRxSeq)
        (hfound' : founds.reduceOption =
          evs' ++ .frame (dataFrame cmd e.frame.expectedRxSeq payload) :: more)
        (hevs' : ∀ g, .frame g ∈ evs' → g.IsData →
          faSeqOf g.seqByte ≠ e.frame.expectedRxSeq) :
        ∃ o' ∈ o :: outs, o'.Delivers ∧ o'.ret = cmd.toNat ∧ o'.out = some payload := by
      obtain ⟨-, hexp⟩ := hgot.passes hp hseq hno
      rw [← hexp] at hseq hfound' hevs'
      obtain ⟨o', ho', hall⟩ := ih (hgot.max ▸ hgot.pending) hseq hfound' hevs'
      exact ⟨o', List.mem_cons_of_mem o ho', hall⟩
    obtain _ | ev := found
    · exact hnext (by simp) hfound hevs
    · obtain _ | ⟨ev', evs⟩ := evs
      · obtain ⟨rfl, -⟩ := List.cons.inj hfound
        exact ⟨o, List.mem_cons_self, hgot.delivers_message hp hseq hlo hhi⟩
      · obtain ⟨rfl, hfound'⟩ := List.cons.inj hfound
        refine hnext ?_ hfound' ?_
        · rintro g ⟨⟩
          exact hevs g List.mem_cons_self
        · intro g hg
          exact hevs g (List.mem_cons_of_mem _ hg)

/-- A call that delivers something found a frame. -/
theorem Gets.frame_of_delivers (h : Gets e acc founds acc' outs e')
    (hp : Pending e.frame.payloadMaxSize acc) {o : Outcome} (ho : o ∈ outs) (hdel : o.Delivers) :
    ∃ fr, .frame fr ∈ founds.reduceOption := by
  induction h with
  | nil => cases ho
  | @cons e acc found acc₁ o₁ e₁ founds acc' outs e' hgot hrest ih =>
    rcases List.mem_cons.mp ho with rfl | ho
    · rw [hgot.delivers_iff] at hdel
      rcases e.frame.arq.react_delivers (hgot.fits hp) with
        ⟨cmd, payload, -, -, -, rfl, -⟩ | ⟨hret, -, -, -⟩
      · exact ⟨_, List.mem_cons_self⟩
      · omega
    · obtain ⟨fr, hfr⟩ := ih (hgot.max ▸ hgot.pending) ho
      refine ⟨fr, ?_⟩
      cases found with
      | none => exact hfr
      | some ev => exact List.mem_cons_of_mem ev hfr

/-- What is assembled at `f`, followed by copies of `fr`, becomes no other DATA frame with the
sequence number that is expected. Such a frame would be delivered in the place of `fr`, which
would then be taken for a duplicate of it. -/
def NoImpostor (f : FrameArqT) (fr : Frame) : Prop :=
  ∀ N n g, f.readBuffer.take f.byteCount ++ (copies fr N).take n = g.encode → g.IsData →
    faSeqOf g.seqByte = f.expectedRxSeq → g = fr

omit [Build] in
/-- A marker byte in the place of the sequence byte is no DATA frame. -/
theorem faTypeOf_marker {b : UInt8} (h : 128 ≤ b) : faTypeOf b ≠ faTypeData := by
  have key : ∀ n < 256, 128 ≤ UInt8.ofNat n → faTypeOf (UInt8.ofNat n) ≠ faTypeData := by
    decide +kernel
  exact byte_all (P := fun b => 128 ≤ b → faTypeOf b ≠ faTypeData) key b h

theorem encode_getElem_seq (fr : Frame) : fr.encode[8]? = some fr.seqByte :=
  load_seq List.length_replicate

/-- A marker that began before the first copy shifts its own bytes into the header, and what
comes of it is no DATA frame. -/
theorem not_isData_of_run {fr g : Frame} {k n N : ℕ} (hmark : 128 ≤ fr.marker) (hk : 0 < k)
    (hN : 0 < N)
    (h : List.replicate k fr.marker ++ (copies fr N).take n = g.encode) : ¬ g.IsData := by
  obtain ⟨K, rfl⟩ : ∃ K, N = K + 1 := ⟨N - 1, by omega⟩
  have hlen := congrArg List.length h
  have hseq := encode_getElem_seq g
  rw [g.encode_length, List.length_append, List.length_replicate, List.length_take] at hlen
  rw [← h] at hseq
  have hbyte : g.seqByte = fr.marker := by
    rcases Nat.lt_or_ge 8 k with hlt | hge
    · rw [List.getElem?_append_left (by simpa using hlt), List.getElem?_replicate,
        if_pos hlt] at hseq
      exact (Option.some.inj hseq).symm
    · have hin : 8 - k < 8 := by omega
      have henc := fr.encode_length
      have htake : fr.encode[8 - k]? = some fr.marker := by
        have hget : (fr.encode.take 8)[8 - k]? = some fr.marker := by
          rw [encode_take_marker fr (Nat.le_refl 8), List.getElem?_replicate, if_pos hin]
        rwa [List.getElem?_take, if_pos hin] at hget
      rw [List.getElem?_append_right (by simpa using hge), List.length_replicate,
        List.getElem?_take, if_pos (by omega), copies_succ,
        List.getElem?_append_left (by omega), htake] at hseq
      exact (Option.some.inj hseq).symm
  intro hdata
  exact faTypeOf_marker hmark (hbyte ▸ hdata.2)

/-- The parser is between two frames, or inside a marker that is not that of `fr`. -/
def Elsewhere (f : FrameArqT) (fr : Frame) : Prop :=
  f.byteCount < 8 ∧ (f.byteCount = 0 ∨ f.start ≠ fr.marker)

omit [Build] in
instance (f : FrameArqT) (fr : Frame) : Decidable (Elsewhere f fr) :=
  inferInstanceAs (Decidable (_ ∧ _))

/-- Elsewhere, a run that is assembled is not one of the marker byte of `fr`. -/
theorem Elsewhere.head_ne {f : FrameArqT} (h : Elsewhere f fr) (hold : Holds f acc) :
    acc.head? ≠ some fr.marker := by
  intro hhead
  rcases h.2 with hzero | hne
  · obtain rfl : acc = [] := List.length_eq_zero_iff.mp (hold.count.symm.trans hzero)
    cases hhead
  · exact hne (hold.start _ hhead)

/-- Otherwise the marker is complete, or it goes on with that of the first copy. -/
theorem run_of_not_elsewhere {f : FrameArqT} (h : ¬ Elsewhere f fr) (hold : Holds f acc)
    (hrun : MarkerRun acc) : 8 ≤ f.byteCount ∨ ∃ k, 0 < k ∧ acc = List.replicate k fr.marker := by
  have hcount := hold.count
  rcases Nat.lt_or_ge f.byteCount 8 with hlt | hge
  · obtain ⟨c, -, hrep⟩ := hrun.eq_replicate (by omega)
    obtain ⟨hpos, hsame⟩ : f.byteCount ≠ 0 ∧ f.start = fr.marker := by
      simpa [Elsewhere, hlt] using h
    obtain ⟨n, hn⟩ := Nat.exists_eq_succ_of_ne_zero (hcount ▸ hpos)
    have hhead : acc.head? = some c := by rw [hrep, hn]; rfl
    refine Or.inr ⟨acc.length, by omega, ?_⟩
    rw [← hsame, hold.start c hhead]
    exact hrep
  · exact Or.inl hge

/-- Marker bytes before the first copy make a longer marker. -/
theorem markerRun_copies (hmark : 128 ≤ fr.marker) (k N : ℕ) :
    MarkerRun (List.replicate k fr.marker ++ copies fr (N + 1)) := by
  obtain ⟨rest, hrest⟩ : ∃ rest, fr.encode = List.replicate 8 fr.marker ++ rest :=
    ⟨fr.encode.drop 8, by rw [← encode_take_marker fr (Nat.le_refl 8), List.take_append_drop]⟩
  have hlong := markerRun_replicate hmark (k + 8)
  rw [copies_succ, hrest, List.append_assoc, ← List.append_assoc,
    List.replicate_append_replicate]
  exact hlong.append (by simp) _

/-- **What the copies decide**: after at most one event that is no other DATA frame with the
expected sequence number, the frame. -/
theorem feed_copies {f : FrameArqT} {fr : Frame} (hold : Holds f acc)
    (hp : Pending f.payloadMaxSize acc) (hfits : fr.Fits f.payloadMaxSize)
    (hcond : Elsewhere f fr ∨ (SelfFraming fr ∧ (8 ≤ f.byteCount → NoImpostor f fr))) {N : ℕ}
    (hN : f.payloadMaxSize + 19 ≤ N) :
    ∃ evs more, ((receiver f.payloadMaxSize).feed acc (copies fr N)).1 =
        evs ++ .frame fr :: more ∧
      ∀ g, .frame g ∈ evs → g.IsData → faSeqOf g.seqByte ≠ f.expectedRxSeq := by
  have hcount := hold.count
  obtain ⟨K, rfl⟩ : ∃ K, N = K + 1 := ⟨N - 1, by omega⟩
  by_cases helse : Elsewhere f fr
  · -- the first copy is recognised
    have hlt : acc.length < 8 := hcount ▸ helse.1
    refine ⟨[], ((receiver f.payloadMaxSize).feed [] (copies fr K)).1, ?_, by simp⟩
    rw [copies_succ, Decoder.feed_append,
      feed_run_encode hfits hp.run hlt (helse.head_ne hold)]
    rfl
  · obtain ⟨hself, himpostor⟩ := hcond.resolve_left helse
    have hmark := run_of_not_elsewhere helse hold hp.run
    have hrun : MarkerRun (acc ++ copies fr (K + 1)) := by
      rcases hmark with hge | ⟨k, -, rfl⟩
      · exact hp.run.append (by omega) _
      · exact markerRun_copies hfits.marker_ge k K
    obtain ⟨n, ev, more, hfeed, hev⟩ := hself.feed_copies hfits hp hN hrun
    by_cases hframe : ∃ g, ev = .frame g ∧ g.IsData ∧ faSeqOf g.seqByte = f.expectedRxSeq
    · -- what was assembled became a DATA frame: it is this one
      obtain ⟨g, rfl, hdata, hseq⟩ := hframe
      have henc := hev g rfl
      obtain rfl : g = fr := by
        rcases hmark with hge | ⟨k, hk, rfl⟩
        · refine himpostor hge (K + 1) n g ?_ hdata hseq
          rw [hcount, hold.contents]
          exact henc
        · exact absurd hdata (not_isData_of_run hfits.marker_ge hk (Nat.succ_pos K) henc)
      exact ⟨[], _, hfeed, by simp⟩
    · refine ⟨[ev], more, hfeed, ?_⟩
      intro g hg hdata hseq
      exact hframe ⟨g, (List.mem_singleton.mp hg).symm, hdata, hseq⟩

end

/-- **Resynchronisation.** A message is sent again and again, in whatever portions its copies
arrive, to any reachable controller that expects its sequence number. Enough calls of get use
the input up, and then the message was delivered if there were enough copies: if the parser is
between two frames or inside a marker of another kind, or if the copies look like a marker only
at their beginnings and do not complete what is assembled to another DATA frame with that
number. -/
theorem resynchronises [Build] {f : FrameArqT} (hreach : Reachable f) {cmd : UInt8}
    {payload : List UInt8} (hlo : 1 ≤ cmd) (hhi : cmd ≤ 127)
    (hle : payload.length ≤ f.payloadMaxSize) (hint : payload.length + 17 < 2 ^ 31)
    (hcond : Elsewhere f (dataFrame cmd f.expectedRxSeq payload) ∨
      (SelfFraming (dataFrame cmd f.expectedRxSeq payload) ∧
        (8 ≤ f.byteCount → NoImpostor f (dataFrame cmd f.expectedRxSeq payload)))) :
    ∃ N₀, ∀ N ≥ N₀, ∀ (t : Transport) (n : ℕ),
      t.incoming.reduceOption = copies (dataFrame cmd f.expectedRxSeq payload) N →
      ∃ outs e, Endpoint.run ⟨f, t⟩ (List.replicate n .get) = some (outs, e) ∧
        (t.incoming.length ≤ n → e.transport.incoming = []) ∧
        (e.transport.incoming = [] →
          ∃ o ∈ outs, o.Delivers ∧ o.ret = cmd.toNat ∧ o.out = some payload) := by
  obtain ⟨acc, hold, hp⟩ := hreach.ok.rx
  have hfits : (dataFrame cmd f.expectedRxSeq payload).Fits f.payloadMaxSize :=
    dataFrame_fits hhi hle (by omega)
  refine ⟨f.payloadMaxSize + 19, ?_⟩
  intro N hN t n hin
  obtain ⟨founds, acc', outs, e, hrun, hgets⟩ := Gets.exists_run (e := ⟨f, t⟩) hold hp n
  refine ⟨outs, e, hrun, ?_, ?_⟩
  · intro hn
    have hcalls := Runs.run_length hrun
    rw [List.length_replicate] at hcalls
    exact hgets.used_up (by rw [hcalls]; exact hn)
  intro hused
  have hall : outs.flatMap Outcome.consumed =
      copies (dataFrame cmd f.expectedRxSeq payload) N := (hgets.consumed_all hused).trans hin
  obtain ⟨evs, more, hfeed, hevs⟩ := feed_copies hold hp hfits hcond hN
  have hfound := hgets.feed
  rw [hall] at hfound
  rw [hfound] at hfeed
  exact hgets.delivers hp hreach.ok.expectedRxSeq_le hlo hhi hfeed hevs

theorem resynchronises_one :
    letI : Build := build32
    let f := (Storage.zeroed 1 (by decide)).create
    let half : List UInt8 := List.replicate 8 129 ++ [5]
    ∃ noise e₀, Endpoint.run ⟨f, ⟨half.map some, [], []⟩⟩ [.get] = some (noise, e₀) ∧
      e₀.frame.byteCount = 9 ∧
      ∃ N₀, ∀ N ≥ N₀, ∀ (t : Transport) (n : ℕ),
        t.incoming.reduceOption = copies (dataFrame 1 e₀.frame.expectedRxSeq [7]) N →
        ∃ outs e, Endpoint.run ⟨e₀.frame, t⟩ (List.replicate n .get) = some (outs, e) ∧
          (t.incoming.length ≤ n → e.transport.incoming = []) ∧
          (e.transport.incoming = [] →
            ∃ o ∈ outs, o.Delivers ∧ o.ret = (1 : UInt8).toNat ∧ o.out = some [7]) := by
  let _ : Build := build32
  intro f half
  have hstart : ((Endpoint.run ⟨f, ⟨half.map some, [], []⟩⟩ [.get]).map fun r =>
      decide (r.2.frame.expectedRxSeq = 0 ∧ r.2.frame.payloadMaxSize = 1 ∧
        r.2.frame.byteCount = 9 ∧ r.2.frame.readBuffer.take 9 = half)) = some true := by
    decide +kernel
  obtain ⟨⟨noise, e₀⟩, hrun, hall⟩ := Option.map_eq_some_iff.mp hstart
  obtain ⟨hexp, hmax, hcount, hbuf⟩ := of_decide_eq_true hall
  dsimp only at hexp hmax hcount hbuf
  refine ⟨noise, e₀, hrun, hcount, ?_⟩
  have hreach : Reachable e₀.frame :=
    ⟨Storage.zeroed 1 (by decide), ⟨half.map some, [], []⟩, [.get], noise, e₀, hrun, rfl⟩
  have hself : SelfFraming (dataFrame 1 e₀.frame.expectedRxSeq [7]) := by
    rw [hexp]
    have key : ∀ n < 256, 128 ≤ UInt8.ofNat n → ¬ List.replicate 8 (UInt8.ofNat n) <:+:
        ((dataFrame 1 0 [7]).encode ++ (dataFrame 1 0 [7]).encode.take 7).tail := by
      decide +kernel
    exact fun c => byte_all (P := fun c => 128 ≤ c → ¬ List.replicate 8 c <:+: _) key c
  -- what is assembled has another sequence number
  have hother : NoImpostor e₀.frame (dataFrame 1 e₀.frame.expectedRxSeq [7]) := by
    intro N n g henc _ hseq
    rw [hcount, hbuf] at henc
    have hbyte := encode_getElem_seq g
    rw [← henc, List.getElem?_append_left (by decide)] at hbyte
    obtain hfive : (5 : UInt8) = g.seqByte := Option.some.inj hbyte
    rw [← hfive, hexp] at hseq
    exact absurd hseq (by decide)
  exact resynchronises hreach (by decide) (by decide) (by rw [hmax]; decide) (by decide)
    (Or.inr ⟨hself, fun _ => hother⟩)

/-- **A livelock.** One byte of noise that is the marker byte of a frame whose payload ends
with that byte: every copy of the frame is cut in the same wrong way, and none is ever
delivered. -/
theorem livelock :
    letI : Build := build32
    let f := (Storage.zeroed 1 (by decide)).create
    ∃ noise e₀, Endpoint.run ⟨f, ⟨[some 129], [], []⟩⟩ [.get] = some (noise, e₀) ∧
      e₀.frame.expectedRxSeq = 0 ∧ e₀.frame.payloadMaxSize = 1 ∧
      ∀ (N : ℕ) (t : Transport) (n : ℕ) (outs : List Outcome) (e : Endpoint),
        t.incoming.reduceOption = copies (dataFrame 1 0 [129]) N →
        Endpoint.run ⟨e₀.frame, t⟩ (List.replicate n .get) = some (outs, e) →
          ∀ o ∈ outs, ¬ o.Delivers := by
  let _ : Build := build32
  intro f
  have hstart : ((Endpoint.run ⟨f, ⟨[some 129], [], []⟩⟩ [.get]).map fun r =>
      decide (r.2.frame.expectedRxSeq = 0 ∧ r.2.frame.payloadMaxSize = 1 ∧
        r.2.frame.byteCount = 1 ∧ r.2.frame.readBuffer.take 1 = [129])) = some true := by
    decide +kernel
  obtain ⟨⟨noise, e₀⟩, hrun₀, hall⟩ := Option.map_eq_some_iff.mp hstart
  obtain ⟨hexp, hmax, hcount, hbuf⟩ := of_decide_eq_true hall
  refine ⟨noise, e₀, hrun₀, hexp, hmax, ?_⟩
  intro N t n outs e hin hrun o ho hdel
  have hok : Ok e₀.frame := (run_ok (Storage.zeroed 1 (by decide)).create_ok hrun₀).1
  obtain ⟨acc, hold, hp⟩ := hok.rx
  have hlen : acc.length = 1 := hold.count.symm.trans hcount
  obtain rfl : acc = [129] := by rw [← hold.contents, hlen, hbuf]
  obtain ⟨founds, acc', hgets⟩ := Gets.of_run (e := ⟨e₀.frame, t⟩) hold hp hrun
  -- every copy is an overflow, and leaves its last byte assembled
  have honce : (receiver e₀.frame.payloadMaxSize).feed [129] (dataFrame 1 0 [129]).encode =
      ([.overflow], [129]) := by
    rw [hmax]
    decide +kernel
  have hpfx : founds.reduceOption <+: (List.replicate N [RxEvent.overflow]).flatten := by
    have hprefix : outs.flatMap Outcome.consumed <+: copies (dataFrame 1 0 [129]) N := by
      rw [← hin]
      exact hgets.consumed_prefix
    have hle := Decoder.feed_mono (D := receiver e₀.frame.payloadMaxSize) hprefix [129]
    rwa [hgets.feed, copies, Decoder.feed_replicate honce] at hle
  obtain ⟨fr, hfr⟩ := hgets.frame_of_delivers hp ho hdel
  have hmem := hpfx.subset hfr
  simp at hmem

end HtcwFrameArq
