import HtcwFrameArq.CheckSum
import HtcwFrameArq.Stream

/-!
# Bursts

`burst_detected`: a DATA frame that is damaged in at most four consecutive payload bytes, in
its sequence/type byte or in its CRC bytes is reported as a CRC failure on its last byte. The
CRC is as wide as the burst, so no change of that kind keeps it (`Burst.corrupt`).
-/

namespace HtcwFrameArq

/-- `bytes'` is the frame `bytes` after a change of at most four consecutive bytes of the
payload, of the sequence/type byte, or of the CRC bytes. -/
inductive Burst : List UInt8 → List UInt8 → Prop where
  | payload {pre old new post : List UInt8} (hpre : 17 ≤ pre.length)
      (hlen : old.length = new.length) (hle : old.length ≤ 4) (hne : old ≠ new) :
      Burst (pre ++ old ++ post) (pre ++ new ++ post)
  | seqByte {pre post : List UInt8} {s s' : UInt8} (hpre : pre.length = 8) (hne : s ≠ s') :
      Burst (pre ++ s :: post) (pre ++ s' :: post)
  | crc {pre old new post : List UInt8} (hpre : pre.length = 13) (hold : old.length = 4)
      (hnew : new.length = 4) (hne : old ≠ new) :
      Burst (pre ++ old ++ post) (pre ++ new ++ post)

section

variable [Build]

/-- Bursts change the CRC of a block. -/
theorem crcOf_burst (head pre post : List UInt8) {old new : List UInt8}
    (hlen : old.length = new.length) (hle : old.length ≤ 4) (hne : old ≠ new) :
    crcOf head (pre ++ old ++ post) ≠ crcOf head (pre ++ new ++ post) := by
  intro h
  rw [crcOf, crcOf, UInt32.xor_left_inj, List.append_assoc, List.append_assoc,
    faCrcUpdate_append _ pre, faCrcUpdate_append _ pre] at h
  exact faCrcUpdate_burst _ hlen hle hne post h

/-- Another sequence/type byte has another CRC. -/
theorem crcOf_seqByte (length body : List UInt8) {s s' : UInt8} (hne : s ≠ s') :
    crcOf (s :: length) body ≠ crcOf (s' :: length) body := by
  intro h
  rw [crcOf, crcOf, UInt32.xor_left_inj, ← faCrcUpdate_append, ← faCrcUpdate_append] at h
  have hne' : [s] ≠ [s'] := fun h => hne (List.cons.inj h).1
  have hlen : [s].length = [s'].length := rfl
  exact faCrcUpdate_burst _ hlen (Nat.le_add_left 1 3) hne' (length ++ body) h

/-- **A damaged frame does not match its CRC**; marker and length field are as they were. -/
theorem Burst.corrupt {fr : Frame} (hlt : fr.payload.length < 2 ^ 32) {bytes : List UInt8}
    (h : Burst fr.encode bytes) :
    ∃ s w body, bytes = fields (List.replicate 8 fr.marker) s fr.size w ++ body ∧
      body.length = fr.size.toNat ∧ w ≠ crcOf (s :: leBytes fr.size) body := by
  have hsize := Frame.size_toNat hlt
  generalize henc : fr.encode = enc at h
  rw [Frame.encode] at henc
  cases h with
  | @payload pre old new post hpre hlen hle hne =>
    -- the change lies behind the header
    obtain ⟨front, hpreEq⟩ : ∃ front, pre =
        fields (List.replicate 8 fr.marker) fr.seqByte fr.size fr.crc ++ front := by
      have hpfx : fields (List.replicate 8 fr.marker) fr.seqByte fr.size fr.crc <+: pre := by
        refine List.prefix_of_prefix_length_le (?_ : _ <+: pre ++ (old ++ post)) ?_ ?_
        · rw [← List.append_assoc, ← henc]
          exact List.prefix_append _ _
        · exact List.prefix_append _ _
        · rw [fields_length List.length_replicate]
          exact hpre
      obtain ⟨front, hfront⟩ := hpfx
      exact ⟨front, hfront.symm⟩
    subst hpreEq
    have hbody : fr.payload = front ++ old ++ post := by
      simpa only [List.append_assoc, List.append_cancel_left_eq] using henc
    refine ⟨fr.seqByte, fr.crc, front ++ new ++ post, by simp only [List.append_assoc], ?_, ?_⟩
    · rw [hsize, hbody]
      simp [hlen]
    · rw [Frame.crc, hbody]
      exact crcOf_burst _ front post hlen hle hne
  | @seqByte pre post s s' hpre hne =>
    rw [fields, List.append_assoc, List.append_assoc] at henc
    obtain ⟨hmark, hrest⟩ := List.append_inj henc (by rw [hpre, List.length_replicate])
    obtain ⟨rfl, hpost⟩ := List.cons.inj hrest
    refine ⟨s', fr.crc, fr.payload, ?_, hsize.symm, ?_⟩
    · rw [fields, ← hmark, ← hpost, List.append_assoc, List.append_assoc]
      rfl
    · rw [Frame.crc]
      exact crcOf_seqByte _ _ hne
  | @crc pre old new post hpre hold hnew hne =>
    obtain ⟨hfront, hpost⟩ := List.append_inj henc
      (by rw [fields_length List.length_replicate, List.length_append, hpre, hold])
    obtain ⟨hhead, hcrc⟩ := List.append_inj hfront (by simp [hpre])
    obtain ⟨w, rfl⟩ := exists_leBytes hnew
    refine ⟨fr.seqByte, w, fr.payload, ?_, hsize.symm, ?_⟩
    · rw [fields, hhead, hpost]
    · rintro rfl
      exact hne hcrc.symm

/-! ## The call that takes the last byte -/

variable {e e' : Endpoint} {acc acc' acc₁ : List UInt8} {founds : List (Option RxEvent)}
  {outs : List Outcome}

/-- A call that finds nothing does nothing. -/
theorem Got.idle {o : Outcome} (h : Got e acc none acc' o e') :
    o.ret = success ∧ o.out = none ∧ o.written = [] :=
  ⟨h.ret, h.out, List.prefix_nil.mp h.written⟩

/-- A call that finds nothing ends before the event. -/
theorem Got.before_event {o : Outcome} {bytes rest : List UInt8} {b : UInt8} {ev : RxEvent}
    (h : Got e acc none acc' o e')
    (hsilent : (receiver e.frame.payloadMaxSize).feed acc bytes = ([], acc₁))
    (hv : verdict e.frame.payloadMaxSize (pushByte acc₁ b) = some ev)
    (hpfx : o.consumed <+: bytes ++ b :: rest) : o.consumed <+: bytes := by
  rcases Nat.lt_or_ge bytes.length o.consumed.length with hlt | hge
  · -- the bytes this call took would have shown it the event
    obtain ⟨more, hmore⟩ : bytes ++ [b] <+: o.consumed := by
      refine List.prefix_of_prefix_length_le ⟨rest, by simp⟩ hpfx ?_
      rw [List.length_append]
      exact hlt
    have hfeed := h.feed
    rw [← hmore, List.append_assoc, Decoder.feed_append, hsilent, List.singleton_append,
      Decoder.feed_cons_some hv] at hfeed
    cases hfeed
  · exact List.prefix_of_prefix_length_le hpfx (List.prefix_append _ _) hge

/-- A call that finds something ends with the event. -/
theorem Got.at_event {o : Outcome} {bytes rest : List UInt8} {b : UInt8} {ev ev' : RxEvent}
    (h : Got e acc (some ev') acc' o e')
    (hsilent : (receiver e.frame.payloadMaxSize).feed acc bytes = ([], acc₁))
    (hv : verdict e.frame.payloadMaxSize (pushByte acc₁ b) = some ev)
    (hpfx : o.consumed <+: bytes ++ b :: rest) : o.consumed = bytes ++ [b] ∧ ev' = ev := by
  obtain ⟨init, b', acc₃, hinit, hfeed, hv', rfl⟩ := h.found_at
  have hone (front : List UInt8) (c : UInt8) {s : List UInt8} {ev : RxEvent}
      (hf : (receiver e.frame.payloadMaxSize).feed acc front = ([], s))
      (hc : verdict e.frame.payloadMaxSize (pushByte s c) = some ev) :
      ((receiver e.frame.payloadMaxSize).feed acc (front ++ [c])).1 = [ev] := by
    rw [Decoder.feed_append, hf, Decoder.feed_cons_some hc]
    rfl
  -- both beginnings of the input end at their first event, so they are the same
  have hcons : o.consumed = bytes ++ [b] := by
    rw [hinit] at hpfx ⊢
    apply Decoder.feed_exact hpfx (⟨rest, by simp⟩ : bytes ++ [b] <+: bytes ++ b :: rest)
    · rw [hone _ _ hfeed hv', hone _ _ hsilent hv]
      rfl
    · rw [hone _ _ hfeed hv', hfeed]
      exact Nat.one_pos
    · rw [hone _ _ hsilent hv, hsilent]
      exact Nat.one_pos
  refine ⟨hcons, ?_⟩
  obtain ⟨rfl, hb⟩ := List.append_inj' (hinit.symm.trans hcons) rfl
  obtain rfl : b' = b := by simpa using hb
  obtain rfl : acc₃ = acc₁ := congrArg Prod.snd (hfeed.symm.trans hsilent)
  exact Option.some.inj (hv'.symm.trans hv)

/-- **The first verdict**: over bytes that decide nothing and a byte that completes an event,
some call takes that byte last and finds the event; the calls before it do nothing. -/
theorem Gets.first {bytes rest : List UInt8} {b : UInt8} {ev : RxEvent}
    (h : Gets e acc founds acc' outs e')
    (hsilent : (receiver e.frame.payloadMaxSize).feed acc bytes = ([], acc₁))
    (hv : verdict e.frame.payloadMaxSize (pushByte acc₁ b) = some ev)
    (hall : outs.flatMap Outcome.consumed = bytes ++ b :: rest) :
    ∃ pre o post e₁ acc₂ e₂, outs = pre ++ o :: post ∧
      (∀ o' ∈ pre, o'.ret = success ∧ o'.out = none ∧ o'.written = []) ∧
      (pre ++ [o]).flatMap Outcome.consumed = bytes ++ [b] ∧
      e₁.frame.arq = e.frame.arq ∧ (e.transport.Succeeds → e₁.transport.Succeeds) ∧
      Got e₁ acc₂ (some ev) [] o e₂ := by
  induction h generalizing bytes with
  | nil => simp at hall
  | @cons e acc found acc₂ o e₁ founds acc' outs e' hgot hrest ih =>
    rw [List.flatMap_cons] at hall
    have hpfx : o.consumed <+: bytes ++ b :: rest := by
      rw [← hall]
      exact List.prefix_append _ _
    cases found with
    | none =>
      -- the calls after it see the rest of these bytes
      obtain ⟨bytes', rfl⟩ := hgot.before_event hsilent hv hpfx
      rw [Decoder.feed_append, hgot.feed] at hsilent
      rw [List.append_assoc, List.append_cancel_left_eq] at hall
      obtain ⟨pre, o', post, e₂, acc₃, e₃, rfl, hpre, hlast, harq, hres, hgot'⟩ :=
        ih (by rw [hgot.max]; exact hsilent) (by rw [hgot.max]; exact hv) hall
      refine ⟨o :: pre, o', post, e₂, acc₃, e₃, rfl, ?_, ?_, ?_, ?_, hgot'⟩
      · intro o'' ho''
        rcases List.mem_cons.mp ho'' with rfl | ho''
        · exact hgot.idle
        · exact hpre o'' ho''
      · rw [List.cons_append, List.flatMap_cons, hlast, List.append_assoc]
      · exact harq.trans hgot.arq
      · intro hnil
        exact hres (hgot.replied hnil).2
    | some ev' =>
      obtain ⟨hcons, rfl⟩ := hgot.at_event hsilent hv hpfx
      obtain ⟨init, b', acc₃, -, -, -, rfl⟩ := hgot.found_at
      exact ⟨[], o, outs, e, acc, e₁, rfl, by simp, by simpa using hcons, rfl, id, hgot⟩

/-- Calls of get do not touch the retained frame. -/
theorem Gets.retained (h : Gets e acc founds acc' outs e') :
    e'.frame.retainBuffer = e.frame.retainBuffer ∧
      e'.frame.retainLength = e.frame.retainLength := by
  induction h with
  | nil => exact ⟨rfl, rfl⟩
  | cons hgot hrest ih =>
    obtain ⟨_, ⟨_, _, _, rfl⟩, heq⟩ := hgot.frame
    rw [heq] at ih
    exact ih

/-- Calls that find nothing but CRC failures leave the ARQ fields as they are. -/
theorem Gets.arq_of_corrupt (h : Gets e acc founds acc' outs e')
    (hfound : ∀ ev ∈ founds.reduceOption, ev = .crcError) : e'.frame.arq = e.frame.arq := by
  induction h with
  | nil => rfl
  | @cons e acc found acc₁ o e₁ founds acc' outs e' hgot hrest ih =>
    cases found with
    | none =>
      rw [List.reduceOption_cons_of_none] at hfound
      exact (ih hfound).trans hgot.arq
    | some ev =>
      rw [List.reduceOption_cons_of_some] at hfound
      obtain rfl := hfound ev List.mem_cons_self
      exact (ih fun ev' hev' => hfound ev' (List.mem_cons_of_mem _ hev')).trans hgot.arq

/-- What a put that returns success wrote is the frame of its message. -/
theorem Ok.put_written {g : Endpoint} (h : Ok g.frame) {cmd : UInt8} {payload : Payload}
    {o : Outcome} {g' : Endpoint} (hs : g.exec (.put cmd payload) = some (o, g'))
    (hret : o.ret = success) :
    ∃ seq body, cmd ≤ 127 ∧ body.length = payload.size ∧
      o.written = (dataFrame cmd seq body).encode := by
  obtain ⟨hacc, hwritten, -⟩ := h.put_success hs hret
  refine ⟨g.frame.nextSeq, putBody g.frame.retainBuffer payload.pointer payload.size, hacc.2.1,
    ?_, hwritten⟩
  exact putBody_length (by rw [h.retain]; have := hacc.2.2.1; omega) payload.size_le

end

/-- **Bursts are detected.** A DATA frame that put wrote reaches a controller that is between
two frames after a burst, in whatever portions and whatever follows it. Enough calls of get use
the input up, and then one of them took exactly the last byte of the frame: it returns a CRC
failure, delivers nothing and writes a NACK of the expected sequence number; the calls before it
do nothing, and the controller it leaves is as before. -/
theorem burst_detected [Build] {g : FrameArqT} (hsender : Reachable g) {t₀ : Transport}
    {cmd : UInt8} {payload : Payload} {sent : Outcome} {g' : Endpoint}
    (hput : Endpoint.exec ⟨g, t₀⟩ (.put cmd payload) = some (sent, g'))
    (hsent : sent.ret = success) {f : FrameArqT} (hreach : Reachable f)
    (hcount : f.byteCount = 0) (hle : payload.size ≤ f.payloadMaxSize)
    (hint : f.payloadMaxSize + 17 < 2 ^ 31) {bytes rest : List UInt8}
    (hburst : Burst sent.written bytes) (t : Transport)
    (hin : t.incoming.reduceOption = bytes ++ rest) (n : ℕ) :
    ∃ outs e, Endpoint.run ⟨f, t⟩ (List.replicate n .get) = some (outs, e) ∧
      (t.incoming.length ≤ n → e.transport.incoming = []) ∧
      (e.transport.incoming = [] → ∃ pre o post e₁, outs = pre ++ o :: post ∧
        Endpoint.run ⟨f, t⟩ (List.replicate (pre.length + 1) .get) = some (pre ++ [o], e₁) ∧
        (pre ++ [o]).flatMap Outcome.consumed = bytes ∧
        (∀ o' ∈ pre, o'.ret = success ∧ o'.out = none ∧ o'.written = []) ∧
        o.ret = errorCrc ∧ o.out = none ∧
        (t.Succeeds → o.written = (controlFrame faTypeNack f.expectedRxSeq).encode) ∧
        e₁.frame.arq = f.arq ∧ e₁.frame.retainBuffer = f.retainBuffer ∧
        e₁.frame.retainLength = f.retainLength ∧ e₁.frame.byteCount = 0) := by
  obtain ⟨seq, body, hhi, hbody, hwritten⟩ := hsender.ok.put_written hput hsent
  have hfits : (dataFrame cmd seq body).Fits f.payloadMaxSize :=
    dataFrame_fits hhi (hbody ▸ hle) (by omega)
  rw [hwritten] at hburst
  obtain ⟨s, w, damaged, rfl, hlen, hw⟩ := hburst.corrupt hfits.length_lt
  have hv : (dataFrame cmd seq body).size.toNat ≤ f.payloadMaxSize := by
    rw [Frame.size_toNat hfits.length_lt]
    exact hfits.length_le
  -- the damaged frame is silent up to its last byte
  obtain ⟨front, b, hsplit, hsilent, hverdict⟩ := feed_corrupt hfits.marker_ge hv hlen hw
  obtain ⟨acc, hold, hp⟩ := hreach.ok.rx
  obtain rfl : acc = [] := List.length_eq_zero_iff.mp (hold.count.symm.trans hcount)
  obtain ⟨founds, acc', outs, e, hrun, hgets⟩ := Gets.exists_run (e := ⟨f, t⟩) hold hp n
  refine ⟨outs, e, hrun, ?_, ?_⟩
  · intro hn
    have hcalls := Runs.run_length hrun
    rw [List.length_replicate] at hcalls
    exact hgets.used_up (by rw [hcalls]; exact hn)
  · intro hused
    have hall : outs.flatMap Outcome.consumed = front ++ b :: rest := by
      rw [hgets.consumed_all hused, hin, hsplit, List.append_assoc]
      rfl
    obtain ⟨pre, o, post, e₁, acc₁, e₂, rfl, hpre, hlast, harq, hres, hgot⟩ :=
      hgets.first hsilent hverdict hall
    -- the run is cut after the call that took this byte
    have hcut : Runs.run Endpoint.exec ⟨f, t⟩ (List.replicate n .get) =
        some ((pre ++ [o]) ++ post, e) := by
      rw [List.append_assoc]
      exact hrun
    obtain ⟨e₁, hrun₁⟩ := Runs.run_take hcut
    have hlen₁ := Runs.run_length hrun
    rw [List.length_append, List.length_cons, List.length_replicate] at hlen₁
    rw [List.take_replicate, List.length_append, List.length_singleton,
      Nat.min_eq_left (by omega)] at hrun₁
    obtain ⟨founds₁, acc₃, hgets₁⟩ := Gets.of_run (e := ⟨f, t⟩) hold hp hrun₁
    have hfeed : (receiver f.payloadMaxSize).feed [] (front ++ [b]) =
        (founds₁.reduceOption, acc₃) := by
      rw [← hlast]
      exact hgets₁.feed
    rw [Decoder.feed_append, hsilent, Decoder.feed_cons_some hverdict] at hfeed
    obtain ⟨hfounds, hacc⟩ := Prod.mk.inj hfeed
    refine ⟨pre, o, post, e₁, rfl, hrun₁, hlast.trans hsplit.symm, hpre, hgot.ret, hgot.out, ?_,
      ?_, hgets₁.retained.1, hgets₁.retained.2, ?_⟩
    · intro ht
      rw [(hgot.replied (hres ht)).1, harq]
      rfl
    · apply hgets₁.arq_of_corrupt
      rw [← hfounds]
      simp
    · rw [(hgets₁.holds hold hp).1.count, ← hacc]
      rfl

theorem burst_detected_one :
    letI : Build := build32
    let f := (Storage.zeroed 1 (by decide)).create
    let bytes := (dataFrame 1 0 [7]).encode.set 17 8
    ∃ outs e, Endpoint.run ⟨f, ⟨bytes.map some, [0, 1], []⟩⟩ (List.replicate 18 .get) =
        some (outs, e) ∧
      ∃ o ∈ outs, o.ret = errorCrc ∧ o.written = (controlFrame faTypeNack 0).encode := by
  let _ : Build := build32
  intro f bytes
  have hreach : Reachable f :=
    ⟨Storage.zeroed 1 (by decide), ⟨[], [], []⟩, [], [], ⟨f, ⟨[], [], []⟩⟩, rfl, rfl⟩
  have hsome : ((Endpoint.exec ⟨f, ⟨[], [], []⟩⟩ (.put 1 (.bytes [7]))).map fun r =>
      decide (r.1.ret = success ∧ r.1.written = (dataFrame 1 0 [7]).encode)) = some true := by
    decide +kernel
  obtain ⟨⟨sent, g'⟩, hput, hall⟩ := Option.map_eq_some_iff.mp hsome
  obtain ⟨hret, hwritten⟩ := of_decide_eq_true hall
  have hburst : Burst sent.written bytes := by
    rw [hwritten]
    exact @Burst.payload ((dataFrame 1 0 [7]).encode.take 17) [7] [8] [] (by decide) rfl
      (by decide) (by decide)
  have hin : (bytes.map some).reduceOption = bytes ++ [] := by simp [List.reduceOption]
  obtain ⟨outs, e, hrun, hused, hdone⟩ := burst_detected hreach hput hret hreach rfl (by decide)
    (by decide) hburst ⟨bytes.map some, [0, 1], []⟩ hin 18
  obtain ⟨pre, o, post, -, rfl, -, -, -, hcrc, -, hnack, -⟩ := hdone (hused (by decide))
  exact ⟨_, e, hrun, o, by simp, hcrc, hnack (by decide)⟩

end HtcwFrameArq
