import HtcwFrameArq.Receiver

/-!
# Decoding what was encoded

From an empty state the receiver recognises a frame that fits at the last byte of its
encoding and not before (`feed_encode`, `pump_encode`), and likewise a frame whose CRC does not
match (`feed_corrupt`). Bytes below 128 leave an empty state empty (`feed_text`).
-/

namespace HtcwFrameArq

open Memory

variable [Build] {M : ℕ} {fr : Frame}

/-! ## The bytes of a frame, one by one -/

theorem encode_take_marker (fr : Frame) {n : ℕ} (hn : n ≤ 8) :
    fr.encode.take n = List.replicate n fr.marker := by
  rw [Frame.encode, fields, List.append_assoc, List.append_assoc,
    List.take_append_of_le_length (by simpa using hn), List.take_replicate, Nat.min_eq_left hn]

theorem Frame.Fits.markerRun (hfits : fr.Fits M) : MarkerRun fr.encode := by
  have hlen := fr.encode_length
  exact ⟨fr.marker, hfits.marker_ge, by rw [encode_take_marker fr (Nat.le_refl 8),
    Nat.min_eq_left (by omega)]⟩

theorem Frame.Fits.markerRun_take (hfits : fr.Fits M) (n : ℕ) : MarkerRun (fr.encode.take n) := by
  have hrun := hfits.markerRun
  rw [← List.take_append_drop n fr.encode] at hrun
  exact hrun.of_append

/-- The receiver assembles an encoding byte by byte. -/
theorem pushByte_encode (hfits : fr.Fits M) {n : ℕ} (h : n < fr.encode.length) :
    pushByte (fr.encode.take n) fr.encode[n] = fr.encode.take (n + 1) := by
  have hrun := hfits.markerRun_take (n + 1)
  rw [List.take_succ_eq_append_getElem h] at hrun ⊢
  exact hrun.pushByte_eq

/-- A part of an encoding decides nothing. -/
theorem verdict_encode_take (hfits : fr.Fits M) {n : ℕ} (h : n < fr.encode.length) :
    verdict M (fr.encode.take n) = none := by
  have hlen := fr.encode_length
  rcases Nat.lt_or_ge n 17 with hn | hn
  · exact verdict_of_short (by rw [List.length_take]; omega)
  · have hm : (List.replicate 8 fr.marker).length = 8 := List.length_replicate
    have htake : fr.encode.take n = fields (List.replicate 8 fr.marker) fr.seqByte fr.size fr.crc
        ++ fr.payload.take (n - 17) := by
      rw [Frame.encode, List.take_append, fields_length hm,
        List.take_of_length_le (by rw [fields_length hm]; exact hn)]
    have hsize := Frame.size_toNat hfits.length_lt
    have hle := hfits.length_le
    rw [htake, verdict_fields hm (by rw [hsize, List.length_take]; omega), hsize,
      if_neg (Nat.not_lt.mpr hle), if_pos (by rw [List.length_take]; omega)]

/-- A whole encoding is the frame. -/
theorem verdict_encode (hfits : fr.Fits M) : verdict M fr.encode = some (.frame fr) := by
  have hm : (List.replicate 8 fr.marker).length = 8 := List.length_replicate
  have hsize := Frame.size_toNat hfits.length_lt
  have hle := hfits.length_le
  have hcrc : fr.crc = crcOf (fr.seqByte :: leBytes fr.size) fr.payload := rfl
  rw [Frame.encode, verdict_fields hm (by rw [hsize]), hsize, if_neg (Nat.not_lt.mpr hle),
    if_neg (Nat.lt_irrefl _), if_neg (not_not.mpr hcrc)]
  rfl

/-! ## Feeding an encoding -/

/-- A part of an encoding is assembled as it is. -/
theorem feed_encode_take (hfits : fr.Fits M) {n : ℕ} (h : n < fr.encode.length) :
    (receiver M).feed [] (fr.encode.take n) = ([], fr.encode.take n) := by
  have hquiet : ∀ k, 0 < k → k ≤ (fr.encode.take n).length → (receiver M).verdict
      (((fr.encode.take n).take k).foldl (receiver M).push []) = none := by
    intro k hk hle
    rw [List.length_take] at hle
    have hacc : (fr.encode.take k).foldl (receiver M).push [] = fr.encode.take k :=
      (hfits.markerRun_take k).foldl
    rw [List.take_take, Nat.min_eq_left (by omega), hacc]
    exact verdict_encode_take hfits (by omega)
  rw [Decoder.feed_silent hquiet]
  exact congrArg (Prod.mk []) (hfits.markerRun_take n).foldl

/-- The last byte of an encoding completes the frame. -/
theorem encode_eq_concat (fr : Frame) :
    ∃ b, fr.encode = fr.encode.take (fr.encode.length - 1) ++ [b] ∧
      ∀ M, fr.Fits M → (receiver M).verdict ((receiver M).push
        (fr.encode.take (fr.encode.length - 1)) b) = some (.frame fr) := by
  have hlen := fr.encode_length
  have hlt : fr.encode.length - 1 < fr.encode.length := by omega
  have hsucc : fr.encode.length - 1 + 1 = fr.encode.length := by omega
  have hsplit := List.take_succ_eq_append_getElem hlt
  rw [hsucc, List.take_length] at hsplit
  refine ⟨fr.encode[fr.encode.length - 1], hsplit, ?_⟩
  intro M hfits
  rw [receiver_push, receiver_verdict, pushByte_encode hfits hlt, hsucc, List.take_length]
  exact verdict_encode hfits

/-- **Decoding an encoding.** -/
theorem feed_encode (hfits : fr.Fits M) :
    (receiver M).feed [] fr.encode = ([.frame fr], []) := by
  obtain ⟨b, hsplit, hv⟩ := encode_eq_concat fr
  have hlen := fr.encode_length
  rw [hsplit, Decoder.feed_append, feed_encode_take hfits (by omega),
    Decoder.feed_cons_some (hv M hfits)]
  rfl

/-- **One call on an encoding** recognises the frame and takes no byte past its end. -/
theorem pump_encode (hfits : fr.Fits M) (rest : List (Option UInt8)) :
    (receiver M).pump [] (fr.encode.map some ++ rest) = (some (.frame fr), [], rest) := by
  obtain ⟨b, hsplit, hv⟩ := encode_eq_concat fr
  have hlen := fr.encode_length
  have hlt : fr.encode.length - 1 < fr.encode.length := by omega
  have hfeed := feed_encode_take hfits hlt
  rw [hsplit, List.map_append, List.append_assoc]
  have := hv M hfits
  refine Decoder.pump_of_feed (by rw [hfeed]) ?_ rest
  rwa [hfeed]

/-! ## Frames that are not complete -/

omit [Build] in
/-- Bytes that go on with a marker run are assembled as they are. -/
theorem foldl_markerRun {acc bytes : List UInt8} (h : MarkerRun (acc ++ bytes)) :
    bytes.foldl pushByte acc = acc ++ bytes := by
  have hacc := h.of_append.foldl
  have hall := h.foldl
  rw [List.foldl_append, hacc] at hall
  exact hall

/-- Nothing is decided before the header is complete. -/
theorem feed_header {acc bytes : List UInt8} (h : MarkerRun (acc ++ bytes))
    (hlen : (acc ++ bytes).length < 17) : (receiver M).feed acc bytes = ([], acc ++ bytes) := by
  have hquiet : ∀ n, 0 < n → n ≤ bytes.length →
      (receiver M).verdict ((bytes.take n).foldl (receiver M).push acc) = none := by
    intro n _ _
    have hrun : MarkerRun (acc ++ bytes.take n) := by
      rw [← List.take_append_drop n bytes, ← List.append_assoc] at h
      exact h.of_append
    have hfold : (bytes.take n).foldl (receiver M).push acc = acc ++ bytes.take n :=
      foldl_markerRun hrun
    rw [hfold, receiver_verdict]
    apply verdict_of_short
    rw [List.length_append, List.length_take] at *
    omega
  rw [Decoder.feed_silent hquiet]
  exact congrArg (Prod.mk []) (foldl_markerRun h)

/-- A header whose length field is above the maximum is an oversized length on its last byte. -/
theorem feed_oversize {c s : UInt8} {v w : UInt32} (hc : 128 ≤ c) (hv : M < v.toNat) :
    (receiver M).feed [] (fields (List.replicate 8 c) s v w) = ([.overflow], []) := by
  have hrun : MarkerRun (fields (List.replicate 8 c) s v w) := by
    rw [fields, List.append_assoc]
    exact (markerRun_replicate hc 8).append (by simp) _
  have hlen : (fields (List.replicate 8 c) s v w).length = 17 := fields_length List.length_replicate
  obtain ⟨front, b, hsplit⟩ : ∃ front b, fields (List.replicate 8 c) s v w = front ++ [b] :=
    ⟨_, _, (List.dropLast_append_getLast (by
      intro h
      rw [h] at hlen
      cases hlen)).symm⟩
  have hverdict : verdict M (pushByte front b) = some .overflow := by
    have hnone : ([] : List UInt8).length ≤ v.toNat := Nat.zero_le _
    have h := verdict_fields (M := M) (m := List.replicate 8 c) (s := s) (w := w)
      List.length_replicate hnone
    rw [hsplit] at hrun
    rwa [if_pos hv, List.append_nil, hsplit, ← hrun.pushByte_eq] at h
  rw [hsplit] at hrun hlen ⊢
  rw [List.length_append, List.length_singleton] at hlen
  have hfront : (receiver M).feed [] front = ([], front) :=
    feed_header hrun.of_append (show front.length < 17 by omega)
  rw [Decoder.feed_append, hfront, Decoder.feed_cons_some hverdict]
  rfl

/-- Nothing is decided before as many bytes are there as the length field says, whatever they
are. -/
theorem feed_incomplete {c s : UInt8} {v : UInt32} {rest : List UInt8} (hc : 128 ≤ c)
    (hv : v.toNat ≤ M) (hrest : rest.length < 4 + v.toNat) :
    (receiver M).feed [] (List.replicate 8 c ++ s :: leBytes v ++ rest) =
      ([], List.replicate 8 c ++ s :: leBytes v ++ rest) := by
  have hrun : MarkerRun (List.replicate 8 c ++ s :: leBytes v ++ rest) := by
    rw [List.append_assoc]
    exact (markerRun_replicate hc 8).append (by simp) _
  have hhead : (List.replicate 8 c ++ s :: leBytes v).length = 13 := by simp
  have hquiet : ∀ n, 0 < n → n ≤ (List.replicate 8 c ++ s :: leBytes v ++ rest).length →
      (receiver M).verdict (((List.replicate 8 c ++ s :: leBytes v ++ rest).take n).foldl
        (receiver M).push []) = none := by
    intro n hn hle
    have hrun' : MarkerRun ((List.replicate 8 c ++ s :: leBytes v ++ rest).take n) := by
      rw [← List.take_append_drop n (List.replicate 8 c ++ s :: leBytes v ++ rest)] at hrun
      exact hrun.of_append
    have hfold : ((List.replicate 8 c ++ s :: leBytes v ++ rest).take n).foldl
        (receiver M).push [] = (List.replicate 8 c ++ s :: leBytes v ++ rest).take n :=
      hrun'.foldl
    rw [hfold, receiver_verdict]
    -- before the header is complete, and behind it
    rcases Nat.lt_or_ge n 13 with hlt | hge
    · apply verdict_of_short
      rw [List.length_take]
      omega
    · rw [List.take_append, List.take_of_length_le (by rw [hhead]; exact hge), hhead]
      apply verdict_header (by simp) hv
      rw [List.length_take]
      omega
  rw [Decoder.feed_silent hquiet]
  exact congrArg (Prod.mk []) hrun.foldl

/-- A complete block whose CRC does not match is a CRC failure on its last byte, and nothing
before it. -/
theorem feed_corrupt {c s : UInt8} {v w : UInt32} {body : List UInt8} (hc : 128 ≤ c)
    (hv : v.toNat ≤ M) (hbody : body.length = v.toNat) (hw : w ≠ crcOf (s :: leBytes v) body) :
    ∃ front b, fields (List.replicate 8 c) s v w ++ body = front ++ [b] ∧
      (receiver M).feed [] front = ([], front) ∧
      verdict M (pushByte front b) = some .crcError := by
  have hlen : (leBytes w ++ body).length = 4 + v.toNat := by simp [hbody]
  obtain ⟨init, b, hinit⟩ : ∃ init b, leBytes w ++ body = init ++ [b] :=
    ⟨_, _, (List.dropLast_append_getLast (by simp [leBytes])).symm⟩
  have hsplit : fields (List.replicate 8 c) s v w ++ body =
      (List.replicate 8 c ++ s :: leBytes v ++ init) ++ [b] := by
    rw [fields, List.append_assoc, hinit, List.append_assoc _ init]
  have hrun : MarkerRun (fields (List.replicate 8 c) s v w ++ body) := by
    rw [fields, List.append_assoc, List.append_assoc]
    exact (markerRun_replicate hc 8).append (by simp) _
  refine ⟨_, b, hsplit, ?_, ?_⟩
  · apply feed_incomplete hc hv
    have := congrArg List.length hinit
    rw [hlen, List.length_append, List.length_singleton] at this
    omega
  · rw [hsplit] at hrun
    rw [hrun.pushByte_eq, ← hsplit, verdict_fields List.length_replicate (Nat.le_of_eq hbody),
      if_neg (Nat.not_lt.mpr hv), if_neg (by omega), if_pos hw]

/-! ## Text -/

/-- **Text** leaves nothing assembled. -/
theorem feed_text {text : List UInt8} (h : ∀ b ∈ text, b < 128) :
    (receiver M).feed [] text = ([], []) := by
  induction text with
  | nil => rfl
  | cons b text ih =>
    have hpush : (receiver M).push [] b = [] := by
      rw [receiver_push]
      exact pushByte_low (by decide) (h b List.mem_cons_self)
    have hv : (receiver M).verdict ((receiver M).push [] b) = none := by
      rw [hpush, receiver_verdict]
      exact verdict_of_short (by decide)
    rw [Decoder.feed_cons_none hv, hpush]
    exact ih fun c hc => h c (List.mem_cons_of_mem b hc)

end HtcwFrameArq
