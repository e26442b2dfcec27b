import HtcwFrameArq.LeftmostRun
import HtcwFrameArq.Receiver
import HtcwFrameArq.Runs

/-!
# The marker of a frame

`read_frame_marker` keeps a candidate and a count. Between two of its calls the buffer holds the
longest run of equal marker bytes at the end of what was read (`Searching`); so the calls report
a marker at the end of the shortest prefix of the stream that ends in eight of them, wherever the
read callback paused (`marker_leftmost`).
-/

namespace HtcwFrameArq

open Memory Runs LeftmostRun

/-- A byte that a marker can consist of. -/
abbrev IsMarkerByte (b : UInt8) : Prop := 128 ≤ b

/-- The controller has read `l` and has not passed the end of a marker in it. -/
structure Searching (f : FrameArqT) (l : List UInt8) : Prop where
  buffer : 8 ≤ f.readBuffer.length
  count : f.byteCount = (trailing IsMarkerByte l).length
  contents : f.readBuffer.take f.byteCount = trailing IsMarkerByte l
  start : ∀ c, (trailing IsMarkerByte l).head? = some c → f.start = c
  undecided : Undecided IsMarkerByte 8 l

section

variable {f : FrameArqT} {l : List UInt8}

theorem Searching.byteCount_le (h : Searching f l) : f.byteCount ≤ 8 := by
  rw [h.count]
  exact h.undecided.trailing_length_le (by decide)

theorem Searching.endsIn_iff (h : Searching f l) :
    EndsIn IsMarkerByte 8 l ↔ f.byteCount = 8 := by
  rw [LeftmostRun.endsIn_iff (by decide), ← h.count]
  have := h.byteCount_le
  omega

/-- The candidate restart leaves a run of one byte. -/
theorem restart_contents (b : UInt8) (hbuf : 8 ≤ f.readBuffer.length) :
    ∃ g, f.restart b = some g ∧ 8 ≤ g.readBuffer.length ∧ g.byteCount = 1 ∧
      g.readBuffer.take 1 = [b] ∧ g.start = b := by
  have hidx : 0 < f.readBuffer.length := by omega
  refine ⟨_, f.restart_eq b hidx, ?_, rfl, ?_, rfl⟩
  · rw [List.length_set]
    exact hbuf
  · exact take_succ_set b hidx

/-- **One byte**: the loop body of `read_frame_marker` is one turn of the search. -/
theorem Searching.markerByte (h : Searching f l) (hlt : f.byteCount < 8) (b : UInt8) :
    ∃ g, markerByte f b = some g ∧ Searching g (l ++ [b]) := by
  have hund : Undecided IsMarkerByte 8 (l ++ [b]) :=
    h.undecided.append_singleton (fun hend => by have := h.endsIn_iff.mp hend; omega) b
  have htrail := trailing_append_singleton (p := IsMarkerByte) l b
  rcases UInt8.lt_or_le b 128 with hb | hb
  · -- not a marker byte: resync
    rw [extend_other (UInt8.not_le.mpr hb)] at htrail
    refine ⟨{ f with byteCount := 0 }, by rw [HtcwFrameArq.markerByte, if_pos hb],
      h.buffer, ?_, ?_, ?_, hund⟩
    · rw [htrail]
      rfl
    · rw [htrail]
      rfl
    · rw [htrail]
      intro c hc
      cases hc
  have hb' : ¬ b < 128 := UInt8.not_lt.mpr hb
  obtain ⟨g, hg, hbuf, hcount, htake, hstart⟩ := restart_contents b h.buffer
  have hnew (hhead : (trailing IsMarkerByte l).head? ≠ some b) : Searching g (l ++ [b]) := by
    rw [extend_new hb hhead] at htrail
    refine ⟨hbuf, ?_, ?_, ?_, hund⟩
    · rw [htrail, hcount]
      rfl
    · rw [htrail, hcount, htake]
    · rw [htrail, hstart]
      intro c hc
      exact Option.some.inj hc
  rcases hrun : trailing IsMarkerByte l with _ | ⟨c, run⟩
  · -- the first candidate
    have hzero : f.byteCount = 0 := by
      rw [h.count, hrun]
      rfl
    refine ⟨g, ?_, hnew (by rw [hrun]; simp)⟩
    rw [HtcwFrameArq.markerByte, if_neg hb', if_pos hzero, hg]
  · have hpos : f.byteCount ≠ 0 := by
      rw [h.count, hrun]
      simp
    have hcand : f.start = c := h.start c (by rw [hrun]; rfl)
    by_cases hbc : b = c
    · -- the run goes on
      subst hbc
      have hidx : f.byteCount < f.readBuffer.length := by have := h.buffer; omega
      have hhead : (trailing IsMarkerByte l).head? = some b := by
        rw [hrun]
        rfl
      rw [extend_same hb hhead] at htrail
      have hbyte := HtcwFrameArq.markerByte.eq_def f b
      rw [if_neg hb', if_neg hpos, if_pos hcand.symm, f.append_eq b hidx] at hbyte
      refine ⟨_, hbyte, ?_, ?_, ?_, ?_, hund⟩
      · rw [List.length_set]
        exact h.buffer
      · rw [htrail, List.length_append, ← h.count]
        rfl
      · rw [htrail, take_succ_set b hidx, h.contents]
      · rw [htrail, hrun]
        intro c hc
        exact hcand.trans (Option.some.inj hc)
    · -- mismatch: another candidate
      refine ⟨g, ?_, hnew (by rw [hrun]; exact fun hc => hbc (Option.some.inj hc).symm)⟩
      rw [HtcwFrameArq.markerByte, if_neg hb', if_neg hpos, if_neg (by rw [hcand]; exact hbc), hg]

/-- **One call**: it takes bytes until the marker is complete, or until none is available. -/
theorem Searching.call (h : Searching f l) (incoming : List (Option UInt8)) :
    ∃ r used, readFrameMarker f incoming = some r ∧ incoming = used ++ r.incoming ∧
      Searching r.frame (l ++ used.reduceOption) ∧
      (r.res = success ∧ r.frame.byteCount = 8 ∨
        r.res = incomplete ∧ f.byteCount < 8 ∧ r.frame.byteCount < 8 ∧
          r.incoming.length ≤ incoming.length - 1) := by
  induction incoming generalizing f l with
  | nil =>
    rcases Nat.lt_or_ge f.byteCount 8 with hlt | hge
    · exact ⟨_, [], readFrameMarker_nil hlt, rfl, by simpa using h,
        Or.inr ⟨rfl, hlt, hlt, Nat.zero_le _⟩⟩
    · exact ⟨_, [], readFrameMarker_of_ge [] hge, rfl, by simpa using h,
        Or.inl ⟨rfl, Nat.le_antisymm h.byteCount_le hge⟩⟩
  | cons a rest ih =>
    rcases Nat.lt_or_ge f.byteCount 8 with hlt | hge
    · obtain _ | b := a
      · exact ⟨_, [none], readFrameMarker_none rest hlt, rfl, by simpa using h,
          Or.inr ⟨rfl, hlt, hlt, Nat.le_refl _⟩⟩
      · obtain ⟨g, hg, hsearch⟩ := h.markerByte hlt b
        obtain ⟨r, used, hr, hsrc, hsearch', hres⟩ := ih hsearch
        refine ⟨r, some b :: used, ?_, by rw [hsrc]; rfl, ?_, ?_⟩
        · rw [readFrameMarker_some rest hlt hg, hr]
        · rw [List.reduceOption_cons_of_some, List.append_cons]
          exact hsearch'
        · rcases hres with hdone | ⟨hres, -, hlt', hlen⟩
          · exact Or.inl hdone
          · refine Or.inr ⟨hres, hlt, hlt', ?_⟩
            rw [List.length_cons]
            omega
    · exact ⟨_, [], readFrameMarker_of_ge _ hge, rfl, by simpa using h,
        Or.inl ⟨rfl, Nat.le_antisymm h.byteCount_le hge⟩⟩

end

/-! ## Repeated calls -/

/-- One of the repeated calls: what it returns, and the controller and the rest of the answers
of the read callback that it leaves. -/
def markerCall (s : FrameArqT × List (Option UInt8)) (_ : Unit) :
    Option (Int × FrameArqT × List (Option UInt8)) :=
  (readFrameMarker s.1 s.2).map fun r => (r.res, r.frame, r.incoming)

/-- `n` calls of `read_frame_marker`, one after the other. -/
def markerCalls (n : ℕ) (f : FrameArqT) (incoming : List (Option UInt8)) :
    Option (List Int × FrameArqT × List (Option UInt8)) :=
  run markerCall (f, incoming) (List.replicate n ())

/-- What holds after some calls: `results` are those they returned. -/
def Called (incoming : List (Option UInt8)) (results : List Int)
    (s : FrameArqT × List (Option UInt8)) : Prop :=
  ∃ used, incoming = used ++ s.2 ∧ Searching s.1 used.reduceOption ∧
    (success ∈ results → s.1.byteCount = 8) ∧
    (success ∉ results → s.1.byteCount < 8 ∧ s.2.length ≤ incoming.length - results.length)

theorem Called.step {incoming : List (Option UInt8)} {results : List Int}
    {s : FrameArqT × List (Option UInt8)} (h : Called incoming results s) :
    ∃ res s', markerCall s () = some (res, s') ∧ Called incoming (results ++ [res]) s' := by
  obtain ⟨used, hsrc, hsearch, hfound, hnot⟩ := h
  obtain ⟨r, used', hr, hsrc', hsearch', hres⟩ := hsearch.call s.2
  refine ⟨r.res, (r.frame, r.incoming), by rw [markerCall, hr]; rfl, used ++ used', ?_, ?_, ?_, ?_⟩
  · rw [List.append_assoc, ← hsrc', hsrc]
  · rw [List.reduceOption_append]
    exact hsearch'
  · intro hmem
    rcases hres with ⟨-, hdone⟩ | ⟨hinc, hlt, -⟩
    · exact hdone
    · -- a call that needs more bytes comes after no success
      exfalso
      rcases List.mem_append.mp hmem with hbefore | hlast
      · have := hfound hbefore
        omega
      · rw [← List.mem_singleton.mp hlast] at hinc
        exact absurd hinc (by decide)
  · intro hmem
    rw [List.mem_append, not_or, List.mem_singleton] at hmem
    obtain ⟨-, hlen⟩ := hnot hmem.1
    rcases hres with ⟨hok, -⟩ | ⟨-, -, hlt, hlen'⟩
    · exact absurd hok.symm hmem.2
    · refine ⟨hlt, ?_⟩
      rw [List.length_append, List.length_singleton]
      dsimp only
      omega

/-- Every number of calls is defined. -/
theorem markerCalls_called {f : FrameArqT} (hcount : f.byteCount = 0)
    (hbuf : 8 ≤ f.readBuffer.length) (incoming : List (Option UInt8)) (n : ℕ) :
    ∃ results s, markerCalls n f incoming = some (results, s) ∧ results.length = n ∧
      Called incoming results s := by
  have hstart : Called incoming [] (f, incoming) := by
    refine ⟨[], rfl, ⟨hbuf, hcount, ?_, ?_, undecided_nil⟩, ?_, ?_⟩
    · rw [hcount]
      rfl
    · intro c hc
      cases hc
    · intro hmem
      cases hmem
    · intro _
      exact ⟨by rw [hcount]; decide, Nat.le_refl _⟩
  have hall : ∀ call ∈ List.replicate n (), True := fun _ _ => trivial
  obtain ⟨results, s, hrun, hcalled⟩ :=
    run_total (P := Called incoming) (fun h _ => h.step) hstart hall
  have hlen := run_length hrun
  rw [List.length_replicate] at hlen
  exact ⟨results, s, hrun, hlen, hcalled⟩

/-- **Marker detection finds the leftmost run.** From `byte_count = 0`, whatever the read
callback answers, any number of calls of `read_frame_marker` is defined. If one of them reports
the marker complete, the bytes taken are the shortest prefix of the stream that ends in eight
equal marker bytes, and these are the first eight of the buffer. None does so if the stream has no
such run; if it has one, enough calls do. Noise before a marker that has no such run and does not
end in the marker byte does not prevent it from being found where it is. -/
theorem marker_leftmost {f : FrameArqT} (hcount : f.byteCount = 0)
    (hbuf : 8 ≤ f.readBuffer.length) (incoming : List (Option UInt8)) (n : ℕ) :
    ∃ results g rest used, markerCalls n f incoming = some (results, g, rest) ∧
      incoming = used ++ rest ∧
      (success ∈ results →
        Leftmost IsMarkerByte 8 used.reduceOption incoming.reduceOption ∧
        ∃ c, 128 ≤ c ∧ g.readBuffer.take 8 = List.replicate 8 c ∧
          List.replicate 8 c <:+ used.reduceOption) ∧
      ((¬ ∃ c : UInt8, 128 ≤ c ∧ List.replicate 8 c <:+: incoming.reduceOption) →
        success ∉ results) ∧
      (incoming.length ≤ n →
        (∃ c : UInt8, 128 ≤ c ∧ List.replicate 8 c <:+: incoming.reduceOption) →
        success ∈ results) ∧
      ∀ noise c tail, 128 ≤ c →
        (¬ ∃ c' : UInt8, 128 ≤ c' ∧ List.replicate 8 c' <:+: noise) → noise.getLast? ≠ some c →
        incoming.reduceOption = noise ++ List.replicate 8 c ++ tail → incoming.length ≤ n →
        success ∈ results ∧ used.reduceOption = noise ++ List.replicate 8 c ∧
          g.readBuffer.take 8 = List.replicate 8 c := by
  obtain ⟨results, ⟨g, rest⟩, hrun, hlen, used, hsrc, hsearch, hfound, hnot⟩ :=
    markerCalls_called hcount hbuf incoming n
  dsimp only at hsrc hsearch hfound hnot
  have hpre : used.reduceOption <+: incoming.reduceOption := by
    rw [hsrc, List.reduceOption_append]
    exact List.prefix_append _ _
  have hdone (hmem : success ∈ results) :
      Leftmost IsMarkerByte 8 used.reduceOption incoming.reduceOption :=
    hsearch.undecided.leftmost hpre (hsearch.endsIn_iff.mpr (hfound hmem))
  have hbuffer (hmem : success ∈ results) {c : UInt8} (hc : 128 ≤ c)
      (hsuf : List.replicate 8 c <:+ used.reduceOption) :
      g.readBuffer.take 8 = List.replicate 8 c := by
    have hcount8 := hfound hmem
    have hcontents := hsearch.contents
    rw [hcount8] at hcontents
    exact hcontents.trans (trailing_of_endsIn hc hsuf (hsearch.count.symm.trans hcount8))
  have hall (hn : incoming.length ≤ n)
      (hrun : ∃ c : UInt8, 128 ≤ c ∧ List.replicate 8 c <:+: incoming.reduceOption) :
      success ∈ results := by
    -- otherwise all bytes have been taken, and none of them was the last of a run
    by_contra hmem
    obtain ⟨hlt, hrest⟩ := hnot hmem
    have hnil : rest = [] := List.eq_nil_of_length_eq_zero (by omega)
    rw [hnil, List.append_nil] at hsrc
    obtain ⟨l, hl, hend⟩ := hasRun_iff.mp hrun
    rw [hsrc] at hl
    by_cases heq : l = used.reduceOption
    · have := hsearch.endsIn_iff.mp (heq ▸ hend)
      omega
    · exact hsearch.undecided l hl heq hend
  refine ⟨results, g, rest, used, hrun, hsrc, ?_, ?_, hall, ?_⟩
  · intro hmem
    obtain ⟨c, hc, hsuf⟩ := (hdone hmem).endsIn
    exact ⟨hdone hmem, c, hc, hbuffer hmem hc hsuf, hsuf⟩
  · intro hnone hmem
    exact hnone (hasRun_iff.mpr ⟨_, hpre, (hdone hmem).endsIn⟩)
  · intro noise c tail hc hnone hlast hstream hn
    have hleft : Leftmost IsMarkerByte 8 (noise ++ List.replicate 8 c)
        (noise ++ List.replicate 8 c ++ tail) :=
      leftmost_noise (by decide) hc hnone hlast
    rw [← hstream] at hleft
    have hmem := hall hn (hasRun_iff.mpr ⟨_, hleft.isPrefix, hleft.endsIn⟩)
    have hused := (hdone hmem).unique hleft
    exact ⟨hmem, hused, hbuffer hmem hc (hused ▸ List.suffix_append _ _)⟩

/-- A candidate, text, the read callback pausing, and then a marker. -/
theorem marker_leftmost_one :
    letI : Build := build32
    let f := (Storage.zeroed 0 (by decide)).create
    let incoming := [some 200, some 65, none] ++ List.replicate 8 (some 129) ++ [some 0]
    ∃ results g rest used, markerCalls 12 f incoming = some (results, g, rest) ∧
      incoming = used ++ rest ∧ success ∈ results ∧
      used.reduceOption = [200, 65] ++ List.replicate 8 129 ∧
      g.readBuffer.take 8 = List.replicate 8 129 := by
  let _ : Build := build32
  intro f incoming
  obtain ⟨results, g, rest, used, hrun, hsrc, -, -, -, hnoise⟩ :=
    marker_leftmost (f := f) rfl (by decide) incoming 12
  have hnone : ¬ ∃ c : UInt8, 128 ≤ c ∧ List.replicate 8 c <:+: ([200, 65] : List UInt8) := by
    rintro ⟨c, -, hrun⟩
    exact absurd hrun.length_le (by simp)
  obtain ⟨hmem, hused, hbuffer⟩ :=
    hnoise [200, 65] 129 [0] (by decide) hnone (by decide) (by decide) (by decide)
  exact ⟨results, g, rest, used, hrun, hsrc, hmem, hused, hbuffer⟩

end HtcwFrameArq
