import HtcwFrameArq.SessionReader
import HtcwFrameArq.Stream

/-!
# Do the two parsers agree?

Both ends read the same stream of bytes: the library by calls of get, the session by its read
loop. `parsers_agree` says on which streams they find the same events at the same places: on
those where no byte completes the marker of the library while the session has counted only six
bytes of it. That happens when a byte from 128 on stands directly before a marker
(`frame_missed`).
-/

namespace HtcwFrameArq

open EspSerialSession

/-! ## What calls of get find -/

/-- What the parser finds in a call of get. -/
def Outcome.event? (o : Outcome) : Option RxEvent :=
  match o.received with
  | some fr => some (.frame fr)
  | none =>
    if o.ret = errorCrc then some .crcError
    else if o.ret = errorOverflow then some .overflow else none

/-- What calls find, each with the number of bytes taken up to it, where `n` have been taken
before. -/
def eventsOf : ℕ → List Outcome → List (ℕ × RxEvent)
  | _, [] => []
  | n, o :: outs =>
    o.event?.toList.map (fun ev => (n + o.consumed.length, ev)) ++
      eventsOf (n + o.consumed.length) outs

/-- On `bytes`, in whatever portions they arrive, enough calls of get on a new controller find
what the read loop finds, at the same places. -/
def SameEvents [Build] (logging : Bool) (bytes : List UInt8) : Prop :=
  ∀ (s : Storage) (t : Transport) (n : ℕ), s.payloadMaxSize = 32768 →
    t.incoming.reduceOption = bytes → t.incoming.length ≤ n →
      ∃ outs e, Endpoint.run ⟨s.create, t⟩ (List.replicate n .get) = some (outs, e) ∧
        outs.flatMap Outcome.consumed = bytes ∧
        eventsOf 0 outs = (reader logging).events 0 .start bytes

/-- No byte completes the marker of the library while the session has counted only six. At a byte
that does not continue a run the library starts a new one and the session drops it, so the library
can be one byte ahead; that shows only if it gets through to the eighth byte in that way. -/
def StaysAbreast [Build] (logging : Bool) (bytes : List UInt8) : Prop :=
  ∀ pre b post, bytes = pre ++ b :: post →
    ¬ CompletesAhead (library.after [] pre) ((reader logging).after .start pre) b

section

variable [Build] {e e' : Endpoint} {acc acc' : List UInt8} {found : Option RxEvent}
  {founds : List (Option RxEvent)} {o : Outcome} {outs : List Outcome}

theorem Got.event?_eq (h : Got e acc found acc' o e') : o.event? = found := by
  rw [Outcome.event?, h.received, h.ret]
  cases found with
  | none => rfl
  | some ev => cases ev <;> rfl

/-- A call puts out what it finds at the last byte it takes. -/
theorem Got.events (h : Got e acc found acc' o e') (n : ℕ) :
    (receiver e.frame.payloadMaxSize).transducer.events n acc o.consumed =
      o.event?.toList.map fun ev => (n + o.consumed.length, ev) := by
  rw [h.event?_eq]
  cases found with
  | none => exact Decoder.events_of_silent (congrArg Prod.fst h.feed) n
  | some ev =>
    obtain ⟨init, b, acc₁, hsplit, hsilent, hv, -⟩ := h.found_at
    rw [hsplit]
    exact Decoder.events_of_last hsilent hv n

/-- **Calls of get** put out what the transducer of the receiver does. -/
theorem Gets.events (h : Gets e acc founds acc' outs e') (n : ℕ) :
    (receiver e.frame.payloadMaxSize).transducer.events n acc (outs.flatMap Outcome.consumed) =
      eventsOf n outs := by
  induction h generalizing n with
  | nil => rfl
  | @cons e acc found acc₁ o e₁ founds acc' outs e' hgot hrest ih =>
    rw [List.flatMap_cons, Transducer.events_append, hgot.events,
      Decoder.after_of_feed hgot.feed, eventsOf]
    rw [hgot.max] at ih
    rw [ih]

/-- The comparison is one of the two transducers. -/
theorem sameEvents_iff {logging : Bool} {bytes : List UInt8} :
    SameEvents logging bytes ↔
      library.events 0 [] bytes = (reader logging).events 0 .start bytes := by
  constructor
  · intro h
    have hfits : 32768 + 17 < 2 ^ Build.sizeBits :=
      lt_of_lt_of_le (by decide) (Nat.pow_le_pow_right (by decide) Build.sizeBits_ge)
    have hin : (bytes.map some).reduceOption = bytes := by simp [List.reduceOption]
    obtain ⟨outs, e, hrun, hall, hevents⟩ := h (.zeroed 32768 hfits) ⟨bytes.map some, [], []⟩
      bytes.length rfl hin (by rw [List.length_map])
    obtain ⟨founds, acc', hgets⟩ := Gets.of_run (e := ⟨_, _⟩) (Begins.created _).spec.2.1
      (pending_nil _) hrun
    rw [← hevents, ← hgets.events, hall]
    rfl
  · intro h s t n hs hin hn
    obtain ⟨founds, acc', outs, e, hrun, hgets⟩ := Gets.exists_run (e := ⟨s.create, t⟩)
      (Begins.created s).spec.2.1 (pending_nil _) n
    have hcalls := Runs.run_length hrun
    rw [List.length_replicate] at hcalls
    have hall : outs.flatMap Outcome.consumed = bytes :=
      (hgets.consumed_all (hgets.used_up (by rw [hcalls]; exact hn))).trans hin
    have hevents := hgets.events 0
    have hmax : (Endpoint.mk s.create t).frame.payloadMaxSize = 32768 := hs
    rw [hmax, hall] at hevents
    exact ⟨outs, e, hrun, hall, hevents.symm.trans h⟩

/-! ## On which streams they agree -/

variable {logging : Bool} {bytes pre text : List UInt8} {b : UInt8}

/-- **On a stream on which they stay abreast** they find the same. -/
theorem StaysAbreast.lockstep (h : StaysAbreast logging bytes) :
    library.events 0 [] bytes = (reader logging).events 0 .start bytes ∧
      Abreast (library.after [] bytes) ((reader logging).after .start bytes) := by
  have hstart : Abreast [] .start := .inl (.idle rfl)
  refine Transducer.lockstep ?_ hstart 0 h
  intro acc loop b habreast hkeep
  have hagree : Agree logging Abreast acc loop b := habreast.read hkeep
  exact ⟨hagree.event, hagree.next⟩

/-- **The two parsers agree on such a stream**: calls of get find on it what the read loop does, at
the same places, in whatever portions its bytes arrive. -/
theorem StaysAbreast.sameEvents (h : StaysAbreast logging bytes) : SameEvents logging bytes :=
  sameEvents_iff.mpr h.lockstep.1

theorem StaysAbreast.of_prefix (h : StaysAbreast logging bytes) (hpre : pre <+: bytes) :
    StaysAbreast logging pre := by
  obtain ⟨rest, rfl⟩ := hpre
  rintro front b post rfl
  exact h front b (post ++ rest) (by rw [List.append_assoc, List.cons_append])

theorem library_markerRun (bytes : List UInt8) : MarkerRun (library.after [] bytes) := by
  have hfeed := Decoder.feed_eq (D := receiver 32768) 0 [] bytes
  have hpend := (pending_nil 32768).feed bytes
  rw [hfeed] at hpend
  exact hpend.run

/-- Text completes no marker. -/
theorem StaysAbreast.append_text (h : StaysAbreast logging pre) (htext : ∀ b ∈ text, b < 128) :
    StaysAbreast logging (pre ++ text) := by
  intro front b post hsplit
  rcases List.append_eq_append_iff.mp hsplit with ⟨mid, rfl, hmid⟩ | ⟨mid, rfl, hmid⟩
  · -- the byte is one of the text
    rintro ⟨hlen, hhead, -⟩
    obtain ⟨c, hc, hacc⟩ := (library_markerRun (pre ++ mid)).eq_replicate (by rw [hlen]; decide)
    rw [hlen] at hacc
    rw [hacc] at hhead
    obtain rfl : c = b := Option.some.inj hhead
    have hmem : c ∈ text := by rw [hmid]; simp
    exact absurd hc (UInt8.not_le.mpr (htext c hmem))
  · obtain _ | ⟨a, mid⟩ := mid
    · -- the byte is the first one of the text
      rintro ⟨hlen, hhead, -⟩
      obtain ⟨c, hc, hacc⟩ := (library_markerRun front).eq_replicate (by rw [hlen]; decide)
      rw [hlen] at hacc
      rw [hacc] at hhead
      obtain rfl : c = b := Option.some.inj hhead
      have hmem : c ∈ text := by rw [← List.nil_append text, ← hmid]; simp
      exact absurd hc (UInt8.not_le.mpr (htext c hmem))
    · obtain ⟨rfl, hpost⟩ := List.cons.inj hmid
      exact h front b mid rfl

/-! ## On which streams they do not -/

omit [Build] in
/-- What the parsers amount to when the library completes a marker ahead of the session. -/
theorem EspSerialSession.CompletesAhead.eq {acc : List UInt8} {loop : ReadLoop}
    (h : CompletesAhead acc loop b) (habreast : Abreast acc loop) :
    128 ≤ b ∧ acc = List.replicate 7 b ∧ loop = .header (machineOf (List.replicate 6 b)) := by
  obtain ⟨hlen, hhead, mach, hloop, hstate⟩ := h
  rcases habreast with h | h
  · cases h with
    | idle => cases hlen
    | header =>
      have : acc.length = 6 := by
        rw [← hstate]
        exact congrArg StateMachine.state (ReadLoop.header.inj hloop)
      omega
    | payload => cases hloop
  · cases h with
    | one => cases hlen
    | @more c n hc hpos h7 =>
      rw [List.length_replicate] at hlen
      obtain rfl : n = 6 := by omega
      obtain rfl : c = b := Option.some.inj hhead
      exact ⟨hc, rfl, rfl⟩

/-- A header that announces more than any maximum, in bytes below 128, without its marker. -/
def hugeHeader : List UInt8 := 0 :: leBytes 0x7F000000 ++ leBytes 0

omit [Build] in
theorem hugeHeader_text : ∀ b ∈ hugeHeader, b < 128 := by decide +kernel

/-- The library, with a complete marker, finds an oversized length. -/
theorem library_hugeHeader (hb : 128 ≤ b) (n : ℕ) :
    library.events n (List.replicate 8 b) hugeHeader ≠ [] := by
  intro h
  have hall := feed_oversize (M := 32768) (s := 0) (v := 0x7F000000) (w := 0) hb (by decide)
  have hmarker : (receiver 32768).feed [] (List.replicate 8 b) = ([], List.replicate 8 b) :=
    feed_header (markerRun_replicate hb 8) (show 8 < 17 by decide)
  have hsplit : fields (List.replicate 8 b) 0 0x7F000000 0 = List.replicate 8 b ++ hugeHeader :=
    List.append_assoc ..
  rw [hsplit, Decoder.feed_append, hmarker, Decoder.feed_eq n (List.replicate 8 b)] at hall
  rw [library] at h
  rw [h] at hall
  cases hall

omit [Build] in
/-- The session, looking for a marker, finds nothing in text and goes on looking for one. -/
theorem reader_text {mach : StateMachine} (hstate : mach.state = 0) (htext : ∀ b ∈ text, b < 128)
    (n : ℕ) : (reader logging).events n (.header mach) text = [] ∧
      ∃ mach', (reader logging).after (.header mach) text = .header mach' ∧ mach'.state = 0 := by
  induction text generalizing mach n with
  | nil => exact ⟨rfl, mach, rfl, hstate⟩
  | cons b text ih =>
    have hzero : (mach.step logging b).machine.state = 0 :=
      step_idle_low hstate (htext b List.mem_cons_self)
    have hread : (reader logging).step (.header mach) b = (none, .header _) :=
      reader_header rfl (by rw [hzero]; decide)
    rw [Transducer.events_cons_none _ hread, Transducer.after_cons, hread]
    exact ih hzero (fun b hb => htext b (List.mem_cons_of_mem _ hb)) (n + 1)

omit [Build] in
/-- The session, with one byte of the marker missing, finds nothing in that header. -/
theorem reader_hugeHeader (hb : 128 ≤ b) (n : ℕ) :
    (reader logging).events n (.header (machineOf (List.replicate 7 b))) hugeHeader = [] := by
  have hne : (0 : UInt8) ≠ b := by
    rintro rfl
    exact absurd hb (by decide)
  have hzero : ((machineOf (List.replicate 7 b)).step logging 0).machine.state = 0 :=
    step_other (by decide) (by decide) hne
  change (reader logging).events n _ (0 :: (leBytes 0x7F000000 ++ leBytes 0)) = []
  rw [Transducer.events_cons_none _ (reader_header rfl (by rw [hzero]; decide))]
  exact (reader_text hzero (fun b hb => hugeHeader_text b (List.mem_cons_of_mem 0 hb)) (n + 1)).1

/-- **After a marker completed ahead** the parsers take that header differently. -/
theorem EspSerialSession.CompletesAhead.differ (h : StaysAbreast logging pre)
    (hahead : CompletesAhead (library.after [] pre) ((reader logging).after .start pre) b) :
    library.events 0 [] (pre ++ [b] ++ hugeHeader) ≠
      (reader logging).events 0 .start (pre ++ [b] ++ hugeHeader) := by
  obtain ⟨hevents, habreast⟩ := h.lockstep
  obtain ⟨hb, hacc, hloop⟩ := hahead.eq habreast
  have hlib : library.step (List.replicate 7 b) b = (none, List.replicate 8 b) :=
    library_short (pushByte_same (by decide) hb) (by rw [List.length_replicate]; decide)
  have hread : (reader logging).step (.header (machineOf (List.replicate 6 b))) b =
      (none, .header (machineOf (List.replicate 7 b))) :=
    reader_header (step_same (by decide) (by decide)) (by
      rw [machineOf_replicate (by decide) (by decide)]
      exact show 7 ≠ 17 by decide)
  -- the header that follows the marker is decided by the library only
  intro hsame
  rw [List.append_assoc, Transducer.events_append, Transducer.events_append _ _ _ pre, hevents,
    List.append_cancel_left_eq, hacc, hloop, List.singleton_append,
    Transducer.events_cons_none _ hlib, Transducer.events_cons_none _ hread,
    reader_hugeHeader hb] at hsame
  exact library_hugeHeader hb _ hsame

end

/-- **Where the two parsers agree.** On a stream, and on everything that begins like it and goes
on with text, the library and the session find the same events at the same places if and only
if no byte of the stream completes the marker of the library while the session has counted only
six bytes of it. -/
theorem parsers_agree [Build] (logging : Bool) (bytes : List UInt8) :
    (∀ pre text, pre <+: bytes → (∀ b ∈ text, b < 128) → SameEvents logging (pre ++ text)) ↔
      StaysAbreast logging bytes := by
  constructor
  · intro h
    -- by induction on the length: before the first such byte the parsers are abreast
    have hfirst (n : ℕ) : ∀ pre b post, pre.length < n → bytes = pre ++ b :: post →
        ¬ CompletesAhead (library.after [] pre) ((reader logging).after .start pre) b := by
      induction n with
      | zero => exact fun pre b post hlt => absurd hlt (Nat.not_lt_zero _)
      | succ n ih =>
        intro pre b post hlt hsplit hahead
        have hbefore : StaysAbreast logging pre := by
          rintro front a rest rfl
          apply ih front a (rest ++ b :: post)
          · rw [List.length_append, List.length_cons] at hlt
            omega
          · rw [hsplit, List.append_assoc, List.cons_append]
        have hpre : pre ++ [b] <+: bytes := ⟨post, by rw [hsplit, List.append_assoc]; rfl⟩
        exact hahead.differ hbefore (sameEvents_iff.mp (h _ _ hpre hugeHeader_text))
    exact fun pre b post hsplit => hfirst _ pre b post (Nat.lt_succ_self _) hsplit
  · intro h pre text hpre htext
    exact ((h.of_prefix hpre).append_text htext).sameEvents

/-- A byte 129 stands directly before a frame with marker 130: the library receives the frame,
the session does not. -/
theorem frame_missed :
    letI : Build := build32
    let bytes := 129 :: (dataFrame 2 0 []).encode
    library.events 0 [] bytes = [(18, .frame (dataFrame 2 0 []))] ∧
      (reader false).events 0 .start bytes = [] ∧ ¬ SameEvents false bytes := by
  let _ : Build := build32
  intro bytes
  have hlib : library.events 0 [] bytes = [(18, .frame (dataFrame 2 0 []))] := by decide +kernel
  have hread : (reader false).events 0 .start bytes = [] := by decide +kernel
  refine ⟨hlib, hread, fun hsame => ?_⟩
  have := sameEvents_iff.mp hsame
  rw [hlib, hread] at this
  cases this

end HtcwFrameArq
