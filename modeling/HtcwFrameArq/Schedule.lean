import HtcwFrameArq.Stream

/-!
# Schedules

Two endpoints receive the same bytes, but the bytes come in other portions, get is called at
other times and with other puts and resends in between, and the write callbacks answer
otherwise. `schedule_independent` says that the receive direction does not depend on any of
this: `Endpoint.Receives.run` shows that what a run reports and decides, and what it leaves
assembled, is a function of the bytes it took.
-/

namespace HtcwFrameArq

/-! ## The receive direction of a run -/

/-- What a returned value and a payload report: a delivery, a CRC failure or an oversized
length. -/
def report? (ret : Int) (out : Option (List UInt8)) : Option (Int × Option (List UInt8)) :=
  if 0 < ret ∨ ret = errorCrc ∨ ret = errorOverflow then some (ret, out) else none

/-- What a call reports if it is one of get. -/
def Outcome.report? (o : Outcome) : Option (Int × Option (List UInt8)) :=
  if o.call = .get then HtcwFrameArq.report? o.ret o.out else none

/-- What the calls of get report: the commands with their payloads, the CRC failures and the
oversized lengths, in order. -/
def reports (outs : List Outcome) : List (Int × Option (List UInt8)) :=
  outs.filterMap Outcome.report?

/-- The type and the sequence number of a control frame. -/
def controlFields (seqByte : UInt8) : UInt8 × UInt8 := (faTypeOf seqByte, faSeqOf seqByte)

namespace Endpoint

/-- The reply that get decides on: the control frame that it writes if the write callback takes
every byte. -/
def decision [Build] (e : Endpoint) : Option (UInt8 × UInt8) := do
  let t := { e.transport with results := [] }
  let r ← frameArqGet .valid .valid .valid e.frame t
  (writtenBetween t r.transport)[8]?.map controlFields

/-- The replies that the calls of get in a run decide on, in order. -/
def decisions [Build] : Endpoint → List Call → List (UInt8 × UInt8)
  | _, [] => []
  | e, c :: calls =>
    (if c = .get then e.decision.toList else []) ++
      match e.exec c with
      | none => []
      | some (_, e') => decisions e' calls

/-- Everything that came in has been taken. -/
def Exhausted (e : Endpoint) : Prop := e.transport.incoming.reduceOption = []

end Endpoint

/-! ## The receiving half -/

/-- What the receive direction of a run shows. -/
structure Receipt where
  reports : List (Int × Option (List UInt8))
  decisions : List (UInt8 × UInt8)
  expectedRxSeq : UInt8
  deriving DecidableEq

/-- What is made of the events that the parser finds, from the expected sequence number on. -/
def receipt : UInt8 → List RxEvent → Receipt
  | seq, [] => ⟨[], [], seq⟩
  | seq, ev :: evs =>
    let r := Arq.react ⟨0, seq, false, false⟩ (some ev)
    let rest := receipt r.arq.expectedRxSeq evs
    ⟨(report? r.ret r.out).toList ++ rest.reports,
      (r.reply.map fun fr => controlFields fr.seqByte).toList ++ rest.decisions,
      rest.expectedRxSeq⟩

/-- The frame handling of a control frame reports nothing. -/
theorem Arq.handle_control_report {a : Arq} {fr : Frame} (hctrl : ¬ fr.IsData) :
    report? (a.handle fr).ret (a.handle fr).out = none := by
  have hhandles := a.handles fr
  generalize a.handle fr = r at hhandles
  cases hhandles with
  | acked => rfl
  | nacked => rfl
  | ignored => rfl
  | delivered hdata => exact absurd hdata hctrl
  | duplicate hdata => exact absurd hdata hctrl
  | unexpected hdata => exact absurd hdata hctrl

/-- **The receiving half** of a reaction depends on the expected sequence number only. -/
theorem Arq.react_receiving {a b : Arq} (h : a.expectedRxSeq = b.expectedRxSeq)
    (found : Option RxEvent) :
    report? (a.react found).ret (a.react found).out =
        report? (b.react found).ret (b.react found).out ∧
      (a.react found).reply = (b.react found).reply ∧
      (a.react found).arq.expectedRxSeq = (b.react found).arq.expectedRxSeq := by
  cases found with
  | none => exact ⟨rfl, rfl, h⟩
  | some ev =>
    cases ev with
    | crcError => exact ⟨rfl, by rw [Arq.react, Arq.react, h], h⟩
    | overflow => exact ⟨rfl, rfl, h⟩
    | frame fr =>
      simp only [Arq.react]
      by_cases hdata : fr.IsData
      · by_cases hseq : faSeqOf fr.seqByte = a.expectedRxSeq
        · rw [Arq.handle_delivered hdata hseq, Arq.handle_delivered hdata (hseq.trans h)]
          exact ⟨rfl, rfl, rfl⟩
        · have hseq' : faSeqOf fr.seqByte ≠ b.expectedRxSeq := h ▸ hseq
          by_cases hprev : faSeqOf fr.seqByte = (a.expectedRxSeq - 1) &&& faSeqMask
          · rw [Arq.handle_duplicate hdata hseq hprev,
              Arq.handle_duplicate hdata hseq' (h ▸ hprev)]
            exact ⟨rfl, rfl, h⟩
          · rw [Arq.handle_unexpected hdata hseq hprev,
              Arq.handle_unexpected hdata hseq' (h ▸ hprev), h]
            exact ⟨rfl, rfl, rfl⟩
      -- control frames concern the sending half only
      · obtain ⟨-, hreply, hexp⟩ := Arq.handle_control (a := a) hdata
        obtain ⟨-, hreply', hexp'⟩ := Arq.handle_control (a := b) hdata
        rw [Arq.handle_control_report hdata, Arq.handle_control_report hdata, hreply, hreply', hexp,
          hexp']
        exact ⟨rfl, rfl, h⟩

/-! ## Calls -/

section

variable [Build] {e e' : Endpoint} {acc acc' : List UInt8} {o : Outcome}

/-- The byte of a reply that tells what it is. -/
theorem replyBytes_fields (r : Option Frame) :
    (replyBytes r)[8]?.map controlFields = r.map fun fr => controlFields fr.seqByte := by
  cases r with
  | none => rfl
  | some fr =>
    have hm : (List.replicate 8 fr.marker).length = 8 := List.length_replicate
    have hseq := load_seq (s := fr.seqByte) (v := fr.size) (w := fr.crc) (d := fr.payload) hm
    rw [Memory.load] at hseq
    rw [replyBytes, Frame.encode, hseq]
    rfl

/-- **What get decides** is the reply of its reaction. -/
theorem Endpoint.decision_eq (hold : Holds e.frame acc)
    (hp : Pending e.frame.payloadMaxSize acc) {found : Option RxEvent}
    {rest : List (Option UInt8)}
    (hpump : (receiver e.frame.payloadMaxSize).pump acc e.transport.incoming =
      (found, acc', rest)) :
    e.decision = (e.frame.arq.react found).reply.map fun fr => controlFields fr.seqByte := by
  obtain ⟨g, hget, -⟩ := frameArqGet_spec hold hp { e.transport with results := [] }
  rw [hpump] at hget
  have hwritten := (writtenBetween_reply { e.transport with results := [] } rest
    (e.frame.arq.react found).reply).2 (.of_nil rfl)
  rw [Endpoint.decision]
  simp only [hget, Option.bind_eq_bind, Option.bind_some]
  rw [hwritten.1, replyBytes_fields]

/-- A run of calls, from an endpoint that has assembled `acc`, receives `bytes`: what it reports
and decides, and the number it expects afterwards, are a function of what the receiver decodes
from these bytes. -/
structure Endpoint.Receives (e : Endpoint) (acc : List UInt8) (calls : List Call)
    (outs : List Outcome) (bytes : List UInt8) (acc' : List UInt8) (e' : Endpoint) : Prop where
  source : e.transport.incoming.reduceOption = bytes ++ e'.transport.incoming.reduceOption
  holds : Holds e'.frame acc'
  receives : ∃ evs, (receiver e.frame.payloadMaxSize).feed acc bytes = (evs, acc') ∧
    receipt e.frame.expectedRxSeq evs =
      ⟨reports outs, e.decisions calls, e'.frame.expectedRxSeq⟩

/-- A call that is not one of get changes nothing in the receive direction. -/
theorem Performs.bystander {c : Call} (h : Performs e acc o e' acc') (hcall : o.call = c)
    (hget : c ≠ .get) (hdiscard : c ≠ .discard) (hreset : c ≠ .reset) :
    acc' = acc ∧ e'.transport.incoming = e.transport.incoming ∧
      e'.frame.expectedRxSeq = e.frame.expectedRxSeq ∧ o.report? = none := by
  have hreport : o.report? = none := if_neg (hcall ▸ hget)
  cases h with
  | got h => exact absurd (hcall.symm.trans h.call) hget
  | rejected => exact ⟨rfl, rfl, rfl, hreport⟩
  | accepted hacc hw => exact ⟨rfl, hw.incoming, rfl, hreport⟩
  | idle => exact ⟨rfl, rfl, rfl, hreport⟩
  | resent hwait hw =>
    refine ⟨rfl, hw.incoming, ?_, hreport⟩
    dsimp only
    split_ifs <;> rfl
  | discarded => exact absurd hcall.symm hdiscard
  | restarted => exact absurd hcall.symm hreset

omit [Build] in
theorem reports_cons (o : Outcome) (outs : List Outcome) :
    reports (o :: outs) = o.report?.toList ++ reports outs := by
  rw [reports, reports, List.filterMap_cons]
  cases o.report? <;> rfl

theorem Endpoint.decisions_cons {c : Call} (hs : e.exec c = some (o, e')) (calls : List Call) :
    e.decisions (c :: calls) =
      (if c = .get then e.decision.toList else []) ++ e'.decisions calls := by
  rw [Endpoint.decisions, hs]

omit [Build] in
/-- What is made of one more event is what the reaction to it is made of. -/
theorem receipt_react (a : Arq) (found : Option RxEvent) (evs : List RxEvent) :
    receipt a.expectedRxSeq (found.toList ++ evs) =
      ⟨(report? (a.react found).ret (a.react found).out).toList ++
          (receipt (a.react found).arq.expectedRxSeq evs).reports,
        ((a.react found).reply.map fun fr => controlFields fr.seqByte).toList ++
          (receipt (a.react found).arq.expectedRxSeq evs).decisions,
        (receipt (a.react found).arq.expectedRxSeq evs).expectedRxSeq⟩ := by
  cases found with
  | none => rfl
  | some ev =>
    have hhalf : (⟨0, a.expectedRxSeq, false, false⟩ : Arq).expectedRxSeq = a.expectedRxSeq := rfl
    obtain ⟨hreport, hreply, hexp⟩ := Arq.react_receiving hhalf (some ev)
    rw [← hreport, ← hreply, ← hexp]
    rfl

/-- **A run receives** some bytes, and what it shows is made of these. -/
theorem Endpoint.Receives.run {calls : List Call} {outs : List Outcome} (hok : Ok e.frame)
    (hold : Holds e.frame acc) (hp : Pending e.frame.payloadMaxSize acc)
    (hno : ∀ c ∈ calls, c ≠ .discard ∧ c ≠ .reset) (hrun : e.run calls = some (outs, e')) :
    ∃ bytes acc', e.Receives acc calls outs bytes acc' e' := by
  induction calls generalizing e acc outs with
  | nil =>
    cases hrun
    exact ⟨[], acc, rfl, hold, [], rfl, rfl⟩
  | cons c calls ih =>
    obtain ⟨o, e₁, outs, hs, hrest, rfl⟩ := Runs.run_cons_eq_some hrun
    obtain ⟨hcall, acc₁, hperf⟩ := hok.performs hold hp hs
    obtain ⟨hok₁, hmax⟩ := hok.exec hs
    obtain ⟨hold₁, hp₁⟩ := hperf.holds hold hp
    obtain ⟨bytes, acc', hsource, hold', evs, hfeed, hreceipt⟩ :=
      ih hok₁ hold₁ (by rw [hmax]; exact hp₁) (fun d hd => hno d (List.mem_cons_of_mem c hd)) hrest
    rw [hmax] at hfeed
    have hdecisions := Endpoint.decisions_cons hs calls
    -- a get takes its own part of the bytes; the other calls take none
    by_cases hget : c = .get
    · subst hget
      obtain ⟨found, hgot⟩ := hperf.of_get hcall
      obtain ⟨used, hused, hin⟩ := hgot.source
      have hexp : e₁.frame.expectedRxSeq = (e.frame.arq.react found).arq.expectedRxSeq :=
        congrArg Arq.expectedRxSeq hgot.arq
      have hreport : o.report? =
          report? (e.frame.arq.react found).ret (e.frame.arq.react found).out := by
        rw [Outcome.report?, if_pos hgot.call, hgot.ret, hgot.out]
      refine ⟨o.consumed ++ bytes, acc', ?_, hold', found.toList ++ evs, ?_, ?_⟩
      · rw [hin, hused, List.reduceOption_append, hsource, List.append_assoc]
      · rw [Decoder.feed_append, hgot.feed, hfeed]
      · have hreact := receipt_react e.frame.arq found evs
        rw [← hexp, hreceipt, ← hreport, ← Endpoint.decision_eq hold hp hgot.pump] at hreact
        rw [reports_cons, hdecisions]
        exact hreact
    · obtain ⟨hdiscard, hreset⟩ := hno c List.mem_cons_self
      obtain ⟨rfl, hin, hexp, hreport⟩ := hperf.bystander hcall hget hdiscard hreset
      refine ⟨bytes, acc', ?_, hold', evs, hfeed, ?_⟩
      · rw [← hin]
        exact hsource
      · rw [reports_cons, hreport, hdecisions, if_neg hget, ← hexp, hreceipt]
        rfl

end

/-- **Schedules do not matter.** Two new endpoints with the same maximum receive the same bytes,
in whatever portions, with whatever calls of get, put and resend and whatever answers of the
write callback. If both take everything that comes in, they report the same deliveries, CRC
failures and oversized lengths in the same order, decide on the same replies, expect the same
sequence number, and have the same bytes assembled. -/
theorem schedule_independent [Build] {s₁ s₂ : Storage} {t₁ t₂ : Transport}
    {calls₁ calls₂ : List Call} (hmax : s₁.payloadMaxSize = s₂.payloadMaxSize)
    (hint : s₁.payloadMaxSize + 17 < 2 ^ 31)
    (hsame : t₁.incoming.reduceOption = t₂.incoming.reduceOption)
    (hno₁ : ∀ c ∈ calls₁, c ≠ .discard ∧ c ≠ .reset)
    (hno₂ : ∀ c ∈ calls₂, c ≠ .discard ∧ c ≠ .reset) :
    ∃ outs₁ e₁ outs₂ e₂, Endpoint.run ⟨s₁.create, t₁⟩ calls₁ = some (outs₁, e₁) ∧
      Endpoint.run ⟨s₂.create, t₂⟩ calls₂ = some (outs₂, e₂) ∧
      (e₁.Exhausted → e₂.Exhausted → reports outs₁ = reports outs₂ ∧
        Endpoint.decisions ⟨s₁.create, t₁⟩ calls₁ = Endpoint.decisions ⟨s₂.create, t₂⟩ calls₂ ∧
        e₁.frame.expectedRxSeq = e₂.frame.expectedRxSeq ∧
        e₁.frame.byteCount = e₂.frame.byteCount ∧
        e₁.frame.readBuffer.take e₁.frame.byteCount =
          e₂.frame.readBuffer.take e₂.frame.byteCount) := by
  obtain ⟨outs₁, e₁, hrun₁, -, -⟩ := Ok.run (e := ⟨s₁.create, t₁⟩) s₁.create_ok hint calls₁
  have hint₂ : s₂.payloadMaxSize + 17 < 2 ^ 31 := hmax ▸ hint
  obtain ⟨outs₂, e₂, hrun₂, -, -⟩ := Ok.run (e := ⟨s₂.create, t₂⟩) s₂.create_ok hint₂ calls₂
  obtain ⟨bytes₁, acc₁, hsource₁, hold₁, evs₁, hfeed₁, hreceipt₁⟩ :=
    Endpoint.Receives.run (e := ⟨s₁.create, t₁⟩) s₁.create_ok (Begins.created s₁).spec.2.1
      (pending_nil _) hno₁ hrun₁
  obtain ⟨bytes₂, acc₂, hsource₂, hold₂, evs₂, hfeed₂, hreceipt₂⟩ :=
    Endpoint.Receives.run (e := ⟨s₂.create, t₂⟩) s₂.create_ok (Begins.created s₂).spec.2.1
      (pending_nil _) hno₂ hrun₂
  refine ⟨outs₁, e₁, outs₂, e₂, hrun₁, hrun₂, fun hall₁ hall₂ => ?_⟩
  -- both have taken the same bytes
  have hbytes : bytes₁ = bytes₂ := by
    rw [hall₁, List.append_nil] at hsource₁
    rw [hall₂, List.append_nil] at hsource₂
    rw [← hsource₁, ← hsource₂]
    exact hsame
  have hmax' : (Endpoint.mk s₁.create t₁).frame.payloadMaxSize =
      (Endpoint.mk s₂.create t₂).frame.payloadMaxSize := hmax
  rw [hmax', hbytes] at hfeed₁
  obtain ⟨rfl, rfl⟩ := Prod.mk.inj (hfeed₁.symm.trans hfeed₂)
  obtain ⟨hreports, hdecisions, hexp⟩ := Receipt.mk.inj (hreceipt₁.symm.trans hreceipt₂)
  have hcount : e₁.frame.byteCount = e₂.frame.byteCount := hold₁.count.trans hold₂.count.symm
  refine ⟨hreports, hdecisions, hexp, hcount, ?_⟩
  rw [hold₁.count, hold₁.contents, hold₂.count, hold₂.contents]

theorem schedule_independent_one :
    letI : Build := build32
    let s : Storage := .zeroed 1 (by decide)
    let bytes := (dataFrame 1 0 [7]).encode
    ∃ outs₁ e₁ outs₂ e₂,
      Endpoint.run ⟨s.create, ⟨bytes.map some, [], []⟩⟩ [.get] = some (outs₁, e₁) ∧
      Endpoint.run ⟨s.create, ⟨none :: bytes.map some, [-1], []⟩⟩ [.get, .put 2 (.null 1), .get] =
        some (outs₂, e₂) ∧ reports outs₁ = reports outs₂ := by
  let _ : Build := build32
  intro s bytes
  obtain ⟨outs₁, e₁, outs₂, e₂, hrun₁, hrun₂, hsame⟩ :=
    @schedule_independent _ s s ⟨bytes.map some, [], []⟩ ⟨none :: bytes.map some, [-1], []⟩
      [.get] [.get, .put 2 (.null 1), .get] rfl (by decide) rfl (by simp) (by simp)
  have hall₁ : (Endpoint.run ⟨s.create, ⟨bytes.map some, [], []⟩⟩ [.get]).map
      (fun r => r.2.transport.incoming) = some [] := by decide +kernel
  have hall₂ : (Endpoint.run ⟨s.create, ⟨none :: bytes.map some, [-1], []⟩⟩
      [.get, .put 2 (.null 1), .get]).map (fun r => r.2.transport.incoming) = some [] := by
    decide +kernel
  rw [hrun₁] at hall₁
  rw [hrun₂] at hall₂
  have hempty₁ : e₁.transport.incoming = [] := Option.some.inj hall₁
  have hempty₂ : e₂.transport.incoming = [] := Option.some.inj hall₂
  have hex₁ : e₁.Exhausted := by rw [Endpoint.Exhausted, hempty₁]; rfl
  have hex₂ : e₂.Exhausted := by rw [Endpoint.Exhausted, hempty₂]; rfl
  exact ⟨outs₁, e₁, outs₂, e₂, hrun₁, hrun₂, (hsame hex₁ hex₂).1⟩

end HtcwFrameArq
