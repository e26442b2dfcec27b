import Mathlib.Logic.Function.Basic
import HtcwFrameArq.Framing
import HtcwFrameArq.Soundness

/-!
# Two endpoints and the frames between them

`System` is two controllers joined by two FIFO channels of whole frames, as byte strings; a
step (`System.step`) performs one call of the API on the code's own functions, or loses or
damages the frame at the head of a channel. Writes succeed, so everything an endpoint writes
in a call is one frame in its channel.

`Net` is what the protocol sees of it: the ARQ fields of the two ends, the frame each one
retains, and the frames on their way. `System.step_refines` says that every step of the
system is a step of the net.
-/

namespace HtcwFrameArq

open Function Memory

/-! ## The system -/

/-- The two ends. -/
inductive Side : Type where
  | a : Side
  | b : Side
  deriving DecidableEq

/-- The other end. -/
def Side.other : Side → Side
  | .a => .b
  | .b => .a

@[simp] theorem Side.other_other (x : Side) : x.other.other = x := by cases x <;> rfl

@[simp] theorem Side.other_ne (x : Side) : x.other ≠ x := by cases x <;> decide

@[simp] theorem Side.ne_other (x : Side) : x ≠ x.other := by cases x <;> decide

theorem Side.eq_other_of_ne {x y : Side} (h : y ≠ x) : y = x.other := by
  revert h
  cases x <;> cases y <;> decide

/-- Two controllers, and the frames on their way to each of them. A channel keeps what one call
wrote together and in order; the environment may lose its head or damage it on arrival. -/
structure System where
  frame : Side → FrameArqT
  queue : Side → List (List UInt8)

/-- What can happen next. -/
inductive Action : Type where
  | put (x : Side) (cmd : UInt8) (payload : List UInt8) : Action
  | resend (x : Side) : Action
  /-- `x` calls get, which consumes the head of its channel -/
  | get (x : Side) : Action
  /-- the head of the channel to `x` is lost -/
  | lose (x : Side) : Action
  /-- the head of the channel to `x` arrives as `bytes`, in which get sees a CRC failure -/
  | damage (x : Side) (bytes : List UInt8) : Action
  | reset (x : Side) : Action
  deriving DecidableEq

/-- What a step shows. -/
inductive Event : Type where
  | called (x : Side) (o : Outcome) : Event
  | lost (x : Side) : Event
  deriving DecidableEq

namespace System

/-- Two newly created endpoints, nothing on its way. -/
def create [Build] (s : Side → Storage) : System := ⟨fun x => (s x).create, fun _ => []⟩

/-- Take the head off the channel to `x`. -/
def pop (S : System) (x : Side) (rest : List (List UInt8)) : System :=
  { S with queue := update S.queue x rest }

/-- `x` performs a call while `bytes` are available to it; what it writes, if anything, goes
into its channel. -/
def call [Build] (S : System) (x : Side) (c : Call) (bytes : List UInt8) :
    Option (Outcome × System) := do
  let r ← Endpoint.exec ⟨S.frame x, ⟨bytes.map some, [], []⟩⟩ c
  let sent := if r.1.written = [] then [] else [r.1.written]
  some (r.1, ⟨update S.frame x r.2.frame, update S.queue x.other (S.queue x.other ++ sent)⟩)

/-- The messages the two ends may exchange: a command, and a size within both maxima. -/
def Sendable (S : System) (cmd : UInt8) (payload : List UInt8) : Prop :=
  1 ≤ cmd ∧ cmd ≤ 127 ∧ payload.length ≤ (S.frame .a).payloadMaxSize ∧
    payload.length ≤ (S.frame .b).payloadMaxSize

instance (S : System) (cmd : UInt8) (payload : List UInt8) : Decidable (S.Sendable cmd payload) :=
  inferInstanceAs (Decidable (_ ∧ _ ∧ _ ∧ _))

/-- One step; `none` if the action is not possible, or undefined. A put that is not within both
maxima is no step: no frame tells an end the maximum of the other, so its callers keep to it. -/
def step [Build] (S : System) : Action → Option (Event × System)
  | .put x cmd payload =>
    if S.Sendable cmd payload then
      (S.call x (.put cmd (.bytes payload)) []).map (Prod.map (Event.called x) id)
    else none
  | .resend x => (S.call x .resend []).map (Prod.map (Event.called x) id)
  | .get x =>
    match S.queue x with
    | [] => (S.call x .get []).map (Prod.map (Event.called x) id)
    | bytes :: rest => ((S.pop x rest).call x .get bytes).map (Prod.map (Event.called x) id)
  | .lose x =>
    match S.queue x with
    | [] => none
    | _ :: rest => some (.lost x, S.pop x rest)
  | .damage x bytes =>
    match S.queue x with
    | [] => none
    | _ :: rest => do
      let r ← (S.pop x rest).call x .get bytes
      if r.1.ret = errorCrc ∧ r.1.consumed = bytes then some (.called x r.1, r.2) else none
  | .reset x => (S.call x .reset []).map (Prod.map (Event.called x) id)

/-- A run of the system. -/
def run [Build] (S : System) (acts : List Action) : Option (List Event × System) :=
  Runs.run System.step S acts

end System

/-! ### Messages -/

/-- A message: the command and the payload. -/
abbrev Msg : Type := UInt8 × List UInt8

/-- The message that `x` accepts in a step. -/
def Event.accepted (x : Side) : Event → Option Msg
  | .called y o =>
    match o.call with
    | .put cmd (.bytes payload) => if y = x ∧ o.ret = success then some (cmd, payload) else none
    | _ => none
  | .lost _ => none

/-- The message that `x` delivers in a step. -/
def Event.delivered (x : Side) : Event → Option Msg
  | .called y o =>
    if y = x ∧ o.Delivers then some (UInt8.ofNat o.ret.toNat, o.out.getD []) else none
  | .lost _ => none

/-- The messages accepted by put at `x`, in order. -/
def accepted (x : Side) (evs : List Event) : List Msg := evs.filterMap (Event.accepted x)

/-- The messages delivered by get at `x`, in order. -/
def delivered (x : Side) (evs : List Event) : List Msg := evs.filterMap (Event.delivered x)

theorem accepted_concat (x : Side) (evs : List Event) (ev : Event) :
    accepted x (evs ++ [ev]) = accepted x evs ++ (ev.accepted x).toList := by
  rw [accepted, accepted, List.filterMap_append]
  cases hev : ev.accepted x <;> simp [hev]

theorem delivered_concat (x : Side) (evs : List Event) (ev : Event) :
    delivered x (evs ++ [ev]) = delivered x evs ++ (ev.delivered x).toList := by
  rw [delivered, delivered, List.filterMap_append]
  cases hev : ev.delivered x <;> simp [hev]

/-! ## The net -/

/-- The ARQ fields of the ends, the frames they retain, the frames on their way to them: what is
left of a system when nothing is said of buffers and parsers. -/
structure Net where
  arq : Side → Arq
  retained : Side → Frame
  flying : Side → List Frame

namespace Net

/-- Change the fields of `x`. -/
def set (n : Net) (x : Side) (a : Arq) : Net := { n with arq := update n.arq x a }

/-- Change the frame that `x` retains. -/
def retain (n : Net) (x : Side) (fr : Frame) : Net :=
  { n with retained := update n.retained x fr }

/-- `x` sends frames. -/
def send (n : Net) (x : Side) (frs : List Frame) : Net :=
  { n with flying := update n.flying x.other (n.flying x.other ++ frs) }

/-- Take the head off the channel to `x`. -/
def pop (n : Net) (x : Side) (rest : List Frame) : Net :=
  { n with flying := update n.flying x rest }

end Net

/-- What an end does in a step. -/
inductive Deed : Type where
  | accepted (m : Msg) : Deed
  | nothing : Deed
  | resent : Deed
  | received (fr : Frame) (r : Reaction) : Deed
  | empty : Deed
  | damaged : Deed
  | lost : Deed
  | restarted : Deed

/-- The fields after an accepted put. -/
def Arq.put (a : Arq) : Arq :=
  { a with txSeq := (a.txSeq + 1) &&& faSeqMask, awaitingAck := true, resendNeeded := false }

/-- The fields after a resend. -/
def Arq.resend (a : Arq) : Arq := { a with resendNeeded := false }

/-- The fields after a reset. -/
def Arq.fresh : Arq := ⟨faSeqMask, 0, false, false⟩

/-- The steps of the net. -/
inductive Net.Step (n : Net) (x : Side) : Deed → Net → Prop where
  | accepted {cmd : UInt8} {payload : List UInt8} (hlo : 1 ≤ cmd) (hhi : cmd ≤ 127)
      (hidle : (n.arq x).awaitingAck = false) :
      Step n x (.accepted (cmd, payload))
        (((n.set x (n.arq x).put).retain x (dataFrame cmd (n.arq x).put.txSeq payload)).send x
          [dataFrame cmd (n.arq x).put.txSeq payload])
  /-- a put that is refused, or a resend with nothing outstanding -/
  | nothing : Step n x .nothing n
  | resent (hwait : (n.arq x).awaitingAck = true) :
      Step n x .resent ((n.set x (n.arq x).resend).send x [n.retained x])
  | received {fr : Frame} {rest : List Frame} (hfly : n.flying x = fr :: rest) :
      Step n x (.received fr ((n.arq x).handle fr))
        (((n.pop x rest).set x ((n.arq x).handle fr).arq).send x
          ((n.arq x).handle fr).reply.toList)
  | empty (hfly : n.flying x = []) : Step n x .empty n
  | damaged {fr : Frame} {rest : List Frame} (hfly : n.flying x = fr :: rest) :
      Step n x .damaged
        ((n.pop x rest).send x [controlFrame faTypeNack (n.arq x).expectedRxSeq])
  | lost {fr : Frame} {rest : List Frame} (hfly : n.flying x = fr :: rest) :
      Step n x .lost (n.pop x rest)
  | restarted : Step n x .restarted (n.set x .fresh)

/-- The message accepted by a deed. -/
def Deed.accepted? : Deed → Option Msg
  | .accepted m => some m
  | _ => none

/-- The message delivered by a deed. -/
def Deed.delivered? : Deed → Option Msg
  | .received _ r =>
    if 0 < r.ret then some (UInt8.ofNat r.ret.toNat, r.out.getD []) else none
  | _ => none

/-- How an action and what it shows are a deed of `x`. -/
inductive Did [Build] : Action → Event → Side → Deed → Prop where
  | accepted {x cmd payload o} (hcall : o.call = .put cmd (.bytes payload))
      (hret : o.ret = success) :
      Did (.put x cmd payload) (.called x o) x (.accepted (cmd, payload))
  | refused {x cmd payload o} (hcall : o.call = .put cmd (.bytes payload)) (hret : o.ret < 0) :
      Did (.put x cmd payload) (.called x o) x .nothing
  | resent {x o} (hcall : o.call = .resend) : Did (.resend x) (.called x o) x .resent
  | nothingToResend {x o} (hcall : o.call = .resend) : Did (.resend x) (.called x o) x .nothing
  | received {x o fr r} (hcall : o.call = .get) (hret : o.ret = r.ret) (hout : o.out = r.out)
      (hw : o.written = replyBytes r.reply) : Did (.get x) (.called x o) x (.received fr r)
  | empty {x o} (hcall : o.call = .get) (hret : o.ret = success) :
      Did (.get x) (.called x o) x .empty
  | damaged {x o bytes} (hcall : o.call = .get) (hret : o.ret = errorCrc) :
      Did (.damage x bytes) (.called x o) x .damaged
  | lost {x} : Did (.lose x) (.lost x) x .lost
  | restarted {x o} (hcall : o.call = .reset) : Did (.reset x) (.called x o) x .restarted

section

variable [Build] {act : Action} {ev : Event} {x : Side} {deed : Deed}

/-- What a step accepts is what its deed accepts, at the end that does it. -/
theorem Did.accepted_eq (h : Did act ev x deed) (z : Side) :
    ev.accepted z = if z = x then deed.accepted? else none := by
  cases h with
  | accepted hcall hret =>
    simp only [Event.accepted, hcall, hret, and_true, Deed.accepted?]
    simp only [eq_comm]
  | refused hcall hret =>
    have hne := ne_of_lt hret
    simp [Event.accepted, hcall, hne, Deed.accepted?, success]
  | resent hcall => simp [Event.accepted, hcall, Deed.accepted?]
  | nothingToResend hcall => simp [Event.accepted, hcall, Deed.accepted?]
  | received hcall => simp [Event.accepted, hcall, Deed.accepted?]
  | empty hcall => simp [Event.accepted, hcall, Deed.accepted?]
  | damaged hcall => simp [Event.accepted, hcall, Deed.accepted?]
  | lost => simp [Event.accepted, Deed.accepted?]
  | restarted hcall => simp [Event.accepted, hcall, Deed.accepted?]

/-- What a step delivers is what its deed delivers, at the end that does it. -/
theorem Did.delivered_eq (h : Did act ev x deed) (z : Side) :
    ev.delivered z = if z = x then deed.delivered? else none := by
  -- only a get that returns a positive value delivers
  have other {o : Outcome} (hcall : o.call ≠ .get) :
      Event.delivered z (.called x o) = if z = x then none else none := by
    rw [ite_self]
    exact if_neg fun hd => hcall hd.2.1
  have quiet {o : Outcome} (hret : o.ret ≤ 0) :
      Event.delivered z (.called x o) = if z = x then none else none := by
    rw [ite_self]
    apply if_neg
    intro hd
    have := hd.2.2
    omega
  cases h with
  | accepted hcall => exact other (by simp [hcall])
  | refused hcall => exact other (by simp [hcall])
  | resent hcall => exact other (by simp [hcall])
  | nothingToResend hcall => exact other (by simp [hcall])
  | @received _ o fr r hcall hret hout hw =>
    simp only [Event.delivered, Outcome.Delivers, hcall, hret, hout, true_and, Deed.delivered?]
    rcases eq_or_ne z x with rfl | hne
    · simp
    · simp [hne, hne.symm]
  | empty hcall hret => exact quiet (by rw [hret]; decide)
  | damaged hcall hret => exact quiet (by rw [hret]; decide)
  | lost => exact (ite_self none).symm
  | restarted hcall => exact other (by simp [hcall])

end

/-- The net of a system: every byte string on its way is the encoding of a frame, and both
ends are between two frames. -/
structure System.HasNet [Build] (S : System) (n : Net) : Prop where
  ok : ∀ x, Ok (S.frame x)
  between : ∀ x, Holds (S.frame x) []
  arq : ∀ x, (S.frame x).arq = n.arq x
  retained : ∀ x, (n.arq x).awaitingAck = true →
    (S.frame x).retainBuffer.take (S.frame x).retainLength = (n.retained x).encode ∧
      (n.retained x).IsData ∧ (n.retained x).Fits (S.frame x.other).payloadMaxSize
  queue : ∀ x, S.queue x = (n.flying x).map Frame.encode
  fits : ∀ x, ∀ fr ∈ n.flying x, fr.Fits (S.frame x).payloadMaxSize

theorem System.HasNet.retained_isData [Build] {S : System} {n : Net} (h : S.HasNet n)
    (x : Side) (hwait : (n.arq x).awaitingAck = true) : (n.retained x).IsData :=
  (h.retained x hwait).2.1

/-! ## The system is a net -/

section

variable [Build]

theorem System.hasNet_create (s : Side → Storage) :
    (System.create s).HasNet ⟨fun _ => .fresh, fun _ => controlFrame 0 0, fun _ => []⟩ where
  ok x := (s x).create_ok
  between x := (Begins.created (s x)).spec.2.1
  arq x := rfl
  retained x h := by cases h
  queue x := rfl
  fits x fr h := by cases h

namespace System.HasNet

variable {S : System} {n : Net} {x : Side}

/-- The frame at the head of a channel. -/
theorem pop (h : S.HasNet n) {bytes : List UInt8} {rest : List (List UInt8)}
    (hq : S.queue x = bytes :: rest) :
    ∃ fr frs, n.flying x = fr :: frs ∧ bytes = fr.encode ∧
      fr.Fits (S.frame x).payloadMaxSize ∧ (S.pop x rest).HasNet (n.pop x frs) := by
  have hqueue := h.queue x
  rw [hq] at hqueue
  obtain ⟨fr, frs, hfly, rfl, rfl⟩ := List.map_eq_cons_iff.mp hqueue.symm
  refine ⟨fr, frs, hfly, rfl, h.fits x fr (by rw [hfly]; exact List.mem_cons_self),
    ⟨h.ok, h.between, h.arq, h.retained, ?_, ?_⟩⟩
  · intro y
    rcases eq_or_ne y x with rfl | hne
    · simp [System.pop, Net.pop]
    · simp [System.pop, Net.pop, hne, h.queue y]
  · intro y g hg
    rcases eq_or_ne y x with rfl | hne
    · apply h.fits y g
      rw [hfly]
      exact List.mem_cons_of_mem fr (by simpa [Net.pop] using hg)
    · exact h.fits y g (by simpa [Net.pop, hne] using hg)

/-- `x` changes its controller to `g`, retains `kept` and sends `frs`. -/
theorem after (h : S.HasNet n) {g : FrameArqT} (kept : Frame) (frs : List Frame) (hok : Ok g)
    (hold : Holds g []) (hmax : g.payloadMaxSize = (S.frame x).payloadMaxSize)
    (hkept : g.awaitingAck = true → g.retainBuffer.take g.retainLength = kept.encode ∧
      kept.IsData ∧ kept.Fits (S.frame x.other).payloadMaxSize)
    (hfits : ∀ fr ∈ frs, fr.Fits (S.frame x.other).payloadMaxSize) :
    System.HasNet
      ⟨update S.frame x g, update S.queue x.other (S.queue x.other ++ frs.map Frame.encode)⟩
      (((n.set x g.arq).retain x kept).send x frs) := by
  have hmaxAll (y : Side) :
      (update S.frame x g y).payloadMaxSize = (S.frame y).payloadMaxSize := by
    rcases eq_or_ne y x with rfl | hne
    · rw [update_self, hmax]
    · rw [update_of_ne hne]
  -- one clause after the other, each at `x` and at the end that does not change
  refine ⟨fun y => ?_, fun y => ?_, fun y => ?_, fun y => ?_, fun y => ?_, fun y => ?_⟩
  · rcases eq_or_ne y x with rfl | hne
    · simpa using hok
    · simpa [hne] using h.ok y
  · rcases eq_or_ne y x with rfl | hne
    · simpa using hold
    · simpa [hne] using h.between y
  · rcases eq_or_ne y x with rfl | hne
    · simp [Net.send, Net.retain, Net.set]
    · simp [Net.send, Net.retain, Net.set, hne, h.arq y]
  · intro hwait
    dsimp only
    rw [hmaxAll]
    rcases eq_or_ne y x with rfl | hne
    · simp only [Net.send, Net.retain, Net.set, update_self] at hwait ⊢
      exact hkept hwait
    · simp only [Net.send, Net.retain, Net.set, update_of_ne hne] at hwait ⊢
      exact h.retained y hwait
  · rcases eq_or_ne y x.other with rfl | hne
    · simp [Net.send, Net.retain, Net.set, h.queue x.other]
    · simp [Net.send, Net.retain, Net.set, hne, h.queue y]
  · intro fr hfr
    dsimp only
    rw [hmaxAll]
    rcases eq_or_ne y x.other with rfl | hne
    · simp only [Net.send, Net.retain, Net.set, update_self] at hfr
      rcases List.mem_append.mp hfr with hfr | hfr
      · exact h.fits _ fr hfr
      · exact hfits fr hfr
    · simp only [Net.send, Net.retain, Net.set, update_of_ne hne] at hfr
      exact h.fits y fr hfr

end System.HasNet

/-! ### One call -/

theorem encode_ne_nil (fr : Frame) : fr.encode ≠ [] := by
  intro h
  have := fr.encode_length
  rw [h, List.length_nil] at this
  omega

/-- What a reply puts into the channel. -/
theorem sent_replyBytes (r : Option Frame) :
    (if replyBytes r = [] then [] else [replyBytes r]) = r.toList.map Frame.encode := by
  cases r with
  | none => rfl
  | some fr => exact if_neg (encode_ne_nil fr)

namespace System.HasNet

variable {S S' : System} {n : Net} {x : Side} {c : Call} {bytes : List UInt8} {o : Outcome}

/-- A call of `x`. -/
theorem call (h : S.HasNet n) (hs : S.call x c bytes = some (o, S')) :
    o.call = c ∧ ∃ e' acc', Performs ⟨S.frame x, ⟨bytes.map some, [], []⟩⟩ [] o e' acc' ∧
      Ok e'.frame ∧ Holds e'.frame acc' ∧
      e'.frame.payloadMaxSize = (S.frame x).payloadMaxSize ∧
      (Endpoint.perform ⟨S.frame x, ⟨bytes.map some, [], []⟩⟩ c).isSome ∧
      S' = ⟨update S.frame x e'.frame, update S.queue x.other
        (S.queue x.other ++ if o.written = [] then [] else [o.written])⟩ := by
  simp only [System.call, Option.bind_eq_bind, Option.bind_eq_some_iff] at hs
  obtain ⟨⟨o', e'⟩, hexec, heq⟩ := hs
  obtain ⟨rfl, rfl⟩ := Prod.mk.inj (Option.some.inj heq)
  have hp := pending_nil (S.frame x).payloadMaxSize
  obtain ⟨hcall, acc', hperf⟩ :=
    Ok.performs (e := ⟨S.frame x, ⟨bytes.map some, [], []⟩⟩) (h.ok x) (h.between x) hp hexec
  obtain ⟨hok, hmax⟩ := Ok.exec (h.ok x) hexec
  obtain ⟨r, hr, -⟩ := Endpoint.exec_eq_some hexec
  exact ⟨hcall, e', acc', hperf, hok, (hperf.holds (h.between x) hp).1, hmax,
    by rw [hr]; rfl, rfl⟩

/-- A put. -/
theorem put (h : S.HasNet n) {cmd : UInt8} {payload : List UInt8} (hsend : S.Sendable cmd payload)
    (hs : S.call x (.put cmd (.bytes payload)) [] = some (o, S')) :
    ∃ deed n', Did (.put x cmd payload) (.called x o) x deed ∧ n.Step x deed n' ∧
      S'.HasNet n' := by
  obtain ⟨hcall, e', acc', hperf, hok, hold, hmax, hdef, rfl⟩ := h.call hs
  obtain ⟨hlo, hhi, hle₁, hle₂⟩ := hsend
  have hle (y : Side) : payload.length ≤ (S.frame y).payloadMaxSize := by cases y <;> assumption
  rcases hperf.of_put hcall with
    ⟨-, rfl, rfl, ret, hret, rfl⟩ | ⟨hacc, rfl, ret, written, t', hw, rfl, rfl⟩
  · have hneg : ret < 0 := by rcases hret with h | h | h <;> rw [h] <;> decide
    refine ⟨.nothing, n, .refused rfl hneg, .nothing, ?_⟩
    simpa using h
  · obtain ⟨rfl, rfl, -⟩ := hw.ok (.of_nil rfl)
    have hsize := frameArqPut_size_lt (f := S.frame x) hacc (h.ok x).retain (h.ok x).fits
      (Payload.bytes payload).size_le (.of_nil rfl) hdef
    have hlt : payload.length < 2 ^ 32 := by
      have : (Payload.bytes payload).size = payload.length := rfl
      omega
    have hfr : (S.frame x).putFrame cmd (Payload.bytes payload).pointer
        (Payload.bytes payload).size = dataFrame cmd (n.arq x).put.txSeq payload := by
      rw [← h.arq x]
      simp [FrameArqT.putFrame, FrameArqT.nextSeq, FrameArqT.arq, Arq.put, putBody,
        Payload.pointer, Payload.size]
    refine ⟨.accepted (cmd, payload), _, .accepted rfl rfl,
      .accepted hlo hhi (by rw [← h.arq x]; exact hacc.2.2.2), ?_⟩
    have hfits (y : Side) : (dataFrame cmd (n.arq x).put.txSeq payload).Fits
        (S.frame y).payloadMaxSize := dataFrame_fits hhi (hle y) hlt
    have harq : ((S.frame x).sent (dataFrame cmd (n.arq x).put.txSeq payload)).arq =
        (n.arq x).put := by
      rw [← h.arq x]
      rfl
    have hafter := h.after (dataFrame cmd (n.arq x).put.txSeq payload)
      [dataFrame cmd (n.arq x).put.txSeq payload] hok hold hmax
      (fun _ => ⟨by rw [hfr]; exact List.take_left, dataFrame_isData hlo hhi _ _, hfits x.other⟩)
      (by simpa using hfits x.other)
    rw [hfr] at hafter ⊢
    rw [harq] at hafter
    simpa [encode_ne_nil] using hafter

/-- A resend. -/
theorem resend (h : S.HasNet n) (hs : S.call x .resend [] = some (o, S')) :
    ∃ deed n', Did (.resend x) (.called x o) x deed ∧ n.Step x deed n' ∧ S'.HasNet n' ∧
      ((n.arq x).awaitingAck = true → deed = .resent) := by
  obtain ⟨hcall, e', acc', hperf, hok, hold, hmax, hdef, rfl⟩ := h.call hs
  have hwait : (S.frame x).awaitingAck = (n.arq x).awaitingAck :=
    congrArg Arq.awaitingAck (h.arq x)
  rcases hperf.of_resend hcall with
    ⟨rfl, ⟨hidle, rfl, rfl⟩ | ⟨hw₀, ret, written, t', hw, rfl, rfl⟩⟩
  · have hres : (S.frame x).resendNeeded = false := by
      have := mt (h.ok x).resend (by rw [hidle]; decide)
      simpa using this
    have hself : { S.frame x with resendNeeded := false } = S.frame x := by rw [← hres]
    refine ⟨.nothing, n, .nothingToResend rfl, .nothing, ?_, ?_⟩
    · dsimp only
      rw [hself]
      simpa using h
    · intro hw
      rw [← hwait, hidle] at hw
      cases hw
  · obtain ⟨rfl, rfl, -⟩ := hw.ok (.of_nil rfl)
    have hw₁ : (n.arq x).awaitingAck = true := hwait ▸ hw₀
    obtain ⟨henc, hdata, hfits⟩ := h.retained x hw₁
    refine ⟨.resent, _, .resent rfl, .resent hw₁, ?_, fun _ => rfl⟩
    have hfalse : ¬ success < 0 := by decide
    dsimp only at hok hold hmax ⊢
    rw [if_neg hfalse] at hok hold hmax ⊢
    have harq : ({ S.frame x with resendNeeded := false } : FrameArqT).arq =
        (n.arq x).resend := by
      rw [← h.arq x]
      rfl
    have hafter := h.after (n.retained x) [n.retained x] hok hold hmax
      (fun _ => ⟨henc, hdata, hfits⟩) (by simpa using hfits)
    rw [harq] at hafter
    rw [henc, if_neg (encode_ne_nil _)]
    simpa [Net.retain, Net.set] using hafter

/-- A reset. -/
theorem reset (h : S.HasNet n) (hs : S.call x .reset [] = some (o, S')) :
    Did (.reset x) (.called x o) x .restarted ∧ S'.HasNet (n.set x .fresh) := by
  obtain ⟨hcall, e', acc', hperf, hok, hold, hmax, hdef, rfl⟩ := h.call hs
  obtain ⟨rfl, rfl, rfl⟩ := hperf.of_reset hcall
  refine ⟨.restarted rfl, ?_⟩
  have harq (t : Transport) : (frameArqReset .valid (S.frame x) t).frame.arq = .fresh := rfl
  have hafter := h.after (n.retained x) [] hok hold hmax (fun hw => by cases hw) (by simp)
  rw [harq] at hafter
  simpa [Net.retain, Net.set, Net.send] using hafter

/-- A call of get on bytes of which the last one decides `found`, if anything does. -/
theorem got (h : S.HasNet n) (hs : S.call x .get bytes = some (o, S')) :
    ∃ found acc' rest, o.call = .get ∧
      (∀ fr, found = some (.frame fr) → fr.Fits (S.frame x).payloadMaxSize) ∧
      (receiver (S.frame x).payloadMaxSize).pump [] (bytes.map some) = (found, acc', rest) ∧
      o.ret = ((n.arq x).react found).ret ∧ o.out = ((n.arq x).react found).out ∧
      o.written = replyBytes ((n.arq x).react found).reply ∧
      (acc' = [] →
        S'.HasNet ((n.set x ((n.arq x).react found).arq).send x
          ((n.arq x).react found).reply.toList)) := by
  obtain ⟨hcall, e', acc', hperf, hok, hold, hmax, hdef, rfl⟩ := h.call hs
  have hreact : (S.frame x).arq = n.arq x := h.arq x
  obtain ⟨found, hgot⟩ := hperf.of_get hcall
  have hret := hgot.ret
  have hout := hgot.out
  have harq := hgot.arq
  obtain ⟨hwritten, -⟩ := hgot.replied (.of_nil rfl)
  dsimp only at hret hout hwritten harq hmax
  rw [hreact] at hret hout hwritten harq
  refine ⟨found, acc', e'.transport.incoming, hgot.call, hgot.fits (pending_nil _), hgot.pump,
    hret, hout, hwritten, ?_⟩
  rintro rfl
  -- receiving leaves the retained frame as it is
  have hkept : e'.frame.awaitingAck = true →
      e'.frame.retainBuffer.take e'.frame.retainLength = (n.retained x).encode ∧
        (n.retained x).IsData ∧ (n.retained x).Fits (S.frame x.other).payloadMaxSize := by
    intro hw
    have hw' : ((n.arq x).react found).arq.awaitingAck = true := by
      rw [← harq]
      exact hw
    have hkeep := h.retained x (((n.arq x).keeps_react found).waits hw')
    obtain ⟨_, ⟨_, _, _, rfl⟩, heq⟩ := hgot.frame
    rw [heq]
    exact hkeep
  have hfits : ∀ fr ∈ ((n.arq x).react found).reply.toList,
      fr.Fits (S.frame x.other).payloadMaxSize := by
    intro g hg
    rcases Arq.react_reply (Option.mem_toList.mp hg) with ⟨fr, -, -, -, rfl⟩ | rfl
    · exact controlFrame_fits _ _ _
    · exact controlFrame_fits _ _ _
  have hafter := h.after (n.retained x) ((n.arq x).react found).reply.toList hok hold hmax
    hkept hfits
  rw [harq] at hafter
  rw [hwritten, sent_replyBytes]
  simpa [Net.retain, Net.set] using hafter

end System.HasNet

/-! ### Every step -/

omit [Build] in
/-- Only a CRC failure makes get return `FRAME_ARQ_ERROR_CRC`. -/
theorem Arq.found_of_errorCrc {a : Arq} {found : Option RxEvent} {M : ℕ}
    (hfits : ∀ fr, found = some (.frame fr) → fr.Fits M)
    (h : (a.react found).ret = errorCrc) : found = some .crcError := by
  obtain _ | ev := found
  · exact absurd h (show success ≠ errorCrc by decide)
  · cases ev with
    | crcError => rfl
    | overflow => exact absurd h (show errorOverflow ≠ errorCrc by decide)
    | frame fr => exact absurd h (Arq.handle_noError (hfits fr rfl).marker_ge).1

omit [Build] in
theorem Option.map_called {x : Side} {r : Option (Outcome × System)} {ev : Event} {S' : System}
    (h : r.map (Prod.map (Event.called x) id) = some (ev, S')) :
    ∃ o, r = some (o, S') ∧ ev = .called x o := by
  obtain ⟨⟨o, S₁⟩, hr, heq⟩ := Option.map_eq_some_iff.mp h
  cases heq
  exact ⟨o, hr, rfl⟩

/-- **Refinement**: a step of the system is a step of its net. -/
theorem System.step_refines {S S' : System} {n : Net} {act : Action} {ev : Event}
    (h : S.HasNet n) (hs : S.step act = some (ev, S')) :
    ∃ x deed n', Did act ev x deed ∧ n.Step x deed n' ∧ S'.HasNet n' := by
  cases act with
  | put x cmd payload =>
    simp only [System.step] at hs
    by_cases hsend : S.Sendable cmd payload
    · rw [if_pos hsend] at hs
      obtain ⟨o, ho, rfl⟩ := Option.map_called hs
      obtain ⟨deed, n', hdid, hstep, hnet⟩ := h.put hsend ho
      exact ⟨x, deed, n', hdid, hstep, hnet⟩
    · rw [if_neg hsend] at hs
      cases hs
  | resend x =>
    simp only [System.step] at hs
    obtain ⟨o, ho, rfl⟩ := Option.map_called hs
    obtain ⟨deed, n', hdid, hstep, hnet, -⟩ := h.resend ho
    exact ⟨x, deed, n', hdid, hstep, hnet⟩
  | get x =>
    simp only [System.step] at hs
    rcases hq : S.queue x with _ | ⟨bytes, rest⟩
    · rw [hq] at hs
      obtain ⟨o, ho, rfl⟩ := Option.map_called hs
      obtain ⟨found, acc', rest, hcall, -, hpump, hret, -, -, hnet⟩ := h.got ho
      obtain ⟨rfl, rfl, rfl⟩ := hpump
      have hfly : n.flying x = [] := by simpa [hq] using (h.queue x).symm
      refine ⟨x, .empty, n, .empty hcall hret, .empty hfly, ?_⟩
      have := hnet rfl
      simpa [Arq.react, Net.set, Net.send] using this
    -- a get sees exactly the frame that it is given
    · rw [hq] at hs
      obtain ⟨o, ho, rfl⟩ := Option.map_called hs
      obtain ⟨fr, frs, hfly, rfl, hfits, hpop⟩ := h.pop hq
      obtain ⟨found, acc', rest', hcall, -, hpump, hret, hout, hw, hnet⟩ := hpop.got ho
      have henc := pump_encode hfits []
      rw [List.append_nil] at henc
      obtain ⟨rfl, rfl, rfl⟩ := hpump.symm.trans henc
      exact ⟨x, .received fr ((n.arq x).handle fr), _, .received hcall hret hout hw,
        .received hfly, hnet rfl⟩
  | lose x =>
    simp only [System.step] at hs
    rcases hq : S.queue x with _ | ⟨bytes, rest⟩
    · rw [hq] at hs
      cases hs
    · rw [hq] at hs
      obtain ⟨rfl, rfl⟩ := Prod.mk.inj (Option.some.inj hs)
      obtain ⟨fr, frs, hfly, -, -, hpop⟩ := h.pop hq
      exact ⟨x, .lost, _, .lost, .lost hfly, hpop⟩
  | damage x bytes =>
    simp only [System.step] at hs
    rcases hq : S.queue x with _ | ⟨bytes', rest⟩
    · rw [hq] at hs
      cases hs
    · rw [hq] at hs
      simp only [Option.bind_eq_bind, Option.bind_eq_some_iff] at hs
      obtain ⟨⟨o, S₁⟩, ho, heq⟩ := hs
      obtain ⟨fr, frs, hfly, -, -, hpop⟩ := h.pop hq
      obtain ⟨found, acc', rest', hcall, hfits, hpump, hret, -, -, hnet⟩ := hpop.got ho
      by_cases hcrc : o.ret = errorCrc ∧ o.consumed = bytes
      · rw [if_pos hcrc] at heq
        obtain ⟨rfl, rfl⟩ := Prod.mk.inj (Option.some.inj heq)
        obtain rfl := Arq.found_of_errorCrc hfits (hret.symm.trans hcrc.1)
        obtain ⟨_, _, _, -, -, -, rfl⟩ := Decoder.pump_some hpump
        refine ⟨x, .damaged, _, .damaged hcall hcrc.1, .damaged hfly, ?_⟩
        have := hnet rfl
        simpa [Arq.react, Net.set, Net.pop] using this
      · rw [if_neg hcrc] at heq
        cases heq
  | reset x =>
    simp only [System.step] at hs
    obtain ⟨o, ho, rfl⟩ := Option.map_called hs
    obtain ⟨hdid, hnet⟩ := h.reset ho
    exact ⟨x, .restarted, _, hdid, .restarted, hnet⟩

end

end HtcwFrameArq
