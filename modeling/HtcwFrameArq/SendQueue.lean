import HtcwFrameArq.Runs
import HtcwFrameArq.SessionFrames

/-!
# The send queue

The session as a sender, each handler taken with its write. `Ledger` is what it is for: the
messages accepted, how many of them have been transmitted, and whether the last one is not
acknowledged yet. `Does` says once what a step can do to a ledger, and `Keeps.perform` that every
step of the session is one of these. `send_queue` draws the conclusions for whole runs.
-/

namespace HtcwFrameArq

namespace EspSerialSession

open Runs

/-! ## Steps of the session -/

/-- A step: a handler together with its write, or a change of a setting. -/
inductive Action : Type where
  | send (cmd : UInt8) (data : List UInt8) : Action
  | handleAck (seq : UInt8) : Action
  | handleNack (seq : UInt8) : Action
  | resend : Action
  | onAckTimeout : Action
  | setAckTimeout (value : Int32) : Action
  | setMaxRetries (value : Int32) : Action
  deriving DecidableEq

/-- What a step shows: the message that a call of `Send` took without an exception, and the
frame that was written. -/
structure Done where
  action : Action
  accepted : Option Message
  write : Option (List UInt8)
  deriving DecidableEq

/-- The frame that a step writes for the first time: `Send` and `HandleAck` write what
`PrepareTransmit` has built. -/
def Done.first (d : Done) : Option (List UInt8) :=
  match d.action with
  | .send _ _ => d.write
  | .handleAck _ => d.write
  | _ => none

/-- The frame that a step writes again. -/
def Done.again (d : Done) : Option (List UInt8) :=
  match d.action with
  | .handleNack _ => d.write
  | .resend => d.write
  | .onAckTimeout => d.write
  | _ => none

theorem Done.first_of_again {d : Done} {frame : List UInt8} (h : d.again = some frame) :
    d.first = none := by
  obtain ⟨act, accepted, write⟩ := d
  cases act <;> first | rfl | cases h

/-- Take a step. -/
def Session.perform (s : Session) (act : Action) : Option (Done × Session) :=
  match act with
  | .send cmd data => do
    match ← s.send cmd data with
    | .error _ => some (⟨act, none, none⟩, s)
    | .ok eff => some (⟨act, some (cmd, data), eff.write⟩, eff.session)
  | .handleAck seq => do
    let eff ← s.handleAck seq
    some (⟨act, none, eff.write⟩, eff.session)
  | .handleNack seq => do
    let nack ← s.handleNack seq
    some (⟨act, none, if nack.1 then nack.2.session.resend.2 else none⟩, nack.2.session)
  | .resend => some (⟨act, none, s.resend.2⟩, s)
  | .onAckTimeout => do
    let eff ← s.onAckTimeout
    some (⟨act, none, eff.write⟩, eff.session)
  | .setAckTimeout value => some (⟨act, none, none⟩, s.setAckTimeout value)
  | .setMaxRetries value => some (⟨act, none, none⟩, s.setMaxRetries value)

/-- A run of the session. -/
def Session.run (s : Session) (acts : List Action) : Option (List Done × Session) :=
  Runs.run Session.perform s acts

/-! ## The ledger -/

/-- What the send queue is for. -/
structure Ledger where
  /-- the messages accepted -/
  accepted : List Message
  /-- how many of them have been transmitted -/
  first : ℕ
  /-- the last one transmitted is not acknowledged -/
  awaiting : Bool

/-- A message that `Send` takes. -/
def Sendable (m : Message) : Prop := 1 ≤ m.1 ∧ m.1 ≤ 127 ∧ m.2.length ≤ 32768

/-- One message is outstanding or all have been transmitted. -/
structure Ledger.Inv (l : Ledger) : Prop where
  sendable : ∀ m ∈ l.accepted, Sendable m
  first_le : l.first ≤ l.accepted.length
  pos : l.awaiting = true → 0 < l.first
  idle : l.awaiting = false → l.first = l.accepted.length

/-- Nothing has been sent. -/
def Ledger.fresh : Ledger := ⟨[], 0, false⟩

/-- The frame of message number `k`. -/
def numbered (k : ℕ) (m : Message) : Option (List UInt8) := buildDataFrame m.1 (seqOf k) m.2

/-- What a step can do. -/
inductive Does (l : Ledger) : Done → Ledger → Prop where
  | rejected {cmd data} : Does l ⟨.send cmd data, none, none⟩ l
  | queued {cmd data} (hsend : Sendable (cmd, data)) (hwait : l.awaiting = true) :
      Does l ⟨.send cmd data, some (cmd, data), none⟩
        { l with accepted := l.accepted ++ [(cmd, data)] }
  | started {cmd data frame} (hsend : Sendable (cmd, data)) (hidle : l.awaiting = false)
      (hframe : numbered l.first (cmd, data) = some frame) :
      Does l ⟨.send cmd data, some (cmd, data), some frame⟩
        ⟨l.accepted ++ [(cmd, data)], l.first + 1, true⟩
  | stale {seq} (hstale : l.awaiting = false ∨ seq ≠ seqOf (l.first - 1)) :
      Does l ⟨.handleAck seq, none, none⟩ l
  | acked (hwait : l.awaiting = true) (hall : l.first = l.accepted.length) :
      Does l ⟨.handleAck (seqOf (l.first - 1)), none, none⟩ { l with awaiting := false }
  | next {m frame} (hwait : l.awaiting = true) (hm : l.accepted[l.first]? = some m)
      (hframe : numbered l.first m = some frame) :
      Does l ⟨.handleAck (seqOf (l.first - 1)), none, some frame⟩ { l with first := l.first + 1 }
  | resent {act m frame} (hact : (Done.mk act none (some frame)).again = some frame)
      (hwait : l.awaiting = true) (hm : l.accepted[l.first - 1]? = some m)
      (hframe : numbered (l.first - 1) m = some frame) :
      Does l ⟨act, none, some frame⟩ l
  | quiet {act} (hsend : ∀ cmd data, act ≠ .send cmd data) (hack : ∀ seq, act ≠ .handleAck seq) :
      Does l ⟨act, none, none⟩ l

section

variable {l l' : Ledger} {d : Done}

theorem Ledger.inv_fresh : Ledger.fresh.Inv where
  sendable m h := by cases h
  first_le := Nat.le_refl 0
  pos h := by cases h
  idle _ := rfl

/-- **Every step keeps the ledger in order.** -/
theorem Does.inv (h : Does l d l') (hinv : l.Inv) : l'.Inv := by
  obtain ⟨hsendable, hle, hpos, hidle⟩ := hinv
  have happend {m : Message} (hm : Sendable m) : ∀ m' ∈ l.accepted ++ [m], Sendable m' := by
    intro m' hm'
    rcases List.mem_append.mp hm' with h | h
    · exact hsendable m' h
    · rwa [List.mem_singleton.mp h]
  -- only `queued` and `started` add a message, only `started` and `next` transmit one
  cases h with
  | rejected => exact ⟨hsendable, hle, hpos, hidle⟩
  | queued hsend hwait =>
    refine ⟨happend hsend, ?_, hpos, fun h => ?_⟩
    · rw [List.length_append]
      exact Nat.le_add_right_of_le hle
    · rw [hwait] at h
      cases h
  | started hsend hidle' =>
    have hall := hidle hidle'
    refine ⟨happend hsend, ?_, (fun _ => Nat.succ_pos _), (fun h => ?_)⟩
    · rw [List.length_append, hall]
      exact Nat.le_refl _
    · cases h
  | stale => exact ⟨hsendable, hle, hpos, hidle⟩
  | acked hwait hall => exact ⟨hsendable, hle, (fun h => by cases h), (fun _ => hall)⟩
  | next hwait hm =>
    obtain ⟨hlt, -⟩ := List.getElem?_eq_some_iff.mp hm
    refine ⟨hsendable, hlt, fun _ => Nat.succ_pos _, fun h => ?_⟩
    rw [hwait] at h
    cases h
  | resent => exact ⟨hsendable, hle, hpos, hidle⟩
  | quiet => exact ⟨hsendable, hle, hpos, hidle⟩

end

/-! ## The session keeps a ledger -/

/-- The state of the session is that of a ledger. -/
structure Session.Keeps (s : Session) (l : Ledger) : Prop where
  inv : l.Inv
  queue : s.sendQueue = l.accepted.drop l.first
  txSeq : s.txSeq = seqOf (l.first + 63)
  awaiting : s.awaiting = l.awaiting
  retain : l.awaiting = true →
    ∃ m, l.accepted[l.first - 1]? = some m ∧ s.retain = numbered (l.first - 1) m

/-- Frames can always be built, and begin with a marker byte. -/
theorem exists_numbered (k : ℕ) (m : Message) : ∃ b rest, numbered k m = some (b :: rest) := by
  let _ : Build := build32
  exact ⟨_, _, buildDataFrame_eq m.1 (seqOf k) m.2⟩

/-- The number `PrepareTransmit` stamps. -/
theorem next_seq (k : ℕ) : (seqOf (k + 63) + 1) &&& 0x3F = seqOf k := by
  have h := seqOf_succ (k + 63)
  have hmod : seqOf (k + 63 + 1) = seqOf k := seqOf_eq_iff.mpr (by omega)
  exact h.trans hmod

/-- The number of the last message transmitted. -/
theorem last_seq {k : ℕ} (hk : 0 < k) : seqOf (k + 63) = seqOf (k - 1) :=
  seqOf_eq_iff.mpr (by omega)

namespace Session

variable {s s' : Session} {l : Ledger}

theorem armAckTimer_eq (s : Session) : ∃ timer, s.armAckTimer = { s with ackTimer := timer } := by
  rw [armAckTimer]
  split
  · exact ⟨_, rfl⟩
  · exact ⟨s.ackTimer, rfl⟩

/-- `PrepareTransmit` retains the frame of the next message. -/
theorem prepareTransmit_eq {k : ℕ} (hseq : s.txSeq = seqOf (k + 63)) (m : Message) :
    ∃ frame s', numbered k m = some frame ∧ s.prepareTransmit m.1 m.2 = some (frame, s') ∧
      s'.txSeq = seqOf k ∧ s'.retain = some frame ∧ s'.awaiting = true ∧
      s'.sendQueue = s.sendQueue := by
  obtain ⟨b, rest, hframe⟩ := exists_numbered k m
  have hbuild : buildDataFrame m.1 ((s.txSeq + 1) &&& 0x3F) m.2 = some (b :: rest) := by
    rw [hseq, next_seq]
    exact hframe
  obtain ⟨timer, htimer⟩ := armAckTimer_eq
    { s with txSeq := seqOf k, retain := some (b :: rest), awaiting := true, retries := 0,
             deliveryNotified := false }
  refine ⟨b :: rest, { s with
    txSeq := seqOf k, retain := some (b :: rest), awaiting := true, retries := 0,
    deliveryNotified := false, ackTimer := timer }, hframe, ?_, rfl, rfl, rfl, rfl⟩
  simp only [prepareTransmit, hbuild, Option.bind_eq_bind, Option.bind_some]
  rw [hseq, next_seq, htimer]

/-- A change of other fields. -/
theorem Keeps.of_eq (h : s.Keeps l) (hqueue : s'.sendQueue = s.sendQueue)
    (hseq : s'.txSeq = s.txSeq) (hwait : s'.awaiting = s.awaiting)
    (hretain : s'.retain = s.retain) : s'.Keeps l where
  inv := h.inv
  queue := hqueue.trans h.queue
  txSeq := hseq.trans h.txSeq
  awaiting := hwait.trans h.awaiting
  retain hw := by
    rw [hretain]
    exact h.retain hw

/-- What is retained while a message is outstanding. -/
theorem Keeps.retained (h : s.Keeps l) (hwait : s.awaiting = true) :
    ∃ m b rest, l.awaiting = true ∧ l.accepted[l.first - 1]? = some m ∧
      numbered (l.first - 1) m = some (b :: rest) ∧ s.retain = some (b :: rest) := by
  have hwait' : l.awaiting = true := h.awaiting ▸ hwait
  obtain ⟨m, hm, hretain⟩ := h.retain hwait'
  obtain ⟨b, rest, hframe⟩ := exists_numbered (l.first - 1) m
  exact ⟨m, b, rest, hwait', hm, hframe, hretain.trans hframe⟩

/-! ### Handler by handler -/

theorem perform_send_ok {cmd : UInt8} {data : List UInt8} {eff : Effects}
    (h : s.send cmd data = some (.ok eff)) :
    s.perform (.send cmd data) =
      some (⟨.send cmd data, some (cmd, data), eff.write⟩, eff.session) := by
  rw [perform, h]
  rfl

/-- What `Send` does with a message that it takes. -/
theorem send_eq {cmd : UInt8} {data : List UInt8} (hsend : Sendable (cmd, data)) :
    s.send cmd data =
      if s.awaiting then
        some (.ok { session := { s with sendQueue := s.sendQueue ++ [(cmd, data)] } })
      else (s.prepareTransmit cmd data).bind fun toWrite =>
        some (.ok { session := toWrite.2, write := some toWrite.1 }) := by
  obtain ⟨hlo, hhi, hlen⟩ := hsend
  have hmax : maxFrameLength.toInt = 32768 := by decide
  have hlen' : ¬ maxFrameLength.toInt < data.length := by
    rw [hmax]
    exact Int.not_lt.mpr (Int.ofNat_le.mpr hlen)
  rw [Session.send, if_neg (UInt8.not_lt.mpr hhi), if_neg (UInt8.not_lt.mpr hlo), if_neg hlen']
  rfl

/-- Other messages raise an exception. -/
theorem send_error {cmd : UInt8} {data : List UInt8} (hsend : ¬ Sendable (cmd, data)) :
    ∃ err, s.send cmd data = some (.error err) := by
  have hmax : maxFrameLength.toInt = 32768 := by decide
  rw [Session.send]
  by_cases hhi : cmd > 127
  · exact ⟨_, if_pos hhi⟩
  · rw [if_neg hhi]
    by_cases hlo : cmd < 1
    · exact ⟨_, if_pos hlo⟩
    · rw [if_neg hlo]
      refine ⟨⟨"data", none⟩, if_pos ?_⟩
      rw [hmax]
      by_contra hlen
      exact hsend ⟨UInt8.not_lt.mp hlo, UInt8.not_lt.mp hhi,
        Int.ofNat_le.mp (Int.not_lt.mp hlen)⟩

/-- A call of `Send`. -/
theorem Keeps.send (h : s.Keeps l) (cmd : UInt8) (data : List UInt8) :
    ∃ d s' l', s.perform (.send cmd data) = some (d, s') ∧ Does l d l' ∧ s'.Keeps l' := by
  by_cases hsend : Sendable (cmd, data)
  · have hcall := s.send_eq hsend
    -- it is queued while a frame is outstanding, else transmitted at once
    cases hwait : s.awaiting with
    | true =>
      rw [hwait, if_pos rfl] at hcall
      have hwait' : l.awaiting = true := h.awaiting ▸ hwait
      have hdoes : Does l _ _ := .queued hsend hwait'
      refine ⟨_, _, _, perform_send_ok hcall, hdoes, hdoes.inv h.inv, ?_, h.txSeq,
        hwait'.symm, ?_⟩
      · dsimp only
        rw [h.queue, List.drop_append_of_le_length h.inv.first_le]
      · intro _
        obtain ⟨m, hm, hretain⟩ := h.retain hwait'
        obtain ⟨hlt, -⟩ := List.getElem?_eq_some_iff.mp hm
        exact ⟨m, (List.getElem?_append_left hlt).trans hm, hretain⟩
    | false =>
      have hidle : l.awaiting = false := h.awaiting ▸ hwait
      obtain ⟨frame, s', hframe, hprepare, hseq, hretain, hwait', hqueue⟩ :=
        prepareTransmit_eq h.txSeq (cmd, data)
      rw [hwait, if_neg Bool.false_ne_true, hprepare, Option.bind_some] at hcall
      have hdoes : Does l _ _ := .started hsend hidle hframe
      refine ⟨_, s', _, perform_send_ok hcall, hdoes, hdoes.inv h.inv, ?_, ?_, hwait', ?_⟩
      · rw [hqueue, h.queue, h.inv.idle hidle, List.drop_length, List.drop_eq_nil_of_le]
        rw [List.length_append, List.length_singleton]
      · rw [hseq, last_seq (Nat.succ_pos _)]
        rfl
      · intro _
        refine ⟨(cmd, data), ?_, hretain.trans hframe.symm⟩
        rw [Nat.add_sub_cancel, h.inv.idle hidle, List.getElem?_concat_length]
  · obtain ⟨err, herr⟩ := s.send_error hsend
    exact ⟨⟨.send cmd data, none, none⟩, s, l, by rw [perform, herr]; rfl, .rejected, h⟩

/-- A call of `HandleAck`. -/
theorem Keeps.handleAck (h : s.Keeps l) (seq : UInt8) :
    ∃ d s' l', s.perform (.handleAck seq) = some (d, s') ∧ Does l d l' ∧ s'.Keeps l' := by
  by_cases hstale : s.awaiting = false ∨ seq ≠ s.txSeq
  · have hstale' : l.awaiting = false ∨ seq ≠ seqOf (l.first - 1) := by
      rcases Bool.eq_false_or_eq_true l.awaiting with hwait | hidle
      · refine .inr ?_
        rw [h.awaiting, hwait, h.txSeq, last_seq (h.inv.pos hwait)] at hstale
        exact hstale.resolve_left Bool.true_eq_false.mp
      · exact .inl hidle
    exact ⟨_, s, l, by rw [perform, Session.handleAck, if_pos hstale]; rfl, .stale hstale', h⟩
  · obtain ⟨hwait, hseq⟩ := not_or.mp hstale
    rw [Bool.not_eq_false] at hwait
    have hwait' : l.awaiting = true := h.awaiting ▸ hwait
    obtain rfl : seq = seqOf (l.first - 1) := by
      rw [not_not.mp hseq, h.txSeq, last_seq (h.inv.pos hwait')]
    rcases Nat.lt_or_ge l.first l.accepted.length with hlt | hge
    · -- the next message follows
      have hm : l.accepted[l.first]? = some l.accepted[l.first] := List.getElem?_eq_getElem hlt
      have hqueue : s.sendQueue = l.accepted[l.first] :: l.accepted.drop (l.first + 1) := by
        rw [h.queue, List.drop_eq_getElem_cons hlt]
      obtain ⟨frame, s', hframe, hprepare, hseq', hretain, hwait'', hqueue'⟩ :=
        @prepareTransmit_eq
          { s with awaiting := false, ackTimer := none,
                   sendQueue := l.accepted.drop (l.first + 1) } _ h.txSeq l.accepted[l.first]
      have hdoes : Does l _ _ := .next hwait' hm hframe
      refine ⟨_, s', _, ?_, hdoes, hdoes.inv h.inv, hqueue', ?_, ?_, ?_⟩
      · simp only [perform, Session.handleAck, if_neg hstale, disarmAckTimer, hqueue, hprepare,
          Option.bind_eq_bind, Option.bind_some]
      · rw [hseq', last_seq (Nat.succ_pos _)]
        rfl
      · rw [hwait'', hwait']
      · intro _
        exact ⟨_, hm, hretain.trans hframe.symm⟩
    -- the queue is empty
    · have hall : l.first = l.accepted.length := Nat.le_antisymm h.inv.first_le hge
      have hqueue : s.sendQueue = [] := by
        rw [h.queue, hall, List.drop_length]
      have hdoes : Does l _ _ := .acked hwait' hall
      refine ⟨_, { s with awaiting := false, ackTimer := none }, _, ?_, hdoes, hdoes.inv h.inv,
        h.queue, h.txSeq, rfl, (fun hw => by cases hw)⟩
      simp only [perform, Session.handleAck, if_neg hstale, disarmAckTimer, hqueue,
        Option.bind_eq_bind, Option.bind_some]

/-- The handlers that may write the retained frame again. -/
theorem Keeps.resend_eq (h : s.Keeps l) {act : Action}
    (hagain : ∀ frame, (Done.mk act none (some frame)).again = some frame)
    (hsend : ∀ cmd data, act ≠ .send cmd data) (hack : ∀ seq, act ≠ .handleAck seq) :
    Does l ⟨act, none, s.resend.2⟩ l := by
  rw [Session.resend]
  cases hwait : s.awaiting with
  | false => exact .quiet hsend hack
  | true =>
    obtain ⟨m, b, rest, hwait', hm, hframe, hretain⟩ := h.retained hwait
    simp only [hretain]
    exact .resent (hagain _) hwait' hm hframe

/-- `HandleNack` leaves the state as it is. -/
theorem handleNack_session {seq : UInt8} {nack : Bool × Effects}
    (h : s.handleNack seq = some nack) : nack.2.session = s := by
  rw [handleNack] at h
  by_cases hidle : s.awaiting = false
  · rw [if_pos hidle] at h
    cases h
    rfl
  · rw [if_neg hidle] at h
    simp only [Option.bind_eq_bind, Option.bind_eq_some_iff] at h
    obtain ⟨_, -, _, -, heq⟩ := h
    by_cases hmode : s.ackTimeoutMs < 0
    · rw [if_pos hmode] at heq
      cases heq
      rfl
    · rw [if_neg hmode] at heq
      cases heq
      rfl

/-- A call of `HandleNack`. -/
theorem Keeps.handleNack (h : s.Keeps l) (seq : UInt8) :
    ∃ d, s.perform (.handleNack seq) = some (d, s) ∧ Does l d l := by
  have hquiet : Does l ⟨.handleNack seq, none, none⟩ l := .quiet (by simp) (by simp)
  cases hwait : s.awaiting with
  | false =>
    refine ⟨_, ?_, hquiet⟩
    simp only [perform, Session.handleNack, hwait, if_true, Option.bind_eq_bind, Option.bind_some,
      Bool.false_eq_true, if_false]
  | true =>
    obtain ⟨m, b, rest, -, -, -, hretain⟩ := h.retained hwait
    have hload : Memory.load (b :: rest) 0 = some b := rfl
    by_cases hmode : s.ackTimeoutMs < 0
    · refine ⟨_, ?_, hquiet⟩
      simp only [perform, Session.handleNack, hwait, Bool.true_eq_false, if_false, hretain, hload,
        hmode, if_true, Option.bind_eq_bind, Option.bind_some, Bool.false_eq_true]
    · have hdoes : Does l ⟨.handleNack seq, none, s.resend.2⟩ l :=
        h.resend_eq (fun _ => rfl) (by simp) (by simp)
      refine ⟨_, ?_, hdoes⟩
      simp only [perform, Session.handleNack, hwait, Bool.true_eq_false, if_false, hretain, hload,
        hmode, if_true, Option.bind_eq_bind, Option.bind_some]

/-- `OnAckTimeout` when there is nothing to transmit again. -/
theorem onAckTimeout_off (h : s.awaiting = false ∨ s.ackTimeoutMs ≤ 0) :
    s.onAckTimeout = some { session := s } := by
  rw [Session.onAckTimeout, if_pos h]

/-- `OnAckTimeout` when there is. -/
theorem onAckTimeout_on {b : UInt8} {rest : List UInt8}
    (h : ¬ (s.awaiting = false ∨ s.ackTimeoutMs ≤ 0)) (hretain : s.retain = some (b :: rest)) :
    ∃ eff notified, s.onAckTimeout = some eff ∧ eff.write = some (b :: rest) ∧
      eff.session = { s with
        retries := s.retries + 1, deliveryNotified := notified,
        ackTimer := some s.ackTimeoutMs } := by
  have hpos : 0 < s.ackTimeoutMs := Int32.not_le.mp fun hle => h (.inr hle)
  have harm (t : Session) (ht : t.ackTimeoutMs = s.ackTimeoutMs) :
      t.armAckTimer = { t with ackTimer := some s.ackTimeoutMs } := by
    rw [armAckTimer, if_pos (by rw [ht]; exact hpos), ht]
  have hload : Memory.load (b :: rest) 0 = some b := rfl
  by_cases hnotice : s.maxRetries ≤ s.retries + 1 ∧ s.deliveryNotified = false
  · have heff : s.onAckTimeout = some {
        session := armAckTimer { s with retries := s.retries + 1, deliveryNotified := true }
        write := s.retain
        frameError := some ⟨b - 128, s.txSeq, s.retries + 1⟩ } := by
      simp only [Session.onAckTimeout, if_neg h, if_pos hnotice, hretain, hload,
        Option.bind_eq_bind, Option.bind_some]
    exact ⟨_, true, heff, hretain, harm _ rfl⟩
  · have heff : s.onAckTimeout = some {
        session := armAckTimer { s with retries := s.retries + 1 }
        write := s.retain } := by
      simp only [Session.onAckTimeout, if_neg h, if_neg hnotice]
    exact ⟨_, s.deliveryNotified, heff, hretain, harm _ rfl⟩

/-- A call of `OnAckTimeout`. -/
theorem Keeps.onAckTimeout (h : s.Keeps l) :
    ∃ d s', s.perform .onAckTimeout = some (d, s') ∧ Does l d l ∧ s'.Keeps l := by
  by_cases hoff : s.awaiting = false ∨ s.ackTimeoutMs ≤ 0
  · have hquiet : Does l ⟨.onAckTimeout, none, none⟩ l := .quiet (by simp) (by simp)
    exact ⟨_, s, by rw [perform, onAckTimeout_off hoff]; rfl, hquiet, h⟩
  · have hwait : s.awaiting = true := by
      rw [← Bool.not_eq_false]
      exact fun hw => hoff (.inl hw)
    obtain ⟨m, b, rest, hwait', hm, hframe, hretain⟩ := h.retained hwait
    -- what changes is nothing that the ledger sees
    obtain ⟨eff, notified, heff, hwrite, hsession⟩ := onAckTimeout_on hoff hretain
    have hdoes : Does l ⟨.onAckTimeout, none, eff.write⟩ l := by
      rw [hwrite]
      exact .resent rfl hwait' hm hframe
    refine ⟨_, eff.session, by rw [perform, heff]; rfl, hdoes, ?_⟩
    rw [hsession]
    exact h.of_eq rfl rfl rfl rfl

/-- **Every step of the session is one of its ledger.** -/
theorem Keeps.perform (h : s.Keeps l) (act : Action) :
    ∃ d s' l', s.perform act = some (d, s') ∧ Does l d l' ∧ s'.Keeps l' := by
  cases act with
  | send cmd data => exact h.send cmd data
  | handleAck seq => exact h.handleAck seq
  | handleNack seq =>
    obtain ⟨d, hs, hdoes⟩ := h.handleNack seq
    exact ⟨d, s, l, hs, hdoes, h⟩
  | resend =>
    have hdoes : Does l ⟨.resend, none, s.resend.2⟩ l :=
      h.resend_eq (fun _ => rfl) (by simp) (by simp)
    exact ⟨_, s, l, rfl, hdoes, h⟩
  | onAckTimeout =>
    obtain ⟨d, s', hs, hdoes, hkeep⟩ := h.onAckTimeout
    exact ⟨d, s', l, hs, hdoes, hkeep⟩
  | setAckTimeout value =>
    exact ⟨_, _, l, rfl, .quiet (by simp) (by simp), h.of_eq rfl rfl rfl rfl⟩
  | setMaxRetries value =>
    exact ⟨_, _, l, rfl, .quiet (by simp) (by simp), h.of_eq rfl rfl rfl rfl⟩

/-- `Open` starts an empty ledger. -/
theorem opened_keeps (s : Session) : s.opened.Keeps .fresh where
  inv := Ledger.inv_fresh
  queue := rfl
  txSeq := rfl
  awaiting := rfl
  retain h := by cases h

end Session

/-! ## Whole runs -/

/-- What is known after some steps: the number of frames written for the first time, and the
last one of them as long as no step since has received the ACK that carries its number. -/
structure Seen where
  firsts : ℕ
  unacked : Option (List UInt8)
  deriving DecidableEq

/-- One more step. -/
def Seen.next (k : Seen) (d : Done) : Seen :=
  match d.first with
  | some frame => ⟨k.firsts + 1, some frame⟩
  | none => if d.action = .handleAck (seqOf (k.firsts - 1)) then { k with unacked := none } else k

/-- What is known after the steps `ds`. -/
def seen (ds : List Done) : Seen := ds.foldl Seen.next ⟨0, none⟩

/-- The frame that a ledger has outstanding. -/
def Ledger.unacked (l : Ledger) : Option (List UInt8) :=
  if l.awaiting then l.accepted[l.first - 1]?.bind (numbered (l.first - 1)) else none

/-- What is known is what the ledger says. -/
structure Follows (k : Seen) (l : Ledger) : Prop where
  firsts : k.firsts = l.first
  unacked : k.unacked = l.unacked

section

variable {k : Seen} {l l' : Ledger} {d : Done}

theorem Seen.next_first {frame : List UInt8} (h : d.first = some frame) :
    k.next d = ⟨k.firsts + 1, some frame⟩ := by
  rw [Seen.next, h]

/-- A step that transmits nothing and is not the ACK that is waited for. -/
theorem Seen.next_other (hfirst : d.first = none)
    (hack : d.action ≠ .handleAck (seqOf (k.firsts - 1))) : k.next d = k := by
  rw [Seen.next, hfirst]
  exact if_neg hack

theorem Ledger.unacked_eq {j : ℕ} {m : Message} {frame : List UInt8} (hwait : l.awaiting = true)
    (hj : l.first - 1 = j) (hm : l.accepted[j]? = some m) (hframe : numbered j m = some frame) :
    l.unacked = some frame := by
  rw [Ledger.unacked, if_pos hwait, hj, hm, Option.bind_some, hframe]

/-- **What is known follows the ledger.** -/
theorem Does.follows (h : Does l d l') (hinv : l.Inv) (hk : Follows k l) :
    Follows (k.next d) l' := by
  cases h with
  | rejected =>
    rw [Seen.next_other rfl (by simp)]
    exact hk
  | @queued cmd data hsend hwait =>
    rw [Seen.next_other rfl (by simp)]
    refine ⟨hk.firsts, hk.unacked.trans ?_⟩
    have hpos := hinv.pos hwait
    have hle := hinv.first_le
    have hlast : (l.accepted ++ [(cmd, data)])[l.first - 1]? = l.accepted[l.first - 1]? :=
      List.getElem?_append_left (by omega)
    rw [Ledger.unacked, Ledger.unacked, hlast]
  | @started cmd data frame hsend hidle hframe =>
    rw [Seen.next_first rfl]
    have hm : (l.accepted ++ [(cmd, data)])[l.first]? = some (cmd, data) := by
      rw [hinv.idle hidle, List.getElem?_concat_length]
    exact ⟨congrArg (· + 1) hk.firsts,
      (Ledger.unacked_eq rfl (Nat.add_sub_cancel ..) hm hframe).symm⟩
  | @stale seq hstale =>
    rcases hstale with hidle | hne
    · -- nothing is waited for
      have hnone : k.unacked = none := by
        rw [hk.unacked, Ledger.unacked, hidle]
        rfl
      have hsame : k.next ⟨.handleAck seq, none, none⟩ = k := by
        obtain ⟨firsts, unacked⟩ := k
        obtain rfl : unacked = none := hnone
        simp [Seen.next, Done.first]
      rw [hsame]
      exact hk
    · rw [Seen.next_other rfl (by rw [hk.firsts]; simpa using hne)]
      exact hk
  | acked hwait hall =>
    have hnext : k.next ⟨.handleAck (seqOf (l.first - 1)), none, none⟩ = ⟨k.firsts, none⟩ := by
      rw [← hk.firsts]
      simp [Seen.next, Done.first]
    rw [hnext]
    exact ⟨hk.firsts, rfl⟩
  | next hwait hm hframe =>
    rw [Seen.next_first rfl]
    exact ⟨congrArg (· + 1) hk.firsts, (Ledger.unacked_eq (l := { l with first := l.first + 1 })
      hwait (Nat.add_sub_cancel ..) hm hframe).symm⟩
  | @resent act m frame hact =>
    rw [Seen.next_other (Done.first_of_again hact) (by rintro rfl; cases hact)]
    exact hk
  | @quiet act hsend hack =>
    rw [Seen.next_other (by cases act <;> rfl) (hack _)]
    exact hk

end

/-- The steps `ds` lead to the ledger `l`. -/
structure Recorded (ds : List Done) (l : Ledger) : Prop where
  accepted : l.accepted = ds.filterMap Done.accepted
  firsts : (seen ds).firsts = l.first
  unacked : (seen ds).unacked = l.unacked
  written : (ds.filterMap Done.first).map some = (l.accepted.take l.first).mapIdx numbered

theorem recorded_fresh : Recorded [] .fresh := ⟨rfl, rfl, rfl, rfl⟩

theorem seen_concat (ds : List Done) (d : Done) : seen (ds ++ [d]) = (seen ds).next d :=
  List.foldl_concat ..

section

variable {ds : List Done} {l l' : Ledger} {d : Done}

/-- A step that writes nothing for the first time. -/
theorem Recorded.other (h : Recorded ds l) (hseen : Follows ((seen ds).next d) l')
    (hfirst : d.first = none) (haccepted : l'.accepted = l.accepted ++ d.accepted.toList)
    (hl' : l'.first = l.first)
    (htake : l'.accepted.take l.first = l.accepted.take l.first) : Recorded (ds ++ [d]) l' := by
  refine ⟨?_, ?_, ?_, ?_⟩
  · rw [haccepted, h.accepted, List.filterMap_append]
    cases hd : d.accepted <;> simp [hd]
  · rw [seen_concat, hseen.firsts]
  · rw [seen_concat, hseen.unacked]
  · rw [List.filterMap_append, hl', htake, ← h.written]
    simp [hfirst]

/-- A step that writes the next message for the first time. -/
theorem Recorded.first (h : Recorded ds l) (hseen : Follows ((seen ds).next d) l')
    {frame : List UInt8} {m : Message} (hfirst : d.first = some frame)
    (haccepted : l'.accepted = l.accepted ++ d.accepted.toList) (hl' : l'.first = l.first + 1)
    (hm : l'.accepted[l.first]? = some m) (hframe : numbered l.first m = some frame)
    (hle : l.first ≤ l.accepted.length) : Recorded (ds ++ [d]) l' := by
  have htake : l'.accepted.take (l.first + 1) = l.accepted.take l.first ++ [m] := by
    rw [List.take_add_one, hm, haccepted, List.take_append_of_le_length hle]
    rfl
  refine ⟨?_, ?_, ?_, ?_⟩
  · rw [haccepted, h.accepted, List.filterMap_append]
    cases hd : d.accepted <;> simp [hd]
  · rw [seen_concat, hseen.firsts]
  · rw [seen_concat, hseen.unacked]
  · rw [List.filterMap_append, List.map_append, h.written, hl', htake, List.mapIdx_concat,
      List.length_take, Nat.min_eq_left hle, hframe]
    simp [hfirst]

/-- **Every step is recorded.** -/
theorem Does.recorded (h : Does l d l') (hinv : l.Inv) (hr : Recorded ds l) :
    Recorded (ds ++ [d]) l' := by
  have hseen := h.follows hinv ⟨hr.firsts, hr.unacked⟩
  cases h with
  | rejected => exact hr.other hseen rfl (List.append_nil _).symm rfl rfl
  | queued =>
    -- a message that is queued changes nothing of those transmitted
    exact hr.other hseen rfl rfl rfl (List.take_append_of_le_length hinv.first_le)
  | started hsend hidle hframe =>
    refine hr.first hseen rfl rfl rfl ?_ hframe hinv.first_le
    rw [hinv.idle hidle, List.getElem?_concat_length]
  | stale => exact hr.other hseen rfl (List.append_nil _).symm rfl rfl
  | acked => exact hr.other hseen rfl (List.append_nil _).symm rfl rfl
  | next hwait hm hframe =>
    exact hr.first hseen rfl (List.append_nil _).symm rfl hm hframe hinv.first_le
  | resent hact =>
    exact hr.other hseen (Done.first_of_again hact) (List.append_nil _).symm rfl rfl
  | @quiet act =>
    have hfirst : (Done.mk act none none).first = none := by cases act <;> rfl
    exact hr.other hseen hfirst (List.append_nil _).symm rfl rfl

/-- What the steps `ds` have done with the messages, and what is left in the state `s`. -/
structure QueueKept (ds : List Done) (s : Session) : Prop where
  /-- the messages accepted are those transmitted, numbered from 0 on, and those in the queue -/
  order : ∃ n, (ds.filterMap Done.first).map some =
      ((ds.filterMap Done.accepted).take n).mapIdx numbered ∧
    s.sendQueue = (ds.filterMap Done.accepted).drop n
  /-- a message waits only while a frame is outstanding -/
  outstanding : s.sendQueue ≠ [] → s.awaiting = true ∧ (seen ds).unacked ≠ none

/-- What the step `d` writes after the steps `ds`. -/
structure StepKept (ds : List Done) (d : Done) : Prop where
  /-- a frame is written for the first time on the ACK of the one before it, or, if nothing is
  outstanding, in the call of `Send` that takes its message -/
  first : ∀ frame, d.first = some frame →
    ((seen ds).unacked ≠ none ∧ d.action = .handleAck (seqOf ((seen ds).firsts - 1))) ∨
      ((seen ds).unacked = none ∧ ∃ cmd data, d.action = .send cmd data ∧
        d.accepted = some (cmd, data) ∧ numbered (seen ds).firsts (cmd, data) = some frame)
  /-- what is written again is the last frame written for the first time, not acknowledged -/
  again : ∀ frame, d.again = some frame → (seen ds).unacked = some frame

theorem StepKept.of_silent (hfirst : d.first = none) (hagain : d.again = none) : StepKept ds d where
  first frame h := by
    rw [hfirst] at h
    cases h
  again frame h := by
    rw [hagain] at h
    cases h

theorem Does.stepKept (h : Does l d l') (hr : Recorded ds l) : StepKept ds d := by
  -- while one is outstanding, it is the last one transmitted
  have hbusy {m : Message} {frame : List UInt8} (hwait : l.awaiting = true)
      (hm : l.accepted[l.first - 1]? = some m) (hframe : numbered (l.first - 1) m = some frame) :
      (seen ds).unacked = some frame := by
    rw [hr.unacked, Ledger.unacked_eq hwait rfl hm hframe]
  cases h with
  | rejected => exact .of_silent rfl rfl
  | queued => exact .of_silent rfl rfl
  | @started cmd data frame hsend hidle hframe =>
    refine ⟨?_, (fun _ h => by cases h)⟩
    rintro frame' ⟨⟩
    refine .inr ⟨?_, cmd, data, rfl, rfl, ?_⟩
    · rw [hr.unacked, Ledger.unacked, hidle]
      rfl
    · rw [hr.firsts, hframe]
  | stale => exact .of_silent rfl rfl
  | acked => exact .of_silent rfl rfl
  | @next m frame hwait hm hframe =>
    refine ⟨?_, (fun _ h => by cases h)⟩
    rintro frame' ⟨⟩
    refine .inl ⟨?_, by rw [hr.firsts]⟩
    obtain ⟨hlt, -⟩ := List.getElem?_eq_some_iff.mp hm
    have hlast : l.accepted[l.first - 1]? = some l.accepted[l.first - 1] :=
      List.getElem?_eq_getElem (by omega)
    obtain ⟨b, rest, hframe'⟩ := exists_numbered (l.first - 1) l.accepted[l.first - 1]
    rw [hbusy hwait hlast hframe']
    exact Option.some_ne_none _
  | @resent act m frame hact hwait hm hframe =>
    refine ⟨fun frame' h => ?_, fun frame' h => ?_⟩
    · rw [Done.first_of_again hact] at h
      cases h
    · obtain rfl : frame = frame' := Option.some.inj (hact.symm.trans h)
      exact hbusy hwait hm hframe
  | @quiet act => exact .of_silent (by cases act <;> rfl) (by cases act <;> rfl)

/-- What a ledger says about the queue. -/
theorem Recorded.queueKept {s : Session} (hr : Recorded ds l) (h : s.Keeps l) : QueueKept ds s := by
  refine ⟨⟨l.first, ?_, ?_⟩, fun hne => ?_⟩
  · rw [hr.written, ← hr.accepted]
  · rw [h.queue, ← hr.accepted]
  · have hwait : l.awaiting = true := by
      rw [← Bool.not_eq_false]
      intro hidle
      rw [h.queue, h.inv.idle hidle, List.drop_length] at hne
      exact hne rfl
    obtain ⟨m, hm, -⟩ := h.retain hwait
    obtain ⟨b, rest, hframe⟩ := exists_numbered (l.first - 1) m
    refine ⟨h.awaiting.trans hwait, ?_⟩
    rw [hr.unacked, Ledger.unacked_eq hwait rfl hm hframe]
    exact Option.some_ne_none _

end

/-- The steps `ds` lead to the state `s`. -/
def Session.OnRecord (ds : List Done) (s : Session) : Prop := ∃ l, s.Keeps l ∧ Recorded ds l

theorem Session.OnRecord.step {ds : List Done} {s s' : Session} {act : Action} {d : Done}
    (h : s.OnRecord ds) (hs : s.perform act = some (d, s')) :
    s'.OnRecord (ds ++ [d]) ∧ StepKept ds d := by
  obtain ⟨l, hkeep, hr⟩ := h
  obtain ⟨d', s₁, l', hs', hdoes, hkeep'⟩ := hkeep.perform act
  obtain ⟨rfl, rfl⟩ := Prod.mk.inj (Option.some.inj (hs.symm.trans hs'))
  exact ⟨⟨l', hkeep', hdoes.recorded hkeep.inv hr⟩, hdoes.stepKept hr⟩

/-- **The send queue** loses, doubles and reorders nothing: in every run of an opened session,
with any settings, the messages accepted are those transmitted, in order and numbered from 0
on, followed by those in the queue; a message is transmitted for the first time on the ACK of
the one before it or, if nothing is outstanding, in its own call of `Send`; what is transmitted
again is the last of them, and only while it is unacknowledged; and a message waits in the
queue only while one is outstanding. -/
theorem send_queue (s : Session) (acts : List Action) :
    ∃ ds s', s.opened.run acts = some (ds, s') ∧ QueueKept ds s' ∧
      ∀ pre d post, ds = pre ++ d :: post → StepKept pre d := by
  have hstart : s.opened.OnRecord [] := ⟨.fresh, s.opened_keeps, recorded_fresh⟩
  have hall : ∀ act ∈ acts, True := fun _ _ => trivial
  obtain ⟨ds, s', hrun, l, hkeep, hr⟩ :=
    Runs.run_total (P := fun ds s => Session.OnRecord ds s) (fun {ds s act} h _ => by
      obtain ⟨l, hkeep, -⟩ := id h
      obtain ⟨d, s', -, hs, -, -⟩ := hkeep.perform act
      exact ⟨d, s', hs, (h.step hs).1⟩) hstart hall
  refine ⟨ds, s', hrun, hr.queueKept hkeep, ?_⟩
  rintro pre d post rfl
  obtain ⟨act, s₁, s₂, -, hrecord, hs⟩ :=
    Runs.run_at (P := fun ds s => Session.OnRecord ds s) (fun h _ hs => (h.step hs).1) hstart hall
      hrun
  exact (hrecord.step hs).2

end EspSerialSession

end HtcwFrameArq
