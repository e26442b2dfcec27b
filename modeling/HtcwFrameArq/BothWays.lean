import HtcwFrameArq.Duplex
import HtcwFrameArq.LateFrames
import HtcwFrameArq.PromptWrites

/-!
# Both directions at once

`Duplex.step_refines` says that every step of a session and a library that both send is a turn of
two links: the one of the messages of the session, whose writes may be late, and the one of the
messages of the library, whose writes are not. The frames on a wire are the messages of one link
among the replies of the other. What holds of the links holds of the two ends: `both_ways`.
-/

namespace HtcwFrameArq

namespace EspSerialSession

open LateWrites

/-! ## What is on the wires -/

/-- What a frame on a wire stands for: message number `k` of one link, or a reply of the other. -/
abbrev Item : Type := ℕ ⊕ Option ℕ

/-- `bytes` is the frame of an item, where `accepted` are the messages. -/
def IsItem [Build] (accepted : List Message) : Item → List UInt8 → Prop
  | .inl k => IsFrame accepted k
  | .inr r => IsReply r

/-- `bytes` is the frame of an item, or text. -/
def IsPiece [Build] (accepted : List Message) : Option Item → List UInt8 → Prop
  | some it, bytes => IsItem accepted it bytes
  | none, bytes => ∀ b ∈ bytes, b < 128

/-- The messages among the items. -/
def numbersOf (items : List Item) : List ℕ := items.filterMap Sum.getLeft?

/-- The replies among the items. -/
def repliesOf (items : List Item) : List (Option ℕ) := items.filterMap Sum.getRight?

section

variable (items : List Item) (k : ℕ) (r : Option ℕ)

@[simp] theorem numbersOf_inl : numbersOf (.inl k :: items) = k :: numbersOf items := rfl

@[simp] theorem numbersOf_inr : numbersOf (.inr r :: items) = numbersOf items := rfl

@[simp] theorem repliesOf_inl : repliesOf (.inl k :: items) = repliesOf items := rfl

@[simp] theorem repliesOf_inr : repliesOf (.inr r :: items) = r :: repliesOf items := rfl

@[simp] theorem numbersOf_append (more : List Item) :
    numbersOf (items ++ more) = numbersOf items ++ numbersOf more := List.filterMap_append

@[simp] theorem repliesOf_append (more : List Item) :
    repliesOf (items ++ more) = repliesOf items ++ repliesOf more := List.filterMap_append

@[simp] theorem numbersOf_nil : numbersOf [] = [] := rfl

@[simp] theorem repliesOf_nil : repliesOf [] = [] := rfl

end

theorem IsItem.append [Build] {accepted : List Message} {it : Item} {bytes : List UInt8}
    (h : IsItem accepted it bytes) (more : List Message) : IsItem (accepted ++ more) it bytes := by
  cases it with
  | inl k => exact IsFrame.append h more
  | inr r => exact h

theorem IsPiece.append [Build] {accepted : List Message} {it : Option Item} {bytes : List UInt8}
    (h : IsPiece accepted it bytes) (more : List Message) :
    IsPiece (accepted ++ more) it bytes := by
  cases it with
  | none => exact h
  | some it => exact IsItem.append h more

/-- The frame of a message, as the library and the session write it. -/
theorem isFrame_iff [Build] {accepted : List Message} {k : ℕ} {bytes : List UInt8} :
    IsFrame accepted k bytes ↔
      ∃ m, accepted[k]? = some m ∧ bytes = (dataFrame m.1 (seqOf k) m.2).encode := by
  constructor
  · rintro ⟨m, hm, hframe⟩
    exact ⟨m, hm, Option.some.inj (hframe.symm.trans (buildDataFrame_eq m.1 (seqOf k) m.2))⟩
  · rintro ⟨m, hm, rfl⟩
    exact ⟨m, hm, buildDataFrame_eq m.1 (seqOf k) m.2⟩

/-! ## The receivers -/

/-- Where a receiver that has delivered `n` messages stands after an answer. -/
theorem seqOf_delivered (n : ℕ) : (seqOf n + 1) &&& faSeqMask = seqOf (n + 1) := seqOf_succ n

/-- The number before the one that is expected. -/
theorem seqOf_before (n : ℕ) : (seqOf n - 1) &&& faSeqMask = seqOf (n + 63) := by
  have hmod : seqOf n = seqOf (n + 63 + 1) := seqOf_eq_iff.mpr (by omega)
  rw [hmod, seqOf_pred]

/-- The three answers to a DATA frame, by its sequence number. -/
theorem seqOf_cases (n k : ℕ) :
    (seqOf k = seqOf n ∧ k ≡ n [MOD 64]) ∨
      (seqOf k ≠ seqOf n ∧ seqOf k = seqOf (n + 63) ∧ k + 1 ≡ n [MOD 64]) ∨
        (seqOf k ≠ seqOf n ∧ seqOf k ≠ seqOf (n + 63)) := by
  by_cases hnext : seqOf k = seqOf n
  · exact .inl ⟨hnext, seqOf_eq_iff.mp hnext⟩
  · by_cases hdup : seqOf k = seqOf (n + 63)
    · refine .inr (.inl ⟨hnext, hdup, ?_⟩)
      have := seqOf_eq_iff.mp hdup
      rw [Nat.ModEq]
      omega
    · exact .inr (.inr ⟨hnext, hdup⟩)

/-- A DATA frame of a message is no control frame. -/
theorem dataFrame_not_control {m : Message} (hm : Sendable m) (k : ℕ) :
    ¬ ((dataFrame m.1 (seqOf k) m.2).marker = 128 ∨
      ((dataFrame m.1 (seqOf k) m.2).seqByte >>> 6) &&& 0x03 ≠ typeData) := by
  obtain ⟨hmark, htype⟩ := dataFrame_isData hm.1 hm.2.1 (seqOf k) m.2
  rintro (h | h)
  · exact hmark h
  · exact h htype

section

variable [Build] {m : Message} {n : ℕ}

/-- **The library answers** the DATA frame of message number `k`. -/
theorem Arq.handle_answer {a : Arq} (hm : Sendable m) (hexp : a.expectedRxSeq = seqOf n) (k : ℕ) :
    ∃ delivers r reply, Link.Answer 64 n k delivers r ∧ IsReply r reply.encode ∧
      a.handle (dataFrame m.1 (seqOf k) m.2) =
        ⟨if delivers then m.1.toNat else 0, if delivers then some m.2 else none, some reply,
          { a with expectedRxSeq := seqOf (n + if delivers then 1 else 0) }⟩ := by
  obtain ⟨hlo, hhi, -⟩ := hm
  have hisdata := dataFrame_isData hlo hhi (seqOf k) m.2
  have hseq := faSeqOf_dataFrame (seqOf_le k) m.1 m.2
  have hsame : ({ a with expectedRxSeq := seqOf (n + 0) } : Arq) = a := by
    rw [Nat.add_zero, ← hexp]
  rcases seqOf_cases n k with ⟨hnext, hk⟩ | ⟨hne, hdup, hk⟩ | ⟨hne, hother⟩
  · have hhandle := Arq.handle_delivered (a := a) hisdata (hseq.trans (hnext.trans hexp.symm))
    rw [hseq] at hhandle
    have hret : ((dataFrame m.1 (seqOf k) m.2).marker.toNat : Int) - 128 = m.1.toNat :=
      (dataFrame_eq hhi (seqOf_le k) m.2).2.2
    refine ⟨true, some k, _, .next hk, rfl, ?_⟩
    rw [hhandle, hret, hnext, seqOf_delivered]
    rfl
  · have hhandle := Arq.handle_duplicate (a := a) hisdata (by rw [hseq, hexp]; exact hne)
      (by rw [hseq, hexp, seqOf_before]; exact hdup)
    rw [hseq] at hhandle
    refine ⟨false, some k, _, .again hk, rfl, ?_⟩
    simp only [Bool.false_eq_true, if_false, hsame]
    exact hhandle
  · have hhandle := Arq.handle_unexpected (a := a) hisdata (by rw [hseq, hexp]; exact hne)
      (by rw [hseq, hexp, seqOf_before]; exact hother)
    rw [hexp] at hhandle
    refine ⟨false, none, _, .other, ⟨n, rfl⟩, ?_⟩
    simp only [Bool.false_eq_true, if_false, hsame]
    exact hhandle

/-- **The session answers** it in the same way. -/
theorem Session.found_answer {s : Session} (hm : Sendable m) (hexp : s.expectedRxSeq = seqOf n)
    (k : ℕ) :
    ∃ delivers r control, Link.Answer 64 n k delivers r ∧ IsReply r control ∧
      s.found (.frame (dataFrame m.1 (seqOf k) m.2)) = some {
        session := { s with expectedRxSeq := seqOf (n + if delivers then 1 else 0) }
        write := some control
        frameReceived := if delivers then some m else none } := by
  have hctl := dataFrame_not_control hm k
  have hseq' : (dataFrame m.1 (seqOf k) m.2).seqByte &&& 0x3F = seqOf k :=
    faSeqOf_dataFrame (seqOf_le k) m.1 m.2
  have hsame : ({ s with expectedRxSeq := seqOf (n + 0) } : Session) = s := by
    rw [Nat.add_zero, ← hexp]
  have hmarker : (dataFrame m.1 (seqOf k) m.2).marker - 128 = m.1 :=
    (dataFrame_eq hm.2.1 (seqOf_le k) m.2).2.1
  have hnext' : (seqOf n + 1) &&& 0x3F = seqOf (n + 1) := seqOf_succ n
  have hprev : (seqOf n - 1) &&& 0x3F = seqOf (n + 63) := seqOf_before n
  rw [Session.found, Session.dispatchValidFrame, if_neg hctl, Session.dispatchData, hseq', hexp]
  rcases seqOf_cases n k with ⟨hnext, hk⟩ | ⟨hne, hdup, hk⟩ | ⟨hne, hother⟩
  · refine ⟨true, some k, _, .next hk, rfl, ?_⟩
    rw [if_pos hnext, buildControlFrame_eq, hmarker, hnext, hnext']
    rfl
  · refine ⟨false, some k, _, .again hk, rfl, ?_⟩
    rw [if_neg hne, if_pos (hdup.trans hprev.symm), buildControlFrame_eq]
    simp only [Bool.false_eq_true, if_false, hsame]
    rfl
  · refine ⟨false, none, _, .other, ⟨n, rfl⟩, ?_⟩
    rw [if_neg hne, if_neg (by rw [hprev]; exact hother), buildControlFrame_eq]
    simp only [Bool.false_eq_true, if_false, hsame]
    rfl

end

/-! ## The two links of a duplex -/

/-- The library is the sender of a link, which has written all that it has prepared. -/
structure Sends [Build] (g : FrameArqT) (l : Link Message) : Prop where
  sendable : ∀ m ∈ l.accepted, Sendable m
  all : l.prepared = l.accepted.length
  txSeq : g.txSeq = seqOf (l.prepared + 63)
  awaiting : g.awaitingAck = l.awaiting
  retained : l.awaiting = true → 0 < l.prepared ∧
    IsFrame l.accepted (l.prepared - 1) (g.retainBuffer.take g.retainLength)

/-- A call of get changes neither the number of the last message nor its frame. -/
theorem Sends.received [Build] {f g : FrameArqT} {l : Link Message} (h : Sends f l)
    (htx : g.txSeq = f.txSeq) {awaiting : Bool} (hwait : g.awaitingAck = awaiting)
    (hkeep : awaiting = true → l.awaiting = true) (hbuf : g.retainBuffer = f.retainBuffer)
    (hcount : g.retainLength = f.retainLength) : Sends g { l with awaiting := awaiting } := by
  refine ⟨h.sendable, h.all, htx.trans h.txSeq, hwait, fun hw => ?_⟩
  rw [hbuf, hcount]
  exact h.retained (hkeep hw)

/-- What is on the wires and what is delivered does not matter to the sender. -/
theorem Sends.rewired [Build] {g : FrameArqT} {l : Link Message} (h : Sends g l)
    {data : List ℕ} {delivered : List Message} {replies : List (Option ℕ)} :
    Sends g { l with data := data, delivered := delivered, replies := replies } :=
  ⟨h.sendable, h.all, h.txSeq, h.awaiting, h.retained⟩

/-- The frame of the next message of the library. -/
theorem Sends.putFrame_eq [Build] {g : FrameArqT} {l : Link Message} (h : Sends g l) (m : Message) :
    g.putFrame m.1 (some m.2) m.2.length = dataFrame m.1 (seqOf l.prepared) m.2 := by
  have hnext : g.nextSeq = seqOf l.prepared := by
    rw [FrameArqT.nextSeq, h.txSeq, seqOf_succ, seqOf_eq_iff]
    omega
  simp [FrameArqT.putFrame, putBody, hnext]

/-- It is retained. -/
theorem Sends.accepts [Build] {g : FrameArqT} {l : Link Message} (h : Sends g l) {m : Message}
    (hsend : Sendable m) :
    IsFrame (l.accepted ++ [m]) l.prepared (dataFrame m.1 (seqOf l.prepared) m.2).encode ∧
      Sends (g.sent (dataFrame m.1 (seqOf l.prepared) m.2)) { l with
        accepted := l.accepted ++ [m], prepared := l.prepared + 1, awaiting := true } := by
  have hframe : IsFrame (l.accepted ++ [m]) l.prepared
      (dataFrame m.1 (seqOf l.prepared) m.2).encode := by
    refine isFrame_iff.mpr ⟨m, ?_, rfl⟩
    rw [h.all, List.getElem?_concat_length]
  refine ⟨hframe, ?_, ?_, ?_, rfl, fun _ => ⟨Nat.succ_pos _, ?_⟩⟩
  · intro m' hm
    rcases List.mem_append.mp hm with hm | hm
    · exact h.sendable m' hm
    · rwa [List.mem_singleton.mp hm]
  · rw [List.length_append, h.all]
    rfl
  · change g.nextSeq = _
    rw [FrameArqT.nextSeq, h.txSeq, seqOf_succ]
  · have htake : ((g.sent (dataFrame m.1 (seqOf l.prepared) m.2)).retainBuffer.take
        (g.sent (dataFrame m.1 (seqOf l.prepared) m.2)).retainLength) =
        (dataFrame m.1 (seqOf l.prepared) m.2).encode := List.take_left
    rw [htake]
    exact hframe

/-- What the library does with a reply is a step of the link. -/
theorem Sends.hears [Build] {g : FrameArqT} {l : Link Message} (h : Sends g l) {r : Option ℕ}
    {rs : List (Option ℕ)} (hreplies : l.replies = r :: rs) {type : UInt8} {k : ℕ}
    (hr : type = faTypeAck ∧ r = some k ∨ type = faTypeNack) :
    ∃ c, l.Step 64 c { l with
        awaiting := (g.arq.handle (controlFrame type (seqOf k))).arq.awaitingAck
        replies := rs } ∧
      ((g.arq.handle (controlFrame type (seqOf k))).arq.awaitingAck = true →
        l.awaiting = true) ∧
      (c = .silent ∨ c = .take) := by
  have hwait : g.arq.awaitingAck = l.awaiting := h.awaiting
  have htype : faTypeOf (controlFrame type (seqOf k)).seqByte = type := by
    rcases hr with ⟨rfl, -⟩ | rfl <;> exact faTypeOf_faSeqByte (by decide) _
  have hskip : l.Step 64 .silent { l with awaiting := g.arq.awaitingAck, replies := rs } := by
    rw [hwait]
    exact .skip hreplies
  have hcases := g.arq.handles (controlFrame type (seqOf k))
  generalize g.arq.handle (controlFrame type (seqOf k)) = reaction at hcases ⊢
  cases hcases with
  | acked hack hmine hseq =>
    obtain rfl : type = faTypeAck := htype.symm.trans hack
    obtain ⟨-, rfl⟩ | h := hr
    · have hwait : l.awaiting = true := hwait.symm.trans hmine
      have hpos := (h.retained hwait).1
      have hk : seqOf k = seqOf (l.prepared + 63) := by
        rw [← h.txSeq, ← @faSeqOf_faSeqByte faTypeAck _ (by decide) (seqOf_le k)]
        exact hseq
      have hnum : k + 1 ≡ l.prepared [MOD 64] := by
        have := seqOf_eq_iff.mp hk
        rw [Nat.ModEq]
        omega
      exact ⟨.take, .last hreplies hwait hnum h.all, (fun h => by cases h), .inr rfl⟩
    · cases h
  | nacked => exact ⟨.silent, hskip, (fun h => hwait.symm.trans h), .inl rfl⟩
  | ignored => exact ⟨.silent, hskip, (fun h => hwait.symm.trans h), .inl rfl⟩
  | delivered hdata => exact absurd rfl hdata.1
  | duplicate hdata => exact absurd rfl hdata.1
  | unexpected hdata => exact absurd rfl hdata.1

/-- The state of a duplex apart from its wires, as a line. -/
def Duplex.line (D : Duplex) : Line :=
  ⟨D.session, D.loop, D.prepared, D.pending, [], D.frame, []⟩

/-- A link apart from its wires. -/
def unwired (l : Link Message) : Link Message := { l with data := [], replies := [] }

/-- The links of a duplex: `f` for the messages of the session, `b` for those of the library. The
wire to the library carries the items `x`, the wire to the session the pieces `y`. -/
structure Duplex.HasLinks [Build] (limit : ℕ) (D : Duplex) (f b : Link Message) (x : List Item)
    (y : List (Option Item)) : Prop where
  line : D.line.HasLink limit (unwired f)
  handed : D.session.expectedRxSeq = seqOf b.delivered.length
  sends : Sends D.frame b
  toLibrary : List.Forall₂ (IsItem f.accepted) x D.toLibrary
  toSession : List.Forall₂ (IsPiece b.accepted) y D.toSession
  data : f.data = numbersOf x
  replies : f.replies = repliesOf y.reduceOption
  dataBack : b.data = numbersOf y.reduceOption
  repliesBack : b.replies = repliesOf x

/-- What a step shows is what the turns of the links show. -/
structure Duplex.Shows (ev : Duplex.Event) (f : Link Message) (a : Label Message)
    (f' : Link Message) (c : Label Message) : Prop where
  sent : ev.sent = a.accepted?
  got : ev.got = a.delivered?
  put : ev.put = c.accepted?
  handed : ev.handed = c.delivered?
  prepared : f'.prepared = f.prepared + ev.first.toList.length
  wrote : ∀ k, a = .write k → ev = .wrote k
  wroteBack : ∀ k, c ≠ .write k
  taken : ∀ d, ev = .updated d true →
    a = .take ∧ d.action = .handleAck (seqOf (f.prepared - 1))

/-- From the links `f` and `b`, turns that show `ev` lead to the links of `D`. -/
def Duplex.Turns [Build] (limit : ℕ) (f b : Link Message) (ev : Duplex.Event) (D : Duplex) : Prop :=
  ∃ a c f' b' x y, f.Turn 64 a f' ∧ b.Turn 64 c b' ∧ Duplex.Shows ev f a f' c ∧
    D.HasLinks limit f' b' x y

/-- A call of get accepts nothing. -/
theorem Duplex.put_get {o : Outcome} (hcall : o.call = .get) :
    Duplex.Event.put (.called o) = none := by
  simp only [Duplex.Event.put, hcall]

namespace Duplex.Shows

variable {f f' : Link Message} {a c : Label Message} {d : Done} {taken : Bool} {o : Outcome}
  {m : Message}

/-- What a handler of the session shows. -/
theorem handler (haccepted : a.accepted? = d.accepted) (hdelivered : a.delivered? = none)
    (hprepared : f'.prepared = f.prepared + d.first.toList.length) (hwrite : ∀ k, a ≠ .write k)
    (htaken : taken = true → a = .take ∧ d.action = .handleAck (seqOf (f.prepared - 1))) :
    Duplex.Shows (.updated d taken) f a f' .silent := by
  refine ⟨haccepted.symm, hdelivered.symm, rfl, rfl, hprepared,
    (fun k hk => absurd hk (hwrite k)), (fun k hk => by cases hk), ?_⟩
  intro d' hd
  obtain ⟨rfl, rfl⟩ := Duplex.Event.updated.inj hd
  exact htaken rfl

/-- A step that shows nothing. -/
theorem silent (hprepared : f'.prepared = f.prepared) :
    Duplex.Shows .nothing f .silent f' .silent :=
  ⟨rfl, rfl, rfl, rfl, hprepared, (fun k hk => by cases hk), (fun k hk => by cases hk),
    (fun d hd => by cases hd)⟩

/-- What the read loop hands over. -/
theorem receives (delivers : Bool) (hprepared : f'.prepared = f.prepared) :
    Duplex.Shows (.received (if delivers then some m else none)) f .silent f'
      (if delivers then .deliver m else .silent) := by
  refine ⟨rfl, rfl, ?_, ?_, hprepared, (fun k hk => by cases hk), ?_, (fun d hd => by cases hd)⟩
  · cases delivers <;> rfl
  · cases delivers <;> rfl
  · intro k hk
    cases delivers <;> cases hk

/-- What a call of get delivers. -/
theorem delivers (hlo : 1 ≤ m.1) (delivers : Bool) (hcall : o.call = .get)
    (hret : o.ret = if delivers then (m.1.toNat : Int) else 0)
    (hout : o.out = if delivers then some m.2 else none) (hprepared : f'.prepared = f.prepared) :
    Duplex.Shows (.called o) f (if delivers then .deliver m else .silent) f' .silent := by
  have hpos : 1 ≤ m.1.toNat := UInt8.le_iff_toNat_le.mp hlo
  have hgot : Duplex.Event.got (.called o) = if delivers then some m else none := by
    cases delivers with
    | false => exact if_neg fun hd => absurd hd.2 (Int.not_lt.mpr (Int.le_of_eq hret))
    | true =>
      have hret : o.ret = m.1.toNat := hret
      have hd : o.Delivers := ⟨hcall, by rw [hret]; exact Int.ofNat_lt.mpr hpos⟩
      rw [Duplex.Event.got, if_pos hd, hret, hout, Int.toNat_natCast, UInt8.ofNat_toNat]
      rfl
  refine ⟨?_, ?_, ?_, rfl, hprepared, ?_, (fun k hk => by cases hk), (fun d hd => by cases hd)⟩
  · cases delivers <;> rfl
  · rw [hgot]
    cases delivers <;> rfl
  · rw [Duplex.put_get hcall]
    rfl
  · intro k hk
    cases delivers <;> cases hk

/-- A call of the library that neither delivers nor accepts. -/
theorem quiet (hput : Duplex.Event.put (.called o) = none) (hret : o.ret ≤ 0)
    (hprepared : f'.prepared = f.prepared) (hc : c = .silent ∨ c = .take) :
    Duplex.Shows (.called o) f .silent f' c := by
  have hnone : Duplex.Event.got (.called o) = none := by
    apply if_neg
    intro hd
    exact absurd hd.2 (Int.not_lt.mpr hret)
  refine ⟨rfl, hnone, ?_, ?_, hprepared, (fun k hk => by cases hk), ?_, (fun d hd => by cases hd)⟩
  · rcases hc with rfl | rfl <;> exact hput
  · rcases hc with rfl | rfl <;> rfl
  · intro k hk
    rcases hc with rfl | rfl <;> cases hk

end Duplex.Shows

/-- What the read loop finds with the last of the bytes is dispatched, and the loop waits for a
marker. -/
theorem Duplex.receive_last {D : Duplex} {logging : Bool} {bytes : List UInt8} {ev : RxEvent}
    (h : (reader logging).events 0 D.loop bytes = [(bytes.length, ev)]) :
    ∃ mach, mach.state = 0 ∧
      D.receive logging bytes = Duplex.dispatch { D with loop := .header mach } ev := by
  obtain ⟨pre, b, hsplit, hlast⟩ := Transducer.last_of_events (by rw [h, Nat.zero_add])
  obtain ⟨mach, hstate, hloop⟩ := ReadLoop.read_event hlast
  have hafter : (reader logging).after D.loop bytes = .header mach := by
    rw [hsplit, Transducer.after_concat]
    exact hloop
  refine ⟨mach, hstate, ?_⟩
  rw [Duplex.receive, h]
  dsimp only
  rw [List.take_length, piece_drop rfl, hafter]
  rfl

section

variable [Build] {limit : ℕ} {D D' : Duplex} {f b : Link Message} {x : List Item}
  {y : List (Option Item)}

namespace Duplex.HasLinks

/-! ### The wires -/

/-- The head of the wire to the session is a message of the library, a reply to the session or
text. -/
theorem popSession (h : D.HasLinks limit f b x y) {bytes : List UInt8} {rest : List (List UInt8)}
    (hq : D.toSession = bytes :: rest) :
    (∃ k m ys, b.data = k :: numbersOf ys.reduceOption ∧ b.accepted[k]? = some m ∧ Sendable m ∧
      bytes = (dataFrame m.1 (seqOf k) m.2).encode ∧
      Duplex.HasLinks limit { D with toSession := rest } f
        { b with data := numbersOf ys.reduceOption } x ys) ∨
    (∃ r ys, f.replies = r :: repliesOf ys.reduceOption ∧ IsReply r bytes ∧
      Duplex.HasLinks limit { D with toSession := rest }
        { f with replies := repliesOf ys.reduceOption } b x ys) ∨
    ∃ ys, (∀ b ∈ bytes, b < 128) ∧
      Duplex.HasLinks limit { D with toSession := rest } f b x ys := by
  have hall := h.toSession
  rw [hq] at hall
  obtain ⟨it, ys, hit, hys, hy⟩ := List.forall₂_cons_right_iff.mp hall
  rcases it with _ | k | r
  · refine .inr (.inr ⟨ys, hit, h.line, h.handed, h.sends, h.toLibrary, hys, h.data, ?_, ?_,
      h.repliesBack⟩)
    · rw [h.replies, hy, List.reduceOption_cons_of_none]
    · rw [h.dataBack, hy, List.reduceOption_cons_of_none]
  · obtain ⟨m, hm, hbytes⟩ := isFrame_iff.mp hit
    refine .inl ⟨k, m, ys, by rw [h.dataBack, hy, List.reduceOption_cons_of_some, numbersOf_inl],
      hm, h.sends.sendable m (List.mem_of_getElem? hm), hbytes, h.line, h.handed, h.sends.rewired,
      h.toLibrary, hys, h.data, ?_, rfl, h.repliesBack⟩
    rw [h.replies, hy, List.reduceOption_cons_of_some, repliesOf_inl]
  · refine .inr (.inl ⟨r, ys, by rw [h.replies, hy, List.reduceOption_cons_of_some, repliesOf_inr],
      hit, h.line, h.handed, h.sends, h.toLibrary, hys, h.data, rfl, ?_, h.repliesBack⟩)
    rw [h.dataBack, hy, List.reduceOption_cons_of_some, numbersOf_inr]

/-- The head of the wire to the library is a message of the session or a reply to the library. -/
theorem popLibrary (h : D.HasLinks limit f b x y) {bytes : List UInt8} {rest : List (List UInt8)}
    (hq : D.toLibrary = bytes :: rest) :
    (∃ k m xs, f.data = k :: numbersOf xs ∧ f.accepted[k]? = some m ∧ Sendable m ∧
      m.2.length ≤ limit ∧ bytes = (dataFrame m.1 (seqOf k) m.2).encode ∧
      Duplex.HasLinks limit { D with toLibrary := rest } { f with data := numbersOf xs } b xs y) ∨
    ∃ r xs, b.replies = r :: repliesOf xs ∧ IsReply r bytes ∧
      Duplex.HasLinks limit { D with toLibrary := rest } f
        { b with replies := repliesOf xs } xs y := by
  have hall := h.toLibrary
  rw [hq] at hall
  obtain ⟨it, xs, hit, hxs, hx⟩ := List.forall₂_cons_right_iff.mp hall
  cases it with
  | inl k =>
    obtain ⟨m, hm, hbytes⟩ := isFrame_iff.mp hit
    have hmem : m ∈ f.accepted := List.mem_of_getElem? hm
    refine .inl ⟨k, m, xs, by rw [h.data, hx, numbersOf_inl], hm,
      h.line.keeps.inv.sendable m hmem, h.line.fits m hmem, hbytes, h.line, h.handed, h.sends,
      hxs, h.toSession, rfl, h.replies, h.dataBack, ?_⟩
    rw [h.repliesBack, hx, repliesOf_inl]
  | inr r =>
    refine .inr ⟨r, xs, by rw [h.repliesBack, hx, repliesOf_inr], hit, h.line, h.handed,
      h.sends.rewired, hxs, h.toSession, ?_, h.replies, h.dataBack, rfl⟩
    rw [h.data, hx, numbersOf_inr]

/-- Text on the wire to the session. -/
theorem pushText (h : D.HasLinks limit f b x y) {bytes : List UInt8}
    (htext : ∀ b ∈ bytes, b < 128) :
    Duplex.HasLinks limit { D with toSession := D.toSession ++ [bytes] } f b x (y ++ [none]) where
  line := h.line
  handed := h.handed
  sends := h.sends
  toLibrary := h.toLibrary
  toSession := List.rel_append h.toSession (.cons htext .nil)
  data := h.data
  replies := by simp [h.replies, List.reduceOption_append]
  dataBack := by simp [h.dataBack, List.reduceOption_append]
  repliesBack := h.repliesBack

/-- One more item on the wire to the session. -/
theorem pushSession (h : D.HasLinks limit f b x y) (it : Item) {bytes : List UInt8}
    (hit : IsItem b.accepted it bytes) :
    Duplex.HasLinks limit { D with toSession := D.toSession ++ [bytes] }
      { f with replies := f.replies ++ repliesOf [it] }
      { b with data := b.data ++ numbersOf [it] } x (y ++ [some it]) where
  line := h.line
  handed := h.handed
  sends := h.sends.rewired
  toLibrary := h.toLibrary
  toSession := List.rel_append h.toSession (.cons hit .nil)
  data := h.data
  replies := by simp [h.replies, List.reduceOption_append]
  dataBack := by simp [h.dataBack, List.reduceOption_append]
  repliesBack := h.repliesBack

/-- One more item on the wire to the library. -/
theorem pushLibrary (h : D.HasLinks limit f b x y) (it : Item) {bytes : List UInt8}
    (hit : IsItem f.accepted it bytes) :
    Duplex.HasLinks limit { D with toLibrary := D.toLibrary ++ [bytes] }
      { f with data := f.data ++ numbersOf [it] }
      { b with replies := b.replies ++ repliesOf [it] } (x ++ [it]) y where
  line := h.line
  handed := h.handed
  sends := h.sends.rewired
  toLibrary := List.rel_append h.toLibrary (.cons hit .nil)
  toSession := h.toSession
  data := by simp [h.data]
  replies := h.replies
  dataBack := h.dataBack
  repliesBack := by simp [h.repliesBack]

/-- The session answers a message. -/
theorem replyToLibrary (h : D.HasLinks limit f b x y) {r : Option ℕ} {bytes : List UInt8}
    (hreply : IsReply r bytes) :
    Duplex.HasLinks limit { D with toLibrary := D.toLibrary ++ [bytes] } f
      { b with replies := b.replies ++ [r] } (x ++ [.inr r]) y := by
  simpa using h.pushLibrary (.inr r) hreply

/-- The library answers a message. -/
theorem replyToSession (h : D.HasLinks limit f b x y) {r : Option ℕ} {bytes : List UInt8}
    (hreply : IsReply r bytes) :
    Duplex.HasLinks limit { D with toSession := D.toSession ++ [bytes] }
      { f with replies := f.replies ++ [r] } b x (y ++ [some (.inr r)]) := by
  simpa using h.pushSession (.inr r) hreply

/-! ### The session -/

/-- A handler of the session has made an update. -/
theorem updated (h : D.HasLinks limit f b x y) {d : Done} {s : Session} {l₁ : Ledger}
    (hdoes : Does (ledgerOf f) d l₁) (hkeep : s.Keeps l₁)
    (hexp : s.expectedRxSeq = D.session.expectedRxSeq)
    (hfits : ∀ m ∈ d.accepted, m.2.length ≤ limit) :
    (D.updated d s).HasLinks limit (linkAfter f d l₁) b x y := by
  have hline : (D.line.updated d s).HasLink limit (linkAfter (unwired f) d l₁) :=
    h.line.updated hdoes hkeep hfits
  have haccepted : (linkAfter f d l₁).accepted = f.accepted ++ d.accepted.toList :=
    hdoes.accepted_eq
  refine ⟨hline, hexp.trans h.handed, h.sends, ?_, h.toSession, h.data, h.replies, h.dataBack,
    h.repliesBack⟩
  rw [haccepted]
  exact h.toLibrary.imp fun _ _ hit => hit.append _

/-- The read loop goes on. -/
theorem relooped (h : D.HasLinks limit f b x y) {mach : StateMachine} (hstate : mach.state = 0) :
    Duplex.HasLinks limit { D with loop := .header mach } f b x y :=
  ⟨{ h.line with loop := ⟨mach, rfl, hstate⟩ }, h.handed, h.sends, h.toLibrary, h.toSession, h.data,
    h.replies, h.dataBack, h.repliesBack⟩

/-- The read loop takes a whole frame. -/
theorem receive_frame (h : D.HasLinks limit f b x y) (logging : Bool) {fr : Frame}
    (hle : fr.payload.length ≤ 32768) (hmark : 128 ≤ fr.marker) :
    ∃ mach, mach.state = 0 ∧
      D.receive logging fr.encode =
        Duplex.dispatch { D with loop := .header mach } (.frame fr) := by
  obtain ⟨mach, hloop, hstate⟩ := h.line.loop
  have hloop : D.loop = .header mach := hloop
  obtain ⟨hevents, -, -⟩ := sessionAccepts_encode hle hmark logging mach hstate
  exact Duplex.receive_last (hloop ▸ hevents)

/-- The read loop takes text. -/
theorem receive_text (h : D.HasLinks limit f b x y) (logging : Bool) {text : List UInt8}
    (htext : ∀ b ∈ text, b < 128) :
    ∃ mach, mach.state = 0 ∧
      D.receive logging text = some (.nothing, { D with loop := .header mach }) := by
  obtain ⟨mach, hloop, hstate⟩ := h.line.loop
  have hloop : D.loop = .header mach := hloop
  obtain ⟨hevents, mach', hafter, hstate'⟩ := @reader_text logging text mach hstate htext 0
  refine ⟨mach', hstate', ?_⟩
  rw [Duplex.receive, hloop, hevents, hafter]

/-- A message of the library has been delivered, or none. -/
theorem handedOver (h : D.HasLinks limit f b x y) (delivered : List Message) {s : Session}
    (hs : s = { D.session with expectedRxSeq := seqOf delivered.length }) :
    Duplex.HasLinks limit { D with session := s } f { b with delivered := delivered } x y := by
  subst hs
  refine ⟨{ h.line with keeps := h.line.keeps.of_eq rfl rfl rfl rfl }, rfl,
    h.sends.rewired, h.toLibrary, h.toSession, h.data,
    h.replies, h.dataBack, h.repliesBack⟩

/-- A call from outside. -/
theorem call (h : D.HasLinks limit f b x y) {act : Action} (hext : act.external = true)
    (hfits : ∀ m ∈ act.message, m.2.length ≤ limit) :
    ∃ d s, D.session.perform act = some (d, s) ∧
      Duplex.Turns limit f b (.updated d false) (D.updated d s) := by
  obtain ⟨d, s, l₁, hs, hdoes, hkeep⟩ := h.line.keeps.perform act
  have hdoes : Does (ledgerOf f) d l₁ := hdoes
  have hact := Session.perform_action hs
  have hack (seq : UInt8) : d.action ≠ .handleAck seq := by
    rw [hact]
    rintro rfl
    cases hext
  obtain ⟨a, hstep, haccepted, hdelivered, hwrite⟩ := hdoes.link_step hack
  refine ⟨d, s, hs, a, .silent, linkAfter f d l₁, b, x, y, .step hstep, .step .idle,
    .handler haccepted hdelivered hdoes.first_eq hwrite (fun h => by cases h),
    h.updated hdoes hkeep (Session.perform_expected hs) ?_⟩
  intro m hm
  exact hfits m (hact ▸ hdoes.accepted_message (Option.mem_def.mp hm))

/-- The read loop takes an ACK or a NACK. -/
theorem handled (h : D.HasLinks limit f b x y) {type : UInt8}
    (htype : type = faTypeAck ∨ type = faTypeNack) (k : ℕ) {act : Action}
    (hact : act = if type = faTypeAck then .handleAck (seqOf k) else .handleNack (seqOf k)) :
    ∃ d l₁ D', D.dispatch (.frame (controlFrame type (seqOf k))) =
        some (.updated d (D.session.takes act), D') ∧
      d.action = act ∧ Does (ledgerOf f) d l₁ ∧ D'.HasLinks limit (linkAfter f d l₁) b x y := by
  have hcalled := called_control htype k
  rw [← hact] at hcalled
  obtain ⟨d, s, l₁, hs, hdoes, hkeep⟩ := h.line.keeps.perform act
  have hdoes : Does (ledgerOf f) d l₁ := hdoes
  have hexp := Session.perform_expected hs
  have hdone := Session.perform_action hs
  rw [Session.perform_called _ hcalled] at hs
  obtain ⟨eff, heff, heq⟩ := Option.map_eq_some_iff.mp hs
  obtain ⟨rfl, rfl⟩ := Prod.mk.inj heq
  have hfound : D.session.found (.frame (controlFrame type (seqOf k))) = some eff := heff
  have hby : calledBy (.frame (controlFrame type (seqOf k))) = some act := hcalled
  refine ⟨_, l₁, _, ?_, hdone, hdoes, h.updated hdoes hkeep hexp fun m hm => ?_⟩
  · rw [Duplex.dispatch, hfound, hby]
    rfl
  · cases hm

/-- The session takes the ACK of the last message prepared. -/
theorem takes_ack (h : D.HasLinks limit f b x y) {k : ℕ}
    (htakes : D.session.takes (.handleAck (seqOf k)) = true) :
    f.awaiting = true ∧ seqOf k = seqOf (f.prepared - 1) := h.line.takes_ack htakes

/-- **The session takes the head of its wire.** -/
theorem receive (h : D.HasLinks limit f b x y) (logging : Bool) {bytes : List UInt8}
    {rest : List (List UInt8)} (hq : D.toSession = bytes :: rest) :
    ∃ ev D', Duplex.receive { D with toSession := rest } logging bytes = some (ev, D') ∧
      Duplex.Turns limit f b ev D' := by
  rcases h.popSession hq with
    ⟨k, m, ys, hback, hm, hsend, rfl, hpop⟩ | ⟨r, ys, hreplies, hit, hpop⟩ | ⟨ys, htext, hpop⟩
  · -- a DATA frame of the library
    have hfits := @dataFrame_fits _ _ (seqOf k) _ hsend.2.1 hsend.2.2
      (lt_of_le_of_lt hsend.2.2 (by decide))
    obtain ⟨mach, hstate, hreceive⟩ := hpop.receive_frame logging hfits.length_le hfits.marker_ge
    obtain ⟨delivers, r, control, hanswer, hreply, hfound⟩ :=
      Session.found_answer (s := D.session) hsend h.handed k
    have hlen : (b.delivered ++ if delivers then [m] else []).length =
        b.delivered.length + if delivers then 1 else 0 := by
      cases delivers <;> simp
    have hlinks := ((hpop.relooped hstate).handedOver
      (b.delivered ++ if delivers then [m] else [])
      (s := { D.session with
        expectedRxSeq := seqOf (b.delivered.length + if delivers then 1 else 0) })
      (by rw [hlen])).replyToLibrary hreply
    have hby : calledBy (.frame (dataFrame m.1 (seqOf k) m.2)) = none :=
      if_neg (dataFrame_not_control hsend k)
    refine ⟨_, _, ?_, .silent, if delivers then .deliver m else .silent, f, _, _, _,
      .step .idle, .step (hanswer.step hback hm), .receives delivers rfl, hlinks⟩
    rw [hreceive, Duplex.dispatch, hfound, hby]
    rfl
  · -- a reply of the library
    cases r with
    | some k =>
      obtain rfl := hit
      have hfits := controlFrame_fits 32768 faTypeAck (seqOf k)
      obtain ⟨mach, hstate, hreceive⟩ := hpop.receive_frame logging hfits.length_le hfits.marker_ge
      obtain ⟨d, l₁, D', hdispatch, hact, hdoes, hlinks⟩ :=
        (hpop.relooped hstate).handled (.inl rfl) k rfl
      have hdoes : Does (ledgerOf f) d l₁ := hdoes
      have hact : d.action = .handleAck (seqOf k) := hact
      obtain ⟨a, hstep, haccepted, hdelivered, hwrite, htake⟩ :=
        hdoes.link_ack h.line.keeps.inv hact hreplies
      refine ⟨_, D', hreceive.trans hdispatch, a, .silent, _, b, x, ys, .step hstep, .step .idle,
        .handler haccepted hdelivered hdoes.first_eq hwrite fun htakes => ?_, hlinks⟩
      obtain ⟨hwait, hseq⟩ := h.takes_ack htakes
      exact ⟨htake hwait hseq, by rw [hact, hseq]⟩
    | none =>
      obtain ⟨k, rfl⟩ := hit
      have hfits := controlFrame_fits 32768 faTypeNack (seqOf k)
      obtain ⟨mach, hstate, hreceive⟩ := hpop.receive_frame logging hfits.length_le hfits.marker_ge
      obtain ⟨d, l₁, D', hdispatch, hact, hdoes, hlinks⟩ :=
        (hpop.relooped hstate).handled (.inr rfl) k rfl
      have hdoes : Does (ledgerOf f) d l₁ := hdoes
      obtain ⟨a, hstep, haccepted, hdelivered, hwrite⟩ := hdoes.link_nack hact hreplies
      exact ⟨_, D', hreceive.trans hdispatch, a, .silent, _, b, x, ys, .step hstep, .step .idle,
        .handler haccepted hdelivered hdoes.first_eq hwrite (fun h => by cases h), hlinks⟩
  · -- text of its program
    obtain ⟨mach, hstate, hreceive⟩ := hpop.receive_text logging htext
    exact ⟨_, _, hreceive, .silent, .silent, f, b, x, ys, .step .idle, .step .idle, .silent rfl,
      hpop.relooped hstate⟩

/-- What the session cannot read is answered by a NACK. -/
theorem damaged (h : D.HasLinks limit f b x y) {logging : Bool} {bytes bytes' : List UInt8}
    {rest : List (List UInt8)} (hq : D.toSession = bytes :: rest)
    (hcrc : (reader logging).events 0 D.loop bytes' = [(bytes'.length, .crcError)]) :
    ∃ ev D', Duplex.receive { D with toSession := rest } logging bytes' = some (ev, D') ∧
      Duplex.Turns limit f b ev D' := by
  obtain ⟨mach, hstate, hreceive⟩ :=
    @Duplex.receive_last { D with toSession := rest } logging bytes' .crcError hcrc
  have hreply : IsReply none (controlFrame faTypeNack (seqOf b.delivered.length)).encode :=
    ⟨_, rfl⟩
  have hcontrol : buildControlFrame typeNack D.session.expectedRxSeq =
      some (controlFrame faTypeNack (seqOf b.delivered.length)).encode := by
    rw [buildControlFrame_eq, h.handed]
    rfl
  have hdispatch : Duplex.receive { D with toSession := rest } logging bytes' =
      some (.received none, { D with
        toSession := rest
        loop := .header mach
        toLibrary := D.toLibrary ++
          [(controlFrame faTypeNack (seqOf b.delivered.length)).encode] }) := by
    rw [hreceive, Duplex.dispatch]
    simp only [Session.found, hcontrol, Option.bind_eq_bind, Option.bind_some]
    rfl
  rcases h.popSession hq with
    ⟨k, m, ys, hback, -, -, -, hpop⟩ | ⟨r, ys, hreplies, -, hpop⟩ | ⟨ys, -, hpop⟩
  · exact ⟨_, _, hdispatch, .silent, .silent, f, _, _, _, .step .idle, .step (.refuse hback),
      .receives (m := (0, [])) false rfl, (hpop.relooped hstate).replyToLibrary hreply⟩
  · exact ⟨_, _, hdispatch, .silent, .silent, _, _, _, _, .step (.skip hreplies), .complain,
      .receives (m := (0, [])) false rfl, (hpop.relooped hstate).replyToLibrary hreply⟩
  · exact ⟨_, _, hdispatch, .silent, .silent, f, _, _, _, .step .idle, .complain,
      .receives (m := (0, [])) false rfl, (hpop.relooped hstate).replyToLibrary hreply⟩

/-- What is lost on the way to the session. -/
theorem lostToSession (h : D.HasLinks limit f b x y) {bytes : List UInt8} {rest : List (List UInt8)}
    (hq : D.toSession = bytes :: rest) :
    Duplex.Turns limit f b .nothing { D with toSession := rest } := by
  rcases h.popSession hq with
    ⟨k, m, ys, hback, -, -, -, hpop⟩ | ⟨r, ys, hreplies, -, hpop⟩ | ⟨ys, -, hpop⟩
  · exact ⟨.silent, .silent, f, _, _, _, .step .idle, .step (.lose hback), .silent rfl, hpop⟩
  · exact ⟨.silent, .silent, _, b, _, _, .step (.skip hreplies), .step .idle, .silent rfl, hpop⟩
  · exact ⟨.silent, .silent, f, b, _, _, .step .idle, .step .idle, .silent rfl, hpop⟩

/-- What the program of the library prints. -/
theorem printed (h : D.HasLinks limit f b x y) {text : List UInt8} (htext : ∀ b ∈ text, b < 128) :
    ∃ y', (D.printed text).HasLinks limit f b x y' := by
  rw [Duplex.printed]
  by_cases hnil : text = []
  · rw [hnil, piece_nil, List.append_nil]
    exact ⟨y, h⟩
  · rw [piece_of_ne hnil]
    exact ⟨_, h.pushText htext⟩

/-! ### The library -/

/-- A call of get, which reads `bytes` up to the one that decides `found`, if any does. -/
theorem get (h : D.HasLinks limit f b x y) (bytes : List UInt8) :
    ∃ found acc' rest o g,
      D.exec .get bytes = some (o, { D with
        toLibrary := piece (bytes.drop o.consumed.length) ++ D.toLibrary
        frame := g
        toSession := D.toSession ++
          (D.frame.arq.react found).reply.toList.map Frame.encode }) ∧
      (rest = [] → o.consumed = bytes) ∧
      (receiver D.frame.payloadMaxSize).pump [] (bytes.map some) = (found, acc', rest) ∧
      (∀ fr, found = some (.frame fr) → fr.Fits D.frame.payloadMaxSize) ∧
      o.call = .get ∧ o.ret = (D.frame.arq.react found).ret ∧
      o.out = (D.frame.arq.react found).out ∧ Ok g ∧ Holds g acc' ∧
      g.payloadMaxSize = D.frame.payloadMaxSize ∧ g.arq = (D.frame.arq.react found).arq ∧
      g.retainBuffer = D.frame.retainBuffer ∧ g.retainLength = D.frame.retainLength := by
  have hp := pending_nil D.frame.payloadMaxSize
  obtain ⟨found, acc', o, e', hs, hgot⟩ :=
    exec_get (e := ⟨D.frame, ⟨bytes.map some, [], []⟩⟩) h.line.between hp
  obtain ⟨hok, hmax⟩ := Ok.exec (e := ⟨D.frame, ⟨bytes.map some, [], []⟩⟩) h.line.ok hs
  obtain ⟨hwritten, -⟩ := hgot.replied (.of_nil rfl)
  obtain ⟨k, ⟨_, _, _, rfl⟩, hframe⟩ := hgot.frame
  refine ⟨found, acc', _, o, e'.frame, ?_, hgot.consumed_all rfl, hgot.pump, hgot.fits hp,
    hgot.call, hgot.ret, hgot.out, hok, hgot.holds, hmax, hgot.arq, ?_, ?_⟩
  · rw [Duplex.exec, hs]
    simp only [Option.bind_eq_bind, Option.bind_some]
    rw [hwritten, piece_replyBytes]
  · rw [hframe]
    rfl
  · rw [hframe]
    rfl

/-- The library has changed, and may have delivered a message or taken an ACK. -/
theorem reframed (h : D.HasLinks limit f b x y) {g : FrameArqT} (hok : Ok g) (hold : Holds g [])
    (hmax : g.payloadMaxSize = D.frame.payloadMaxSize) {delivered : List Message}
    (hexp : g.expectedRxSeq = seqOf delivered.length) {awaiting : Bool}
    (hsends : Sends g { b with awaiting := awaiting }) :
    Duplex.HasLinks limit { D with frame := g } { f with delivered := delivered }
      { b with awaiting := awaiting } x y := by
  refine ⟨?_, h.handed, hsends, h.toLibrary, h.toSession, h.data, h.replies, h.dataBack,
    h.repliesBack⟩
  exact { h.line with
    payloadMaxSize := hmax.trans h.line.payloadMaxSize, ok := hok, between := hold
    expected := hexp }

/-- The library has prepared a message. -/
theorem accepts (h : D.HasLinks limit f b x y) {g : FrameArqT} (hok : Ok g) (hold : Holds g [])
    (hmax : g.payloadMaxSize = D.frame.payloadMaxSize)
    (hexp : g.expectedRxSeq = D.frame.expectedRxSeq) {m : Message}
    (hsends : Sends g { b with
      accepted := b.accepted ++ [m], prepared := b.prepared + 1, awaiting := true }) :
    Duplex.HasLinks limit { D with frame := g } f { b with
      accepted := b.accepted ++ [m], prepared := b.prepared + 1, awaiting := true } x y := by
  refine ⟨?_, h.handed, hsends, h.toLibrary, ?_, h.data, h.replies, h.dataBack, h.repliesBack⟩
  · exact { h.line with
      payloadMaxSize := hmax.trans h.line.payloadMaxSize, ok := hok, between := hold
      expected := hexp.trans h.line.expected }
  · exact h.toSession.imp fun _ _ hit => hit.append _

/-- **The library takes a DATA frame.** -/
theorem gotData {k : ℕ} {ks : List ℕ} {m : Message} (hdata : f.data = k :: ks)
    (hm : f.accepted[k]? = some m) (hsend : Sendable m)
    (hlen : m.2.length ≤ limit)
    (hpop : D.HasLinks limit { f with data := ks } b x y) :
    ∃ o D', D.exec .get (dataFrame m.1 (seqOf k) m.2).encode = some (o, D') ∧
      Duplex.Turns limit f b (.called o) D' := by
  have hfits := @dataFrame_fits _ _ (seqOf k) _ hsend.2.1
    (hlen.trans_eq hpop.line.payloadMaxSize.symm) (lt_of_le_of_lt hsend.2.2 (by decide))
  obtain ⟨found, acc', rest, o, g, hget, hall, hpump, -, hcall, hret, hout, hok, hold, hmax, harq,
    hbuf, hcount⟩ := hpop.get (dataFrame m.1 (seqOf k) m.2).encode
  have henc := pump_encode hfits []
  rw [List.append_nil] at henc
  obtain ⟨rfl, rfl, rfl⟩ := hpump.symm.trans henc
  rw [piece_drop (hall rfl), List.nil_append] at hget
  obtain ⟨delivers, r, reply, hanswer, hreply, hhandle⟩ :=
    Arq.handle_answer (a := D.frame.arq) (n := f.delivered.length) hsend hpop.line.expected k
  simp only [Arq.react, hhandle] at hget hret hout harq
  have hexp : g.expectedRxSeq =
      seqOf (f.delivered ++ if delivers then [m] else []).length := by
    rw [List.length_append, apply_ite List.length]
    exact congrArg Arq.expectedRxSeq harq
  have hwait : g.awaitingAck = b.awaiting :=
    (congrArg Arq.awaitingAck harq).trans hpop.sends.awaiting
  have hsends := hpop.sends.received (congrArg Arq.txSeq harq) hwait id hbuf hcount
  have hlinks := (hpop.reframed hok hold hmax hexp hsends).replyToSession hreply
  refine ⟨o, _, hget, if delivers then .deliver m else .silent, .silent, _, _, x, _,
    .step (hanswer.step hdata hm), .step .idle,
    .delivers hsend.1 delivers hcall hret hout rfl, hlinks⟩

/-- **The library takes a reply.** -/
theorem gotReply {r : Option ℕ} {rs : List (Option ℕ)} (hreplies : b.replies = r :: rs)
    {bytes : List UInt8} (hreply : IsReply r bytes)
    (hpop : D.HasLinks limit f { b with replies := rs } x y) :
    ∃ o D', D.exec .get bytes = some (o, D') ∧ Duplex.Turns limit f b (.called o) D' := by
  obtain ⟨type, k, htype, rfl⟩ : ∃ type k, (type = faTypeAck ∧ r = some k ∨ type = faTypeNack) ∧
      bytes = (controlFrame type (seqOf k)).encode := by
    cases r with
    | some k => exact ⟨faTypeAck, k, .inl ⟨rfl, rfl⟩, hreply⟩
    | none =>
      obtain ⟨k, rfl⟩ := hreply
      exact ⟨faTypeNack, k, .inr rfl, rfl⟩
  have hfits := controlFrame_fits D.frame.payloadMaxSize type (seqOf k)
  obtain ⟨found, acc', rest, o, g, hget, hall, hpump, -, hcall, hret, hout, hok, hold, hmax, harq,
    hbuf, hcount⟩ := hpop.get (controlFrame type (seqOf k)).encode
  have henc := pump_encode hfits []
  rw [List.append_nil] at henc
  obtain ⟨rfl, rfl, rfl⟩ := hpump.symm.trans henc
  rw [piece_drop (hall rfl), List.nil_append] at hget
  have hctrl : ¬ (controlFrame type (seqOf k)).IsData := fun hd => hd.1 rfl
  obtain ⟨hle, hnone, hsame⟩ := Arq.handle_control (a := D.frame.arq) hctrl
  simp only [Arq.react, hnone, Option.toList_none, List.map_nil, List.append_nil] at hget hret harq
  obtain ⟨c, hstep, hkeep, hc⟩ := Sends.hears (l := b) hpop.sends.rewired hreplies htype
  rw [← harq] at hstep hkeep
  have hexp : g.expectedRxSeq = seqOf f.delivered.length :=
    (congrArg Arq.expectedRxSeq harq).trans (hsame.trans hpop.line.expected)
  have htx : g.txSeq = D.frame.txSeq :=
    (congrArg Arq.txSeq harq).trans (D.frame.arq.keeps_react (some (.frame _))).txSeq
  have hsends := hpop.sends.received htx rfl hkeep hbuf hcount
  exact ⟨o, _, hget, .silent, c, f, _, x, y, .step .idle, .step hstep,
    .quiet (Duplex.put_get hcall) (hret ▸ hle) rfl hc, hpop.reframed hok hold hmax hexp hsends⟩

/-- **The library takes the head of its wire.** -/
theorem taken (h : D.HasLinks limit f b x y) {bytes : List UInt8} {rest : List (List UInt8)}
    (hq : D.toLibrary = bytes :: rest) :
    ∃ o D', Duplex.exec { D with toLibrary := rest } .get bytes = some (o, D') ∧
      Duplex.Turns limit f b (.called o) D' := by
  rcases h.popLibrary hq with
    ⟨k, m, xs, hdata, hm, hsend, hlen, rfl, hpop⟩ | ⟨r, xs, hreplies, hreply, hpop⟩
  · exact gotData hdata hm hsend hlen hpop
  · exact gotReply hreplies hreply hpop

/-- What is lost on the way to the library. -/
theorem lostToLibrary (h : D.HasLinks limit f b x y) {bytes : List UInt8} {rest : List (List UInt8)}
    (hq : D.toLibrary = bytes :: rest) :
    Duplex.Turns limit f b .nothing { D with toLibrary := rest } := by
  rcases h.popLibrary hq with ⟨k, m, xs, hdata, -, -, -, -, hpop⟩ | ⟨r, xs, hreplies, -, hpop⟩
  · exact ⟨.silent, .silent, _, b, _, _, .step (.lose hdata), .step .idle, .silent rfl, hpop⟩
  · exact ⟨.silent, .silent, f, _, _, _, .step .idle, .step (.skip hreplies), .silent rfl, hpop⟩

/-- A call that delivers nothing and takes no ACK leaves the library where it was. -/
theorem unmoved (h : D.HasLinks limit f b x y) {g : FrameArqT} (hok : Ok g) (hold : Holds g [])
    (hmax : g.payloadMaxSize = D.frame.payloadMaxSize)
    (hexp : g.expectedRxSeq = D.frame.expectedRxSeq) (htx : g.txSeq = D.frame.txSeq)
    (hwait : g.awaitingAck = D.frame.awaitingAck) (hbuf : g.retainBuffer = D.frame.retainBuffer)
    (hcount : g.retainLength = D.frame.retainLength) :
    Duplex.HasLinks limit { D with frame := g } f b x y :=
  h.reframed hok hold hmax (hexp.trans h.line.expected)
    (h.sends.received htx (hwait.trans h.sends.awaiting) id hbuf hcount)

/-- A call of get that reads no frame. -/
theorem unread (h : D.HasLinks limit f b x y) {g : FrameArqT} (hok : Ok g) (hold : Holds g [])
    (hmax : g.payloadMaxSize = D.frame.payloadMaxSize) (harq : g.arq = D.frame.arq)
    (hbuf : g.retainBuffer = D.frame.retainBuffer)
    (hcount : g.retainLength = D.frame.retainLength) :
    Duplex.HasLinks limit { D with frame := g } f b x y :=
  h.unmoved hok hold hmax (congrArg Arq.expectedRxSeq harq) (congrArg Arq.txSeq harq)
    (congrArg Arq.awaitingAck harq) hbuf hcount

/-- A call of get that sees a CRC failure answers with a NACK. -/
theorem refuses (h : D.HasLinks limit f b x y) (bytes : List UInt8) :
    ∃ o D', D.exec .get bytes = some (o, D') ∧ o.call = .get ∧
      (o.ret = errorCrc → o.consumed = bytes →
        D'.HasLinks limit { f with replies := f.replies ++ [none] } b x
          (y ++ [some (.inr none)])) := by
  obtain ⟨found, acc', rest, o, g, hget, -, hpump, hfits, hcall, hret, -, hok, hold, hmax, harq,
    hbuf, hcount⟩ := h.get bytes
  refine ⟨o, _, hget, hcall, fun hcrc hall => ?_⟩
  rw [piece_drop hall, List.nil_append]
  obtain rfl := Arq.found_of_errorCrc hfits (hret.symm.trans hcrc)
  obtain ⟨_, _, _, -, -, -, rfl⟩ := Decoder.pump_some hpump
  have hexp : D.frame.arq.expectedRxSeq = seqOf f.delivered.length := h.line.expected
  exact (h.unread hok hold hmax harq hbuf hcount).replyToSession (r := none) ⟨_, by rw [← hexp]⟩

/-- What the library cannot read was a message of the session or a reply. -/
theorem garbled (h : D.HasLinks limit f b x y) {bytes : List UInt8} {rest : List (List UInt8)}
    (hq : D.toLibrary = bytes :: rest) (bytes' : List UInt8) :
    ∃ o D', Duplex.exec { D with toLibrary := rest } .get bytes' = some (o, D') ∧
      (o.ret = errorCrc → o.consumed = bytes' → Duplex.Turns limit f b (.called o) D') := by
  have hneg : errorCrc ≤ 0 := by decide
  rcases h.popLibrary hq with ⟨k, m, xs, hdata, -, -, -, -, hpop⟩ | ⟨r, xs, hreplies, -, hpop⟩
  · obtain ⟨o, D', hget, hcall, hlinks⟩ := hpop.refuses bytes'
    exact ⟨o, D', hget, fun hcrc hall => ⟨.silent, .silent, _, b, _, _, .step (.refuse hdata),
      .step .idle, .quiet (Duplex.put_get hcall) (hcrc ▸ hneg) rfl (.inl rfl), hlinks hcrc hall⟩⟩
  · obtain ⟨o, D', hget, hcall, hlinks⟩ := hpop.refuses bytes'
    exact ⟨o, D', hget, fun hcrc hall => ⟨.silent, .silent, _, _, _, _, .complain,
      .step (.skip hreplies), .quiet (Duplex.put_get hcall) (hcrc ▸ hneg) rfl (.inl rfl),
      hlinks hcrc hall⟩⟩

/-- Without a frame, get does nothing. -/
theorem starved (h : D.HasLinks limit f b x y) :
    ∃ o D', D.exec .get [] = some (o, D') ∧ Duplex.Turns limit f b (.called o) D' := by
  obtain ⟨found, acc', rest, o, g, hget, hall, hpump, -, hcall, hret, -, hok, hold, hmax, harq,
    hbuf, hcount⟩ := h.get []
  obtain ⟨rfl, rfl, rfl⟩ := hpump
  rw [piece_drop (hall rfl), List.nil_append] at hget
  simp only [Arq.react, Option.toList_none, List.map_nil, List.append_nil] at hget hret harq
  exact ⟨o, _, hget, .silent, .silent, f, b, x, y, .step .idle, .step .idle,
    .quiet (Duplex.put_get hcall) (Int.le_of_eq hret) rfl (.inl rfl),
    h.unread hok hold hmax harq hbuf hcount⟩

/-- The library writes a message on its wire. -/
theorem sendToSession (h : D.HasLinks limit f b x y) {k : ℕ} {bytes : List UInt8}
    (hframe : IsFrame b.accepted k bytes) :
    Duplex.HasLinks limit { D with toSession := D.toSession ++ [bytes] } f
      { b with data := b.data ++ [k] } x (y ++ [some (.inl k)]) := by
  simpa using h.pushSession (.inl k) hframe

/-- A call that takes nothing from its wire. -/
theorem performs (h : D.HasLinks limit f b x y) {c : Call}
    (hsome : ∃ r, Endpoint.perform ⟨D.frame, ⟨[], [], []⟩⟩ c = some r) :
    ∃ o e' acc', D.exec c [] = some (o, { D with
        frame := e'.frame, toSession := D.toSession ++ piece o.written }) ∧
      o.call = c ∧ Performs ⟨D.frame, ⟨[], [], []⟩⟩ [] o e' acc' ∧ Ok e'.frame ∧
      Holds e'.frame acc' ∧ e'.frame.payloadMaxSize = D.frame.payloadMaxSize := by
  have hp := pending_nil D.frame.payloadMaxSize
  obtain ⟨r, hr⟩ := hsome
  obtain ⟨o, e', hs⟩ : ∃ o e', Endpoint.exec ⟨D.frame, ⟨[], [], []⟩⟩ c = some (o, e') :=
    ⟨_, _, Endpoint.exec_of_perform hr⟩
  obtain ⟨hok, hmax⟩ := Ok.exec (e := ⟨D.frame, ⟨[], [], []⟩⟩) h.line.ok hs
  obtain ⟨hcall, acc', hperf⟩ :=
    Ok.performs (e := ⟨D.frame, ⟨[], [], []⟩⟩) h.line.ok h.line.between hp hs
  obtain ⟨hold, -⟩ := hperf.holds h.line.between hp
  refine ⟨o, e', acc', ?_, hcall, hperf, hok, hold, hmax⟩
  rw [Duplex.exec]
  simp only [List.map_nil, hs, Option.bind_eq_bind, Option.bind_some, List.drop_nil, piece_nil,
    List.nil_append]

/-- **A call of put** sends its message or does nothing. -/
theorem put (h : D.HasLinks limit f b x y) (cmd : UInt8) {payload : List UInt8}
    (hle : payload.length ≤ 32768) :
    ∃ o D', D.exec (.put cmd (.bytes payload)) [] = some (o, D') ∧
      Duplex.Turns limit f b (.called o) D' := by
  have hsome := perform_isSome (e := ⟨D.frame, ⟨[], [], []⟩⟩) h.line.ok
    (c := .put cmd (.bytes payload)) (by
      rintro _ _ hcall -
      cases hcall
      exact lt_of_le_of_lt (Nat.add_le_add_right hle 17) (by decide))
  obtain ⟨o, e', acc', hexec, hcall, hperf, hok, hold, hmax⟩ := h.performs hsome
  refine ⟨o, _, hexec, ?_⟩
  rcases hperf.of_put hcall with
    ⟨-, rfl, rfl, ret, herr, rfl⟩ | ⟨hacc, rfl, ret, written, t', hw, rfl, rfl⟩
  · -- it is refused
    have hret : ret ≠ success ∧ ret ≤ 0 := by
      rcases herr with rfl | rfl | rfl <;> decide
    have hnone : Duplex.Event.put (.called ⟨.put cmd (.bytes payload), ret, none, none, [], []⟩) =
        none := if_neg hret.1
    refine ⟨.silent, .silent, f, b, x, y, .step .idle, .step .idle,
      .quiet hnone hret.2 rfl (.inl rfl), ?_⟩
    simpa using h
  · -- it is accepted, and its frame is written
    obtain ⟨rfl, rfl, -⟩ := hw.ok (.of_nil rfl)
    obtain ⟨hlo, hhi, -, hidle⟩ := hacc
    have hidle : b.awaiting = false := h.sends.awaiting.symm.trans hidle
    have hput : D.frame.putFrame cmd (some payload) payload.length =
        dataFrame cmd (seqOf b.prepared) payload := h.sends.putFrame_eq (cmd, payload)
    simp only [Payload.pointer, Payload.size, hput] at hok hmax hold hexec ⊢
    obtain ⟨hframe, hsends⟩ := h.sends.accepts (m := (cmd, payload)) ⟨hlo, hhi, hle⟩
    have hlinks := (h.accepts hok hold hmax rfl hsends).sendToSession hframe
    rw [piece_of_ne (encode_ne_nil _)]
    refine ⟨.silent, .accept (cmd, payload), f, _, x, _, .step .idle, .send hidle, ?_, hlinks⟩
    exact ⟨rfl, rfl, rfl, rfl, rfl, (fun k hk => by cases hk), (fun k hk => by cases hk),
      (fun d hd => by cases hd)⟩

/-- **A call of resend** sends the last message again or does nothing. -/
theorem resend (h : D.HasLinks limit f b x y) :
    ∃ o D', D.exec .resend [] = some (o, D') ∧ Duplex.Turns limit f b (.called o) D' := by
  have hsome := perform_isSome (e := ⟨D.frame, ⟨[], [], []⟩⟩) h.line.ok (c := .resend)
    (fun _ _ hcall => by cases hcall)
  obtain ⟨o, e', acc', hexec, hcall, hperf, hok, hold, hmax⟩ := h.performs hsome
  refine ⟨o, _, hexec, ?_⟩
  obtain ⟨rfl, ⟨-, rfl, rfl⟩ | ⟨hwait, ret, written, t', hw, rfl, rfl⟩⟩ := hperf.of_resend hcall
  · -- there is none
    refine ⟨.silent, .silent, f, b, x, y, .step .idle, .step .idle,
      .quiet rfl (Int.le_refl 0) rfl (.inl rfl), ?_⟩
    simpa using h.unmoved hok hold hmax rfl rfl rfl rfl rfl
  · obtain ⟨rfl, rfl, -⟩ := hw.ok (.of_nil rfl)
    have hwait : b.awaiting = true := h.sends.awaiting.symm.trans hwait
    obtain ⟨-, hframe⟩ := h.sends.retained hwait
    have hlinks := (h.unmoved hok hold hmax rfl rfl rfl rfl rfl).sendToSession hframe
    have hne : D.frame.retainBuffer.take D.frame.retainLength ≠ [] := by
      obtain ⟨m, -, hbytes⟩ := isFrame_iff.mp hframe
      rw [hbytes]
      exact encode_ne_nil _
    rw [piece_of_ne hne]
    exact ⟨.silent, .silent, f, _, x, _, .step .idle, .sendAgain hwait,
      .quiet rfl (Int.le_refl 0) rfl (.inl rfl), hlinks⟩

/-- A write of the session is made. -/
theorem wrote (h : D.HasLinks limit f b x y) {i k : ℕ} {bytes : List UInt8}
    (hi : D.pending[i]? = some (k, bytes)) :
    Duplex.Turns limit f b (.wrote k) { D with
      pending := D.pending.eraseIdx i, toLibrary := D.toLibrary ++ [bytes] } := by
  obtain ⟨hlt, hget⟩ := List.getElem?_eq_some_iff.mp hi
  have hsplit : D.pending = D.pending.take i ++ (k, bytes) :: D.pending.drop (i + 1) := by
    rw [← hget, List.getElem_cons_drop, List.take_append_drop]
  have hnumbers : D.pending.map Prod.fst = f.pending := h.line.numbers
  have hpending : f.pending =
      (D.pending.take i).map Prod.fst ++ k :: (D.pending.drop (i + 1)).map Prod.fst := by
    rw [← hnumbers]
    conv => lhs; rw [hsplit]
    rw [List.map_append, List.map_cons]
  have hframe : IsFrame f.accepted k bytes := h.line.pending _ (List.mem_of_getElem? hi)
  have hnext : Duplex.HasLinks limit { D with pending := D.pending.eraseIdx i }
      { f with pending := (D.pending.take i).map Prod.fst ++
        (D.pending.drop (i + 1)).map Prod.fst } b x y := by
    refine ⟨{ h.line with numbers := ?_, pending := ?_ }, h.handed, h.sends, h.toLibrary,
      h.toSession, h.data, h.replies, h.dataBack, h.repliesBack⟩
    · change (D.pending.eraseIdx i).map Prod.fst = _
      rw [List.eraseIdx_eq_take_drop_succ, List.map_append]
      rfl
    · exact fun p hp => h.line.pending p (List.mem_of_mem_eraseIdx hp)
  have hlinks := hnext.pushLibrary (.inl k) hframe
  refine ⟨.write k, .silent, _, b, x ++ [.inl k], y, .step (.write hpending), .step .idle, ?_, ?_⟩
  · refine ⟨rfl, rfl, rfl, rfl, rfl, fun j hj => ?_, (fun k hk => by cases hk),
      (fun d hd => by cases hd)⟩
    cases hj
    rfl
  · simpa using hlinks

end Duplex.HasLinks

/-- **Refinement**: every step is possible, and a turn of both links. -/
theorem Duplex.step_refines (h : D.HasLinks limit f b x y) {mv : Duplex.Move}
    (hfits : mv.Fits limit) :
    ∃ ev D', D.step mv = some (ev, D') ∧ Duplex.Turns limit f b ev D' := by
  have hnothing : ∃ ev D', some (Duplex.Event.nothing, D) = some (ev, D') ∧
      Duplex.Turns limit f b ev D' :=
    ⟨_, D, rfl, .silent, .silent, f, b, x, y, .step .idle, .step .idle, .silent rfl, h⟩
  -- a move that is not possible does nothing
  cases mv with
  | call act =>
    rw [Duplex.step]
    split
    · next hext =>
      obtain ⟨d, s, hs, hturns⟩ := h.call hext hfits
      exact ⟨_, _, by rw [hs]; rfl, hturns⟩
    · exact hnothing
  | write i =>
    rw [Duplex.step]
    split
    · exact hnothing
    · next k bytes hi => exact ⟨_, _, rfl, h.wrote hi⟩
  | receive logging =>
    rw [Duplex.step]
    split
    · exact hnothing
    · next hq => exact h.receive logging hq
  | damageToSession logging bytes =>
    rw [Duplex.step]
    split
    · exact hnothing
    · next hq =>
      split
      · next hcrc => exact h.damaged hq hcrc
      · exact hnothing
  | loseToSession =>
    rw [Duplex.step]
    split
    · exact hnothing
    · next hq => exact ⟨_, _, rfl, h.lostToSession hq⟩
  | put cmd payload =>
    obtain ⟨o, D', hput, hturns⟩ := h.put cmd hfits
    exact ⟨_, D', by rw [Duplex.step, hput]; rfl, hturns⟩
  | resend =>
    obtain ⟨o, D', hresend, hturns⟩ := h.resend
    exact ⟨_, D', by rw [Duplex.step, hresend]; rfl, hturns⟩
  | print text =>
    obtain ⟨y', hlinks⟩ := h.printed hfits
    exact ⟨_, _, rfl, .silent, .silent, f, b, x, y', .step .idle, .step .idle, .silent rfl, hlinks⟩
  | get =>
    rw [Duplex.step]
    split
    · obtain ⟨o, D', hget, hturns⟩ := h.starved
      exact ⟨_, D', by rw [hget]; rfl, hturns⟩
    · next hq =>
      obtain ⟨o, D', hget, hturns⟩ := h.taken hq
      exact ⟨_, D', by rw [hget]; rfl, hturns⟩
  | damageToLibrary bytes =>
    rw [Duplex.step]
    split
    · exact hnothing
    · next hq =>
      obtain ⟨o, D', hget, hgarbled⟩ := h.garbled hq bytes
      rw [hget]
      simp only [Option.bind_eq_bind, Option.bind_some]
      split
      · next hcrc => exact ⟨_, D', rfl, hgarbled hcrc.1 hcrc.2⟩
      · exact hnothing
  | loseToLibrary =>
    rw [Duplex.step]
    split
    · exact hnothing
    · next hq => exact ⟨_, _, rfl, h.lostToLibrary hq⟩

/-- Both ends are fresh. -/
theorem Duplex.hasLinks_opened (s : Session) (st : Storage) :
    (Duplex.opened s st).HasLinks st.payloadMaxSize .fresh .fresh [] [] where
  line := Line.hasLink_opened s st
  handed := rfl
  sends := ⟨(fun m hm => by cases hm), rfl, rfl, rfl, (fun h => by cases h)⟩
  toLibrary := .nil
  toSession := .nil
  data := rfl
  replies := rfl
  dataBack := rfl
  repliesBack := rfl

end

/-! ## Whole runs -/

/-- The links after steps that show `evs`. -/
structure Duplex.Records [Build] (limit : ℕ) (evs : List Duplex.Event) (D : Duplex)
    (f b : Link Message) (x : List Item) (y : List (Option Item)) : Prop where
  links : D.HasLinks limit f b x y
  sent : f.accepted = Duplex.sent evs
  got : f.delivered = Duplex.got evs
  prepared : f.prepared = Duplex.prepareds evs
  put : b.accepted = Duplex.puts evs
  handed : b.delivered = Duplex.handed evs
  got_mem : ∀ m ∈ Duplex.got evs, m ∈ Duplex.sent evs
  inv : Duplex.InTime evs → f.Inv 62
  invBack : b.Inv 1

/-- **One more step.** -/
theorem Duplex.Records.step [Build] {limit : ℕ} {evs : List Duplex.Event} {ev : Duplex.Event}
    {D D' : Duplex} {f b : Link Message} {x : List Item} {y : List (Option Item)}
    {mv : Duplex.Move} (h : Duplex.Records limit evs D f b x y) (hfits : mv.Fits limit)
    (hs : D.step mv = some (ev, D')) :
    (∃ f' b' x' y', Duplex.Records limit (evs ++ [ev]) D' f' b' x' y') ∧
      (Duplex.InTime evs → ∀ d, ev = .updated d true →
        d.action = .handleAck (seqOf (Duplex.prepareds evs - 1)) ∧ 0 < Duplex.prepareds evs ∧
          Duplex.got evs = (Duplex.sent evs).take (Duplex.prepareds evs)) := by
  obtain ⟨ev', D₁, hs', a, c, f', b', x', y', hturn, hback, hshows, hlinks⟩ :=
    Duplex.step_refines h.links hfits
  obtain ⟨rfl, rfl⟩ := Prod.mk.inj (Option.some.inj (hs.symm.trans hs'))
  refine ⟨⟨f', b', x', y', hlinks, ?_, ?_, ?_, ?_, ?_, fun m hm => ?_, fun htime => ?_, ?_⟩,
    fun htime d hd => ?_⟩
  · rw [hturn.accepted_eq, h.sent, Duplex.sent_concat, hshows.sent]
  · rw [hturn.delivered_eq, h.got, Duplex.got_concat, hshows.got]
  · rw [hshows.prepared, h.prepared, Duplex.prepareds_concat]
  · rw [hback.accepted_eq, h.put, Duplex.puts_concat, hshows.put]
  · rw [hback.delivered_eq, h.handed, Duplex.handed_concat, hshows.handed]
  · rw [Duplex.sent_concat]
    rw [Duplex.got_concat, hshows.got] at hm
    rcases List.mem_append.mp hm with hm | hm
    · exact List.mem_append_left _ (h.got_mem m hm)
    · obtain rfl : a = .deliver m := by
        cases a <;> cases Option.mem_toList.mp hm
        rfl
      exact List.mem_append_left _ (h.sent ▸ hturn.delivered_mem)
  · refine hturn.inv (by decide) (by decide) (by decide) (h.inv htime.of_append) fun k hk => ?_
    obtain rfl := hshows.wrote k hk
    have := htime evs k [] rfl
    rw [h.prepared]
    omega
  · exact hback.inv (by decide) (by decide) (by decide) h.invBack fun k hk =>
      absurd hk (hshows.wroteBack k)
  · obtain ⟨rfl, hact⟩ := hshows.taken d hd
    obtain ⟨hpos, hlen⟩ := hturn.taken (by decide) (h.inv htime)
    have htake := (h.inv htime).delivered
    rw [hlen, h.prepared, h.sent, h.got] at htake
    rw [h.prepared] at hact hpos
    exact ⟨hact, hpos, htake.symm⟩

/-- What is printed shows nowhere. -/
theorem Duplex.Records.printed [Build] {limit : ℕ} {evs : List Duplex.Event} {D : Duplex}
    {f b : Link Message} {x : List Item} {y : List (Option Item)}
    (h : Duplex.Records limit evs D f b x y) {text : List UInt8} (htext : ∀ b ∈ text, b < 128) :
    ∃ y', Duplex.Records limit evs (D.printed text) f b x y' := by
  obtain ⟨y', hlinks⟩ := h.links.printed htext
  exact ⟨y', { h with links := hlinks }⟩

/-- Both ends are fresh. -/
theorem Duplex.Records.opened [Build] (s : Session) (st : Storage) :
    Duplex.Records st.payloadMaxSize [] (Duplex.opened s st) .fresh .fresh [] [] where
  links := Duplex.hasLinks_opened s st
  sent := rfl
  got := rfl
  prepared := rfl
  put := rfl
  handed := rfl
  got_mem m hm := by cases hm
  inv _ := Link.inv_fresh 62
  invBack := Link.inv_fresh 1

/-- **Both directions at once.** An opened session and a new controller send to each other, over
wires that lose and damage frames: messages that the other end has room for, and the program of the
library prints text between its frames. The session writes its frames late. Every run exists. What
the session hands over are the first messages accepted by put, in order, all but at most the last
one, and all of them when the library does not wait for an ACK. What get delivers has been passed to
`Send`. If no message of the session is written after 62 or more later ones have been prepared, what
get delivers are the first messages passed to `Send`, all of them when the session does not wait;
and whenever `HandleAck` takes an ACK, it is the one of the message prepared last, and all the
messages prepared have been delivered. -/
theorem both_ways [Build] (s : Session) (st : Storage) (moves : List Duplex.Move)
    (hfits : ∀ mv ∈ moves, mv.Fits st.payloadMaxSize) :
    ∃ evs D, (Duplex.opened s st).run moves = some (evs, D) ∧
      Duplex.handed evs <+: Duplex.puts evs ∧
      (Duplex.puts evs).length ≤ (Duplex.handed evs).length + 1 ∧
      (D.frame.awaitingAck = false → Duplex.handed evs = Duplex.puts evs) ∧
      (∀ m ∈ Duplex.got evs, m ∈ Duplex.sent evs) ∧
      (Duplex.InTime evs → Duplex.got evs <+: Duplex.sent evs ∧
        (D.session.awaiting = false → Duplex.got evs = Duplex.sent evs) ∧
        ∀ pre d post, evs = pre ++ .updated d true :: post →
          d.action = .handleAck (seqOf (Duplex.prepareds pre - 1)) ∧ 0 < Duplex.prepareds pre ∧
            Duplex.got pre = (Duplex.sent pre).take (Duplex.prepareds pre)) := by
  have hstart : ∃ f b x y,
      Duplex.Records st.payloadMaxSize [] (Duplex.opened s st) f b x y :=
    ⟨.fresh, .fresh, [], [], .opened s st⟩
  obtain ⟨evs, D, hrun, f, b, x, y, hrec⟩ :=
    Runs.run_total (P := fun evs D => ∃ f b x y, Duplex.Records st.payloadMaxSize evs D f b x y)
      (fun {evs D mv} h hmv => by
        obtain ⟨f, b, x, y, h⟩ := h
        obtain ⟨ev, D', hs, -⟩ := Duplex.step_refines h.links hmv
        exact ⟨ev, D', hs, (h.step hmv hs).1⟩) hstart hfits
  have hrec : Duplex.Records st.payloadMaxSize evs D f b x y := hrec
  refine ⟨evs, D, hrun, ?_, ?_, fun hidle => ?_, hrec.got_mem,
    fun htime => ⟨?_, fun hidle => ?_, ?_⟩⟩
  · rw [← hrec.handed, ← hrec.put]
    exact hrec.invBack.inOrder
  · rw [← hrec.handed, ← hrec.put]
    exact hrec.invBack.ahead hrec.links.sends.all
  · rw [← hrec.handed, ← hrec.put]
    exact hrec.invBack.heard (hrec.links.sends.awaiting.symm.trans hidle)
  · rw [← hrec.got, ← hrec.sent]
    exact (hrec.inv htime).inOrder
  · rw [← hrec.got, ← hrec.sent]
    exact (hrec.inv htime).heard (hrec.links.line.keeps.awaiting.symm.trans hidle)
  · rintro pre d post rfl
    obtain ⟨mv, D₁, D₂, hmv, ⟨f, b, x, y, h⟩, hs⟩ :=
      Runs.run_at (P := fun evs D => ∃ f b x y, Duplex.Records st.payloadMaxSize evs D f b x y)
        (fun {evs D mv ev D'} h hmv hs => by
          obtain ⟨f, b, x, y, h⟩ := h
          exact (h.step hmv hs).1) hstart hfits hrun
    exact (h.step hmv hs).2 htime.of_append d rfl

/-- Both ends send, the first frame of the library is lost, text follows, and both are heard. -/
theorem both_ways_two :
    letI : Build := build32
    let s : Session := ⟨0, 0, false, none, 100, 3, 0, false, [], none⟩
    let moves : List Duplex.Move :=
      [.call (.send 1 [7]), .put 2 [9, 9], .print [79, 75, 10], .loseToSession, .write 0, .get,
        .resend, .receive false, .receive false, .get, .receive false, .get]
    ∃ evs D, (Duplex.opened s (.zeroed 4 (by decide))).run moves = some (evs, D) ∧
      D.frame.awaitingAck = false ∧ Duplex.handed evs = Duplex.puts evs ∧
      D.session.awaiting = false ∧ Duplex.got evs = Duplex.sent evs := by
  let _ : Build := build32
  intro s moves
  obtain ⟨evs, D, hrun, -, -, hheard, -, htimely⟩ :=
    both_ways s (.zeroed 4 (by decide)) moves (by decide +kernel)
  have hrun' : ((Duplex.opened s (.zeroed 4 (by decide))).run moves).map (fun r =>
      (Duplex.prepareds r.1, r.2.frame.awaitingAck, r.2.session.awaiting)) =
      some (1, false, false) := by decide +kernel
  rw [hrun] at hrun'
  obtain ⟨hcount, hidle, hopen⟩ : Duplex.prepareds evs = 1 ∧ D.frame.awaitingAck = false ∧
      D.session.awaiting = false := by simpa using hrun'
  have htime : Duplex.InTime evs := .of_few (by rw [hcount]; decide)
  exact ⟨evs, D, hrun, hidle, hheard hidle, hopen, (htimely htime).2.1 hopen⟩

end EspSerialSession

end HtcwFrameArq
