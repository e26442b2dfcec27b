import Mathlib.Data.List.Forall2
import HtcwFrameArq.Interoperation
import HtcwFrameArq.LateWrites
import HtcwFrameArq.Line
import HtcwFrameArq.Network

/-!
# Late retransmissions

`Line.step_refines` says that every step of a session and a library is one of a link with late
writes: the frames of the session stand for the numbers of their messages. What holds of the
link as long as no frame is written after 62 later messages have been prepared holds of the two
ends: `late_writes_harmless`.
-/

namespace HtcwFrameArq

namespace EspSerialSession

open LateWrites

/-! ## The line is a link -/

/-- `bytes` is the frame of message number `k`. -/
def IsFrame (accepted : List Message) (k : ℕ) (bytes : List UInt8) : Prop :=
  ∃ m, accepted[k]? = some m ∧ numbered k m = some bytes

/-- `bytes` is the ACK of message number `k`, or a NACK. -/
def IsReply [Build] : Option ℕ → List UInt8 → Prop
  | some k, bytes => bytes = (controlFrame faTypeAck (seqOf k)).encode
  | none, bytes => ∃ k, bytes = (controlFrame faTypeNack (seqOf k)).encode

/-- The ledger of a link. -/
def ledgerOf (l : Link Message) : Ledger := ⟨l.accepted, l.prepared, l.awaiting⟩

/-- A link whose sender has done `d`, which left the ledger `l₁`. -/
def linkAfter (l : Link Message) (d : Done) (l₁ : Ledger) : Link Message :=
  { l with
    accepted := l₁.accepted, prepared := l₁.first, awaiting := l₁.awaiting
    pending := l.pending ++ d.first.toList.map (fun _ => l.prepared) ++
      d.again.toList.map (fun _ => l.prepared - 1) }

/-- The link of a line. What is passed to `Send` is at most `limit` bytes long, the maximum of the
library, so that every frame on the wire is one that get takes as a whole. -/
structure Line.HasLink [Build] (limit : ℕ) (L : Line) (l : Link Message) : Prop where
  keeps : L.session.Keeps (ledgerOf l)
  prepared : L.prepared = l.prepared
  payloadMaxSize : L.frame.payloadMaxSize = limit
  fits : ∀ m ∈ l.accepted, m.2.length ≤ limit
  numbers : L.pending.map Prod.fst = l.pending
  pending : ∀ p ∈ L.pending, IsFrame l.accepted p.1 p.2
  wire : List.Forall₂ (IsFrame l.accepted) l.data L.wire
  ok : Ok L.frame
  between : Holds L.frame []
  expected : L.frame.expectedRxSeq = seqOf l.delivered.length
  replies : List.Forall₂ IsReply l.replies L.replies
  loop : ∃ mach, L.loop = .header mach ∧ mach.state = 0

/-- What a step shows is what the step of the link shows. -/
structure Line.Shows (ev : Line.Event) (l : Link Message) (a : Label Message)
    (l' : Link Message) : Prop where
  accepted : ev.accepted = a.accepted?
  delivered : ev.delivered = a.delivered?
  prepared : l'.prepared = l.prepared + ev.first.toList.length
  wrote : ∀ k, a = .write k → ev = .wrote k
  taken : ∀ d, ev = .updated d true →
    a = .take ∧ d.action = .handleAck (seqOf (l.prepared - 1))

namespace Line.Shows

variable {l l' : Link Message} {a : Label Message} {d : Done} {taken : Bool} {o : Outcome}
  {m : Message}

/-- What a handler shows. -/
theorem handler (haccepted : a.accepted? = d.accepted) (hdelivered : a.delivered? = none)
    (hprepared : l'.prepared = l.prepared + d.first.toList.length) (hwrite : ∀ k, a ≠ .write k)
    (htaken : taken = true → a = .take ∧ d.action = .handleAck (seqOf (l.prepared - 1))) :
    Line.Shows (.updated d taken) l a l' := by
  refine ⟨haccepted.symm, hdelivered.symm, hprepared, fun k hk => absurd hk (hwrite k), ?_⟩
  intro d' hd
  obtain ⟨rfl, rfl⟩ := Line.Event.updated.inj hd
  exact htaken rfl

/-- A step that shows nothing. -/
theorem silent (hprepared : l'.prepared = l.prepared) : Line.Shows .nothing l .silent l' :=
  ⟨rfl, rfl, hprepared, (fun k hk => by cases hk), (fun d hd => by cases hd)⟩

/-- A call of get that returns no command delivers nothing. -/
theorem got (hret : o.ret ≤ 0) (hprepared : l'.prepared = l.prepared) :
    Line.Shows (.got o) l .silent l' := by
  have hnone : Line.Event.delivered (.got o) = none := by
    apply if_neg
    intro hd
    exact absurd hd.2 (Int.not_lt.mpr hret)
  exact ⟨rfl, hnone, hprepared, (fun k hk => by cases hk), (fun d hd => by cases hd)⟩

/-- A call of get that returns the command of a message and its payload delivers it. -/
theorem delivers (hlo : 1 ≤ m.1) (hcall : o.call = .get) (hret : o.ret = m.1.toNat)
    (hout : o.out = some m.2) (hprepared : l'.prepared = l.prepared) :
    Line.Shows (.got o) l (.deliver m) l' := by
  have hpos : 1 ≤ m.1.toNat := UInt8.le_iff_toNat_le.mp hlo
  have hd : o.Delivers := ⟨hcall, by rw [hret]; exact Int.ofNat_lt.mpr hpos⟩
  have hsome : Line.Event.delivered (.got o) = some m := by
    rw [Line.Event.delivered, if_pos hd, hret, hout, Int.toNat_natCast, UInt8.ofNat_toNat]
    rfl
  exact ⟨rfl, hsome, hprepared, (fun k hk => by cases hk), (fun d hd => by cases hd)⟩

end Line.Shows

section

variable {l l₁ : Ledger} {d : Done} {accepted : List Message} {k : ℕ} {bytes : List UInt8}

theorem IsFrame.append (h : IsFrame accepted k bytes) (more : List Message) :
    IsFrame (accepted ++ more) k bytes := by
  obtain ⟨m, hm, hframe⟩ := h
  obtain ⟨hlt, -⟩ := List.getElem?_eq_some_iff.mp hm
  exact ⟨m, (List.getElem?_append_left hlt).trans hm, hframe⟩

/-! ### A step of the session -/

theorem Does.accepted_eq (h : Does l d l₁) : l₁.accepted = l.accepted ++ d.accepted.toList := by
  cases h <;> first | rfl | exact (List.append_nil _).symm

theorem Does.first_eq (h : Does l d l₁) : l₁.first = l.first + d.first.toList.length := by
  cases h with
  | resent hact => rw [Done.first_of_again hact]; rfl
  | @quiet act => cases act <;> rfl
  | _ => rfl

/-- What is prepared is the frame of the next message. -/
theorem Does.isFrame_first (h : Does l d l₁) (hinv : l.Inv) (hfirst : d.first = some bytes) :
    IsFrame l₁.accepted l.first bytes := by
  cases h with
  | @started cmd data frame hsend hidle hframe =>
    obtain rfl : frame = bytes := Option.some.inj hfirst
    refine ⟨(cmd, data), ?_, hframe⟩
    rw [hinv.idle hidle, List.getElem?_concat_length]
  | @next m frame hwait hm hframe =>
    obtain rfl : frame = bytes := Option.some.inj hfirst
    exact ⟨m, hm, hframe⟩
  | resent hact =>
    rw [Done.first_of_again hact] at hfirst
    cases hfirst
  | @quiet act => cases act <;> cases hfirst
  | _ => cases hfirst

/-- What is sent again is the frame of the last message prepared. -/
theorem Does.isFrame_again (h : Does l d l₁) (hagain : d.again = some bytes) :
    IsFrame l₁.accepted (l.first - 1) bytes := by
  cases h with
  | @resent act m frame hact hwait hm hframe =>
    obtain rfl : frame = bytes := Option.some.inj (hact.symm.trans hagain)
    exact ⟨m, hm, hframe⟩
  | @quiet act => cases act <;> cases hagain
  | _ => cases hagain

/-- A message that is taken was passed to `Send`. -/
theorem Does.accepted_message (h : Does l d l₁) {m : Message} (hm : d.accepted = some m) :
    d.action.message = some m := by
  cases h with
  | queued => cases hm; rfl
  | started => cases hm; rfl
  | _ => cases hm

end

/-! ### The link -/

section

variable {l : Link Message} {l₁ : Ledger} {d : Done} {k : ℕ}

theorem linkAfter_quiet (l : Link Message) {d : Done} (hfirst : d.first = none)
    (hagain : d.again = none) (l₁ : Ledger) :
    linkAfter l d l₁ = { l with
      accepted := l₁.accepted, prepared := l₁.first, awaiting := l₁.awaiting } := by
  rw [linkAfter, hfirst, hagain]
  simp

theorem linkAfter_first (l : Link Message) {d : Done} {frame : List UInt8}
    (hfirst : d.first = some frame) (hagain : d.again = none) (l₁ : Ledger) :
    linkAfter l d l₁ = { l with
      accepted := l₁.accepted, prepared := l₁.first, awaiting := l₁.awaiting
      pending := l.pending ++ [l.prepared] } := by
  rw [linkAfter, hfirst, hagain]
  simp

theorem linkAfter_again (l : Link Message) {d : Done} {frame : List UInt8}
    (hagain : d.again = some frame) (l₁ : Ledger) :
    linkAfter l d l₁ = { l with
      accepted := l₁.accepted, prepared := l₁.first, awaiting := l₁.awaiting
      pending := l.pending ++ [l.prepared - 1] } := by
  rw [linkAfter, Done.first_of_again hagain, hagain]
  simp

/-- What the session does apart from taking a reply is a step of the link. -/
theorem Does.link_step (h : Does (ledgerOf l) d l₁) (hack : ∀ seq, d.action ≠ .handleAck seq) :
    ∃ a, l.Step 64 a (linkAfter l d l₁) ∧ a.accepted? = d.accepted ∧ a.delivered? = none ∧
      ∀ k, a ≠ .write k := by
  cases h with
  | rejected => exact ⟨.silent, by rw [linkAfter_quiet l rfl rfl]; exact .idle, rfl, rfl, by simp⟩
  | @queued cmd data hsend hwait =>
    refine ⟨.accept (cmd, data), ?_, rfl, rfl, by simp⟩
    rw [linkAfter_quiet l rfl rfl]
    exact .queue hwait
  | @started cmd data frame hsend hidle hframe =>
    refine ⟨.accept (cmd, data), ?_, rfl, rfl, by simp⟩
    rw [linkAfter_first l rfl rfl]
    exact .start hidle
  | resent hact hwait =>
    refine ⟨.silent, ?_, rfl, rfl, by simp⟩
    rw [linkAfter_again l hact]
    exact .again hwait
  | @quiet act =>
    refine ⟨.silent, ?_, rfl, rfl, by simp⟩
    rw [linkAfter_quiet l (by cases act <;> rfl) (by cases act <;> rfl)]
    exact .idle
  | stale => exact absurd rfl (hack _)
  | acked => exact absurd rfl (hack _)
  | next => exact absurd rfl (hack _)

/-- What `HandleAck` does with the ACK at the head of the replies. -/
theorem Does.link_ack {rest : List (Option ℕ)} (h : Does (ledgerOf l) d l₁)
    (hinv : (ledgerOf l).Inv) (hact : d.action = .handleAck (seqOf k))
    (hreplies : l.replies = some k :: rest) :
    ∃ a, l.Step 64 a { linkAfter l d l₁ with replies := rest } ∧ a.accepted? = d.accepted ∧
      a.delivered? = none ∧ (∀ k, a ≠ .write k) ∧
      (l.awaiting = true → seqOf k = seqOf (l.prepared - 1) → a = .take) := by
  have hnum (hwait : l.awaiting = true)
      (hseq : Action.handleAck (seqOf (l.prepared - 1)) = .handleAck (seqOf k)) :
      k + 1 ≡ l.prepared [MOD 64] := by
    have hpos : 0 < l.prepared := hinv.pos hwait
    have := seqOf_eq_iff.mp (Action.handleAck.inj hseq)
    rw [Nat.ModEq]
    omega
  cases h with
  | stale hstale =>
    refine ⟨.silent, ?_, rfl, rfl, by simp, fun hwait hseq => ?_⟩
    · rw [linkAfter_quiet l rfl rfl]
      exact .skip hreplies
    · cases hact
      rcases hstale with hidle | hne
      · exact absurd (hidle.symm.trans hwait) Bool.false_ne_true
      · exact absurd hseq hne
  | acked hwait hall =>
    refine ⟨.take, ?_, rfl, rfl, by simp, fun _ _ => rfl⟩
    rw [linkAfter_quiet l rfl rfl]
    exact .last hreplies hwait (hnum hwait hact) hall
  | next hwait hm =>
    obtain ⟨hlt, -⟩ := List.getElem?_eq_some_iff.mp hm
    refine ⟨.take, ?_, rfl, rfl, by simp, fun _ _ => rfl⟩
    rw [linkAfter_first l rfl rfl]
    exact .next hreplies hwait (hnum hwait hact) hlt
  | quiet _ hack => exact absurd hact (hack _)
  | resent hagain =>
    cases hact
    cases hagain
  | _ => cases hact

/-- What `HandleNack` does with a NACK at the head of the replies. -/
theorem Does.link_nack {rest : List (Option ℕ)} {seq : UInt8} (h : Does (ledgerOf l) d l₁)
    (hact : d.action = .handleNack seq) (hreplies : l.replies = none :: rest) :
    ∃ a, l.Step 64 a { linkAfter l d l₁ with replies := rest } ∧ a.accepted? = d.accepted ∧
      a.delivered? = none ∧ ∀ k, a ≠ .write k := by
  cases h with
  | resent hagain hwait =>
    refine ⟨.silent, ?_, rfl, rfl, by simp⟩
    rw [linkAfter_again l hagain]
    exact .ask hreplies hwait
  | @quiet act =>
    refine ⟨.silent, ?_, rfl, rfl, by simp⟩
    rw [linkAfter_quiet l (by cases act <;> rfl) (by cases act <;> rfl)]
    exact .skip hreplies
  | _ => cases hact

end

section

variable [Build] {limit : ℕ} {L : Line} {l : Link Message} {l₁ : Ledger} {d : Done} {s : Session}

/-- A reply is one piece. -/
theorem piece_replyBytes (r : Option Frame) : piece (replyBytes r) = r.toList.map Frame.encode :=
  sent_replyBytes r

namespace Line.HasLink

/-- A handler of the session. -/
theorem updated (h : L.HasLink limit l) (hdoes : Does (ledgerOf l) d l₁) (hkeep : s.Keeps l₁)
    (hfits : ∀ m ∈ d.accepted, m.2.length ≤ limit) :
    (L.updated d s).HasLink limit (linkAfter l d l₁) := by
  have haccepted : l₁.accepted = l.accepted ++ d.accepted.toList := hdoes.accepted_eq
  refine { h with
    keeps := hkeep, prepared := ?_, fits := ?_, numbers := ?_, pending := ?_, wire := ?_ }
  · rw [linkAfter, hdoes.first_eq, Line.updated, h.prepared]
    rfl
  · intro m hm
    rw [linkAfter, haccepted] at hm
    rcases List.mem_append.mp hm with hm | hm
    · exact h.fits m hm
    · exact hfits m (Option.mem_toList.mp hm)
  · simp [Line.updated, linkAfter, h.numbers, h.prepared, Function.comp_def]
  · intro p hp
    simp only [Line.updated, List.mem_append, List.mem_map, Option.mem_toList] at hp
    rcases hp with (hp | ⟨frame, hfirst, rfl⟩) | ⟨frame, hagain, rfl⟩
    · rw [linkAfter, haccepted]
      exact (h.pending p hp).append _
    · rw [h.prepared]
      exact hdoes.isFrame_first h.keeps.inv hfirst
    · rw [h.prepared]
      exact hdoes.isFrame_again hagain
  · rw [linkAfter, haccepted]
    exact h.wire.imp fun _ _ hframe => hframe.append _

/-- The head of the replies is taken. -/
theorem pop (h : L.HasLink limit l) {bytes : List UInt8} {rest : List (List UInt8)}
    (hreplies : L.replies = bytes :: rest) :
    ∃ r rs, l.replies = r :: rs ∧ IsReply r bytes ∧
      Line.HasLink limit { L with replies := rest } { l with replies := rs } := by
  have hall := h.replies
  rw [hreplies] at hall
  obtain ⟨r, rs, hr, hrs, hl⟩ := List.forall₂_cons_right_iff.mp hall
  exact ⟨r, rs, hl, hr, { h with replies := hrs }⟩

/-- A call from outside. -/
theorem call (h : L.HasLink limit l) {act : Action} (hext : act.external = true)
    (hfits : ∀ m ∈ act.message, m.2.length ≤ limit) :
    ∃ d s l₁ a, L.session.perform act = some (d, s) ∧ l.Step 64 a (linkAfter l d l₁) ∧
      Line.Shows (.updated d false) l a (linkAfter l d l₁) ∧
      (L.updated d s).HasLink limit (linkAfter l d l₁) := by
  obtain ⟨d, s, l₁, hs, hdoes, hkeep⟩ := h.keeps.perform act
  have hact := Session.perform_action hs
  have hack (seq : UInt8) : d.action ≠ .handleAck seq := by
    rw [hact]
    rintro rfl
    cases hext
  obtain ⟨a, hstep, haccepted, hdelivered, hwrite⟩ := hdoes.link_step hack
  refine ⟨d, s, l₁, a, hs, hstep,
    .handler haccepted hdelivered hdoes.first_eq hwrite (fun h => by cases h),
    h.updated hdoes hkeep ?_⟩
  intro m hm
  exact hfits m (hact ▸ hdoes.accepted_message (Option.mem_def.mp hm))

/-- The read loop takes an ACK or a NACK. -/
theorem handled (h : L.HasLink limit l) (logging : Bool) {type : UInt8}
    (htype : type = faTypeAck ∨ type = faTypeNack) (k : ℕ) {act : Action}
    (hact : act = if type = faTypeAck then .handleAck (seqOf k) else .handleNack (seqOf k)) :
    ∃ d l₁ L', L.receive logging (controlFrame type (seqOf k)).encode =
        some (.updated d (L.session.takes act), L') ∧
      d.action = act ∧ Does (ledgerOf l) d l₁ ∧ L'.HasLink limit (linkAfter l d l₁) := by
  obtain ⟨mach, hloop, hstate⟩ := h.loop
  have hfits := controlFrame_fits 32768 type (seqOf k)
  obtain ⟨hevents, ⟨mach', hafter, hstate'⟩, -⟩ :=
    sessionAccepts_encode hfits.length_le hfits.marker_ge logging mach hstate
  have hcalled := called_control htype k
  rw [← hact] at hcalled
  obtain ⟨d, s, l₁, hs, hdoes, hkeep⟩ := h.keeps.perform act
  have hdone := Session.perform_action hs
  rw [L.session.perform_called hcalled] at hs
  obtain ⟨eff, heff, heq⟩ := Option.map_eq_some_iff.mp hs
  obtain ⟨rfl, rfl⟩ := Prod.mk.inj heq
  have hnext : Line.HasLink limit { L with loop := .header mach' } l :=
    { h with loop := ⟨mach', rfl, hstate'⟩ }
  refine ⟨_, l₁, _, ?_, hdone, hdoes, hnext.updated hdoes hkeep fun m hm => ?_⟩
  · rw [Line.receive, hloop, hevents, hafter]
    dsimp only
    rw [hcalled, heff]
    rfl
  · cases hm

/-- The sender takes the ACK of the last message prepared. -/
theorem takes_ack (h : L.HasLink limit l) {k : ℕ}
    (htakes : L.session.takes (.handleAck (seqOf k)) = true) :
    l.awaiting = true ∧ seqOf k = seqOf (l.prepared - 1) := by
  obtain ⟨hwait, hseq⟩ := Bool.and_eq_true_iff.mp htakes
  have hwait' : (ledgerOf l).awaiting = true := h.keeps.awaiting ▸ hwait
  refine ⟨hwait', ?_⟩
  rw [of_decide_eq_true hseq, h.keeps.txSeq]
  exact last_seq (h.keeps.inv.pos hwait')

/-- A reply is taken by the read loop. -/
theorem receive (h : L.HasLink limit l) (logging : Bool) {bytes : List UInt8}
    {rest : List (List UInt8)} (hreplies : L.replies = bytes :: rest) :
    ∃ ev L' a l', Line.receive { L with replies := rest } logging bytes = some (ev, L') ∧
      l.Step 64 a l' ∧ Line.Shows ev l a l' ∧ L'.HasLink limit l' := by
  obtain ⟨r, rs, hr, hreply, hpop⟩ := h.pop hreplies
  cases r with
  | some k =>
    obtain rfl := hreply
    obtain ⟨d, l₁, L', hreceive, hact, hdoes, hlink⟩ := hpop.handled logging (.inl rfl) k rfl
    have hdoes : Does (ledgerOf l) d l₁ := hdoes
    have hact : d.action = .handleAck (seqOf k) := hact
    obtain ⟨a, hstep, haccepted, hdelivered, hwrite, htake⟩ :=
      hdoes.link_ack h.keeps.inv hact hr
    refine ⟨_, L', a, _, hreceive, hstep,
      .handler haccepted hdelivered hdoes.first_eq hwrite fun htakes => ?_, hlink⟩
    obtain ⟨hwait, hseq⟩ := h.takes_ack htakes
    exact ⟨htake hwait hseq, by rw [hact, hseq]⟩
  | none =>
    obtain ⟨k, rfl⟩ := hreply
    obtain ⟨d, l₁, L', hreceive, hact, hdoes, hlink⟩ := hpop.handled logging (.inr rfl) k rfl
    have hdoes : Does (ledgerOf l) d l₁ := hdoes
    obtain ⟨a, hstep, haccepted, hdelivered, hwrite⟩ := hdoes.link_nack hact hr
    exact ⟨_, L', a, _, hreceive, hstep,
      .handler haccepted hdelivered hdoes.first_eq hwrite (fun h => by cases h), hlink⟩

/-! ### The library -/

/-- The head of the wire is the frame of a message. -/
theorem arrive (h : L.HasLink limit l) {bytes : List UInt8} {rest : List (List UInt8)}
    (hwire : L.wire = bytes :: rest) :
    ∃ k ks m, l.data = k :: ks ∧ l.accepted[k]? = some m ∧
      bytes = (dataFrame m.1 (seqOf k) m.2).encode ∧
      (dataFrame m.1 (seqOf k) m.2).Fits L.frame.payloadMaxSize ∧ 1 ≤ m.1 ∧ m.1 ≤ 127 ∧
      Line.HasLink limit { L with wire := rest } { l with data := ks } := by
  have hall := h.wire
  rw [hwire] at hall
  obtain ⟨k, ks, ⟨m, hm, hframe⟩, hks, hdata⟩ := List.forall₂_cons_right_iff.mp hall
  have hmem : m ∈ l.accepted := List.mem_of_getElem? hm
  obtain ⟨hlo, hhi, hlen⟩ := h.keeps.inv.sendable m hmem
  have hbuild := buildDataFrame_eq m.1 (seqOf k) m.2
  exact ⟨k, ks, m, hdata, hm, Option.some.inj (hframe.symm.trans hbuild),
    dataFrame_fits hhi (h.payloadMaxSize ▸ h.fits m hmem) (lt_of_le_of_lt hlen (by decide)), hlo,
    hhi, { h with wire := hks }⟩

/-- A call of get, which reads `bytes` up to the one that decides `found`, if any does. -/
theorem get (h : L.HasLink limit l) (bytes : List UInt8) :
    ∃ found acc' rest o g,
      L.get bytes = some (o, { L with
        wire := piece (bytes.drop o.consumed.length) ++ L.wire
        frame := g
        replies := L.replies ++
          (L.frame.arq.react found).reply.toList.map Frame.encode }) ∧
      (rest = [] → o.consumed = bytes) ∧
      (receiver L.frame.payloadMaxSize).pump [] (bytes.map some) = (found, acc', rest) ∧
      (∀ fr, found = some (.frame fr) → fr.Fits L.frame.payloadMaxSize) ∧
      o.call = .get ∧ o.ret = (L.frame.arq.react found).ret ∧
      o.out = (L.frame.arq.react found).out ∧ Ok g ∧ Holds g acc' ∧
      g.payloadMaxSize = L.frame.payloadMaxSize ∧
      g.expectedRxSeq = (L.frame.arq.react found).arq.expectedRxSeq := by
  have hp := pending_nil L.frame.payloadMaxSize
  obtain ⟨found, acc', o, e', hs, hgot⟩ :=
    exec_get (e := ⟨L.frame, ⟨bytes.map some, [], []⟩⟩) h.between hp
  obtain ⟨hok, hmax⟩ := Ok.exec (e := ⟨L.frame, ⟨bytes.map some, [], []⟩⟩) h.ok hs
  obtain ⟨hwritten, -⟩ := hgot.replied (.of_nil rfl)
  refine ⟨found, acc', _, o, e'.frame, ?_, hgot.consumed_all rfl, hgot.pump, hgot.fits hp,
    hgot.call, hgot.ret, hgot.out, hok, hgot.holds, hmax, congrArg Arq.expectedRxSeq hgot.arq⟩
  rw [Line.get, hs]
  simp only [Option.bind_eq_bind, Option.bind_some]
  rw [hwritten, piece_replyBytes]

/-- The library answers, and may have delivered a message. -/
theorem answer (h : L.HasLink limit l) {g : FrameArqT} (hok : Ok g) (hold : Holds g [])
    (hmax : g.payloadMaxSize = L.frame.payloadMaxSize) {delivered : List Message}
    (hexp : g.expectedRxSeq = seqOf delivered.length) {r : Option ℕ} {reply : Frame}
    (hreply : IsReply r reply.encode) :
    Line.HasLink limit { L with frame := g, replies := L.replies ++ [reply.encode] }
      { l with delivered := delivered, replies := l.replies ++ [r] } := by
  exact { h with
    payloadMaxSize := hmax.trans h.payloadMaxSize, ok := hok, between := hold, expected := hexp
    replies := List.rel_append h.replies (.cons hreply .nil) }

/-- **A frame** is delivered, acknowledged again or refused. -/
theorem got (h : L.HasLink limit l) {bytes : List UInt8} {rest : List (List UInt8)}
    (hwire : L.wire = bytes :: rest) :
    ∃ o L' a l', Line.get { L with wire := rest } bytes = some (o, L') ∧ l.Step 64 a l' ∧
      Line.Shows (.got o) l a l' ∧ L'.HasLink limit l' := by
  obtain ⟨k, ks, m, hdata, hm, rfl, hfits, hlo, hhi, hpop⟩ := h.arrive hwire
  obtain ⟨found, acc', rest', o, g, hget, hall, hpump, -, hcall, hret, hout, hok, hold, hmax,
    hexp⟩ := hpop.get (dataFrame m.1 (seqOf k) m.2).encode
  have henc := pump_encode hfits []
  rw [List.append_nil] at henc
  obtain ⟨rfl, rfl, rfl⟩ := hpump.symm.trans henc
  rw [piece_drop (hall rfl), List.nil_append] at hget
  have hisdata := dataFrame_isData hlo hhi (seqOf k) m.2
  have hseq := faSeqOf_dataFrame (seqOf_le k) m.1 m.2
  have hexpected : L.frame.arq.expectedRxSeq = seqOf l.delivered.length := h.expected
  simp only [Arq.react] at hget hret hout hexp
  -- the sequence number decides: the next message, the last one again, or another
  by_cases hnext : seqOf k = seqOf l.delivered.length
  · have hnum : k % 64 = l.delivered.length % 64 := seqOf_eq_iff.mp hnext
    have hhandle := Arq.handle_delivered (a := L.frame.arq) hisdata
      (hseq.trans (hnext.trans hexpected.symm))
    rw [hseq] at hhandle
    rw [hhandle] at hget hret hout hexp
    have hcmd : o.ret = m.1.toNat := hret.trans (dataFrame_eq hhi (seqOf_le k) m.2).2.2
    refine ⟨o, _, .deliver m, _, hget, .deliver hdata hnum hm,
      .delivers hlo hcall hcmd hout rfl, hpop.answer hok hold hmax ?_ rfl⟩
    rw [hexp, List.length_append, List.length_singleton]
    dsimp only
    rw [seqOf_succ, seqOf_eq_iff]
    omega
  · have hprev : (seqOf l.delivered.length - 1) &&& faSeqMask =
        seqOf (l.delivered.length + 63) := by
      have hmod : seqOf l.delivered.length = seqOf (l.delivered.length + 63 + 1) :=
        seqOf_eq_iff.mpr (by omega)
      rw [hmod, seqOf_pred]
    by_cases hdup : seqOf k = seqOf (l.delivered.length + 63)
    · have hnum : (k + 1) % 64 = l.delivered.length % 64 := by
        have := seqOf_eq_iff.mp hdup
        omega
      have hhandle := Arq.handle_duplicate (a := L.frame.arq) hisdata
        (by rw [hseq, hexpected]; exact hnext) (by rw [hseq, hexpected, hprev]; exact hdup)
      rw [hseq] at hhandle
      rw [hhandle] at hget hret hout hexp
      exact ⟨o, _, .silent, _, hget, .duplicate hdata hnum, .got (Int.le_of_eq hret) rfl,
        hpop.answer hok hold hmax (hexp.trans hexpected) rfl⟩
    · have hhandle := Arq.handle_unexpected (a := L.frame.arq) hisdata
        (by rw [hseq, hexpected]; exact hnext) (by rw [hseq, hexpected, hprev]; exact hdup)
      rw [hhandle] at hget hret hout hexp
      exact ⟨o, _, .silent, _, hget, .refuse hdata, .got (Int.le_of_eq hret) rfl,
        hpop.answer hok hold hmax (hexp.trans hexpected) ⟨_, by rw [hexpected]⟩⟩

/-- A damaged frame is answered by a NACK. -/
theorem damaged (h : L.HasLink limit l) {bytes : List UInt8} {rest : List (List UInt8)}
    (hwire : L.wire = bytes :: rest) (bytes' : List UInt8) :
    ∃ o L', Line.get { L with wire := rest } bytes' = some (o, L') ∧
      (o.ret = errorCrc → o.consumed = bytes' →
        ∃ a l', l.Step 64 a l' ∧ Line.Shows (.got o) l a l' ∧ L'.HasLink limit l') := by
  obtain ⟨k, ks, m, hdata, -, -, -, -, -, hpop⟩ := h.arrive hwire
  obtain ⟨found, acc', rest', o, g, hget, -, hpump, hfits, -, hret, -, hok, hold, hmax, hexp⟩ :=
    hpop.get bytes'
  refine ⟨o, _, hget, fun hcrc hall => ?_⟩
  rw [piece_drop hall, List.nil_append]
  obtain rfl := Arq.found_of_errorCrc hfits (hret.symm.trans hcrc)
  obtain ⟨_, _, _, -, -, -, rfl⟩ := Decoder.pump_some hpump
  have hexpected : L.frame.arq.expectedRxSeq = seqOf l.delivered.length := h.expected
  have hquiet : o.ret ≤ 0 := by
    rw [hcrc]
    decide
  exact ⟨.silent, _, .refuse hdata, .got hquiet rfl,
    hpop.answer hok hold hmax (hexp.trans hexpected) ⟨_, by rw [← hexpected]⟩⟩

/-- Without a frame, get does nothing. -/
theorem starved (h : L.HasLink limit l) :
    ∃ o L', L.get [] = some (o, L') ∧ Line.Shows (.got o) l .silent l ∧ L'.HasLink limit l := by
  obtain ⟨found, acc', rest', o, g, hget, hall, hpump, -, -, hret, -, hok, hold, hmax, hexp⟩ :=
    h.get []
  obtain ⟨rfl, rfl, rfl⟩ := hpump
  rw [piece_drop (hall rfl), List.nil_append] at hget
  refine ⟨o, _, hget, .got (Int.le_of_eq hret) rfl, ?_⟩
  refine { h with
    payloadMaxSize := hmax.trans h.payloadMaxSize, ok := hok, between := hold
    expected := hexp.trans h.expected, replies := ?_ }
  simpa [Arq.react] using h.replies

/-- A write is made. -/
theorem wrote (h : L.HasLink limit l) {i k : ℕ} {bytes : List UInt8}
    (hi : L.pending[i]? = some (k, bytes)) :
    ∃ l', l.Step 64 (.write k) l' ∧ l'.prepared = l.prepared ∧
      Line.HasLink limit
        { L with pending := L.pending.eraseIdx i, wire := L.wire ++ [bytes] } l' := by
  obtain ⟨hlt, hget⟩ := List.getElem?_eq_some_iff.mp hi
  have hsplit : L.pending = L.pending.take i ++ (k, bytes) :: L.pending.drop (i + 1) := by
    rw [← hget, List.getElem_cons_drop, List.take_append_drop]
  have hpending : l.pending =
      (L.pending.take i).map Prod.fst ++ k :: (L.pending.drop (i + 1)).map Prod.fst := by
    rw [← h.numbers]
    conv => lhs; rw [hsplit]
    rw [List.map_append, List.map_cons]
  refine ⟨_, .write hpending, rfl, { h with numbers := ?_, pending := ?_, wire := ?_ }⟩
  · rw [List.eraseIdx_eq_take_drop_succ, List.map_append]
  · exact fun p hp => h.pending p (List.mem_of_mem_eraseIdx hp)
  · have hframe : IsFrame l.accepted k bytes := h.pending _ (List.mem_of_getElem? hi)
    exact List.rel_append h.wire (.cons hframe .nil)

end Line.HasLink

/-- **Refinement**: every step of the line is possible, and a step of its link. -/
theorem Line.step_refines (h : L.HasLink limit l) {mv : Move}
    (hfits : ∀ m ∈ mv.message, m.2.length ≤ limit) :
    ∃ ev L' a l', L.step mv = some (ev, L') ∧ l.Step 64 a l' ∧ Line.Shows ev l a l' ∧
      L'.HasLink limit l' := by
  have hnothing : ∃ ev L' a l', some (Line.Event.nothing, L) = some (ev, L') ∧ l.Step 64 a l' ∧
      Line.Shows ev l a l' ∧ L'.HasLink limit l' :=
    ⟨_, L, _, l, rfl, .idle, .silent rfl, h⟩
  -- a move that is not possible does nothing
  cases mv with
  | call act =>
    rw [Line.step]
    split
    · next hext =>
      obtain ⟨d, s, l₁, a, hs, hstep, hshows, hlink⟩ := h.call hext hfits
      exact ⟨_, _, a, _, by rw [hs]; rfl, hstep, hshows, hlink⟩
    · exact hnothing
  | write i =>
    rw [Line.step]
    split
    · exact hnothing
    · next k bytes hi =>
      obtain ⟨l', hstep, hprepared, hlink⟩ := h.wrote hi
      refine ⟨_, _, _, l', rfl, hstep,
        ⟨rfl, rfl, hprepared, fun j hj => ?_, fun d hd => ?_⟩, hlink⟩
      · cases hj
        rfl
      · cases hd
  | lose =>
    rw [Line.step]
    split
    · exact hnothing
    · next hwire =>
      obtain ⟨k, ks, m, hdata, -, -, -, -, -, hpop⟩ := h.arrive hwire
      exact ⟨_, _, _, _, rfl, .lose hdata, .silent rfl, hpop⟩
  | damage bytes =>
    rw [Line.step]
    split
    · exact hnothing
    · next hwire =>
      obtain ⟨o, L', hget, hdamaged⟩ := h.damaged hwire bytes
      rw [hget]
      simp only [Option.bind_eq_bind, Option.bind_some]
      split
      · next hcrc =>
        obtain ⟨a, l', hstep, hshows, hlink⟩ := hdamaged hcrc.1 hcrc.2
        exact ⟨_, L', a, l', rfl, hstep, hshows, hlink⟩
      · exact hnothing
  | get =>
    rw [Line.step]
    split
    · obtain ⟨o, L', hget, hshows, hlink⟩ := h.starved
      exact ⟨_, L', _, l, by rw [hget]; rfl, .idle, hshows, hlink⟩
    · next hwire =>
      obtain ⟨o, L', a, l', hget, hstep, hshows, hlink⟩ := h.got hwire
      exact ⟨_, L', a, l', by rw [hget]; rfl, hstep, hshows, hlink⟩
  | receive logging =>
    rw [Line.step]
    split
    · exact hnothing
    · next hreplies => exact h.receive logging hreplies
  | loseReply =>
    rw [Line.step]
    split
    · exact hnothing
    · next hreplies =>
      obtain ⟨r, rs, hr, -, hpop⟩ := h.pop hreplies
      exact ⟨_, _, _, _, rfl, .skip hr, .silent rfl, hpop⟩

/-- Both ends are fresh. -/
theorem Line.hasLink_opened (s : Session) (st : Storage) :
    (Line.opened s st).HasLink st.payloadMaxSize .fresh where
  keeps := s.opened_keeps
  prepared := rfl
  payloadMaxSize := rfl
  fits m hm := by cases hm
  numbers := rfl
  pending p hp := by cases hp
  wire := .nil
  ok := st.create_ok
  between := (Begins.created st).spec.2.1
  expected := rfl
  replies := .nil
  loop := ⟨.fresh, rfl, rfl⟩

end

/-! ## Whole runs -/

/-- The link after steps that show `evs`. -/
structure Line.Records [Build] (limit : ℕ) (evs : List Line.Event) (L : Line)
    (l : Link Message) : Prop where
  link : L.HasLink limit l
  accepted : l.accepted = Line.accepted evs
  delivered : l.delivered = Line.delivered evs
  prepared : l.prepared = Line.prepareds evs
  inv : Line.InTime evs → l.Inv 62

section

variable {limit : ℕ} {evs : List Line.Event} {ev : Line.Event}

/-- **One more step.** -/
theorem Line.Records.step [Build] {L L' : Line} {l : Link Message} {mv : Move}
    (h : Line.Records limit evs L l) (hfits : ∀ m ∈ mv.message, m.2.length ≤ limit)
    (hs : L.step mv = some (ev, L')) :
    ∃ l', Line.Records limit (evs ++ [ev]) L' l' ∧
      (Line.InTime evs → ∀ d, ev = .updated d true →
        d.action = .handleAck (seqOf (Line.prepareds evs - 1)) ∧ 0 < Line.prepareds evs ∧
          Line.delivered evs = (Line.accepted evs).take (Line.prepareds evs)) := by
  obtain ⟨ev', L₁, a, l', hs', hstep, hshows, hlink⟩ := Line.step_refines h.link hfits
  obtain ⟨rfl, rfl⟩ := Prod.mk.inj (Option.some.inj (hs.symm.trans hs'))
  refine ⟨l', ⟨hlink, ?_, ?_, ?_, fun htime => ?_⟩, fun htime d hd => ?_⟩
  · rw [hstep.accepted_eq, h.accepted, Line.accepted_concat, hshows.accepted]
  · rw [hstep.delivered_eq, h.delivered, Line.delivered_concat, hshows.delivered]
  · rw [hshows.prepared, h.prepared, Line.prepareds_concat]
  · refine hstep.inv (by decide) (by decide) (h.inv htime.of_append) fun k hk => ?_
    obtain rfl := hshows.wrote k hk
    have := htime evs k [] rfl
    rw [h.prepared]
    omega
  · obtain ⟨rfl, hact⟩ := hshows.taken d hd
    obtain ⟨hpos, hlen⟩ := hstep.taken (by decide) (h.inv htime)
    have htake := (h.inv htime).delivered
    rw [hlen, h.prepared, h.accepted, h.delivered] at htake
    rw [h.prepared] at hact hpos
    exact ⟨hact, hpos, htake.symm⟩

end

/-- **Late retransmissions are harmless.** An opened session sends to a new controller messages of
at most its maximum size; its frames are written in any order, the wire and the channel of the
replies lose what they like, and frames are damaged. Every run exists. If no message is written
after 62 or more later ones have been prepared, the messages delivered are the first ones passed to
`Send`, in order; and whenever `HandleAck` takes an ACK, it is the one of the message prepared last,
and all the messages prepared have been delivered. -/
theorem late_writes_harmless [Build] (s : Session) (st : Storage) (moves : List Move)
    (hfits : ∀ mv ∈ moves, ∀ m ∈ mv.message, m.2.length ≤ st.payloadMaxSize) :
    ∃ evs L, (Line.opened s st).run moves = some (evs, L) ∧
      (Line.InTime evs → Line.delivered evs <+: Line.accepted evs ∧
        ∀ pre d post, evs = pre ++ .updated d true :: post →
          d.action = .handleAck (seqOf (Line.prepareds pre - 1)) ∧ 0 < Line.prepareds pre ∧
            Line.delivered pre = (Line.accepted pre).take (Line.prepareds pre)) := by
  have hstart : ∃ l, Line.Records st.payloadMaxSize [] (Line.opened s st) l :=
    ⟨.fresh, Line.hasLink_opened s st, rfl, rfl, rfl, fun _ => Link.inv_fresh 62⟩
  obtain ⟨evs, L, hrun, l, hrec⟩ :=
    Runs.run_total (P := fun evs L => ∃ l, Line.Records st.payloadMaxSize evs L l)
      (fun {evs L mv} h hmv => by
        obtain ⟨l, h⟩ := h
        obtain ⟨ev, L', -, -, hs, -, -, -⟩ := Line.step_refines h.link hmv
        obtain ⟨l', h', -⟩ := h.step hmv hs
        exact ⟨ev, L', hs, l', h'⟩) hstart hfits
  refine ⟨evs, L, hrun, fun htime => ⟨?_, ?_⟩⟩
  · have hpre := (hrec.inv htime).inOrder
    rwa [hrec.delivered, hrec.accepted] at hpre
  · rintro pre d post rfl
    obtain ⟨mv, L₁, L₂, hmv, ⟨l, h⟩, hs⟩ :=
      Runs.run_at (P := fun evs L => ∃ l, Line.Records st.payloadMaxSize evs L l)
        (fun {evs L mv ev L'} h hmv hs => by
          obtain ⟨l, h⟩ := h
          obtain ⟨l', h', -⟩ := h.step hmv hs
          exact ⟨l', h'⟩) hstart hfits hrun
    obtain ⟨-, -, htaken⟩ := h.step hmv hs
    exact htaken htime.of_append d rfl

/-- The frame of the first message is written again after that of the second. -/
theorem late_writes_harmless_two :
    letI : Build := build32
    let s : Session := ⟨0, 0, false, none, 100, 3, 0, false, [], none⟩
    let moves : List Move :=
      [.call (.send 1 [7]), .call .resend, .write 0, .get, .receive false, .call (.send 2 [9]),
        .write 1, .write 0, .get, .get, .receive false, .receive false]
    ∃ evs L, (Line.opened s (.zeroed 4 (by decide))).run moves = some (evs, L) ∧
      Line.InTime evs ∧ Line.delivered evs <+: Line.accepted evs := by
  let _ : Build := build32
  intro s moves
  obtain ⟨evs, L, hrun, hharmless⟩ :=
    late_writes_harmless s (.zeroed 4 (by decide)) moves (by decide)
  have htwo : ((Line.opened s (.zeroed 4 (by decide))).run moves).map
      (fun r => Line.prepareds r.1) = some 2 := by decide +kernel
  rw [hrun] at htwo
  have hcount : Line.prepareds evs = 2 := Option.some.inj htwo
  have htime : Line.InTime evs := .of_few (by rw [hcount]; decide)
  exact ⟨evs, L, hrun, htime, (hharmless htime).1⟩

/-- **A message longer than the maximum** whose bytes are a frame: get drops its header and leaves
the payload on the wire, the next call delivers it as a message that nobody sent and acknowledges
it, and `HandleAck` takes the ACK. -/
theorem oversize_sends_phantom :
    letI : Build := build32
    let s : Session := ⟨0, 0, false, none, 100, 3, 0, false, [], none⟩
    let phantom : List UInt8 := (dataFrame 2 0 []).encode
    ∃ evs L, (Line.opened s (.zeroed 4 (by decide))).run
        [.call (.send 1 phantom), .write 0, .get, .get, .receive false] = some (evs, L) ∧
      Line.InTime evs ∧ Line.accepted evs = [(1, phantom)] ∧ Line.delivered evs = [(2, [])] ∧
      ¬ Line.delivered evs <+: Line.accepted evs ∧
      evs.getLast? = some (.updated ⟨.handleAck 0, none, none⟩ true) := by
  let _ : Build := build32
  intro s phantom
  let moves : List Move := [.call (.send 1 phantom), .write 0, .get, .get, .receive false]
  have hmessages : ((Line.opened s (.zeroed 4 (by decide))).run moves).map
      (fun r => (Line.prepareds r.1, Line.accepted r.1, Line.delivered r.1)) =
      some (1, [(1, phantom)], [(2, [])]) := by decide +kernel
  have hlast : ((Line.opened s (.zeroed 4 (by decide))).run moves).map (fun r => r.1.getLast?) =
      some (some (.updated ⟨.handleAck 0, none, none⟩ true)) := by decide +kernel
  obtain ⟨⟨evs, L⟩, hrun, hshows⟩ := Option.map_eq_some_iff.mp hmessages
  rw [hrun] at hlast
  obtain ⟨hcount, haccepted, hdelivered⟩ : Line.prepareds evs = 1 ∧
      Line.accepted evs = [(1, phantom)] ∧ Line.delivered evs = [(2, [])] := by simpa using hshows
  refine ⟨evs, L, hrun, .of_few (by rw [hcount]; decide), haccepted, hdelivered, ?_,
    Option.some.inj hlast⟩
  rw [haccepted, hdelivered]
  decide

end EspSerialSession

end HtcwFrameArq
