import HtcwFrameArq.Session

/-!
# Two resets

`frame_arq_reset` starts the numbers of one end over. Nothing in a frame tells the sessions
before and after apart, so between the resets of the two ends the frames of the new session
meet an `expected_rx_seq` of the old one. `resets_realign` says that the new session is exact
if the end that resets last acknowledges nothing in between; `resets_misalign` gives two runs
in which it does, one that loses a message and one that delivers it twice.
-/

namespace HtcwFrameArq

open Function StopAndWait

section

variable [Build] {S S' : System} {n n' : Net} {x z : Side} {evs evs' : List Event} {l : Link Msg}
  {act : Action} {ev : Event} {deed : Deed} {e : UInt8}

/-- `x` writes an ACK in a step. -/
def Event.Acks (x : Side) : Event → Prop
  | .called y o => y = x ∧ ∃ seq, o.written = (controlFrame faTypeAck seq).encode
  | .lost _ => False

/-- Between the resets: the direction from `x` carries a link of the new session, on which the
other end, which still expects `e`, has delivered nothing. -/
structure Deaf (S : System) (n : Net) (x : Side) (evs : List Event) (l : Link Msg) (e : UInt8) :
    Prop where
  net : S.HasNet n
  carries : Carries n x l
  inv : l.Inv
  expects : (n.arq x.other).expectedRxSeq = e
  accepted : l.accepted = HtcwFrameArq.accepted x evs
  delivered : l.delivered = []
  none : HtcwFrameArq.delivered x.other evs = []

omit [Build] in
/-- A reaction that is not an ACK delivers nothing. -/
theorem Arq.handle_unacked {a : Arq} {fr : Frame}
    (h : ∀ seq, (a.handle fr).reply ≠ some (controlFrame faTypeAck seq)) :
    (a.handle fr).ret ≤ 0 ∧ (a.handle fr).arq.expectedRxSeq = a.expectedRxSeq ∧
      ∀ g ∈ (a.handle fr).reply.toList, ¬ g.IsAck := by
  have hcases := a.handles fr
  generalize a.handle fr = r at hcases h
  cases hcases with
  | acked => exact ⟨Int.le_refl 0, rfl, by simp⟩
  | nacked => exact ⟨show resendNeededCode ≤ 0 by decide, rfl, by simp⟩
  | ignored => exact ⟨Int.le_refl 0, rfl, by simp⟩
  | delivered => exact absurd rfl (h _)
  | duplicate => exact absurd rfl (h _)
  | unexpected => exact ⟨Int.le_refl 0, rfl, by simpa using nack_not_isAck _⟩

omit [Build] in
/-- The end that is still to be reset receives a frame and does not acknowledge it. -/
theorem Carries.receiver_unacked (h : Carries n x l) {fr : Frame} {rest : List Frame}
    (hfly : n.flying x.other = fr :: rest)
    (hack : ∀ seq, ((n.arq x.other).handle fr).reply ≠ some (controlFrame faTypeAck seq)) :
    ∃ l', (l' = l ∨ l.Step l') ∧
      Carries (((n.pop x.other rest).set x.other ((n.arq x.other).handle fr).arq).send x.other
        ((n.arq x.other).handle fr).reply.toList) x l' ∧
      l'.accepted = l.accepted ∧ l'.delivered = l.delivered := by
  obtain ⟨-, -, hno⟩ := Arq.handle_unacked hack
  obtain ⟨l', hl', hcar, hacc, hdel⟩ := h.popUnread hfly
  exact ⟨l', hl', hcar.receiver_send _ _ hno, hacc, hdel⟩

/-- Only a DATA frame with sequence number 0 is on its way, and it is acknowledged only where
0 is expected or was expected last. -/
theorem Deaf.acked (h : Deaf S n x evs l e) {fr : Frame} {rest : List Frame} {seq : UInt8}
    (hfly : n.flying x.other = fr :: rest)
    (hreply : ((n.arq x.other).handle fr).reply = some (controlFrame faTypeAck seq)) :
    e = 0 ∨ e = 1 := by
  have hle : e ≤ 63 := by
    rw [← h.expects, ← h.net.arq x.other]
    exact (h.net.ok x.other).expectedRxSeq_le
  have hone : ∀ b : UInt8, b ≤ 63 → 0 = (b - 1) &&& faSeqMask → b = 1 :=
    byte_all (P := fun b => b ≤ 63 → 0 = (b - 1) &&& faSeqMask → b = 1) (by decide +kernel)
  have hreact : ((n.arq x.other).react (some (.frame fr))).reply =
      some (controlFrame faTypeAck seq) := hreply
  rcases Arq.react_reply hreact with
    ⟨g, hg, hdata, hseq, -⟩ | hnack
  · obtain rfl : fr = g := by simpa using hg
    obtain ⟨k, ks, hks, rfl, -⟩ := h.carries.popData hfly hdata
    -- nothing is delivered, so only message number 0 is accepted
    have hk : k = 0 := by
      have hwindow := h.inv.data_window (k := k) (by rw [hks]; exact List.mem_cons_self)
      simpa [h.delivered] using hwindow
    rw [faSeqOf_numbered, hk, seqOf_zero, h.expects] at hseq
    rcases hseq with hseq | hseq
    · exact Or.inl hseq.symm
    · exact Or.inr (hone e hle hseq)
  · have hack := ackOf_isAck seq
    rw [hnack] at hack
    exact absurd hack (nack_not_isAck _)

/-- A step of the end that was reset. -/
theorem Deaf.own (h : Deaf S n x evs l e) (hdeed : deed ≠ .restarted)
    (hdid : Did act ev x deed) (hstep : n.Step x deed n') (hnet : S'.HasNet n') :
    ∃ l', Deaf S' n' x (evs ++ [ev]) l' e := by
  have hacc := hdid.accepted_eq x
  have hdel := hdid.delivered_eq x.other
  rw [if_pos rfl] at hacc
  rw [if_neg (Side.other_ne x)] at hdel
  have hsame : n'.arq x.other = n.arq x.other := by
    cases hstep <;> simp [Net.send, Net.retain, Net.set, Net.pop]
  obtain ⟨l', hl', hcar, hacc', hdel'⟩ :=
    h.carries.sender_step h.inv (h.net.retained_isData x) hstep hdeed
  refine ⟨l', hnet, hcar, h.inv.step_or_eq hl', by rw [hsame]; exact h.expects, ?_,
    hdel'.trans h.delivered, ?_⟩
  · rw [hacc', h.accepted, accepted_concat, hacc]
  · rw [delivered_concat, h.none, hdel]
    rfl

/-- A step of the end that is still to be reset: it writes an ACK, where it expects 0 or 1,
or it delivers nothing. -/
theorem Deaf.others (h : Deaf S n x evs l e) (hdeed : deed ≠ .restarted)
    (hdid : Did act ev x.other deed) (hstep : n.Step x.other deed n') (hnet : S'.HasNet n') :
    (ev.Acks x.other ∧ (e = 0 ∨ e = 1)) ∨ ∃ l', Deaf S' n' x (evs ++ [ev]) l' e := by
  have hacc := hdid.accepted_eq x
  have hdel := hdid.delivered_eq x.other
  rw [if_neg (Side.ne_other x)] at hacc
  rw [if_pos rfl] at hdel
  -- where nothing is delivered and the number expected stays, the end stays deaf
  have hgo {l' : Link Msg} (hl' : l' = l ∨ l.Step l') (hcar : Carries n' x l')
      (hacc' : l'.accepted = l.accepted) (hdel' : l'.delivered = l.delivered)
      (hquiet : deed.delivered? = Option.none)
      (hsame : (n'.arq x.other).expectedRxSeq = (n.arq x.other).expectedRxSeq) :
      ∃ l', Deaf S' n' x (evs ++ [ev]) l' e := by
    refine ⟨l', hnet, hcar, h.inv.step_or_eq hl', hsame.trans h.expects, ?_,
      hdel'.trans h.delivered, ?_⟩
    · rw [hacc', h.accepted, accepted_concat, hacc]
      exact (List.append_nil _).symm
    · rw [delivered_concat, h.none, hdel, hquiet]
      rfl
  by_cases hrec : ∃ fr r, deed = .received fr r
  · obtain ⟨fr, r, rfl⟩ := hrec
    cases hstep with
    | @received _ rest hfly =>
      by_cases hack : ∃ seq, ((n.arq x.other).handle fr).reply =
          some (controlFrame faTypeAck seq)
      · obtain ⟨seq, hreply⟩ := hack
        refine Or.inl ⟨?_, h.acked hfly hreply⟩
        cases hdid with
        | received hcall hret hout hw =>
          rw [hreply] at hw
          exact ⟨rfl, seq, hw⟩
      · have hack' := not_exists.mp hack
        obtain ⟨hret, hsame, -⟩ := Arq.handle_unacked hack'
        obtain ⟨l', hl', hcar, hacc', hdel'⟩ := h.carries.receiver_unacked hfly hack'
        refine Or.inr (hgo hl' hcar hacc' hdel' ?_ ?_)
        · simp [Deed.delivered?, Int.not_lt.mpr hret]
        · simpa [Net.send, Net.set, Net.pop] using hsame
  · have hrec' : ∀ fr r, deed ≠ .received fr r := by
      intro fr r heq
      exact hrec ⟨fr, r, heq⟩
    obtain ⟨l', hl', hcar, hacc', hdel', hquiet, hsame⟩ :=
      h.carries.receiver_other (h.net.retained_isData x.other) hstep hdeed hrec'
    exact Or.inr (hgo hl' hcar hacc' hdel' hquiet hsame)

/-- **A step between the resets**: the end that is still to be reset writes an ACK, where it
expects 0 or 1, or it goes on delivering nothing. -/
theorem Deaf.step (h : Deaf S n x evs l e) (hno : ∀ z, act ≠ .reset z)
    (hs : S.step act = some (ev, S')) :
    (ev.Acks x.other ∧ (e = 0 ∨ e = 1)) ∨ ∃ n' l', Deaf S' n' x (evs ++ [ev]) l' e := by
  obtain ⟨z, deed, n', hdid, hstep, hnet⟩ := System.step_refines h.net hs
  have hdeed : deed ≠ .restarted := by
    rintro rfl
    cases hdid
    exact hno z rfl
  rcases eq_or_ne z x with rfl | hne
  · exact Or.inr ⟨n', h.own hdeed hdid hstep hnet⟩
  · obtain rfl := Side.eq_other_of_ne hne
    exact (h.others hdeed hdid hstep hnet).imp_right fun h' => ⟨n', h'⟩

/-- A run between the resets, if the other end writes no ACK or expects neither 0 nor 1. -/
theorem Deaf.run {acts : List Action} (h : Deaf S n x evs l e)
    (hno : ∀ act ∈ acts, ∀ z, act ≠ .reset z) (hrun : S.run acts = some (evs', S'))
    (hquiet : (∀ ev ∈ evs', ¬ ev.Acks x.other) ∨ (e ≠ 0 ∧ e ≠ 1)) :
    ∃ n' l', Deaf S' n' x (evs ++ evs') l' e := by
  induction acts generalizing S n evs l evs' with
  | nil =>
    cases hrun
    exact ⟨n, l, by simpa using h⟩
  | cons act acts ih =>
    obtain ⟨ev, S₁, evs₁, hs, hrun', rfl⟩ := Runs.run_cons_eq_some hrun
    have hrest : (∀ ev ∈ evs₁, ¬ ev.Acks x.other) ∨ (e ≠ 0 ∧ e ≠ 1) :=
      hquiet.imp_left fun hq ev₁ hev₁ => hq ev₁ (List.mem_cons_of_mem ev hev₁)
    rcases h.step (hno act List.mem_cons_self) hs with ⟨hacks, he⟩ | ⟨n₁, l₁, h₁⟩
    · rcases hquiet with hq | ⟨hne₀, hne₁⟩
      · exact absurd hacks (hq ev List.mem_cons_self)
      · exact absurd he (not_or.mpr ⟨hne₀, hne₁⟩)
    · obtain ⟨n', l', h'⟩ :=
        ih h₁ (fun a ha => hno a (List.mem_cons_of_mem act ha)) hrun' hrest
      exact ⟨n', l', by simpa using h'⟩

/-- A reset, as a step of the system. -/
theorem System.HasNet.step_reset (h : S.HasNet n) (hs : S.step (.reset x) = some (ev, S')) :
    Did (.reset x) ev x .restarted ∧ S'.HasNet (n.set x .fresh) := by
  simp only [System.step] at hs
  obtain ⟨o, hcall, rfl⟩ := Option.map_called hs
  exact h.reset hcall

/-- The reset of `x` begins a session, if nothing is on its way. -/
theorem System.HasNet.deaf (h : S.HasNet n) (hempty : ∀ y, S.queue y = [])
    (hs : S.step (.reset x) = some (ev, S')) :
    Deaf S' (n.set x .fresh) x [ev] Link.fresh (S.frame x.other).expectedRxSeq := by
  obtain ⟨hdid, hnet⟩ := h.step_reset hs
  have hfly (y : Side) : n.flying y = [] := by
    have hq := h.queue y
    rw [hempty] at hq
    exact List.map_eq_nil_iff.mp hq.symm
  have hacc := hdid.accepted_eq x
  have hdel := hdid.delivered_eq x.other
  refine ⟨hnet, carries_fresh (by simp [Net.set]) ?_ ?_, Link.inv_fresh, ?_, ?_, rfl, ?_⟩
  · simp [Net.set, hfly]
  · simp [Net.set, hfly]
  · have harq : (S.frame x.other).expectedRxSeq = (n.arq x.other).expectedRxSeq :=
      congrArg Arq.expectedRxSeq (h.arq x.other)
    simp [Net.set, harq]
  · simp [HtcwFrameArq.accepted, hacc, Deed.accepted?, Link.fresh]
  · simp [HtcwFrameArq.delivered, hdel]

/-- The reset of the other end makes it expect what the session sends. -/
theorem Deaf.reset (h : Deaf S n x evs l e) (hs : S.step (.reset x.other) = some (ev, S')) :
    ∃ n', Linked S' n' x (evs ++ [ev]) l := by
  obtain ⟨hdid, hnet⟩ := h.net.step_reset hs
  have hacc := hdid.accepted_eq x
  have hdel := hdid.delivered_eq x.other
  have hcar := h.carries.receiver_send .fresh [] (by simp)
  refine ⟨_, hnet, ⟨hcar.waiting, hcar.tx, hcar.retained, h.carries.data, h.carries.acks⟩, ?_,
    h.inv, ?_, ?_⟩
  · simp [Expects, Net.set, h.delivered, Arq.fresh]
  · rw [h.accepted, accepted_concat, hacc]
    simp
  · rw [h.delivered, delivered_concat, h.none, hdel]
    simp [Deed.delivered?]

/-- **Two resets.** Let two endpoints run without a reset, their puts within both maxima
(`System.Sendable`), to a state with empty channels, let `x` be reset there, and let the other
end be reset at some later step. If the other end wrote
no ACK between the two resets, which is so if it expected neither 0 nor 1 at the first, then
whenever `x` does not wait for an ACK after the second reset, the messages that `x` accepted
since its own reset are delivered, once and in order. -/
theorem resets_realign (s : Side → Storage) {acts₀ acts₁ acts₂ : List Action}
    {evs₀ evs₁ evs₂ : List Event} {S₀ S₁ S₂ : System}
    (hno : ∀ act ∈ acts₀ ++ acts₁ ++ acts₂, ∀ z, act ≠ .reset z)
    (h₀ : (System.create s).run acts₀ = some (evs₀, S₀)) (hempty : ∀ y, S₀.queue y = [])
    (h₁ : S₀.run (.reset x :: acts₁) = some (evs₁, S₁))
    (hquiet : (∀ ev ∈ evs₁, ¬ ev.Acks x.other) ∨
      ((S₀.frame x.other).expectedRxSeq ≠ 0 ∧ (S₀.frame x.other).expectedRxSeq ≠ 1))
    (h₂ : S₁.run (.reset x.other :: acts₂) = some (evs₂, S₂))
    (hidle : (S₂.frame x).awaitingAck = false) :
    delivered x.other (evs₁ ++ evs₂) = accepted x (evs₁ ++ evs₂) := by
  have hno₀ : ∀ act ∈ acts₀, ∀ z, act ≠ .reset z := by
    intro act ha
    exact hno act (by simp [ha])
  have hno₁ : ∀ act ∈ acts₁, ∀ z, act ≠ .reset z := by
    intro act ha
    exact hno act (by simp [ha])
  have hno₂ : ∀ act ∈ acts₂, ∀ z, act ≠ .reset z := by
    intro act ha
    exact hno act (by simp [ha])
  obtain ⟨n₀, l₀, hlinked⟩ := linked_of_run s hno₀ h₀ x
  -- up to the second reset
  obtain ⟨ev₁, T₁, rest₁, hs₁, hrun₁, rfl⟩ := Runs.run_cons_eq_some h₁
  have hquiet' : (∀ ev ∈ rest₁, ¬ ev.Acks x.other) ∨
      ((S₀.frame x.other).expectedRxSeq ≠ 0 ∧ (S₀.frame x.other).expectedRxSeq ≠ 1) :=
    hquiet.imp_left fun hq ev hev => hq ev (List.mem_cons_of_mem ev₁ hev)
  obtain ⟨n₁, l₁, hdeaf⟩ := (hlinked.net.deaf hempty hs₁).run hno₁ hrun₁ hquiet'
  -- from the second reset on
  obtain ⟨ev₂, T₂, rest₂, hs₂, hrun₂, rfl⟩ := Runs.run_cons_eq_some h₂
  obtain ⟨n₂, hstart⟩ := hdeaf.reset hs₂
  obtain ⟨n, l, hend⟩ := hstart.run hno₂ hrun₂
  have hwait : l.awaiting = false := by
    rw [← hend.carries.waiting, ← hend.net.arq x]
    exact hidle
  have hdone := hend.inv.complete hwait
  rw [hend.accepted, hend.delivered] at hdone
  simpa using hdone

/-- Three runs, one after the other, and what holds of the events and states. -/
theorem System.run_stages (S : System) (acts₀ acts₁ acts₂ : List Action)
    (P : System → List Event → List Event → System → Prop)
    [∀ S₀ evs₁ evs₂ S₂, Decidable (P S₀ evs₁ evs₂ S₂)]
    (h : ((S.run acts₀).bind fun r₀ => (r₀.2.run acts₁).bind fun r₁ =>
      (r₁.2.run acts₂).map fun r₂ => decide (P r₀.2 r₁.1 r₂.1 r₂.2)) = some true) :
    ∃ evs₀ S₀ evs₁ S₁ evs₂ S₂, S.run acts₀ = some (evs₀, S₀) ∧ S₀.run acts₁ = some (evs₁, S₁) ∧
      S₁.run acts₂ = some (evs₂, S₂) ∧ P S₀ evs₁ evs₂ S₂ := by
  obtain ⟨⟨evs₀, S₀⟩, h₀, h⟩ := Option.bind_eq_some_iff.mp h
  obtain ⟨⟨evs₁, S₁⟩, h₁, h⟩ := Option.bind_eq_some_iff.mp h
  obtain ⟨⟨evs₂, S₂⟩, h₂, h⟩ := Option.map_eq_some_iff.mp h
  exact ⟨evs₀, S₀, evs₁, S₁, evs₂, S₂, h₀, h₁, h₂, of_decide_eq_true h⟩

end

theorem resets_realign_three :
    letI : Build := build32
    let s : Side → Storage := fun _ => Storage.zeroed 1 (by decide)
    ∃ evs₀ S₀ evs₁ S₁ evs₂ S₂,
      (System.create s).run [.put .a 1 [7], .get .b, .get .a, .put .a 1 [7], .get .b, .get .a] =
        some (evs₀, S₀) ∧
      S₀.run [.reset .a, .put .a 2 [8], .get .b] = some (evs₁, S₁) ∧
      S₁.run [.reset .b, .resend .a, .get .b, .get .a, .get .a] = some (evs₂, S₂) ∧
      delivered .b (evs₁ ++ evs₂) = accepted .a (evs₁ ++ evs₂) := by
  let _ : Build := build32
  intro s
  obtain ⟨evs₀, S₀, evs₁, S₁, evs₂, S₂, h₀, h₁, h₂, hqa, hqb, hne₀, hne₁, hidle⟩ :=
    System.run_stages (System.create s)
      [.put .a 1 [7], .get .b, .get .a, .put .a 1 [7], .get .b, .get .a]
      [.reset .a, .put .a 2 [8], .get .b] [.reset .b, .resend .a, .get .b, .get .a, .get .a]
      (fun S₀ _ _ S₂ => S₀.queue .a = [] ∧ S₀.queue .b = [] ∧ (S₀.frame .b).expectedRxSeq ≠ 0 ∧
        (S₀.frame .b).expectedRxSeq ≠ 1 ∧ (S₂.frame .a).awaitingAck = false)
      (by decide +kernel)
  have hempty : ∀ y, S₀.queue y = [] := by
    intro y
    cases y
    · exact hqa
    · exact hqb
  exact ⟨evs₀, S₀, evs₁, S₁, evs₂, S₂, h₀, h₁, h₂,
    resets_realign s (x := .a) (by simp) h₀ hempty h₁ (Or.inr ⟨hne₀, hne₁⟩) h₂ hidle⟩

/-- **Two resets are not enough.** An ACK that the other end writes with its old counter, of
a frame that it takes for its last delivery, loses the first message of the session; a
delivery with the old counter repeats it. -/
theorem resets_misalign :
    letI : Build := build32
    let s : Side → Storage := fun _ => Storage.zeroed 1 (by decide)
    (∃ evs₀ S₀ evs₁ S₁ evs₂ S₂,
      (System.create s).run [.put .a 1 [7], .get .b, .get .a] = some (evs₀, S₀) ∧
      S₀.run [.reset .a, .put .a 2 [8], .get .b, .get .a] = some (evs₁, S₁) ∧
      S₁.run [.reset .b] = some (evs₂, S₂) ∧
      S₀.queue .a = [] ∧ S₀.queue .b = [] ∧ (S₂.frame .a).awaitingAck = false ∧
      accepted .a (evs₁ ++ evs₂) = [(2, [8])] ∧ delivered .b (evs₁ ++ evs₂) = []) ∧
    ∃ evs₀ S₀ evs₁ S₁ evs₂ S₂,
      (System.create s).run [] = some (evs₀, S₀) ∧
      S₀.run [.reset .a, .put .a 2 [8], .get .b, .lose .a] = some (evs₁, S₁) ∧
      S₁.run [.reset .b, .resend .a, .get .b, .get .a] = some (evs₂, S₂) ∧
      S₀.queue .a = [] ∧ S₀.queue .b = [] ∧ (S₂.frame .a).awaitingAck = false ∧
      accepted .a (evs₁ ++ evs₂) = [(2, [8])] ∧
      delivered .b (evs₁ ++ evs₂) = [(2, [8]), (2, [8])] := by
  let _ : Build := build32
  intro s
  refine ⟨?_, ?_⟩
  · exact System.run_stages (System.create s)
      [.put .a 1 [7], .get .b, .get .a] [.reset .a, .put .a 2 [8], .get .b, .get .a] [.reset .b]
      (fun S₀ evs₁ evs₂ S₂ => S₀.queue .a = [] ∧ S₀.queue .b = [] ∧
        (S₂.frame .a).awaitingAck = false ∧ accepted .a (evs₁ ++ evs₂) = [(2, [8])] ∧
        delivered .b (evs₁ ++ evs₂) = []) (by decide +kernel)
  · exact System.run_stages (System.create s)
      [] [.reset .a, .put .a 2 [8], .get .b, .lose .a] [.reset .b, .resend .a, .get .b, .get .a]
      (fun S₀ evs₁ evs₂ S₂ => S₀.queue .a = [] ∧ S₀.queue .b = [] ∧
        (S₂.frame .a).awaitingAck = false ∧ accepted .a (evs₁ ++ evs₂) = [(2, [8])] ∧
        delivered .b (evs₁ ++ evs₂) = [(2, [8]), (2, [8])]) (by decide +kernel)

end HtcwFrameArq
