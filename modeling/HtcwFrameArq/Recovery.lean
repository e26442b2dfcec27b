import HtcwFrameArq.Session

/-!
# Recovery

Once nothing is lost any more, a resend brings a direction of the link home. While `x` waits,
the outstanding frame or its ACK is on its way (`Homing`, `Homed`), at a position that drops
with every get at the end of its channel and that nothing else moves: whatever else is sent
goes behind it. `recovers` puts the two halves together.
-/

namespace HtcwFrameArq

open Function StopAndWait

/-- An action after which the recovery of `x` goes on: no loss, no damage, no reset, and no
new message of `x`. -/
def Action.Harmless (x : Side) : Action → Prop
  | .put z _ _ => z ≠ x
  | .resend _ => True
  | .get _ => True
  | .lose _ => False
  | .damage _ _ => False
  | .reset _ => False

/-- The number of gets in a deed. -/
def Deed.gets : Deed → ℕ
  | .received _ _ => 1
  | .empty => 1
  | _ => 0

/-- The ACK that `x` waits for. -/
def Net.awaited (n : Net) (x : Side) : Frame := controlFrame faTypeAck (n.arq x).txSeq

/-- While `x` waits, its ACK is under way, or its frame is among the next `r` frames that the
other end gets. -/
def Homing (n : Net) (x : Side) (r : ℕ) : Prop :=
  (n.arq x).awaitingAck = true →
    n.awaited x ∈ n.flying x ∨ n.retained x ∈ (n.flying x.other).take r

/-- While `x` waits, its ACK is among the next `r` frames that it gets. -/
def Homed (n : Net) (x : Side) (r : ℕ) : Prop :=
  (n.arq x).awaitingAck = true → n.awaited x ∈ (n.flying x).take r

section

variable {n n' : Net} {x z : Side} {l : Link Msg} {deed : Deed} {r : ℕ}

/-- What is sent goes behind what is on its way. -/
theorem mem_take_append {α : Type} {a : α} {as : List α} {r : ℕ} (h : a ∈ as.take r)
    (bs : List α) : a ∈ (as ++ bs).take r := by
  rw [List.take_append]
  exact List.mem_append_left _ h

/-- A reaction that goes on waiting does not change what is waited for, and the frame it
reacted to was not that ACK. -/
theorem Arq.handle_waiting {a : Arq} {fr : Frame} (hseq : a.txSeq ≤ 63)
    (hw : (a.handle fr).arq.awaitingAck = true) :
    a.awaitingAck = true ∧ (a.handle fr).arq.txSeq = a.txSeq ∧
      fr ≠ controlFrame faTypeAck a.txSeq := by
  obtain ⟨htx, hwait, -, -⟩ := a.keeps_react (some (.frame fr))
  refine ⟨hwait hw, htx, ?_⟩
  rintro rfl
  obtain ⟨-, -, hack⟩ := Arq.handle_ack (a := a) (ackOf_isAck a.txSeq)
  have hsame : faSeqOf (controlFrame faTypeAck a.txSeq).seqByte = a.txSeq :=
    faSeqOf_faSeqByte (by decide) hseq
  rw [hack, hsame] at hw
  simp at hw

/-- The other end answers the outstanding frame of `x` with the ACK that `x` waits for. -/
theorem Carries.awaited_reply (h : Carries n x l) (hinv : l.Inv) (hexp : Expects n x l)
    (hwait : (n.arq x).awaitingAck = true) (hdata : (n.retained x).IsData) {rest : List Frame}
    (hfly : n.flying x.other = n.retained x :: rest) :
    ((n.arq x.other).handle (n.retained x)).reply = some (n.awaited x) := by
  have hexp' : (n.arq x.other).expectedRxSeq = seqOf l.delivered.length := hexp
  have hwait' : l.awaiting = true := h.waiting.symm.trans hwait
  obtain ⟨j, hj⟩ := hinv.exists_last hwait'
  have hseq : faSeqOf (n.retained x).seqByte = seqOf j := by
    rw [h.retained hwait' j hj, faSeqOf_numbered]
  have hack : controlFrame faTypeAck (seqOf j) = n.awaited x := by
    rw [Net.awaited, h.tx_last hj]
  obtain ⟨k, ks, hks, hk, -⟩ := h.popData hfly hdata
  have hsame : seqOf k = seqOf j := by rw [← hseq, hk, faSeqOf_numbered]
  rcases hinv.data_window (k := k) (by rw [hks]; exact List.mem_cons_self) with hnext | hlast
  · rw [Arq.handle_delivered hdata (by rw [hseq, hexp', ← hnext, hsame]), hseq, hack]
  · have hprev : seqOf j = (seqOf l.delivered.length - 1) &&& faSeqMask := by
      rw [← hlast, seqOf_pred, hsame]
    have hne : seqOf j ≠ seqOf l.delivered.length := by
      rw [← hlast, ← hsame]
      exact seqOf_succ_ne k
    rw [Arq.handle_duplicate hdata (by rw [hseq, hexp']; exact hne)
      (by rw [hseq, hexp']; exact hprev), hseq, hack]

/-! ## The frame gets home -/

/-- A step of `x` itself keeps the frame and the ACK under way. -/
theorem Homing.own (h : Homing n x r) (hseq : (n.arq x).txSeq ≤ 63) (hs : n.Step x deed n')
    (hacc : ∀ m, deed ≠ .accepted m) (hdam : deed ≠ .damaged) (hlost : deed ≠ .lost)
    (hres : deed ≠ .restarted) : Homing n' x r := by
  cases hs with
  | accepted => exact absurd rfl (hacc _)
  | nothing => exact h
  | resent hwait =>
    intro hw
    rcases h hwait with hack | hdata
    · exact Or.inl (by simpa [Net.send, Net.set, Net.awaited, Arq.resend] using hack)
    · apply Or.inr
      have := mem_take_append hdata [n.retained x]
      simpa [Net.send, Net.set] using this
  | @received fr rest hfly =>
    intro hw
    have hw' : ((n.arq x).handle fr).arq.awaitingAck = true := by
      simpa [Net.send, Net.set] using hw
    obtain ⟨hwait, htx, hne⟩ := Arq.handle_waiting hseq hw'
    -- the frame it takes is not its ACK, for it still waits
    rcases h hwait with hack | hdata
    · rw [hfly] at hack
      apply Or.inl
      rcases List.mem_cons.mp hack with hhead | hmem
      · exact absurd hhead.symm hne
      · simpa [Net.send, Net.set, Net.pop, Net.awaited, htx] using hmem
    · apply Or.inr
      have := mem_take_append hdata ((n.arq x).handle fr).reply.toList
      simpa [Net.send, Net.set, Net.pop] using this
  | empty => exact h
  | damaged => exact absurd rfl hdam
  | lost => exact absurd rfl hlost
  | restarted => exact absurd rfl hres

/-- A step of the other end keeps them under way, and a get brings the frame closer. -/
theorem Homing.others (h : Homing n x (r + deed.gets)) (hcar : Carries n x l) (hinv : l.Inv)
    (hexp : Expects n x l) (hdata : (n.arq x).awaitingAck = true → (n.retained x).IsData)
    (hs : n.Step x.other deed n') (hdam : deed ≠ .damaged) (hlost : deed ≠ .lost)
    (hres : deed ≠ .restarted) : Homing n' x r := by
  cases hs with
  | accepted =>
    intro hw
    rcases h (by simpa [Net.send, Net.retain, Net.set] using hw) with hack | hfr
    · apply Or.inl
      simpa [Net.send, Net.retain, Net.set, Net.awaited] using Or.inl hack
    · apply Or.inr
      simpa [Net.send, Net.retain, Net.set, Deed.gets] using hfr
  | nothing => exact h
  | resent =>
    intro hw
    rcases h (by simpa [Net.send, Net.set] using hw) with hack | hfr
    · apply Or.inl
      simpa [Net.send, Net.set, Net.awaited] using Or.inl hack
    · apply Or.inr
      simpa [Net.send, Net.set, Deed.gets] using hfr
  | @received fr rest hfly =>
    intro hw
    have hw' : (n.arq x).awaitingAck = true := by simpa [Net.send, Net.set, Net.pop] using hw
    rcases h hw' with hack | hfr
    · apply Or.inl
      simpa [Net.send, Net.set, Net.pop, Net.awaited] using Or.inl hack
    · rw [hfly] at hfr
      rcases List.mem_cons.mp hfr with rfl | hmem
      · -- the frame is at the head: the ACK is sent
        have hreply := hcar.awaited_reply hinv hexp hw' (hdata hw') hfly
        apply Or.inl
        rw [hreply]
        simp [Net.send, Net.set, Net.pop, Net.awaited]
      · apply Or.inr
        simpa [Net.send, Net.set, Net.pop] using hmem
  | empty hfly =>
    intro hw
    rcases h hw with hack | hfr
    · exact Or.inl hack
    · rw [hfly] at hfr
      simp at hfr
  | damaged => exact absurd rfl hdam
  | lost => exact absurd rfl hlost
  | restarted => exact absurd rfl hres

/-! ## The ACK gets home -/

/-- A step of `x` itself keeps its ACK under way, and a get brings it closer. -/
theorem Homed.own (h : Homed n x (r + deed.gets)) (hseq : (n.arq x).txSeq ≤ 63)
    (hs : n.Step x deed n') (hacc : ∀ m, deed ≠ .accepted m) (hdam : deed ≠ .damaged)
    (hlost : deed ≠ .lost) (hres : deed ≠ .restarted) : Homed n' x r := by
  cases hs with
  | accepted => exact absurd rfl (hacc _)
  | nothing => exact h
  | resent hwait =>
    intro hw
    simpa [Net.send, Net.set, Net.awaited, Arq.resend, Deed.gets] using h hwait
  | @received fr rest hfly =>
    intro hw
    have hw' : ((n.arq x).handle fr).arq.awaitingAck = true := by
      simpa [Net.send, Net.set] using hw
    obtain ⟨hwait, htx, hne⟩ := Arq.handle_waiting hseq hw'
    have hack := h hwait
    rw [hfly] at hack
    -- the ACK at the head would have ended the wait
    rcases List.mem_cons.mp hack with hhead | hmem
    · exact absurd hhead.symm hne
    · simpa [Net.send, Net.set, Net.pop, Net.awaited, htx] using hmem
  | empty hfly =>
    intro hw
    have hack := h hw
    rw [hfly] at hack
    simp at hack
  | damaged => exact absurd rfl hdam
  | lost => exact absurd rfl hlost
  | restarted => exact absurd rfl hres

/-- A step of the other end keeps the ACK under way. -/
theorem Homed.others (h : Homed n x r) (hs : n.Step x.other deed n') (hdam : deed ≠ .damaged)
    (hlost : deed ≠ .lost) (hres : deed ≠ .restarted) : Homed n' x r := by
  cases hs with
  | @accepted cmd payload =>
    intro hw
    have hack := mem_take_append (h (by simpa [Net.send, Net.retain, Net.set] using hw))
      [dataFrame cmd (n.arq x.other).put.txSeq payload]
    simpa [Net.send, Net.retain, Net.set, Net.awaited] using hack
  | nothing => exact h
  | resent =>
    intro hw
    have hack := mem_take_append (h (by simpa [Net.send, Net.set] using hw))
      [n.retained x.other]
    simpa [Net.send, Net.set, Net.awaited] using hack
  | @received fr rest hfly =>
    intro hw
    have hack := mem_take_append (h (by simpa [Net.send, Net.set, Net.pop] using hw))
      ((n.arq x.other).handle fr).reply.toList
    simpa [Net.send, Net.set, Net.pop, Net.awaited] using hack
  | empty => exact h
  | damaged => exact absurd rfl hdam
  | lost => exact absurd rfl hlost
  | restarted => exact absurd rfl hres

end

/-! ## Runs -/

section

variable [Build] {S S' : System} {n : Net} {x : Side} {evs evs' : List Event} {l : Link Msg}
  {act : Action} {ev : Event} {z : Side} {deed : Deed}

/-- What a harmless action does. -/
theorem Did.harmless (h : Did act ev z deed) (hact : act.Harmless x) :
    (∀ m, z = x → deed ≠ .accepted m) ∧ deed ≠ .damaged ∧ deed ≠ .lost ∧
      deed ≠ .restarted ∧ (∀ y, act = .get y ↔ z = y ∧ deed.gets = 1) := by
  cases h with
  | accepted => exact ⟨fun _ hz => absurd hz hact, by simp, by simp, by simp, by simp [Deed.gets]⟩
  | refused => simp [Deed.gets]
  | resent => simp [Deed.gets]
  | nothingToResend => simp [Deed.gets]
  | received => simp [Deed.gets]
  | empty => simp [Deed.gets]
  | damaged => exact absurd hact id
  | lost => exact absurd hact id
  | restarted => exact absurd hact id

omit [Build] in
theorem Action.Harmless.not_reset (h : act.Harmless x) : ∀ z, act ≠ .reset z := by
  rintro z rfl
  exact h

/-- A get is the only action that a get of the same end counts. -/
theorem Did.count_gets (h : Did act ev z deed) (hact : act.Harmless x) (acts : List Action)
    (y : Side) : (act :: acts).count (.get y) =
      acts.count (.get y) + if z = y then deed.gets else 0 := by
  have hget := (h.harmless hact).2.2.2.2 y
  rw [List.count_cons]
  rcases eq_or_ne z y with rfl | hne
  · have hle : deed.gets = 1 ∨ deed.gets = 0 := by
      cases deed <;> simp [Deed.gets]
    rcases hle with hone | hzero
    · simp [hget.mpr ⟨rfl, hone⟩, hone]
    · have hno : act ≠ .get z := fun hg => by simp [hzero] at hget; exact hget hg
      simp [hno, hzero]
  · have hno : act ≠ .get y := by
      intro hg
      exact hne (hget.mp hg).1
    simp [hno, hne]

/-- **Counting down**: what holds at distance `r` plus the gets of a step holds at distance
`r` after it, so it holds at distance 0 once `y` has made as many gets. -/
theorem Linked.countdown {Q : Net → ℕ → Prop} {y : Side} {acts : List Action}
    (hQ : ∀ {S n evs l act ev z deed n' r}, Linked S n x evs l → act.Harmless x →
      Did act ev z deed → n.Step z deed n' → Q n (r + if z = y then deed.gets else 0) → Q n' r)
    (h : Linked S n x evs l) (hacts : ∀ act ∈ acts, act.Harmless x)
    (hrun : S.run acts = some (evs', S')) (hstart : Q n (acts.count (.get y))) :
    ∃ n' l', Linked S' n' x (evs ++ evs') l' ∧ Q n' 0 := by
  induction acts generalizing S n evs l evs' with
  | nil =>
    cases hrun
    exact ⟨n, l, by simpa using h, by simpa using hstart⟩
  | cons act acts ih =>
    obtain ⟨ev, S₁, evs₁, hs, hrun', rfl⟩ := Runs.run_cons_eq_some hrun
    have hact := hacts act List.mem_cons_self
    obtain ⟨z, deed, n₁, l₁, hdid, hstep, -, h₁⟩ := h.step hact.not_reset hs
    rw [hdid.count_gets hact] at hstart
    obtain ⟨n', l', h', hend⟩ := ih h₁ (fun a ha => hacts a (List.mem_cons_of_mem act ha)) hrun'
      (hQ h hact hdid hstep hstart)
    exact ⟨n', l', by simpa using h', hend⟩

/-- The frame comes closer with every get of the other end. -/
theorem Homing.step {n' : Net} {r : ℕ} (h : Linked S n x evs l) (hact : act.Harmless x)
    (hdid : Did act ev z deed) (hstep : n.Step z deed n')
    (hhome : Homing n x (r + if z = x.other then deed.gets else 0)) : Homing n' x r := by
  obtain ⟨hacc, hdam, hlost, hres, -⟩ := hdid.harmless hact
  rcases eq_or_ne z x with rfl | hne
  · rw [if_neg (Side.ne_other z), Nat.add_zero] at hhome
    have hseq : (n.arq z).txSeq ≤ 63 := h.net.arq z ▸ (h.net.ok z).txSeq_le
    exact hhome.own hseq hstep (fun m => hacc m rfl) hdam hlost hres
  · obtain rfl := Side.eq_other_of_ne hne
    rw [if_pos rfl] at hhome
    exact hhome.others h.carries h.inv h.expects (h.net.retained_isData x) hstep
      hdam hlost hres

/-- The ACK comes closer with every get of `x`. -/
theorem Homed.step {n' : Net} {r : ℕ} (h : Linked S n x evs l) (hact : act.Harmless x)
    (hdid : Did act ev z deed) (hstep : n.Step z deed n')
    (hhome : Homed n x (r + if z = x then deed.gets else 0)) : Homed n' x r := by
  obtain ⟨hacc, hdam, hlost, hres, -⟩ := hdid.harmless hact
  rcases eq_or_ne z x with rfl | hne
  · rw [if_pos rfl] at hhome
    have hseq : (n.arq z).txSeq ≤ 63 := h.net.arq z ▸ (h.net.ok z).txSeq_le
    exact hhome.own hseq hstep (fun m => hacc m rfl) hdam hlost hres
  · obtain rfl := Side.eq_other_of_ne hne
    rw [if_neg (Side.other_ne x), Nat.add_zero] at hhome
    exact hhome.others hstep hdam hlost hres

/-! ## The steps that are needed are possible -/

/-- Every call but put is possible at any time. -/
theorem System.HasNet.call_isSome (h : S.HasNet n) (x : Side) {c : Call}
    (hc : ∀ cmd payload, c ≠ .put cmd payload) (bytes : List UInt8) :
    ∃ o S', S.call x c bytes = some (o, S') := by
  obtain ⟨r, hr⟩ := perform_isSome (e := ⟨S.frame x, ⟨bytes.map some, [], []⟩⟩) (h.ok x) (c := c)
    fun cmd payload hput => absurd hput (hc cmd payload)
  have hexec := Endpoint.exec_of_perform hr
  exact ⟨_, _, by simp only [System.call, hexec, Option.bind_eq_bind, Option.bind_some]; rfl⟩

/-- `x` gets everything that is on its way to it. -/
def System.drain (S : System) (x : Side) : List Action :=
  List.replicate (S.queue x).length (.get x)

/-- A channel can be emptied by gets. -/
theorem System.HasNet.drain (h : S.HasNet n) (x : Side) :
    ∃ evs S', S.run (S.drain x) = some (evs, S') ∧ ∃ n', S'.HasNet n' ∧ S'.queue x = [] := by
  generalize hq : S.queue x = q
  induction q generalizing S n with
  | nil => exact ⟨[], S, by simp [System.drain, hq, System.run], n, h, hq⟩
  | cons bytes rest ih =>
    obtain ⟨fr, frs, -, -, -, hpop⟩ := h.pop hq
    obtain ⟨o, S₁, hcall⟩ := hpop.call_isSome x (c := .get) (by simp) bytes
    have hs : S.step (.get x) = some (.called x o, S₁) := by
      simp [System.step, hq, hcall]
    obtain ⟨-, -, n₁, -, -, hnet₁⟩ := System.step_refines h hs
    -- what `x` writes goes to the other end
    have hq₁ : S₁.queue x = rest := by
      obtain ⟨-, e', acc', -, -, -, -, -, rfl⟩ := hpop.call hcall
      simp [System.pop]
    obtain ⟨evs, S', hrun, hrest⟩ := ih hnet₁ hq₁
    refine ⟨.called x o :: evs, S', ?_, hrest⟩
    have hdrain : S.drain x = .get x :: S₁.drain x := by
      simp [System.drain, hq, hq₁, List.replicate_succ]
    rw [hdrain]
    exact Runs.run_cons hs hrun

/-- Once nothing is left to wait for, everything accepted is delivered. -/
theorem Homed.home (hhome : Homed n x 0) (h : Linked S n x evs l) :
    (S.frame x).awaitingAck = false ∧ delivered x.other evs = accepted x evs := by
  have hidle : (n.arq x).awaitingAck = false := by
    by_contra hw
    have hmem := hhome (by simpa using hw)
    simp at hmem
  refine ⟨(congrArg Arq.awaitingAck (h.net.arq x)).trans hidle, ?_⟩
  rw [← h.accepted, ← h.delivered]
  exact h.inv.complete (h.carries.waiting.symm.trans hidle)

/-- **Recovery.** In every state that two new endpoints reach without a reset, all their puts
being within both maxima (`System.Sendable`; the system has no other puts), while `x` waits for
an ACK: it can resend, and then, as long as nothing is lost or damaged and `x` puts nothing new,
as soon as the other end has made a get for every frame queued towards it, and `x` after that a
get for every frame queued towards it, `x` waits no longer and everything it accepted is
delivered, once and in order. Such gets are possible. -/
theorem recovers (s : Side → Storage) {acts : List Action}
    (hno : ∀ act ∈ acts, ∀ z, act ≠ .reset z)
    (hrun : (System.create s).run acts = some (evs, S))
    (hwait : (S.frame x).awaitingAck = true) :
    ∃ ev S₁, S.step (.resend x) = some (ev, S₁) ∧
      (∀ {acts₁ acts₂ : List Action} {evs₁ evs₂ : List Event} {S₂ S₃ : System},
        (∀ act ∈ acts₁ ++ acts₂, act.Harmless x) → S₁.run acts₁ = some (evs₁, S₂) →
        (S₁.queue x.other).length ≤ acts₁.count (.get x.other) →
        S₂.run acts₂ = some (evs₂, S₃) →
        (S₂.queue x).length ≤ acts₂.count (.get x) →
          (S₃.frame x).awaitingAck = false ∧
            delivered x.other (evs ++ ev :: evs₁ ++ evs₂) =
              accepted x (evs ++ ev :: evs₁ ++ evs₂)) ∧
      ∃ evs₁ evs₂ S₂ S₃, S₁.run (S₁.drain x.other) = some (evs₁, S₂) ∧
        S₂.run (S₂.drain x) = some (evs₂, S₃) := by
  obtain ⟨n, l, h⟩ := linked_of_run s hno hrun x
  have hw : (n.arq x).awaitingAck = true :=
    (congrArg Arq.awaitingAck (h.net.arq x)).symm.trans hwait
  obtain ⟨o, S₁, hcall⟩ := h.net.call_isSome x (c := .resend) (by simp) []
  have hs : S.step (.resend x) = some (.called x o, S₁) := by simp [System.step, hcall]
  obtain ⟨deed, n₁, hdid, hstep, hnet₁, hdeed⟩ := h.net.resend hcall
  obtain rfl := hdeed hw
  obtain ⟨l₁, -, h₁⟩ := h.refines (by simp) hdid hstep hnet₁
  refine ⟨_, S₁, hs, ?_, ?_⟩
  · intro acts₁ acts₂ evs₁ evs₂ S₂ S₃ hacts hrun₁ hgets₁ hrun₂ hgets₂
    have hacts₁ : ∀ act ∈ acts₁, act.Harmless x := by
      intro act ha
      exact hacts act (List.mem_append_left acts₂ ha)
    have hacts₂ : ∀ act ∈ acts₂, act.Harmless x := by
      intro act ha
      exact hacts act (List.mem_append_right acts₁ ha)
    -- the frame is the last one queued towards the other end
    have hstart : Homing n₁ x (acts₁.count (.get x.other)) := by
      intro _
      rw [hnet₁.queue, List.length_map] at hgets₁
      rw [List.take_of_length_le hgets₁]
      cases hstep
      exact Or.inr (by simp [Net.send, Net.set])
    obtain ⟨n₂, l₂, h₂, hhoming⟩ := h₁.countdown Homing.step hacts₁ hrun₁ hstart
    -- it was among the gets, so its ACK is on the way
    have hmid : Homed n₂ x (acts₂.count (.get x)) := by
      intro hw₂
      rw [h₂.net.queue, List.length_map] at hgets₂
      rw [List.take_of_length_le hgets₂]
      simpa using hhoming hw₂
    obtain ⟨n₃, l₃, h₃, hhomed⟩ := h₂.countdown Homed.step hacts₂ hrun₂ hmid
    simpa using hhomed.home h₃
  · obtain ⟨evs₁, S₂, hrun₁, n₂, hnet₂, -⟩ := hnet₁.drain x.other
    obtain ⟨evs₂, S₃, hrun₂, -⟩ := hnet₂.drain x
    exact ⟨evs₁, evs₂, S₂, S₃, hrun₁, hrun₂⟩

end

theorem recovers_two :
    letI : Build := build32
    let s : Side → Storage := fun _ => Storage.zeroed 1 (by decide)
    ∃ evs S ev S₁, (System.create s).run [.put .a 1 [7], .lose .b] = some (evs, S) ∧
      S.step (.resend .a) = some (ev, S₁) ∧
      (∀ {acts₁ acts₂ : List Action} {evs₁ evs₂ : List Event} {S₂ S₃ : System},
        (∀ act ∈ acts₁ ++ acts₂, act.Harmless .a) → S₁.run acts₁ = some (evs₁, S₂) →
        (S₁.queue .b).length ≤ acts₁.count (.get .b) → S₂.run acts₂ = some (evs₂, S₃) →
        (S₂.queue .a).length ≤ acts₂.count (.get .a) →
          (S₃.frame .a).awaitingAck = false ∧
            delivered .b (evs ++ ev :: evs₁ ++ evs₂) =
              accepted .a (evs ++ ev :: evs₁ ++ evs₂)) ∧
      ∃ evs₁ evs₂ S₂ S₃, S₁.run (S₁.drain .b) = some (evs₁, S₂) ∧
        S₂.run (S₂.drain .a) = some (evs₂, S₃) := by
  let _ : Build := build32
  intro s
  have hwaits : (((System.create s).run [.put .a 1 [7], .lose .b]).map
      fun r => (r.2.frame .a).awaitingAck) = some true := by
    decide +kernel
  obtain ⟨⟨evs, S⟩, hrun, hwait⟩ := Option.map_eq_some_iff.mp hwaits
  obtain ⟨ev, S₁, hs, hall, hdrain⟩ := recovers s (by simp) hrun (x := .a) hwait
  exact ⟨evs, S, ev, S₁, hrun, hs, hall, hdrain⟩

end HtcwFrameArq
