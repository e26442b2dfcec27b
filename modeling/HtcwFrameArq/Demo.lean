import HtcwFrameArq.BothWays
import HtcwFrameArq.Loop
import HtcwFrameArq.Requests

/-!
# The demo

The firmware at one end of the wires, an opened session at the other. A turn of the loop is up to
three calls of the library, so a run of the demo is a run of `Duplex` whose calls are those of the
firmware. `demo_requests` says what has been done to the pins. `demo_answers` follows a peer that
waits for the response to each request before the next one that is answered: it gets the responses
to its requests, each once, in their order.
-/

namespace HtcwFrameArq

namespace Firmware

open BuffersGenC hiding Outcome
open EspSerialSession LateWrites

/-! ## The system -/

/-- A get consumes the frame that has arrived, or bytes that have become of it, if they fail the CRC
check. -/
def take [Build] (damage : Option (List UInt8)) (D : Duplex) : Option (Outcome × Duplex) :=
  match D.toLibrary with
  | [] => D.exec .get []
  | bytes :: rest =>
    match damage with
    | none => Duplex.exec { D with toLibrary := rest } .get bytes
    | some bytes' => do
      let r ← Duplex.exec { D with toLibrary := rest } .get bytes'
      if r.1.ret = errorCrc ∧ r.1.consumed = bytes' then some r
      else Duplex.exec { D with toLibrary := rest } .get bytes

/-- The library of the firmware, at its end of the wires. -/
def wires [Build] (damage : Option (List UInt8)) : Library Duplex where
  frame := Duplex.frame
  call
    | .get, D => take damage D
    | c, D => D.exec c []
  print text D := D.printed text

/-- The firmware and the two ends of the wires. -/
structure Demo where
  sketch : Sketch
  duplex : Duplex

namespace Demo

/-- A move of a duplex at the session or on the wires: the program of the library makes the others.
-/
def isPeer : Duplex.Move → Bool
  | .put _ _ => false
  | .resend => false
  | .print _ => false
  | .get => false
  | .damageToLibrary _ => false
  | _ => true

/-- What can happen next. -/
inductive Move : Type where
  /-- at the session or on the wires -/
  | peer (mv : Duplex.Move) (hpeer : isPeer mv = true) : Move
  /-- a turn of the firmware; the frame it gets may be damaged -/
  | turn (t : Turn) (damage : Option (List UInt8)) : Move

/-- The firmware has room for what is sent, and is built for it. -/
def Move.Fits : Move → Prop
  | .peer mv _ => mv.Fits interfaceMaxSize ∧ ∀ m ∈ mv.message, m.1 ≠ cmdRng
  | .turn _ _ => True

instance : DecidablePred Move.Fits
  | .peer mv _ =>
    inferInstanceAs (Decidable (mv.Fits interfaceMaxSize ∧ ∀ m ∈ mv.message, m.1 ≠ cmdRng))
  | .turn _ _ => .isTrue trivial

/-- What a step shows. -/
inductive Event : Type where
  | peer (ev : Duplex.Event) : Event
  | turn (d : Done) : Event

/-- One step. -/
def step [Build] (dm : Demo) : Move → Option (Event × Demo)
  | .peer mv _ => do
    let r ← dm.duplex.step mv
    some (.peer r.1, { dm with duplex := r.2 })
  | .turn t damage => do
    let r ← loop (wires damage) t dm.sketch dm.duplex
    some (.turn r.1, ⟨r.2.1, r.2.2⟩)

/-- After `setup` and `Open`. -/
def start [Build] (s : Session) (st : Storage) : Demo := ⟨.start, .opened s st⟩

end Demo

/-- The calls of a turn. -/
def Done.calls (d : Done) : List Outcome :=
  d.got :: (d.resent.toList ++ (d.sent.toList ++ d.retried.toList))

theorem Done.calls_filterMap {β : Type} (g : Outcome → Option β) (d : Done) :
    d.calls.filterMap g = (g d.got).toList ++ ((d.resent.bind g).toList ++
      ((d.sent.bind g).toList ++ (d.retried.bind g).toList)) := by
  have hone (r : Option Outcome) : r.toList.filterMap g = (r.bind g).toList := by
    cases r with
    | none => rfl
    | some o => cases h : g o <;> simp [h]
  have hgot : (g d.got).toList = [d.got].filterMap g := (hone (some d.got)).symm
  rw [Done.calls, ← List.singleton_append, List.filterMap_append, List.filterMap_append,
    List.filterMap_append, hone, hone, hone, hgot]

/-- What a step shows of the session, the wires and the library. -/
def Demo.Event.shown : Demo.Event → List Duplex.Event
  | peer ev => [ev]
  | turn d => d.calls.map .called

/-- What it shows of the firmware. -/
def Demo.Event.done : Demo.Event → Option Done
  | peer _ => none
  | turn d => some d

def shown (evs : List Demo.Event) : List Duplex.Event := evs.flatMap Demo.Event.shown

def dones (evs : List Demo.Event) : List Done := evs.filterMap Demo.Event.done

theorem shown_concat (evs : List Demo.Event) (ev : Demo.Event) :
    shown (evs ++ [ev]) = shown evs ++ ev.shown := by
  rw [shown, List.flatMap_append, List.flatMap_singleton]
  rfl

/-- The commands that the library has delivered. -/
def commands (dones : List Done) : List Message := dones.filterMap fun d => commandOf d.got

/-! ## The library -/

section

variable [Build] {damage : Option (List UInt8)} {D D' : Duplex} {c : Call} {o : Outcome}

theorem exec_endpoint {bytes : List UInt8} (h : D.exec c bytes = some (o, D')) :
    ∃ t t' : Transport, t.results = [] ∧
      Endpoint.exec ⟨D.frame, t⟩ c = some (o, ⟨D'.frame, t'⟩) := by
  rw [Duplex.exec] at h
  obtain ⟨⟨o', e'⟩, hexec, heq⟩ := Option.bind_eq_some_iff.mp h
  cases heq
  exact ⟨⟨bytes.map some, [], []⟩, e'.transport, rfl, hexec⟩

theorem exec_defined (h : ∀ t : Transport, ∃ r, Endpoint.exec ⟨D.frame, t⟩ c = some r)
    (bytes : List UInt8) : ∃ r, D.exec c bytes = some r := by
  obtain ⟨r, hr⟩ := h ⟨bytes.map some, [], []⟩
  exact ⟨_, by rw [Duplex.exec, hr]; rfl⟩

/-- What a get consumes. -/
theorem take_cases (h : take damage D = some (o, D')) :
    ∃ rest bytes, Duplex.exec { D with toLibrary := rest } .get bytes = some (o, D') ∧
      ∃ mv : Duplex.Move, (∀ limit, mv.Fits limit) ∧ D.step mv = some (.called o, D') := by
  rw [take] at h
  split at h
  · next hnil =>
    refine ⟨[], [], ?_, .get, fun _ => trivial, ?_⟩
    · rw [← hnil]
      exact h
    · simp only [Duplex.step, hnil, h, Option.map_some, Prod.map_apply, id_eq]
  · next bytes rest hcons =>
    split at h
    · refine ⟨rest, bytes, h, .get, fun _ => trivial, ?_⟩
      simp only [Duplex.step, hcons, h, Option.map_some, Prod.map_apply, id_eq]
    · next bytes' =>
      obtain ⟨r, hr, hif⟩ := Option.bind_eq_some_iff.mp h
      split_ifs at hif with hcrc
      · cases hif
        refine ⟨rest, bytes', hr, .damageToLibrary bytes', fun _ => trivial, ?_⟩
        simp only [Duplex.step, hcons, hr, Option.bind_eq_bind, Option.bind_some]
        rw [if_pos hcrc]
      · refine ⟨rest, bytes, hif, .get, fun _ => trivial, ?_⟩
        simp only [Duplex.step, hcons, hif, Option.map_some, Prod.map_apply, id_eq]

theorem wires_faithful : (wires damage).Faithful where
  print_frame text D := rfl
  exec {c D o D'} h := by
    cases c with
    | get =>
      obtain ⟨rest, bytes, hexec, -⟩ := take_cases h
      exact exec_endpoint (D := { D with toLibrary := rest }) hexec
    | put cmd payload => exact exec_endpoint h
    | resend => exact exec_endpoint h
    | discard => exact exec_endpoint h
    | reset => exact exec_endpoint h
  defined {c D} h := by
    cases c with
    | get =>
      have hexec (rest : List (List UInt8)) (bytes : List UInt8) :
          ∃ r, Duplex.exec { D with toLibrary := rest } .get bytes = some r :=
        exec_defined (D := { D with toLibrary := rest }) h bytes
      change ∃ r, take damage D = some r
      rw [take]
      split
      · exact exec_defined h []
      · next bytes rest _ =>
        split
        · exact hexec rest bytes
        · next bytes' =>
          obtain ⟨r, hr⟩ := hexec rest bytes'
          simp only [hr, Option.bind_eq_bind, Option.bind_some]
          split
          · exact ⟨r, rfl⟩
          · exact hexec rest bytes
    | put cmd payload => exact exec_defined h []
    | resend => exact exec_defined h []
    | discard => exact exec_defined h []
    | reset => exact exec_defined h []

/-- The calls that the loop makes are steps of the duplex. -/
theorem wires_step (h : (wires damage).call c D = some (o, D'))
    (hc : c = .get ∨ c = .resend ∨ ∃ cmd payload, c = .put cmd (.bytes payload) ∧
      payload.length ≤ 32768) (limit : ℕ) :
    ∃ mv, mv.Fits limit ∧ D.step mv = some (.called o, D') := by
  rcases hc with rfl | rfl | ⟨cmd, payload, rfl, hle⟩
  · obtain ⟨_, _, -, mv, hfits, hstep⟩ := take_cases h
    exact ⟨mv, hfits limit, hstep⟩
  · have hexec : D.exec .resend [] = some (o, D') := h
    exact ⟨.resend, trivial, by rw [Duplex.step, hexec]; rfl⟩
  · have hexec : D.exec (.put cmd (.bytes payload)) [] = some (o, D') := h
    exact ⟨.put cmd payload, hle, by rw [Duplex.step, hexec]; rfl⟩

omit [Build] in
theorem dispatch_peer {found : RxEvent} {ev : Duplex.Event} (h : D.dispatch found = some (ev, D')) :
    D'.frame = D.frame ∧ ev.got = none ∧ ev.put = none ∧ ev.sent = none := by
  rw [Duplex.dispatch] at h
  obtain ⟨eff, -, heq⟩ := Option.bind_eq_some_iff.mp h
  split at heq <;> cases heq <;> exact ⟨rfl, rfl, rfl, rfl⟩

omit [Build] in
theorem receive_peer {logging : Bool} {bytes : List UInt8} {ev : Duplex.Event}
    (h : D.receive logging bytes = some (ev, D')) :
    D'.frame = D.frame ∧ ev.got = none ∧ ev.put = none ∧ ev.sent = none := by
  rw [Duplex.receive] at h
  split at h
  · cases h
    exact ⟨rfl, rfl, rfl, rfl⟩
  · have hquiet := dispatch_peer h
    exact hquiet

/-- The session and the wires make no call of the library, and only the session sends. -/
theorem peer_step {mv : Duplex.Move} {ev : Duplex.Event} (hpeer : Demo.isPeer mv = true)
    (h : D.step mv = some (ev, D')) :
    D'.frame = D.frame ∧ ev.got = none ∧ ev.put = none ∧ ∀ m ∈ ev.sent, m ∈ mv.message := by
  have hnone {ev : Duplex.Event} (hsent : ev.sent = none) : ∀ m ∈ ev.sent, m ∈ mv.message := by
    rw [hsent]
    rintro m ⟨⟩
  cases mv with
  | put cmd payload => cases hpeer
  | resend => cases hpeer
  | get => cases hpeer
  | damageToLibrary bytes => cases hpeer
  | print text => cases hpeer
  | call act =>
    rw [Duplex.step] at h
    split at h
    · obtain ⟨r, hperform, heq⟩ := Option.bind_eq_some_iff.mp h
      cases heq
      exact ⟨rfl, rfl, rfl, Session.perform_accepted hperform⟩
    · cases h
      exact ⟨rfl, rfl, rfl, hnone rfl⟩
  | write i =>
    rw [Duplex.step] at h
    split at h <;> cases h <;> exact ⟨rfl, rfl, rfl, hnone rfl⟩
  | receive logging =>
    rw [Duplex.step] at h
    split at h
    · cases h
      exact ⟨rfl, rfl, rfl, hnone rfl⟩
    · obtain ⟨hframe, hgot, hput, hsent⟩ := receive_peer h
      exact ⟨hframe, hgot, hput, hnone hsent⟩
  | damageToSession logging bytes =>
    rw [Duplex.step] at h
    split at h
    · cases h
      exact ⟨rfl, rfl, rfl, hnone rfl⟩
    · split at h
      · obtain ⟨hframe, hgot, hput, hsent⟩ := receive_peer h
        exact ⟨hframe, hgot, hput, hnone hsent⟩
      · cases h
        exact ⟨rfl, rfl, rfl, hnone rfl⟩
  | loseToSession =>
    rw [Duplex.step] at h
    split at h <;> cases h <;> exact ⟨rfl, rfl, rfl, hnone rfl⟩
  | loseToLibrary =>
    rw [Duplex.step] at h
    split at h <;> cases h <;> exact ⟨rfl, rfl, rfl, hnone rfl⟩

/-! ## The calls of a turn -/

/-- The calls of the loop are steps of the duplex, one after the other. -/
theorem Library.Trace.records {evs : List Duplex.Event} {os : List Outcome}
    (h : (wires damage).Trace D os D')
    (hcalls : ∀ o ∈ os, o.call = .get ∨ o.call = .resend ∨
      ∃ cmd payload, o.call = .put cmd (.bytes payload) ∧ payload.length ≤ 32768)
    {limit : ℕ} (hrec : ∃ f b x y, Duplex.Records limit evs D f b x y) :
    ∃ f b x y, Duplex.Records limit (evs ++ os.map .called) D' f b x y := by
  induction h generalizing evs with
  | nil D => simpa using hrec
  | cons hcall _ ih =>
    obtain ⟨hfirst, hcalls⟩ := List.forall_mem_cons.mp hcalls
    obtain ⟨mv, hfits, hstep⟩ := wires_step hcall hfirst limit
    obtain ⟨f, b, x, y, hrec⟩ := hrec
    have hrec' := ih hcalls (hrec.step hfits hstep).1
    rwa [List.append_assoc] at hrec'
  | print htext _ ih =>
    obtain ⟨f, b, x, y, hrec⟩ := hrec
    obtain ⟨y', hrec⟩ := hrec.printed htext
    exact ih hcalls ⟨f, b, x, y', hrec⟩

/-- The command is one that the session has sent. -/
theorem wires_sent {limit : ℕ} {evs : List Duplex.Event} {f b : Link Message} {x : List Item}
    {y : List (Option Item)} (hrec : Duplex.Records limit evs D f b x y)
    (hmax : D.frame.payloadMaxSize = interfaceMaxSize) (hrng : (wires damage).GetsRng D) :
    ∃ m ∈ Duplex.sent evs, m.1 = cmdRng := by
  obtain ⟨o, D', hcall, hret⟩ := hrng
  obtain ⟨o', x', hcall', hget, -⟩ :=
    @Library.get_spec _ _ (wires damage) D wires_faithful ⟨hrec.links.line.ok, hmax⟩
  obtain ⟨rfl, rfl⟩ := Prod.mk.inj (Option.some.inj (hcall.symm.trans hcall'))
  obtain ⟨mv, hfits, hstep⟩ := wires_step hcall (.inl rfl) limit
  obtain ⟨f', b', x', y', hrec'⟩ := (hrec.step hfits hstep).1
  have hdelivers : o.Delivers := ⟨hget, by rw [hret]; decide⟩
  have hgot : Duplex.Event.got (.called o) = some (cmdRng, o.out.getD []) := by
    rw [Duplex.Event.got, if_pos hdelivers, hret]
    rfl
  refine ⟨(cmdRng, o.out.getD []), ?_, rfl⟩
  have hmem := hrec'.got_mem (cmdRng, o.out.getD []) (by rw [Duplex.got_concat, hgot]; simp)
  rwa [Duplex.sent_concat, show Duplex.Event.sent (.called o) = none from rfl, Option.toList_none,
    List.append_nil] at hmem

omit [Build] in
/-- A response fits into the message buffer. -/
theorem IsResponse.length_le {r : UInt8 × List UInt8} (h : IsResponse r) :
    r.2.length ≤ interfaceMaxSize := by
  obtain ⟨v, hv, rfl⟩ := h
  refine encode_fits ?_ hv
  rw [interface_names]
  decide

section

variable {t : Turn} {s s' : Sketch} {d : Done}

theorem Turns.calls (h : Turns (wires damage) t s D d s' D') :
    ∀ o ∈ d.calls, o.call = .get ∨ o.call = .resend ∨
      ∃ cmd payload, o.call = .put cmd (.bytes payload) ∧ payload.length ≤ 32768 := by
  intro o ho
  rw [Done.calls, List.mem_cons, List.mem_append, List.mem_append] at ho
  rcases ho with rfl | ho | ho | ho
  · exact .inl h.get
  · exact .inr (.inl (h.resends.1 o (Option.mem_toList.mp ho)))
  · obtain ⟨r, hr, hput, -⟩ := h.accepted o (Option.mem_toList.mp ho)
    exact .inr (.inr ⟨r.1, r.2, hput, hr.length_le.trans (by rw [interfaceMaxSize_eq]; decide)⟩)
  · exact .inr (.inl (h.resends.2 o (Option.mem_toList.mp ho)))

/-- What the calls of a turn deliver and accept. -/
theorem Turns.shows (h : Turns (wires damage) t s D d s' D') :
    Duplex.got (d.calls.map .called) = (commandOf d.got).toList ∧
      Duplex.puts (d.calls.map .called) = d.put.toList := by
  have hnotGet {o : Outcome} (ho : o.call ≠ .get) : Duplex.Event.got (.called o) = none :=
    if_neg fun hd => ho hd.1
  have hresend {r : Option Outcome} (hr : ∀ o ∈ r, o.call = .resend) :
      (r.bind fun o => Duplex.Event.got (.called o)) = none ∧
        (r.bind fun o => Duplex.Event.put (.called o)) = none := by
    rw [Option.bind_eq_none_iff, Option.bind_eq_none_iff]
    refine ⟨fun o ho => hnotGet ?_, fun o ho => ?_⟩
    · rw [hr o ho]
      decide
    · simp only [Duplex.Event.put, hr o ho]
  have hgot : Duplex.Event.got (.called d.got) = commandOf d.got := by
    have hd : d.got.Delivers ↔ 0 < d.got.ret := and_iff_right h.get
    simp only [Duplex.Event.got, commandOf, hd]
  have hsent : (d.sent.bind fun o => Duplex.Event.got (.called o)) = none ∧
      (d.sent.bind fun o => Duplex.Event.put (.called o)) = d.put := by
    rw [Done.put]
    cases hd : d.sent with
    | none => exact ⟨rfl, rfl⟩
    | some o =>
      obtain ⟨r, -, hput, hret⟩ := h.accepted o hd
      refine ⟨hnotGet (by rw [hput]; exact Call.noConfusion), ?_⟩
      simp only [Option.bind_some, Duplex.Event.put, hput, hret, if_pos]
  obtain ⟨hgot₂, hput₂⟩ := hresend h.resends.1
  obtain ⟨hgot₄, hput₄⟩ := hresend h.resends.2
  rw [Duplex.got, Duplex.puts, List.filterMap_map, List.filterMap_map, Done.calls_filterMap,
    Done.calls_filterMap]
  simp only [Function.comp_def, hgot, hgot₂, hgot₄, hsent, hput₂, hput₄, Duplex.put_get h.get]
  simp

end

end

/-! ## A peer that waits -/

/-- A message that is answered, if its payload can be read. -/
def isAsk (m : Message) : Bool := m.1 = cmdGpioGet

/-- How many of the messages are answered. -/
def asks (ms : List Message) : ℕ := ms.countP isAsk

theorem sent_called (evs : List Duplex.Event) (os : List Outcome) :
    Duplex.sent (evs ++ os.map .called) = Duplex.sent evs := by
  have hnone : Duplex.sent (os.map .called) = [] := by
    rw [Duplex.sent, List.filterMap_map]
    exact List.filterMap_eq_nil_iff.mpr fun o _ => rfl
  rw [Duplex.sent, List.filterMap_append]
  exact (congrArg _ hnone).trans (List.append_nil _)

theorem asks_append (ms more : List Message) : asks (ms ++ more) = asks ms + asks more :=
  List.countP_append

theorem asks_option {m : Option Message} :
    asks m.toList ≤ 1 ∧ (asks m.toList ≠ 0 → ∃ m', m = some m' ∧ isAsk m' = true) := by
  cases m with
  | none => exact ⟨Nat.zero_le 1, fun h => absurd rfl h⟩
  | some m' =>
    rw [asks, Option.toList_some, List.countP_singleton]
    by_cases hask : isAsk m' = true
    · exact ⟨by rw [if_pos hask], fun _ => ⟨m', rfl, hask⟩⟩
    · rw [if_neg hask]
      exact ⟨Nat.zero_le 1, fun h => absurd rfl h⟩

/-- The peer sends such a message when it has been handed as many messages as it has sent such
ones. -/
def Patient (evs : List Duplex.Event) : Prop :=
  ∀ pre ev post m, evs = pre ++ ev :: post → ev.sent = some m → isAsk m = true →
    asks (Duplex.sent pre) ≤ (Duplex.handed pre).length

section

variable {evs : List Duplex.Event}

theorem Patient.of_append {more : List Duplex.Event} (h : Patient (evs ++ more)) : Patient evs := by
  rintro pre ev post m rfl
  exact h pre ev (post ++ more) m (by rw [List.append_assoc, List.cons_append])

/-- It waits for one response at most. -/
theorem Patient.asks_le (h : Patient evs) :
    asks (Duplex.sent evs) ≤ (Duplex.handed evs).length + 1 := by
  induction evs using List.reverseRecOn with
  | nil => exact Nat.zero_le _
  | append_singleton evs ev ih =>
    have hle := ih h.of_append
    obtain ⟨hone, hsome⟩ := @asks_option ev.sent
    rw [Duplex.sent_concat, Duplex.handed_concat, asks_append, List.length_append]
    by_cases hask : asks ev.sent.toList = 0
    · omega
    · obtain ⟨m, hsent, hm⟩ := hsome hask
      have hwaited := h evs ev [] m rfl hsent hm
      omega

/-- A peer that asks once need not wait. -/
theorem Patient.of_one (h : asks (Duplex.sent evs) ≤ 1) : Patient evs := by
  rintro pre ev post m rfl hsent hask
  have hsplit : Duplex.sent (pre ++ ev :: post) = Duplex.sent pre ++ m :: Duplex.sent post := by
    rw [Duplex.sent, List.filterMap_append, List.filterMap_cons, hsent]
    rfl
  have hcons : 1 ≤ asks (m :: Duplex.sent post) := by
    rw [asks, List.countP_cons, if_pos hask]
    omega
  rw [hsplit, asks_append] at h
  omega

end

theorem isAsk_of_answer {b : Board} {m : Message} (h : answer b m ≠ none) : isAsk m = true := by
  rw [isAsk, decide_eq_true_iff]
  by_contra hget
  exact h (if_neg hget)

/-- A turn answers its command only if it is a request that is answered. -/
theorem answered_le (d : Done) : d.answered.toList.length ≤ asks (commandOf d.got).toList := by
  rw [Done.answered]
  cases hcommand : commandOf d.got with
  | none => exact Nat.le_refl 0
  | some m =>
    rw [Option.bind_some]
    cases hanswer : answer d.turn.toBoard m with
    | none => exact Nat.zero_le _
    | some r =>
      have hask := isAsk_of_answer (by rw [hanswer]; exact Option.some_ne_none r)
      rw [Option.toList_some, Option.toList_some, asks, List.countP_singleton, if_pos hask]
      rfl

theorem answers_le (dones : List Done) : (answers dones).length ≤ asks (commands dones) := by
  induction dones using List.reverseRecOn with
  | nil => exact Nat.le_refl 0
  | append_singleton dones d ih =>
    have hone := answered_le d
    rw [answers_concat, commands, Duplex.filterMap_concat, asks_append, List.length_append]
    rw [commands] at ih
    omega

theorem Unhurried.concat {dones : List Done} {d : Done} (h : Unhurried dones)
    (hlast : d.answered ≠ none → (answers dones).length ≤ (puts dones).length) :
    Unhurried (dones ++ [d]) := by
  intro pre d' post heq
  rcases List.eq_nil_or_concat post with rfl | ⟨post, d'', rfl⟩
  · obtain ⟨rfl, hd⟩ := List.append_inj' heq rfl
    cases hd
    exact hlast
  · rw [List.concat_eq_append, ← List.cons_append, ← List.append_assoc] at heq
    obtain ⟨rfl, -⟩ := List.append_inj' heq rfl
    exact h pre d' post rfl

/-! ## Whole runs -/

/-- The invariant of the demo after steps that show `evs`. -/
structure Demo.Records [Build] (evs : List Demo.Event) (dm : Demo) : Prop where
  links : ∃ f b x y, Duplex.Records interfaceMaxSize (shown evs) dm.duplex f b x y
  max : dm.duplex.frame.payloadMaxSize = interfaceMaxSize
  sketch : dm.sketch.Ok
  noRng : ∀ m ∈ Duplex.sent (shown evs), m.1 ≠ cmdRng
  got : Duplex.got (shown evs) = commands (dones evs)
  put : Duplex.puts (shown evs) = puts (dones evs)
  acts : ∀ d ∈ dones evs, d.acts = ((commandOf d.got).map (actions d.turn.toBoard)).getD []
  keeps : Keeps (dones evs) dm.sketch.pending
  unhurried : Duplex.InTime (shown evs) → Patient (shown evs) → Unhurried (dones evs)

section

variable [Build] {evs : List Demo.Event} {dm : Demo}

theorem Demo.Records.start (s : Session) {st : Storage}
    (hst : st.payloadMaxSize = interfaceMaxSize) : Demo.Records [] (.start s st) where
  links := ⟨.fresh, .fresh, [], [], hst ▸ .opened s st⟩
  max := hst
  sketch := ⟨fun _ h => (nomatch h), fun h => (nomatch h)⟩
  noRng := fun m hm => by cases hm
  got := rfl
  put := rfl
  acts := fun d hd => by cases hd
  keeps := ⟨List.Sublist.refl [], fun _ => rfl⟩
  unhurried := fun _ _ pre d post heq => absurd heq (by simp [dones])

/-- The session or the wires. -/
theorem Demo.Records.peer (h : Demo.Records evs dm) {mv : Duplex.Move}
    (hpeer : Demo.isPeer mv = true) (hfits : (Demo.Move.peer mv hpeer).Fits) :
    ∃ ev D', dm.duplex.step mv = some (ev, D') ∧
      Demo.Records (evs ++ [.peer ev]) { dm with duplex := D' } := by
  obtain ⟨f, b, x, y, hrec⟩ := h.links
  obtain ⟨hfits, hrng⟩ := hfits
  obtain ⟨ev, D', hstep, -⟩ := Duplex.step_refines hrec.links hfits
  obtain ⟨hframe, hgot, hput, hsent⟩ := peer_step hpeer hstep
  have hshown : shown (evs ++ [.peer ev]) = shown evs ++ [ev] := shown_concat evs (.peer ev)
  have hdones : dones (evs ++ [.peer ev]) = dones evs := by simp [dones, Demo.Event.done]
  refine ⟨ev, D', hstep, ?_⟩
  refine ⟨hshown ▸ (hrec.step hfits hstep).1, (congrArg _ hframe).trans h.max, h.sketch, ?_, ?_, ?_,
    hdones ▸ h.acts, hdones ▸ h.keeps, fun htime hpatient => ?_⟩
  · intro m hm
    rw [hshown, Duplex.sent_concat, List.mem_append, Option.mem_toList] at hm
    exact hm.elim (h.noRng m) fun hm => hrng m (hsent m hm)
  · rw [hshown, hdones, Duplex.got_concat, hgot, ← h.got]
    exact List.append_nil _
  · rw [hshown, hdones, Duplex.puts_concat, hput, ← h.put]
    exact List.append_nil _
  · rw [hshown] at htime hpatient
    rw [hdones]
    exact h.unhurried htime.of_append hpatient.of_append

/-- A turn of the firmware. -/
theorem Demo.Records.turn (h : Demo.Records evs dm) (t : Turn) (damage : Option (List UInt8)) :
    ∃ d s' D', loop (wires damage) t dm.sketch dm.duplex = some (d, s', D') ∧
      Demo.Records (evs ++ [.turn d]) ⟨s', D'⟩ := by
  obtain ⟨f, b, x, y, hrec⟩ := h.links
  have hrng : ¬ (wires damage).GetsRng dm.duplex := fun hrng => by
    obtain ⟨m, hm, hcmd⟩ := wires_sent hrec h.max hrng
    exact h.noRng m hm hcmd
  obtain ⟨d, s', D', hloop, hready, hs', hturns⟩ :=
    @Library.loop_spec _ _ (wires damage) dm.duplex t dm.sketch wires_faithful
      ⟨hrec.links.line.ok, h.max⟩ h.sketch hrng
  have hshown : shown (evs ++ [.turn d]) = shown evs ++ d.calls.map .called :=
    shown_concat evs (.turn d)
  have hdones : dones (evs ++ [.turn d]) = dones evs ++ [d] := by
    rw [dones, List.filterMap_append]
    rfl
  obtain ⟨hgot, hput⟩ := hturns.shows
  have hlinks : ∃ f b x y,
      Duplex.Records interfaceMaxSize (shown evs ++ d.calls.map .called) D' f b x y :=
    hturns.trace.records hturns.calls ⟨f, b, x, y, hrec⟩
  have hgot' : Duplex.got (shown evs ++ d.calls.map .called) = commands (dones evs ++ [d]) := by
    rw [Duplex.got, List.filterMap_append, commands, Duplex.filterMap_concat]
    exact congrArg₂ (· ++ ·) h.got hgot
  have hput' : Duplex.puts (shown evs ++ d.calls.map .called) = puts (dones evs ++ [d]) := by
    rw [Duplex.puts, List.filterMap_append, puts_concat]
    exact congrArg₂ (· ++ ·) h.put hput
  have hnoRng : ∀ m ∈ Duplex.sent (shown (evs ++ [.turn d])), m.1 ≠ cmdRng := by
    rw [hshown, sent_called]
    exact h.noRng
  refine ⟨d, s', D', hloop, hshown ▸ hlinks, hready.max, hs', hnoRng, hshown ▸ hdones ▸ hgot',
    hshown ▸ hdones ▸ hput', ?_, ?_, ?_⟩
  · intro d' hd'
    rw [hdones] at hd'
    rcases List.mem_append.mp hd' with hd' | hd'
    · exact h.acts d' hd'
    · rw [List.mem_singleton.mp hd', Done.acts, hturns.outputs, hturns.turn]
      cases commandOf d.got <;> rfl
  · rw [hdones]
    exact h.keeps.turn hturns.queue
  · rw [hshown, hdones]
    intro htime hpatient
    refine (h.unhurried htime.of_append hpatient.of_append).concat fun hanswered => ?_
    -- the peer waits for the response to this command, and for no other
    obtain ⟨m, hcommand, hask⟩ : ∃ m, commandOf d.got = some m ∧ isAsk m = true := by
      obtain ⟨r, hr⟩ := Option.ne_none_iff_exists'.mp hanswered
      obtain ⟨m, hcommand, hanswer⟩ := Option.bind_eq_some_iff.mp hr
      exact ⟨m, hcommand, isAsk_of_answer (by rw [hanswer]; exact Option.some_ne_none r)⟩
    obtain ⟨f', b', x', y', hrec'⟩ := hlinks
    have hdelivered := (hrec'.inv htime).inOrder
    rw [hrec'.got, hrec'.sent, hgot', sent_called, commands, Duplex.filterMap_concat, hcommand]
      at hdelivered
    have hasks : asks (commands (dones evs) ++ [m]) ≤ asks (Duplex.sent (shown evs)) :=
      hdelivered.sublist.countP_le
    have hhanded := hrec.invBack.inOrder.length_le
    rw [hrec.handed, hrec.put, h.put] at hhanded
    have hone : asks [m] = 1 := by rw [asks, List.countP_singleton, if_pos hask]
    rw [asks_append, hone] at hasks
    have hwaits := hpatient.of_append.asks_le
    have hanswers := answers_le (dones evs)
    omega

/-- Every run exists. -/
theorem Demo.records_run (s : Session) {st : Storage} (hst : st.payloadMaxSize = interfaceMaxSize)
    (moves : List Demo.Move) (hfits : ∀ mv ∈ moves, mv.Fits) :
    ∃ evs dm, Runs.run Demo.step (.start s st) moves = some (evs, dm) ∧ Demo.Records evs dm := by
  refine Runs.run_total (fun {evs dm mv} h hmv => ?_) (Demo.Records.start s hst) hfits
  cases mv with
  | peer mv hpeer =>
    obtain ⟨ev, D', hstep, hrec⟩ := h.peer hpeer hmv
    exact ⟨_, _, by rw [Demo.step, hstep]; rfl, hrec⟩
  | turn t damage =>
    obtain ⟨d, s', D', hloop, hrec⟩ := h.turn t damage
    exact ⟨_, _, by rw [Demo.step, hloop]; rfl, hrec⟩

namespace Demo.Records

/-- The peer is handed the first of the messages that were put. -/
theorem handed (h : Demo.Records evs dm) :
    Duplex.handed (shown evs) <+: puts (dones evs) ∧
      (dm.duplex.frame.awaitingAck = false → Duplex.handed (shown evs) = puts (dones evs)) := by
  obtain ⟨f, b, x, y, hrec⟩ := h.links
  rw [← h.put, ← hrec.handed, ← hrec.put]
  exact ⟨hrec.invBack.inOrder,
    fun hidle => hrec.invBack.heard (hrec.links.sends.awaiting.symm.trans hidle)⟩

/-- The commands are the first of the messages that the peer has sent. -/
theorem commands (h : Demo.Records evs dm) (htime : Duplex.InTime (shown evs)) :
    Firmware.commands (dones evs) <+: Duplex.sent (shown evs) ∧
      (dm.duplex.session.awaiting = false →
        Firmware.commands (dones evs) = Duplex.sent (shown evs)) := by
  obtain ⟨f, b, x, y, hrec⟩ := h.links
  rw [← h.got, ← hrec.got, ← hrec.sent]
  exact ⟨(hrec.inv htime).inOrder,
    fun hidle => (hrec.inv htime).heard (hrec.links.line.keeps.awaiting.symm.trans hidle)⟩

end Demo.Records

end

/-! ## Requests and responses -/

/-- The commands that have been handled, each with the board that it has found. -/
def handled (dones : List Done) : List (Board × Message) :=
  dones.filterMap fun d => (commandOf d.got).map fun m => (d.turn.toBoard, m)

/-- The responses to requests that are handled on these boards. -/
def responses (boards : List Board) (requests : List Request) : List (UInt8 × List UInt8) :=
  (boards.zip requests).filterMap fun p => p.2.response p.1

section

variable {dones : List Done} {hs : List (Board × Message)} {requests : List Request}

theorem commands_handled (dones : List Done) : (handled dones).map Prod.snd = commands dones := by
  rw [handled, List.map_filterMap, commands]
  refine congrArg (List.filterMap · dones) (funext fun d => ?_)
  cases commandOf d.got <;> rfl

theorem answers_handled (dones : List Done) :
    answers dones = (handled dones).filterMap fun p => answer p.1 p.2 := by
  rw [handled, List.filterMap_filterMap, answers]
  refine congrArg (List.filterMap · dones) (funext fun d => ?_)
  rw [Done.answered]
  cases commandOf d.got <;> rfl

theorem acts_handled
    (hacts : ∀ d ∈ dones, d.acts = ((commandOf d.got).map (actions d.turn.toBoard)).getD []) :
    dones.flatMap Done.acts = (handled dones).flatMap fun p => actions p.1 p.2 := by
  induction dones using List.reverseRecOn with
  | nil => rfl
  | append_singleton dones d ih =>
    obtain ⟨hdones, hd⟩ := List.forall_mem_append.mp hacts
    have hhandled : handled (dones ++ [d]) = handled dones ++
        ((commandOf d.got).map fun m => (d.turn.toBoard, m)).toList :=
      Duplex.filterMap_concat _ dones d
    rw [List.flatMap_append, List.flatMap_singleton, ih hdones, hd d (List.mem_singleton.mpr rfl),
      hhandled, List.flatMap_append]
    cases commandOf d.got with
    | none => rfl
    | some m => exact congrArg _ (List.append_nil _).symm

/-- The responses to the requests that have been handled. -/
theorem filterMap_handled (h : hs.map Prod.snd <+: requests.map Request.message) :
    (hs.filterMap fun p => answer p.1 p.2) = responses (hs.map Prod.fst) requests := by
  induction hs generalizing requests with
  | nil => rfl
  | cons p hs ih =>
    obtain _ | ⟨r, requests⟩ := requests
    · exact absurd h (by simp)
    obtain ⟨hp, hrest⟩ := List.cons_prefix_cons.mp h
    have hanswer : answer p.1 p.2 = r.response p.1 := by rw [hp, Request.answer_message]
    rw [responses, List.map_cons, List.zip_cons_cons, List.filterMap_cons, List.filterMap_cons,
      hanswer, ih hrest, responses]

/-- What they have done. -/
theorem flatMap_handled (h : hs.map Prod.snd <+: requests.map Request.message) :
    (hs.flatMap fun p => actions p.1 p.2) =
      (requests.take hs.length).flatMap Request.effects := by
  induction hs generalizing requests with
  | nil => rfl
  | cons p hs ih =>
    obtain _ | ⟨r, requests⟩ := requests
    · exact absurd h (by simp)
    obtain ⟨hp, hrest⟩ := List.cons_prefix_cons.mp h
    have hactions : actions p.1 p.2 = r.effects := by rw [hp, Request.actions_message]
    rw [List.flatMap_cons, List.length_cons, List.take_succ_cons, List.flatMap_cons, hactions,
      ih hrest]

end

section

variable [Build]

/-- The requests that have been handled are the first ones, and all of them when the session does
not wait for an ACK. -/
theorem Demo.Records.requests {evs : List Demo.Event} {dm : Demo} (h : Demo.Records evs dm)
    (htime : Duplex.InTime (shown evs)) {requests : List Request}
    (hsent : Duplex.sent (shown evs) = requests.map Request.message) :
    (handled (dones evs)).map Prod.snd <+: requests.map Request.message ∧
      (dm.duplex.session.awaiting = false → (handled (dones evs)).length = requests.length) := by
  obtain ⟨hstarts, hall⟩ := h.commands htime
  rw [← commands_handled, hsent] at hstarts hall
  refine ⟨hstarts, fun hidle => ?_⟩
  have hlen := congrArg List.length (hall hidle)
  rwa [List.length_map, List.length_map] at hlen

/-- **What is done to the pins.** A session sends requests to the firmware, over wires that lose and
damage frames, and writes its frames late. Every run exists. If no frame is written after 62 or more
later ones have been prepared, the pins have been set as the first of the requests ask, each once,
in their order; and as all of them ask, when the session does not wait for an ACK. -/
theorem demo_requests (s : Session) {st : Storage} (hst : st.payloadMaxSize = interfaceMaxSize)
    (moves : List Demo.Move) (hfits : ∀ mv ∈ moves, mv.Fits) :
    ∃ evs dm, Runs.run Demo.step (.start s st) moves = some (evs, dm) ∧
      ∀ requests : List Request, Duplex.sent (shown evs) = requests.map Request.message →
        Duplex.InTime (shown evs) →
        (dones evs).flatMap Done.acts =
            (requests.take (handled (dones evs)).length).flatMap Request.effects ∧
          (dm.duplex.session.awaiting = false →
            (dones evs).flatMap Done.acts = requests.flatMap Request.effects) := by
  obtain ⟨evs, dm, hrun, hrec⟩ := Demo.records_run s hst moves hfits
  refine ⟨evs, dm, hrun, fun requests hsent htime => ?_⟩
  obtain ⟨hstarts, hall⟩ := hrec.requests htime hsent
  rw [acts_handled hrec.acts, flatMap_handled hstarts]
  exact ⟨rfl, fun hidle => by rw [hall hidle, List.take_length]⟩

omit [Build] in
/-- Two pins are set. -/
theorem demo_requests_pins :
    letI : Build := build32
    let s : Session := ⟨0, 0, false, none, 100, 3, 0, false, [], none⟩
    let r : Request := .gpioSet 3 1
    let moves : List Demo.Move :=
      [.peer (.call (.send r.message.1 r.message.2)) rfl, .peer (.write 0) rfl,
        .turn (oddTurn 7) none, .peer (.receive false) rfl]
    ∃ evs dm, Runs.run Demo.step (.start s (.zeroed interfaceMaxSize (by decide))) moves =
        some (evs, dm) ∧
      (dones evs).flatMap Done.acts = [.digitalWrite 0 true, .digitalWrite 1 false] := by
  let _ : Build := build32
  intro s r moves
  obtain ⟨evs, dm, hrun, hpins⟩ :=
    @demo_requests _ s (.zeroed interfaceMaxSize (by decide)) rfl moves (by decide +kernel)
  have hfacts : (Runs.run Demo.step (.start s (.zeroed interfaceMaxSize (by decide))) moves).map
      (fun d => decide (Duplex.sent (shown d.1) = [r].map Request.message ∧
        Duplex.prepareds (shown d.1) ≤ 62 ∧ d.2.duplex.session.awaiting = false)) = some true := by
    decide +kernel
  rw [hrun] at hfacts
  obtain ⟨hsent, hfew, hidle⟩ := of_decide_eq_true (Option.some.inj hfacts)
  have hall := (hpins [r] hsent (.of_few hfew)).2 hidle
  exact ⟨evs, dm, hrun, hall.trans (by decide +kernel)⟩

/-- **What the peer gets.** Whatever is sent, the session hands over responses to commands in their
order. If it sends a request that is answered only after as many responses as there are such
requests before, and no frame is written after 62 or more later ones have been prepared, these are
the responses to its first requests, and to all of them when neither end waits for an ACK and no
response is queued. -/
theorem demo_answers (s : Session) {st : Storage} (hst : st.payloadMaxSize = interfaceMaxSize)
    (moves : List Demo.Move) (hfits : ∀ mv ∈ moves, mv.Fits) :
    ∃ evs dm, Runs.run Demo.step (.start s st) moves = some (evs, dm) ∧
      (Duplex.handed (shown evs)).Sublist (answers (dones evs)) ∧
      ∀ requests : List Request, Duplex.sent (shown evs) = requests.map Request.message →
        Duplex.InTime (shown evs) → Patient (shown evs) →
        let boards := (handled (dones evs)).map Prod.fst
        Duplex.handed (shown evs) <+: responses boards requests ∧
          (dm.duplex.session.awaiting = false → dm.duplex.frame.awaitingAck = false →
            dm.sketch.pending = none → boards.length = requests.length ∧
              Duplex.handed (shown evs) = responses boards requests) := by
  obtain ⟨evs, dm, hrun, hrec⟩ := Demo.records_run s hst moves hfits
  obtain ⟨hhanded, hheard⟩ := hrec.handed
  refine ⟨evs, dm, hrun, ?_, fun requests hsent htime hpatient => ?_⟩
  · exact hhanded.sublist.trans ((List.sublist_append_left _ _).trans hrec.keeps.sublist)
  obtain ⟨hstarts, hall⟩ := hrec.requests htime hsent
  have hqueue := hrec.keeps.all (hrec.unhurried htime hpatient)
  rw [answers_handled, filterMap_handled hstarts] at hqueue
  dsimp only
  rw [← hqueue]
  refine ⟨hhanded.trans (List.prefix_append _ _), fun hidle hidle' hpending => ⟨?_, ?_⟩⟩
  · rw [List.length_map, hall hidle]
  · rw [hheard hidle', hpending]
    exact (List.append_nil _).symm

omit [Build] in
/-- A request is damaged and sent again, and answered. The eight lines that are printed stand
between the ACK and the response. -/
theorem demo_answers_pins :
    letI : Build := build32
    let s : Session := ⟨0, 0, false, none, 100, 3, 0, false, [], none⟩
    let r : Request := .gpioGet 255
    let damaged := (dataFrame r.cmd 0 r.message.2).encode.dropLast ++ [1]
    let moves : List Demo.Move :=
      [.peer (.call (.send r.message.1 r.message.2)) rfl, .peer (.write 0) rfl,
        .turn (oddTurn 7) (some damaged), .peer (.receive false) rfl, .peer (.write 0) rfl,
        .turn (oddTurn 8) none] ++ List.replicate 10 (.peer (.receive false) rfl) ++
          [.turn (oddTurn 9) none]
    ∃ evs dm, Runs.run Demo.step (.start s (.zeroed interfaceMaxSize (by decide))) moves =
        some (evs, dm) ∧ ∃ b : Board, Duplex.handed (shown evs) = responses [b] [r] := by
  let _ : Build := build32
  intro s r damaged moves
  obtain ⟨evs, dm, hrun, -, hpeer⟩ :=
    @demo_answers _ s (.zeroed interfaceMaxSize (by decide)) rfl moves (by decide +kernel)
  have hfacts : (Runs.run Demo.step (.start s (.zeroed interfaceMaxSize (by decide))) moves).map
      (fun d => decide (Duplex.sent (shown d.1) = [r].map Request.message ∧
        Duplex.prepareds (shown d.1) ≤ 62 ∧ asks (Duplex.sent (shown d.1)) ≤ 1 ∧
        d.2.duplex.session.awaiting = false ∧ d.2.duplex.frame.awaitingAck = false ∧
        d.2.sketch.pending = none)) = some true := by decide +kernel
  rw [hrun] at hfacts
  obtain ⟨hsent, hfew, hone, hidle, hidle', hpending⟩ :=
    of_decide_eq_true (Option.some.inj hfacts)
  obtain ⟨hlen, hanswers⟩ :=
    (hpeer [r] hsent (.of_few hfew) (.of_one hone)).2 hidle hidle' hpending
  obtain ⟨b, hb⟩ := List.length_eq_one_iff.mp hlen
  exact ⟨evs, dm, hrun, b, by rw [hanswers, hb]⟩

end

end Firmware

end HtcwFrameArq
