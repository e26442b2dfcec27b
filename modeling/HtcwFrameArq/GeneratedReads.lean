import HtcwFrameArq.GeneratedWrites

/-!
# What the generated functions read

A generated function that reads is the reader of its codec, on any callback: it ends with the value
and the number of bytes, or with the error. An object that was valid before is valid in any case;
one that was not, such as a variable that has not been set, is when all of it has been read.
`Reading` is the invariant: which reader is left to be run.
-/

namespace HtcwFrameArq

namespace BuffersGenC

open Commands Streams

variable {σ : Type} {cbs : Callbacks σ} {valid : Bool}

/-- A function reads values by a codec, if an `int` can count their bytes. It counts the bytes in
its result or, if it is `counted`, in `*bytes_read`. If it fails, the object is `valid` still, or
still has room. -/
def Reads (cbs : Callbacks σ) (c : Codec UInt8 Int Value) (valid counted : Bool) (k : Callee σ) :
    Prop :=
  ∀ old, c.Old valid old → ∀ io,
    (((c.decode old).run (readByte cbs.read) io).taken : Int) ≤ intMax →
      (∀ v n io', (c.decode old).run (readByte cbs.read) io = ⟨.ok v, n, io'⟩ →
        k old io = some ⟨if counted then 0 else n, v, if counted then n else 0, io'⟩) ∧
      ∀ e n io', (c.decode old).run (readByte cbs.read) io = ⟨.error e, n, io'⟩ →
        e < 0 ∧ ∃ v, c.Old valid v ∧ k old io = some ⟨e, v, if counted then n else 0, io'⟩

/-! ## Scalars and enums -/

theorem reads_scalar [Platform] (cbs : Callbacks σ) {type : String} {t : Scalar} {b big : Bool}
    (h : b = big ∨ t.Single) (hwide : type = "bool" ∨ Platform.sizeof type = t.size) :
    Reads cbs (t.codec big) valid true (readCallee cbs type t b) := by
  intro old hold io _
  have hbig : t.read b = t.read big := by
    rcases h with rfl | h
    · rfl
    · cases t <;> first | rfl | cases h
  rw [readCallee, hbig, Scalar.read_eq t big old]
  refine ⟨fun v n io' hrun => ?_, fun e n io' hrun => ⟨?_, old, hold, ?_⟩⟩
  · have hv : (t.codec big).Valid v :=
      (((t.codec big).decode_ensures hold.room).run io).2 v (by rw [hrun])
    rw [hrun]
    dsimp only
    rw [stored_eq hwide hv]
    rfl
  · exact (t.codec_fails big old (· < 0)).run (fun _ _ _ => readByte_neg) hrun
  · rw [hrun]
    rfl

/-- An enum is read as its wire type is. -/
theorem reads_enum [Platform] {env : Env σ} {f : EnumFn} {t : Scalar} {b big : Bool}
    (henv : env f.callee = some (readCallee cbs f.wireType t b)) (hkind : f.kind = .read)
    (h : b = big ∨ t.Single) (hwide : Platform.sizeof f.wireType = t.size) (ht : t ≠ .bool)
    (hsize : t.size = wireSize f.wireType) :
    Reads cbs (enumCodec f.wireType big) valid true (f.run env) := by
  intro old hold io hmax
  have hdecode : (enumCodec f.wireType big).decode old =
      ((t.codec big).decode (.bits 0)).map fun v => .enum (signExtend f.wireType v.toBits) := by
    have hbits (n : ℕ) : (bitsCodec n big).decode (.bits 0) = ((Reader.take n).map fun bs =>
      Codec.ofLowBytes (Codec.ordered big bs)).map .bits := rfl
    rw [Scalar.codec_eq ht, hsize, hbits, Reader.map_map, Reader.map_map]
    rfl
  have hzero : (t.codec big).Valid (.bits 0) := by
    rw [Scalar.codec_eq ht]
    exact ⟨0, rfl, Nat.pow_pos (by decide)⟩
  have hscalar := @reads_scalar _ true _ cbs _ t b big h (.inr hwide) _ hzero io
  rw [hdecode] at hmax
  rw [EnumFn.run, henv, hkind, hdecode]
  dsimp only [bind, Option.bind]
  rcases hrun : ((t.codec big).decode (.bits 0)).run (readByte cbs.read) io with ⟨e | v, n, io'⟩
  · have hfail := Reader.run_map_error hrun fun v : Value =>
      Value.enum (signExtend f.wireType v.toBits)
    rw [hfail] at hmax ⊢
    rw [hrun] at hscalar
    obtain ⟨hneg, v, hv, hk⟩ := (hscalar hmax).2 e n io' rfl
    refine ⟨by rintro _ _ _ ⟨⟩, fun _ _ _ h => ?_⟩
    cases h
    refine ⟨hneg, old, hold, ?_⟩
    rw [hk]
    dsimp only
    rw [if_pos hneg]
  · have hok := Reader.run_map_ok hrun fun v : Value =>
      Value.enum (signExtend f.wireType v.toBits)
    rw [hok] at hmax ⊢
    rw [hrun] at hscalar
    have hk := (hscalar hmax).1 v n io' rfl
    refine ⟨fun _ _ _ h => ?_, by rintro _ _ _ ⟨⟩⟩
    cases h
    rw [hk]
    rfl

/-! ## Calls -/

/-- The statements of a call that reads. -/
def readStmts (fn : String) (arg : Arg) (counted : Bool) : List Stmt :=
  .call fn arg counted :: .check :: if counted then [] else [.add]

/-- The reader `q` is left to be run; the whole run is `R`. -/
structure Reading (cbs : Callbacks σ) (R : Ran Int (List Value) σ)
    (q : Reader UInt8 Int (List Value)) (s : Frame σ) : Prop where
  total : 0 ≤ s.total
  run : R = (q.run (readByte cbs.read) s.io).after s.total.toNat

/-- The run has ended with an error; the object is `valid`, or has room. -/
structure Failed (valid : Bool) (cs : List (Codec UInt8 Int Value)) (R : Ran Int (List Value) σ)
    (r : Int) (s : Frame σ) : Prop where
  neg : r < 0
  obj : Codec.OldAll valid cs s.obj
  run : ∃ n, R = ⟨.error r, n, s.io⟩

/-- Either there is more to read, or reading has failed. -/
def readPost (valid : Bool) (cs : List (Codec UInt8 Int Value)) (R : Ran Int (List Value) σ)
    (next : Frame σ → Prop) : Post (Frame σ) Int := ⟨next, fun _ => False, Failed valid cs R⟩

/-- Two frames differ at most in what a call changes besides its argument. -/
structure SameObject (s s' : Frame σ) : Prop where
  obj : s'.obj = s.obj
  len : s'.len = s.len
  i : s'.i = s.i

section

variable {names : List String} {env : Env σ} {cs : List (Codec UInt8 Int Value)}
  {R : Ran Int (List Value) σ} {c : Codec UInt8 Int Value}

variable (valid) in
/-- A call, the check of its result and the addition of its bytes: the value is in its place. -/
theorem readCall_triple (names : List String) (cs : List (Codec UInt8 Int Value)) (arg : Arg)
    {P : Frame σ → Prop} {fn : String} {part counted : Bool} {k : Callee σ}
    {f : Value → Reader UInt8 Int (List Value)} (hk : env fn = some k)
    (hreads : Reads cbs c part counted k) (hmax : (R.taken : Int) ≤ intMax)
    (hP : ∀ s, P s → ∃ old, s.arg names arg = some old ∧ c.Old part old ∧
      Reading cbs R ((c.decode old).bind f) s)
    (hvalid : ∀ s v, P s → c.Old part v → Codec.OldAll valid cs (s.store names arg v).obj) :
    Triple (machine names env) P (.acts (readStmts fn arg counted))
      (readPost valid cs R fun s' => ∃ s v, P s ∧ c.Valid v ∧ SameObject (s.store names arg v) s' ∧
        Reading cbs R (f v) s') := by
  intro s hs
  obtain ⟨old, harg, hold, hreading⟩ := hP s hs
  have hrun := hreading.run
  have htotal := hreading.total
  rcases hdec : (c.decode old).run (readByte cbs.read) s.io with ⟨e | v, n, io'⟩
  · -- the callback or the text has failed
    rw [Reader.run_bind_error hdec] at hrun
    have htaken : R.taken = n + s.total.toNat := by rw [hrun]; rfl
    obtain ⟨hneg, v, hv, hcall⟩ :=
      (hreads old hold s.io (by rw [hdec]; dsimp only; omega)).2 e n io' hdec
    have hfail : Failed valid cs R e
        { s.store names arg v with
          res := some e, total := if counted then s.total + n else s.total, io := io' } :=
      ⟨hneg, hvalid s v hs hv, _, hrun⟩
    cases counted with
    | true =>
      simp only [readStmts, Code.acts, Code.all, List.map_cons, List.map_nil, Code.exec, machine,
        Stmt.exec, hk, harg, hcall, bind, Option.bind, if_true]
      rw [if_pos (by omega)]
      dsimp only
      rw [if_pos hneg]
      exact ⟨.exit e, _, rfl, hfail⟩
    | false =>
      simp only [readStmts, Code.acts, Code.all, List.map_cons, List.map_nil, Code.exec, machine,
        Stmt.exec, hk, harg, hcall, bind, Option.bind, Bool.false_eq_true, if_false]
      rw [if_pos (by omega)]
      dsimp only
      rw [if_pos hneg]
      exact ⟨.exit e, _, rfl, hfail⟩
  · rw [Reader.run_bind_ok hdec, Ran.after_after] at hrun
    have htaken : n + s.total.toNat ≤ R.taken := by
      rw [hrun]
      exact Nat.le_add_left _ _
    have hcall := (hreads old hold s.io (by rw [hdec]; dsimp only; omega)).1 v n io' hdec
    have hv : c.Valid v := ((c.decode_ensures hold.room).run s.io).2 v (by rw [hdec])
    have hafter : (s.total + n).toNat = n + s.total.toNat := by omega
    cases counted with
    | true =>
      simp only [readStmts, Code.acts, Code.all, List.map_cons, List.map_nil, Code.exec, machine,
        Stmt.exec, hk, harg, hcall, bind, Option.bind, if_true]
      rw [if_pos (by omega)]
      refine ⟨.next, _, rfl, s, v, hs, hv, ⟨rfl, rfl, rfl⟩, by dsimp only; omega, ?_⟩
      rw [hrun, hafter]
    | false =>
      simp only [readStmts, Code.acts, Code.all, List.map_cons, List.map_nil, Code.exec, machine,
        Stmt.exec, hk, harg, hcall, bind, Option.bind, Bool.false_eq_true, if_false]
      rw [if_pos (by omega)]
      dsimp only
      rw [if_neg (by omega)]
      dsimp only
      rw [if_pos (by omega)]
      refine ⟨.next, _, rfl, s, v, hs, hv, ⟨rfl, rfl, rfl⟩, by dsimp only; omega, ?_⟩
      rw [hrun, hafter]

/-! ## Elements -/

/-- The object with an array in its `j`th field. -/
def withArray (obj : List Value) (j : ℕ) (as : List Value) : List Value := obj.set j (.array as)

theorem putItem_withArray {s : Frame σ} {obj as : List Value} {name : String} {i : ℕ} {v : Value}
    (hobj : s.obj = withArray obj (names.idxOf name) as) :
    (s.putItem names name i v).obj = withArray obj (names.idxOf name) (as.set i v) := by
  rw [Frame.putItem, hobj, withArray, withArray]
  refine List.ext_getElem? fun j => ?_
  rw [List.getElem?_modify, List.getElem?_set, List.getElem?_set]
  split_ifs with hj hlen
  · rfl
  · rfl
  · exact Option.map_id'

/-- The first elements of an array, one after the other. -/
theorem readItems_triple {b : Bound} {name fn : String} {part counted : Bool} {k : Callee σ} {n : ℕ}
    {as obj : List Value} {f : List Value → Reader UInt8 Int (List Value)} {l : Option ℕ}
    (hk : env fn = some k) (hreads : Reads cbs c part counted k) (hmax : (R.taken : Int) ≤ intMax)
    (hget : obj[names.idxOf name]? = some (.array as)) (hn : n ≤ as.length)
    (hold : ∀ a ∈ as, c.Old part a)
    (hvalid : ∀ bs, bs.length = as.length → (∀ a ∈ bs, c.Old part a) →
      Codec.OldAll valid cs (withArray obj (names.idxOf name) bs))
    (hbound : ∀ s : Frame σ, s.len = l → b.times s = some n) :
    Triple (machine names env)
      (fun s => s.obj = obj ∧ s.len = l ∧
        Reading cbs R ((Codec.decodeAll (List.replicate n c) as).bind f) s)
      (.loop b (.acts (readStmts fn (.place (.item name) true) counted)))
      (readPost valid cs R fun s => ∃ bs, bs.length = n ∧ (∀ a ∈ bs, c.Valid a) ∧
        s.obj = withArray obj (names.idxOf name) (bs ++ as.drop n) ∧ s.len = l ∧
        Reading cbs R (f bs) s) := by
  refine (Triple.loop (n := n) (I := fun i s => ∃ bs, bs.length = i ∧ (∀ a ∈ bs, c.Valid a) ∧
      s.obj = withArray obj (names.idxOf name) (bs ++ as.drop i) ∧ s.len = l ∧
      Reading cbs R ((Codec.decodeAll (List.replicate (n - i) c) (as.drop i)).bind fun rest =>
        f (bs ++ rest)) s)
    (B := fun _ => False) (E := Failed valid cs R) (Q := readPost valid cs R fun _ => True)
    ?_ ?_ ?_ (fun _ h => h.elim) (fun _ _ h => h)).pre ?_
  · rintro s ⟨bs, -, -, -, hlen, -⟩
    exact hbound s hlen
  · rintro i hi s ⟨s₀, ⟨bs, hlen, hbs, hobj₀, hl₀, hreading₀⟩, hcount⟩
    have hobj : s.obj = withArray obj (names.idxOf name) (bs ++ as.drop i) := hcount ▸ hobj₀
    have hl : s.len = l := hcount ▸ hl₀
    have hi' : s.i = i := by rw [hcount]; rfl
    have hreading : Reading cbs R ((Codec.decodeAll (List.replicate (n - i) c)
        (as.drop i)).bind fun rest => f (bs ++ rest)) s := hcount ▸ ⟨hreading₀.total, hreading₀.run⟩
    have hdrop : as.drop i = as[i] :: as.drop (i + 1) := List.drop_eq_getElem_cons (by omega)
    have hrep : List.replicate (n - i) c = c :: List.replicate (n - (i + 1)) c := by
      rw [← List.replicate_succ]
      congr 1
      omega
    rw [hdrop, hrep, Codec.decodeAll, Reader.bind_assoc] at hreading
    simp only [Reader.map_bind] at hreading
    have harg : s.get names (.item name) = some as[i] := by
      have hj : names.idxOf name < obj.length := (List.getElem?_eq_some_iff.mp hget).1
      rw [Frame.get, hobj, withArray, List.getElem?_set_self hj, hi']
      refine (List.getElem?_append_right (by omega)).trans ?_
      rw [hdrop, hlen, Nat.sub_self]
      rfl
    have hput (v : Value) : (s.put names (.item name) v).obj =
        withArray obj (names.idxOf name) ((bs ++ [v]) ++ as.drop (i + 1)) := by
      have hset : (bs ++ as[i] :: as.drop (i + 1)).set i v = bs ++ v :: as.drop (i + 1) := by
        rw [List.set_append_right _ _ (by omega), hlen, Nat.sub_self, List.set_cons_zero]
      rw [Frame.put, putItem_withArray hobj, hi', hdrop, hset, List.append_assoc]
      rfl
    have hbs' (v : Value) (hv : c.Valid v) : ∀ a ∈ bs ++ [v], c.Valid a := by
      intro a ha
      rcases List.mem_append.mp ha with ha | ha
      · exact hbs a ha
      · rwa [List.mem_singleton.mp ha]
    obtain ⟨fl, s', hexec, hpost⟩ := readCall_triple valid names cs (.place (.item name) true)
      (P := fun s' => s' = s) (f := fun v =>
        (Codec.decodeAll (List.replicate (n - (i + 1)) c) (as.drop (i + 1))).bind
          fun rest => f (bs ++ v :: rest)) hk hreads hmax
      (fun s' hs' => by
        subst hs'
        exact ⟨as[i], harg, hold _ (List.getElem_mem _), hreading⟩)
      (fun s' v hs' hv => by
        subst hs'
        rw [Frame.store, hput]
        refine hvalid _ ?_ fun a ha => ?_
        · simp
          omega
        · rcases List.mem_append.mp ha with ha | ha
          · rcases List.mem_append.mp ha with ha | ha
            · exact Codec.old_of_valid (hbs a ha)
            · rwa [List.mem_singleton.mp ha]
          · exact hold a (List.mem_of_mem_drop ha)) s rfl
    refine ⟨fl, s', hexec, ?_⟩
    cases fl with
    | next =>
      obtain ⟨_, v, rfl, hv, hsame, hread⟩ := hpost
      refine ⟨bs ++ [v], by simp [hlen], hbs' v hv, ?_, ?_, ?_⟩
      · rw [hsame.obj, Frame.store, hput]
      · rw [hsame.len]
        exact hl
      · simpa using hread
    | stop => exact hpost
    | exit r => exact hpost
  · rintro s ⟨bs, hlen, hbs, hobj, hl, hreading⟩
    rw [Nat.sub_self, List.replicate_zero, Codec.decodeAll, Reader.bind_done,
      List.append_nil] at hreading
    · exact ⟨bs, hlen, hbs, hobj, hl, hreading⟩
    · simp
  · rintro s ⟨hobj, hl, hreading⟩
    refine ⟨[], rfl, by simp, ?_, hl, ?_⟩
    · rw [hobj, withArray, List.nil_append, List.drop_zero]
      obtain ⟨hj, heq⟩ := List.getElem?_eq_some_iff.mp hget
      rw [← heq, List.set_getElem_self]
    · simpa using hreading

/-- A text: its length, which is checked, its characters, and the terminator. -/
theorem readText_triple {lpType var name fn fn' : String} {wide counted : Bool} {k k' : Callee σ}
    {n p size : ℕ} {big : Bool} {as obj : List Value} {f : Value → Reader UInt8 Int (List Value)}
    (hk : env fn = some k) (hreads : Reads cbs (bitsCodec p big) true true k)
    (hk' : env fn' = some k') (hreads' : Reads cbs (bitsCodec size big) true counted k')
    (hmax : (R.taken : Int) ≤ intMax) (htext : 0 < size ∧ n < 256 ^ p) (hint : (n : Int) ≤ intMax)
    (hget : obj[names.idxOf name]? = some (.array as))
    (hold : (textCodec size n p big).Valid (.array as))
    (hobj : Codec.OldAll valid cs obj)
    (hvalid : ∀ w, (textCodec size n p big).Valid w →
      Codec.OldAll valid cs (obj.set (names.idxOf name) w)) :
    Triple (machine names env)
      (fun s => s.obj = obj ∧
        Reading cbs R (((textCodec size n p big).decode (.array as)).bind f) s)
      (.block (.all [
        .act (.declare lpType var false),
        .acts (readStmts fn (.var var true) true),
        .act (.checkLen var n),
        .loop (.var var) (.acts (readStmts fn' (.place (.item name) true) counted)),
        .act (.terminate name var n wide)]))
      (readPost valid cs R fun s => ∃ w, (textCodec size n p big).Valid w ∧
        s.obj = obj.set (names.idxOf name) w ∧ Reading cbs R (f w) s) := by
  obtain ⟨hlen, hitems⟩ := (textCodec_valid htext).mp hold
  rw [textCodec_decode htext, Reader.bind_assoc]
  set F : Value → Reader UInt8 Int (List Value) := fun v => (if n < v.toBits
    then .fail buffersErrorEof
    else (Codec.decodeAll (List.replicate v.toBits (bitsCodec size big)) as).map fun bs =>
      Value.array (bs ++ afterText n v.toBits as)).bind f with hF
  refine Triple.block (Triple.seq (R := fun s => s.obj = obj ∧ s.len = none ∧
    Reading cbs R (((bitsCodec p big).decode (.bits 0)).bind F) s) ?_
    (Triple.seq (R := fun s => ∃ v, s.obj = obj ∧ s.len = some v.toBits ∧ Reading cbs R (F v) s) ?_
    (Triple.seq (R := fun s => ∃ k, k ≤ n ∧ s.obj = obj ∧ s.len = some k ∧
      Reading cbs R ((Codec.decodeAll (List.replicate k (bitsCodec size big)) as).bind fun bs =>
        f (.array (bs ++ afterText n k as))) s) ?_
    (Triple.seq (R := fun s => ∃ k, k ≤ n ∧ ∃ bs, bs.length = k ∧
      (∀ a ∈ bs, (bitsCodec size big).Valid a) ∧
      s.obj = withArray obj (names.idxOf name) (bs ++ as.drop k) ∧ s.len = some k ∧
      Reading cbs R (f (.array (bs ++ afterText n k as))) s) ?_
    (Triple.seq (R := fun s => ∃ w, (textCodec size n p big).Valid w ∧
      s.obj = obj.set (names.idxOf name) w ∧ Reading cbs R (f w) s) ?_ ?_)))))
  · refine Triple.act_next ?_
    rintro s ⟨hobj, hreading⟩
    exact ⟨_, rfl, hobj, rfl, hreading.total, hreading.run⟩
  · refine (readCall_triple valid names cs (.var var true) (f := F) hk hreads hmax
      ?_ ?_).post ?_
    · rintro s ⟨-, hnone, hreading⟩
      exact ⟨.bits 0, by rw [Frame.arg, hnone]; rfl, ⟨0, rfl, Nat.pow_pos (by decide)⟩, hreading⟩
    · rintro s v ⟨rfl, -⟩ -
      exact hobj
    · rintro fl s' hpost
      cases fl with
      | next =>
        obtain ⟨s, v, ⟨hobj, -⟩, -, hsame, hreading⟩ := hpost
        exact ⟨v, by rw [hsame.obj]; exact hobj, hsame.len, hreading⟩
      | stop => exact hpost
      | exit r => exact hpost
  · refine Triple.act ?_
    rintro s ⟨v, hobj', hl, hreading⟩
    simp only [machine, Stmt.exec, hl, bind, Option.bind]
    by_cases hlong : n < v.toBits
    · -- the text is too long
      rw [if_pos hlong]
      refine ⟨_, _, rfl, by decide, hobj' ▸ hobj, 0 + s.total.toNat, hreading.run.trans ?_⟩
      rw [hF]
      dsimp only
      rw [if_pos hlong]
      rfl
    · rw [if_neg hlong]
      refine ⟨_, _, rfl, v.toBits, Nat.le_of_not_lt hlong, hobj', hl, hreading.total, ?_⟩
      rw [hreading.run, hF]
      dsimp only
      rw [if_neg hlong, Reader.map_bind]
  · refine Triple.exists_pre (Q := readPost valid cs R fun _ => True) fun k => ?_
    rintro s ⟨hkn, hobj', hl, hreading⟩
    obtain ⟨fl, s', hexec, hpost⟩ := readItems_triple (b := .var var) (l := some k) (n := k)
      (f := fun bs => f (.array (bs ++ afterText n k as))) hk' hreads' hmax hget (by omega) hitems
      (fun bs hbs hall => hvalid _ ((textCodec_valid htext).mpr ⟨by omega, hall⟩))
      (fun s hs => by rw [Bound.times, hs, Option.map_some, if_pos (by omega)]) s
      ⟨hobj', hl, hreading⟩
    refine ⟨fl, s', hexec, ?_⟩
    cases fl with
    | next => exact ⟨hkn, hpost⟩
    | stop => exact hpost
    | exit r => exact hpost
  · refine Triple.act_next ?_
    rintro s ⟨k, hkn, bs, hbs, hall, hobj', hl, hreading⟩
    have hset : (if k < n then s.putItem names name k (.bits 0) else s).obj =
        withArray obj (names.idxOf name) (bs ++ afterText n k as) := by
      rw [afterText]
      split_ifs with hroom
      · rw [putItem_withArray hobj', List.set_append_right _ _ (by omega), hbs, Nat.sub_self,
          List.drop_eq_getElem_cons (by omega), List.set_cons_zero]
      · rw [hobj', List.drop_eq_nil_of_le (by omega)]
    have hafter : (textCodec size n p big).Valid (.array (bs ++ afterText n k as)) := by
      rw [textCodec, dif_pos htext]
      have hold' : (textParts size n p big htext).Valid as :=
        Codec.validAll_replicate.mpr ⟨hlen, hitems⟩
      exact ⟨_, rfl, Codec.Text.rest_valid hold' hkn (Codec.validAll_replicate.mpr ⟨hbs, hall⟩)⟩
    have hsame : ∀ t : Frame σ, Reading cbs R (f (.array (bs ++ afterText n k as))) t →
        Reading cbs R (f (.array (bs ++ afterText n k as)))
          (if k < n then t.putItem names name k (.bits 0) else t) := by
      intro t ht
      split_ifs
      · exact ⟨ht.total, ht.run⟩
      · exact ht
    refine ⟨_, ?_, _, hafter, hset, hsame s hreading⟩
    simp only [machine, Stmt.exec, hl, bind, Option.bind]
  · exact fun s hs => ⟨.next, s, rfl, hs⟩

end

/-! ## Fields -/

/-- On the platform the type of each scalar field is as wide as its wire type, so that an object
holds what is sent of it, and no more. -/
def Structs.AsWide [Platform] (structs : Structs) : Prop :=
  ∀ s ∈ structs, ∀ f ∈ s.2, f.isEnum = false → f.wireType ∉ structs.map Prod.fst →
    f.type = "bool" ∨ Platform.sizeof f.type = wireSize f.wireType

section

variable [Platform] {knownEnums : List (String × String)} {structs : Structs} {userPrefix : String}
  {fixedMode big : Bool} {p : List Def} {depth : ℕ} {nested : String → Codec UInt8 Int Value}

/-- The structs are read by functions of the program. -/
def ReadsNested (cbs : Callbacks σ) (valid : Bool) (structs : Structs) (userPrefix : String)
    (env : Env σ) (nested : String → Codec UInt8 Int Value) : Prop :=
  ∀ name ∈ structs.map Prod.fst, ∃ k, env (readFnName userPrefix name) = some k ∧
    Reads cbs (nested name) valid false k

variable (nested) in
/-- What is generated for a scalar reads it. -/
theorem genReadCall_scalar (hc : Compiled knownEnums structs userPrefix fixedMode big p)
    (hwide : structs.AsWide) (cbs : Callbacks σ) (depth : ℕ) {s : String × List Field}
    (hs : s ∈ structs) {f : Field} (hf : f ∈ s.2) (henum : f.isEnum = false)
    (hnot : f.wireType ∉ structs.map Prod.fst) (pl : Place) :
    ∃ fn k, genReadCall (optionsFor userPrefix structs fixedMode big) f pl =
        readStmts fn (.place pl true) true ∧
      programEnv cbs p depth fn = some k ∧
      ∀ valid, Reads cbs (itemCodec structs big nested f) valid true k := by
  have hkind := hc.wellFormed.kinds s hs f hf
  have hnames : (optionsFor userPrefix structs fixedMode big).allStructNames =
      structs.map Prod.fst := rfl
  obtain ⟨t, b, hreach, henv⟩ := hc.scalar (hc.callable s hs f hf henum hnot)
  have hwire : f.wireType = wireOf f.type := by
    cases hkind with
    | scalar _ htype => rw [wireOf, htype]; rfl
    | enum h _ => rw [henum] at h; cases h
    | struct _ _ hmem _ => exact absurd hmem hnot
  have hsize : f.type = "bool" ∨ Platform.sizeof f.type = t.size := by
    rw [hreach.size, ← hwire]
    exact hwide s hs f hf henum hnot
  refine ⟨_, _, ?_, (henv cbs depth).1, fun valid => ?_⟩
  · rw [genReadCall, hnames, if_neg hnot, if_neg (by simp [henum])]
    rfl
  · rw [itemCodec_scalar hkind henum hnot hreach]
    exact reads_scalar cbs hreach.order hsize

/-- What `gen_read_call` generates reads an element by its codec. -/
theorem genReadCall_reads (hc : Compiled knownEnums structs userPrefix fixedMode big p)
    (hwide : structs.AsWide)
    (hnested : ReadsNested cbs valid structs userPrefix (programEnv cbs p (depth + 1)) nested)
    {s : String × List Field} (hs : s ∈ structs) {f : Field} (hf : f ∈ s.2) (pl : Place) :
    ∃ fn counted k, genReadCall (optionsFor userPrefix structs fixedMode big) f pl =
        readStmts fn (.place pl true) counted ∧
      programEnv cbs p (depth + 1) fn = some k ∧
      Reads cbs (itemCodec structs big nested f) valid counted k := by
  have hkind := hc.wellFormed.kinds s hs f hf
  have hnames : (optionsFor userPrefix structs fixedMode big).allStructNames =
      structs.map Prod.fst := rfl
  rcases hkind.wire_or_struct hc.wellFormed with ⟨-, hnot⟩ | ⟨-, hmem⟩
  · cases henum : f.isEnum with
    | true =>
      have hwire := hkind.enum_wire hc.wellFormed henum
      obtain ⟨t, b, hreach, henv⟩ := hc.scalar (callable_of_enum hwire)
      obtain ⟨hbool, hsize⟩ := hreach.enum hwire
      obtain ⟨hdef, -⟩ := generateC_enum hc.wellFormed hc.generated hs hf henum
      refine ⟨_, true, _, ?_, programEnv_def hc.linked hdef depth, ?_⟩
      · rw [genReadCall, hnames, if_neg hnot, if_pos henum]
        rfl
      · rw [itemCodec, if_neg hnot, if_pos henum]
        exact reads_enum (f := genEnumReadFn _ f.type f.wireType) (henv cbs depth).1 rfl
          hreach.order ((wideOf_enum hwire).trans hsize.symm) hbool hsize
    | false =>
      obtain ⟨fn, k, hcall, hk, hreads⟩ :=
        genReadCall_scalar nested hc hwide cbs (depth + 1) hs hf henum hnot pl
      exact ⟨fn, true, k, hcall, hk, hreads valid⟩
  · obtain ⟨k, hk, hreads⟩ := hnested _ hmem
    refine ⟨_, false, k, ?_, hk, ?_⟩
    · rw [genReadCall, hnames, if_pos hmem]
      rfl
    · rw [itemCodec, if_pos hmem]
      exact hreads

variable {cs : List (Codec UInt8 Int Value)} {R : Ran Int (List Value) σ} {obj : List Value}

/-- **What is generated for a field** reads its value. -/
theorem genReadField_triple (hc : Compiled knownEnums structs userPrefix fixedMode big p)
    (hwide : structs.AsWide)
    (hnested : ReadsNested cbs valid structs userPrefix (programEnv cbs p (depth + 1)) nested)
    {s : String × List Field} (hs : s ∈ structs) {f : Field} (hf : f ∈ s.2) {names : List String}
    {code : Code Stmt Bound} {v : Value} {F : Value → Reader UInt8 Int (List Value)}
    (hcode : genReadField (optionsFor userPrefix structs fixedMode big) f = .ok code)
    (hget : obj[names.idxOf f.name]? = some v)
    (hold : (fieldCodec structs fixedMode big nested f).Old valid v)
    (hobj : Codec.OldAll valid cs obj)
    (hset : ∀ w, (fieldCodec structs fixedMode big nested f).Old valid w →
      Codec.OldAll valid cs (obj.set (names.idxOf f.name) w))
    (hmax : (R.taken : Int) ≤ intMax) :
    Triple (machine names (programEnv cbs p (depth + 1)))
      (fun s => s.obj = obj ∧
        Reading cbs R (((fieldCodec structs fixedMode big nested f).decode v).bind F) s) code
      (readPost valid cs R fun s => ∃ w, (fieldCodec structs fixedMode big nested f).Valid w ∧
        s.obj = obj.set (names.idxOf f.name) w ∧ Reading cbs R (F w) s) := by
  have hmode : (optionsFor userPrefix structs fixedMode big).fixedMode = fixedMode := rfl
  rw [fieldCodec] at hold hset ⊢
  rw [genReadField, hmode] at hcode
  cases hlen : f.arrayLen with
  | none =>
    rw [hlen] at hcode hold hset
    cases hcode
    obtain ⟨fn, counted, k, hcall, hk, hreads⟩ :=
      genReadCall_reads hc hwide hnested hs hf (.field f.name)
    rw [hcall]
    refine (readCall_triple valid names cs (.place (.field f.name) true) hk hreads hmax
      (fun s hs => ⟨v, by rw [Frame.arg, Frame.get, hs.1, hget], hold, hs.2⟩)
      (fun s w hs hw => by rw [Frame.store, Frame.put, hs.1]; exact hset w hw)).post ?_
    rintro fl s' hpost
    cases fl with
    | next =>
      obtain ⟨s, w, ⟨hobj', -⟩, hw, hsame, hreading⟩ := hpost
      exact ⟨w, hw, by rw [hsame.obj, Frame.store, Frame.put, hobj'], hreading⟩
    | stop => exact hpost
    | exit r => exact hpost
  | some n =>
    rw [hlen] at hcode hold hset
    dsimp only at hcode hold hset ⊢
    have hint := hc.arrays s hs f hf n hlen
    by_cases hfixed : fixedMode = true ∨ fieldIsString f = false
    · rw [if_pos hfixed] at hcode hold hset ⊢
      cases hcode
      obtain ⟨fn, counted, k, hcall, hk, hreads⟩ :=
        genReadCall_reads hc hwide hnested hs hf (.item f.name)
      obtain ⟨as, rfl, rfl, has⟩ := arrayCodec_old.mp hold
      rw [hcall]
      have harray (bs : List Value) (hbs : bs.length = as.length)
          (hall : ∀ a ∈ bs, (itemCodec structs big nested f).Old valid a) :
          (arrayCodec as.length (itemCodec structs big nested f)).Old valid (.array bs) :=
        arrayCodec_old.mpr ⟨bs, rfl, hbs, hall⟩
      rintro s ⟨hobj', hreading⟩
      have hmap : ((arrayCodec as.length (itemCodec structs big nested f)).decode
          (.array as)).bind F = (Codec.decodeAll (List.replicate as.length
            (itemCodec structs big nested f)) as).bind fun bs => F (.array bs) :=
        Reader.map_bind _ _ _
      rw [hmap] at hreading
      obtain ⟨fl, s', hexec, hpost⟩ := readItems_triple (b := .lit as.length) (l := s.len)
        (f := fun bs => F (.array bs)) hk hreads hmax hget le_rfl has
        (fun bs hbs hall => hset _ (harray bs hbs hall)) (fun _ _ => if_pos hint) s
        ⟨hobj', rfl, hreading⟩
      refine ⟨fl, s', hexec, ?_⟩
      cases fl with
      | next =>
        obtain ⟨bs, hbs, hall, hobj'', -, hread⟩ := hpost
        rw [List.drop_length, List.append_nil] at hobj''
        have hvalid : (arrayCodec as.length (itemCodec structs big nested f)).Valid (.array bs) :=
          ⟨bs, rfl, Codec.validAll_replicate.mpr ⟨hbs, hall⟩⟩
        exact ⟨.array bs, hvalid, hobj'', hread⟩
      | stop => exact hpost
      | exit r => exact hpost
    · rw [if_neg hfixed] at hcode hold hset ⊢
      have htext : fieldIsString f = true := by simpa using (not_or.mp hfixed).2
      have hkind := hc.wellFormed.kinds s hs f hf
      obtain ⟨henum, -, hnot, hpos⟩ := fieldIsString_scalar hc.wellFormed hkind htext
      obtain ⟨fn, k, hcall, hk, hreads⟩ := genReadCall_scalar nested hc hwide cbs
        (depth + 1) hs hf henum hnot (.item f.name)
      rw [itemCodec_text hc.wellFormed hkind htext] at hreads
      rcases htype : lengthPrefixType n with msg | lpType
      · rw [htype] at hcode
        cases hcode
      · obtain ⟨hsize, t, b, horder, hwide', hcodec, henv⟩ := hc.lengthPrefix htype
        have hprefix := @reads_scalar _ true _ cbs _ _ _ _ horder (.inr hwide')
        rw [hcodec] at hprefix
        rw [htype] at hcode
        cases hcode
        rw [hsize] at hold hset ⊢
        have hfits : 0 < wireSize f.wireType ∧ n < 256 ^ wireSize lpType :=
          ⟨hpos, lengthPrefixSize_lt hsize⟩
        have hold := (textCodec_old hfits).mp hold
        obtain ⟨as, rfl⟩ := textCodec_array hfits hold
        rw [hcall]
        exact readText_triple (henv cbs (depth + 1)).1 hprefix hk (hreads true) hmax hfits hint hget
          hold hobj fun w hw => hset w ((textCodec_old hfits).mpr hw)

/-! ## Functions -/

/-- The first fields have been read, the others are to be read. -/
structure FieldsRead (cbs : Callbacks σ) (cs : List (Codec UInt8 Int Value))
    (R : Ran Int (List Value) σ) (olds : List Value) (i : ℕ) (ws : List Value) (s : Frame σ) :
    Prop where
  length : ws.length = i
  valid : Codec.ValidAll (cs.take i) ws
  obj : s.obj = ws ++ olds.drop i
  reading : Reading cbs R
    ((Codec.decodeAll (cs.drop i) (olds.drop i)).map fun rest => ws ++ rest) s

omit [Platform] in
/-- All fields have been read. -/
theorem FieldsRead.all {cs : List (Codec UInt8 Int Value)} {R : Ran Int (List Value) σ}
    {olds ws : List Value} {s : Frame σ} (h : FieldsRead cbs cs R olds cs.length ws s)
    (hold : Codec.OldAll valid cs olds) :
    0 ≤ s.total ∧ s.obj = ws ∧ R = ⟨.ok ws, s.total.toNat, s.io⟩ := by
  have hnil : olds.drop cs.length = [] := List.drop_of_length_le (Nat.le_of_eq hold.length_eq.symm)
  have hobj := h.obj
  have hrun := h.reading.run
  rw [hnil, List.append_nil] at hobj
  have hdone : Codec.decodeAll ([] : List (Codec UInt8 Int Value)) [] = .done [] := rfl
  rw [hnil, List.drop_length, hdone, Reader.map, Reader.bind_done, Reader.run, Ran.after,
    List.append_nil, Nat.zero_add] at hrun
  exact ⟨h.reading.total, hobj, hrun⟩

/-- What is generated for the fields reads their values, one after the other. -/
theorem genReadFields_triple {olds : List Value}
    (hc : Compiled knownEnums structs userPrefix fixedMode big p) (hwide : structs.AsWide)
    (hnested : ReadsNested cbs valid structs userPrefix (programEnv cbs p (depth + 1)) nested)
    {name : String} {fields : List Field} (hs : (name, fields) ∈ structs)
    {codes : List (Code Stmt Bound)}
    (hcodes : List.Forall₂ (fun f code =>
      genReadField (optionsFor userPrefix structs fixedMode big) f = .ok code) fields codes)
    (hcs : cs = fieldCodecs structs fixedMode big nested fields)
    (hold : Codec.OldAll valid cs olds) (hmax : (R.taken : Int) ≤ intMax) :
    Triple (machine (fields.map Field.name) (programEnv cbs p (depth + 1)))
      (fun s => ∃ ws, FieldsRead cbs cs R olds 0 ws s) (.all codes)
      (readPost valid cs R fun s => ∃ ws, FieldsRead cbs cs R olds codes.length ws s) := by
  have hlen := hcodes.length_eq
  have holds := hold.length_eq
  have hcslen : cs.length = fields.length := by rw [hcs]; exact List.length_map _
  refine Triple.all (I := fun i s => ∃ ws, FieldsRead cbs cs R olds i ws s)
    (Q := readPost valid cs R fun _ => True) fun i hi => ?_
  have hfi : i < fields.length := by omega
  have hci : i < cs.length := by omega
  have hoi : i < olds.length := by omega
  have hdropc : cs.drop i = cs[i] :: cs.drop (i + 1) := List.drop_eq_getElem_cons hci
  have hdropo : olds.drop i = olds[i] :: olds.drop (i + 1) := List.drop_eq_getElem_cons hoi
  have hfield : cs[i] = fieldCodec structs fixedMode big nested fields[i] := by
    subst hcs
    exact List.getElem_map _
  have hvalid := hold.get hci hoi
  rw [List.get_eq_getElem, List.get_eq_getElem] at hvalid
  rintro s ⟨ws, hws⟩
  have hidx := hc.idxOf hs hfi
  have hset (w : Value) : s.obj.set i w = (ws ++ [w]) ++ olds.drop (i + 1) := by
    rw [hws.obj, hdropo, List.set_append_right _ _ (by rw [hws.length]), hws.length, Nat.sub_self,
      List.set_cons_zero, List.append_assoc]
    rfl
  have hsplit (w : Value) (hw : cs[i].Valid w) :
      Codec.ValidAll (cs.take (i + 1)) (ws ++ [w]) := by
    rw [List.take_succ_eq_append_getElem hci]
    exact List.rel_append hws.valid (.cons hw .nil)
  have hdone (j : ℕ) (vs : List Value) (hvs : Codec.OldAll valid (cs.take j) vs) :
      Codec.OldAll valid cs (vs ++ olds.drop j) := by
    have h : Codec.OldAll valid (cs.take j ++ cs.drop j) (vs ++ olds.drop j) :=
      List.rel_append hvs (List.forall₂_drop j hold)
    rwa [List.take_append_drop] at h
  have hbefore : Codec.OldAll valid (cs.take i) ws := Codec.oldAll_of_valid hws.valid
  have hreading := hws.reading
  rw [hdropc, hdropo, Codec.decodeAll, Reader.map, Reader.bind_assoc] at hreading
  simp only [Reader.map_bind] at hreading
  have hget : s.obj[(fields.map Field.name).idxOf fields[i].name]? = some olds[i] := by
    rw [hidx, hws.obj, List.getElem?_append_right (by rw [hws.length]), hws.length, Nat.sub_self,
      hdropo]
    rfl
  have hobj : Codec.OldAll valid cs s.obj := by
    rw [hws.obj]
    exact hdone i ws hbefore
  have hput (w : Value) (hw : (fieldCodec structs fixedMode big nested fields[i]).Old valid w) :
      Codec.OldAll valid cs (s.obj.set ((fields.map Field.name).idxOf fields[i].name) w) := by
    rw [hidx, hset]
    refine hdone (i + 1) (ws ++ [w]) ?_
    rw [List.take_succ_eq_append_getElem hci]
    exact List.rel_append hbefore (.cons (hfield ▸ hw) .nil)
  obtain ⟨fl, s', hexec, hpost⟩ := genReadField_triple hc hwide hnested hs (List.getElem_mem hfi)
    (hcodes.get hfi hi) hget (hfield ▸ hvalid) hobj hput hmax s ⟨rfl, hfield ▸ hreading⟩
  refine ⟨fl, s', hexec, ?_⟩
  cases fl with
  | next =>
    obtain ⟨w, hw, hobj', hread⟩ := hpost
    rw [← hfield] at hw
    refine ⟨ws ++ [w], by rw [List.length_append, hws.length]; rfl, hsplit w hw, ?_, ?_⟩
    · rw [hobj', hidx, hset]
    · simpa [Reader.map] using hread
  | stop => exact hpost
  | exit r => exact hpost

/-- **A function that reads a struct** reads it by its codec. -/
theorem genReadFn_reads (hc : Compiled knownEnums structs userPrefix fixedMode big p)
    (hwide : structs.AsWide)
    (hnested : ReadsNested cbs valid structs userPrefix (programEnv cbs p (depth + 1)) nested)
    {name : String} {fields : List Field} (hs : (name, fields) ∈ structs) {fn : StructFn}
    (hfn : genReadFn (optionsFor userPrefix structs fixedMode big) name fields = .ok fn) :
    Reads cbs ((Codec.all (fieldCodecs structs fixedMode big nested fields)).imap
      .record Value.fields fun _ => rfl) valid false (fn.run (programEnv cbs p (depth + 1))) := by
  intro old hrecord io hmax
  obtain ⟨olds, rfl, hall⟩ := Codec.imap_old.mp hrecord
  have hold := Codec.all_old.mp hall
  obtain ⟨body, hbody, rfl⟩ := genFn_inv hfn
  have hdecode : ((Codec.all (fieldCodecs structs fixedMode big nested fields)).imap
      Value.record Value.fields fun _ => rfl).decode (.record olds) =
      (Codec.decodeAll (fieldCodecs structs fixedMode big nested fields) olds).map .record := rfl
  rw [hdecode] at hmax ⊢
  rcases genBody_inv hbody with ⟨rfl, rfl⟩ | ⟨codes, rfl, hcodes⟩
  · cases hold
    refine ⟨fun v n io' h => ?_, fun e n io' h => (nomatch h)⟩
    cases h
    rfl
  · set R := (Codec.decodeAll (fieldCodecs structs fixedMode big nested fields) olds).run
      (readByte cbs.read) io with hR
    have htaken : (R.taken : Int) ≤ intMax := by
      rcases hrun : R with ⟨e | ws, n, io'⟩
      · rwa [Reader.run_map_error (hR ▸ hrun)] at hmax
      · rwa [Reader.run_map_ok (hR ▸ hrun)] at hmax
    obtain ⟨fl, s, hexec, hpost⟩ := genReadFields_triple hc hwide hnested hs hcodes rfl hold htaken
      ⟨olds, none, 0, none, 0, 0, io⟩
      ⟨[], rfl, .nil, rfl, Int.le_refl 0,
        congrArg (Reader.run _ · io) (Reader.map_self _).symm⟩
    rw [StructFn.run]
    dsimp only [Value.fields]
    rw [Code.exec, hexec]
    cases fl with
    | next =>
      obtain ⟨ws, hws⟩ := hpost
      have hlen : codes.length = (fieldCodecs structs fixedMode big nested fields).length :=
        hcodes.length_eq.symm.trans (List.length_map _).symm
      rw [hlen] at hws
      obtain ⟨htotal, hobj, hrun⟩ := hws.all hold
      have hmap := Reader.run_map_ok (hR ▸ hrun) Value.record
      refine ⟨fun v n io' h => ?_, fun e n io' h => ?_⟩
      · rw [hmap] at h
        cases h
        simp [Code.exec, machine, Stmt.exec, hobj, Int.toNat_of_nonneg htotal]
      · rw [hmap] at h
        cases h
    | stop => exact hpost.elim
    | exit r =>
      obtain ⟨hneg, hobj, n', hrun⟩ := hpost
      have hmap := Reader.run_map_error (hR ▸ hrun) Value.record
      refine ⟨fun v n io' h => ?_, fun e n io' h => ?_⟩
      · rw [hmap] at h
        cases h
      · rw [hmap] at h
        cases h
        exact ⟨hneg, .record s.obj, Codec.imap_old.mpr ⟨s.obj, rfl, Codec.all_old.mpr hobj⟩, rfl⟩

/-- **Every struct** is read by its function. -/
theorem reads_struct (hc : Compiled knownEnums structs userPrefix fixedMode big p)
    (hwide : structs.AsWide) (valid : Bool) (cbs : Callbacks σ) (depth : ℕ) :
    ReadsNested cbs valid structs userPrefix (programEnv cbs p (depth + 1))
      (structCodec structs fixedMode big depth) := by
  induction depth with
  | zero =>
    intro name hname
    obtain ⟨⟨name, fields⟩, hs, rfl⟩ := List.mem_map.mp hname
    obtain ⟨⟨fn, hfn, hmem⟩, -⟩ := generateC_struct hc.generated hs
    obtain ⟨body, -, rfl⟩ := genFn_inv hfn
    exact ⟨_, programEnv_def hc.linked hmem 0, fun v hv => hv.room.elim⟩
  | succ depth ih =>
    intro name hname
    obtain ⟨⟨name, fields⟩, hs, rfl⟩ := List.mem_map.mp hname
    obtain ⟨⟨fn, hfn, hmem⟩, -⟩ := generateC_struct hc.generated hs
    have hreads := genReadFn_reads hc hwide ih hs hfn
    obtain ⟨body, -, rfl⟩ := genFn_inv hfn
    refine ⟨_, programEnv_def hc.linked hmem (depth + 1), ?_⟩
    rw [structCodec, hc.fields hs]
    exact hreads

end

end BuffersGenC

end HtcwFrameArq
