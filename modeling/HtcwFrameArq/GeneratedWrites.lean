import HtcwFrameArq.Linking

/-!
# What the generated functions write

A generated function that writes hands the bytes of its codec to the callback, up to the first
error, and returns their number or the error. `Wrote` is the invariant: which bytes have been
written, and that more of them are to come.
-/

namespace HtcwFrameArq

namespace BuffersGenC

open Commands Streams

variable {σ : Type} {cbs : Callbacks σ}

/-- A function writes values by a codec, if an `int` can count their bytes. -/
def Writes (cbs : Callbacks σ) (c : Codec UInt8 Int Value) (k : Callee σ) : Prop :=
  ∀ v, c.Valid v → ((c.encode v).length : Int) ≤ intMax → ∀ io,
    k v io = some ⟨(written cbs.write (c.encode v) 0 io).1, v, 0,
      (written cbs.write (c.encode v) 0 io).2⟩

/-! ## Scalars and enums -/

theorem writes_scalar (cbs : Callbacks σ) {t : Scalar} {b big : Bool} (h : b = big ∨ t.Single) :
    Writes cbs (t.codec big) (writeCallee cbs t b) := by
  intro v _ _ io
  have hbig : t.write cbs.write b v = t.write cbs.write big v := by
    rcases h with rfl | h
    · rfl
    · cases t <;> first | rfl | cases h
  rw [writeCallee, hbig, Scalar.write_eq]

/-- An enum is written as its wire type is. -/
theorem writes_enum {env : Env σ} {f : EnumFn} {t : Scalar} {b big : Bool}
    (henv : env f.callee = some (writeCallee cbs t b)) (hkind : f.kind = .write)
    (h : b = big ∨ t.Single) (ht : t ≠ .bool) (hsize : t.size = wireSize f.wireType) :
    Writes cbs (enumCodec f.wireType big) (f.run env) := by
  intro v _ hmax io
  have hbits : (t.codec big).encode (.bits (enumBits f.wireType v.toEnum)) =
      (enumCodec f.wireType big).encode v := by
    rw [Scalar.codec_eq ht, hsize]
    rfl
  have hvalid : (t.codec big).Valid (.bits (enumBits f.wireType v.toEnum)) := by
    rw [Scalar.codec_eq ht, hsize]
    exact ⟨_, rfl, enumBits_lt f.wireType v.toEnum⟩
  have hwrites := writes_scalar cbs h _ hvalid (by rwa [hbits]) io
  rw [hbits] at hwrites
  rw [EnumFn.run, henv, hkind]
  dsimp only [bind, Option.bind]
  rw [hwrites]

/-! ## Calls -/

/-- The bytes `bs`, of which there are more in `all`, have been written. -/
structure Wrote (cbs : Callbacks σ) (vs : List Value) (all : List UInt8) (io₀ : σ) (l : Option ℕ)
    (bs : List UInt8) (s : Frame σ) : Prop where
  obj : s.obj = vs
  isPrefix : bs <+: all
  pushed : push (putByte cbs.write) bs io₀ = (none, s.io)
  total : s.total = bs.length
  len : s.len = l

/-- The callback has returned an error. -/
structure Refused (cbs : Callbacks σ) (vs : List Value) (all : List UInt8) (io₀ : σ) (r : Int)
    (s : Frame σ) : Prop where
  neg : r < 0
  obj : s.obj = vs
  pushed : push (putByte cbs.write) all io₀ = (some r, s.io)

/-- Either these bytes have been written, or the callback has returned an error. -/
def writePost (cbs : Callbacks σ) (vs : List Value) (all : List UInt8) (io₀ : σ)
    (next : Frame σ → Prop) : Post (Frame σ) Int := ⟨next, fun _ => False, Refused cbs vs all io₀⟩

section

variable {names : List String} {env : Env σ} {vs : List Value} {all : List UInt8} {io₀ : σ}
  {l : Option ℕ} {bs : List UInt8} {c : Codec UInt8 Int Value}

theorem Wrote.counter {s : Frame σ} (h : Wrote cbs vs all io₀ l bs s) (i : ℕ) :
    Wrote cbs vs all io₀ l bs { s with i } := ⟨h.obj, h.isPrefix, h.pushed, h.total, h.len⟩

/-- A call, the check of its result and the addition of its bytes. -/
theorem writeCall_triple {P : Frame σ → Prop} {fn : String} {arg : Arg} {k : Callee σ} {v : Value}
    (hk : env fn = some k) (hwrites : Writes cbs c k) (hv : c.Valid v)
    (hall : bs ++ c.encode v <+: all) (hmax : (all.length : Int) ≤ intMax)
    (hP : ∀ s, P s → Wrote cbs vs all io₀ l bs s ∧ s.arg names arg = some v ∧
      s.store names arg v = s) :
    Triple (machine names env) P (.acts [.call fn arg false, .check, .add])
      (writePost cbs vs all io₀ (Wrote cbs vs all io₀ l (bs ++ c.encode v))) := by
  intro s hs
  obtain ⟨hw, harg, hstore⟩ := hP s hs
  have hlen := hall.length_le
  rw [List.length_append] at hlen
  have hcall := hwrites v hv (by omega) s.io
  have htotal := hw.total
  simp only [Code.acts, Code.all, List.map_cons, List.map_nil, Code.exec, machine, Stmt.exec, hk,
    harg, hcall, hstore, bind, Option.bind, Bool.false_eq_true, if_false]
  rw [if_pos (by omega)]
  rcases hpush : push (putByte cbs.write) (c.encode v) s.io with ⟨_ | e, io'⟩
  · -- all the bytes are taken
    simp only [written, hpush]
    rw [if_neg (by omega)]
    dsimp only
    rw [if_pos (by omega)]
    refine ⟨.next, _, rfl, hw.obj, hall, ?_, ?_, hw.len⟩
    · rw [push_append hw.pushed, hpush]
    · rw [List.length_append, htotal]
      push_cast
      omega
  · -- one of them is refused
    have hneg := push_error_neg hpush
    simp only [written, hpush]
    rw [if_pos hneg]
    refine ⟨.exit e, _, rfl, hneg, hw.obj, ?_⟩
    obtain ⟨rest, rfl⟩ := hall
    rw [List.append_assoc, push_append hw.pushed, push_refused hpush]

/-! ## Elements and texts -/

/-- The first elements of an array, one after the other. -/
theorem writeItems_triple {b : Bound} {name fn : String} {address : Bool} {k : Callee σ}
    {xs as : List Value} (hk : env fn = some k) (hwrites : Writes cbs c k)
    (hget : vs[names.idxOf name]? = some (.array as)) (hxs : xs <+: as)
    (hvalid : ∀ a ∈ xs, c.Valid a) (hall : bs ++ xs.flatMap c.encode <+: all)
    (hmax : (all.length : Int) ≤ intMax)
    (hbound : ∀ s, Wrote cbs vs all io₀ l bs s → b.times s = some xs.length) :
    Triple (machine names env) (Wrote cbs vs all io₀ l bs)
      (.loop b (.acts [.call fn (.place (.item name) address) false, .check, .add]))
      (writePost cbs vs all io₀ (Wrote cbs vs all io₀ l (bs ++ xs.flatMap c.encode))) := by
  have htake (i : ℕ) (hi : i < xs.length) : (xs.take (i + 1)).flatMap c.encode =
      (xs.take i).flatMap c.encode ++ c.encode xs[i] := by
    rw [List.take_succ_eq_append_getElem hi, List.flatMap_append, List.flatMap_singleton]
  have hprefix (i : ℕ) : bs ++ (xs.take i).flatMap c.encode <+: all := by
    refine List.IsPrefix.trans ?_ hall
    rw [List.prefix_append_right_inj]
    conv_rhs => rw [← List.take_append_drop i xs, List.flatMap_append]
    exact List.prefix_append _ _
  refine (Triple.loop (n := xs.length)
    (I := fun i => Wrote cbs vs all io₀ l (bs ++ (xs.take i).flatMap c.encode))
    (B := fun _ => False) (E := Refused cbs vs all io₀)
    (Q := writePost cbs vs all io₀ fun _ => True) ?_ ?_ ?_ (fun _ h => h.elim)
    (fun _ _ h => h)).pre ?_
  · intro s hs
    rw [List.take_zero, List.flatMap_nil, List.append_nil] at hs
    exact hbound s hs
  · intro i hi
    have hcall := hprefix (i + 1)
    rw [htake i hi, ← List.append_assoc] at hcall ⊢
    refine writeCall_triple hk hwrites (hvalid _ (List.getElem_mem hi)) hcall hmax ?_
    rintro s ⟨s₀, hs₀, rfl⟩
    have hs := hs₀.counter i
    have harg : Frame.get names { s₀ with i } (.item name) = some xs[i] := by
      rw [Frame.get, hs.obj, hget]
      obtain ⟨rest, rfl⟩ := hxs
      exact (List.getElem?_append_left hi).trans (List.getElem?_eq_getElem hi)
    refine ⟨hs, harg, ?_⟩
    cases address with
    | true => exact Frame.put_get harg
    | false => rfl
  · intro s hs
    rwa [List.take_length] at hs
  · intro s hs
    rwa [List.take_zero, List.flatMap_nil, List.append_nil]

/-- A text: its length, and its characters. -/
theorem writeText_triple {lpType var name fn fn' : String} {wide address : Bool} {k k' : Callee σ}
    {n p size : ℕ} {big : Bool} {as : List Value} (hk : env fn = some k)
    (hwrites : Writes cbs (bitsCodec p big) k) (hk' : env fn' = some k')
    (hwrites' : Writes cbs (bitsCodec size big) k') (hsize : 0 < size) (hp : n < 256 ^ p)
    (hlp : wireSize lpType = p) (hint : (n : Int) ≤ intMax)
    (hget : vs[names.idxOf name]? = some (.array as))
    (hvalid : (textCodec size n p big).Valid (.array as))
    (hall : bs ++ (textCodec size n p big).encode (.array as) <+: all)
    (hmax : (all.length : Int) ≤ intMax) :
    Triple (machine names env) (fun s => ∃ l, Wrote cbs vs all io₀ l bs s)
      (.block (.all [
        .act (.declare lpType var true),
        .loop (.lit n) (.acts [.breakNul name wide, .increment var]),
        .acts [.call fn (.var var false) false, .check, .add],
        .loop (.var var) (.acts [.call fn' (.place (.item name) address) false, .check, .add])]))
      (writePost cbs vs all io₀ fun s => ∃ l, Wrote cbs vs all io₀ l
        (bs ++ (textCodec size n p big).encode (.array as)) s) := by
  obtain ⟨hlen, hitems⟩ := (textCodec_valid ⟨hsize, hp⟩).mp hvalid
  rw [textCodec_encode ⟨hsize, hp⟩, ← List.append_assoc] at hall ⊢
  have hchars := characters_start as
  have hle : (characters as).length ≤ n := by
    rw [← hlen]
    exact hchars.length_le
  refine Triple.block (Triple.seq (R := fun s => (∃ l, Wrote cbs vs all io₀ l bs s) ∧
    s.len = some 0 ∧ s.lenSize = p) ?_ (Triple.seq (R := fun s =>
    (∃ l, Wrote cbs vs all io₀ l bs s) ∧ s.len = some (characters as).length) ?_
    (Triple.seq (R := Wrote cbs vs all io₀ (some (characters as).length)
      (bs ++ (bitsCodec p big).encode (.bits (characters as).length))) ?_
    (Triple.seq (R := Wrote cbs vs all io₀ (some (characters as).length) (bs ++
      (bitsCodec p big).encode (.bits (characters as).length) ++
      (characters as).flatMap (bitsCodec size big).encode)) ?_ ?_))))
  · refine Triple.act_next ?_
    rintro s ⟨l, hs⟩
    exact ⟨_, rfl, ⟨some 0, hs.obj, hs.isPrefix, hs.pushed, hs.total, rfl⟩, rfl, hlp⟩
  · refine count_triple ?_ ?_ hget hlen hint hp
    · rintro s ⟨l, hs⟩
      exact hs.obj
    · rintro s len i ⟨l, hs⟩
      exact ⟨len, hs.obj, hs.isPrefix, hs.pushed, hs.total, rfl⟩
  · refine writeCall_triple hk hwrites ?_ ((List.prefix_append _ _).trans hall) hmax ?_
    · exact ⟨_, rfl, lt_of_le_of_lt hle hp⟩
    · rintro s ⟨⟨l, hs⟩, hl⟩
      obtain rfl := hs.len.symm.trans hl
      exact ⟨hs, by rw [Frame.arg, hl]; rfl, rfl⟩
  · refine writeItems_triple hk' hwrites' hget hchars
      (fun a ha => hitems a (hchars.subset ha)) hall hmax ?_
    intro s hs
    rw [Bound.times, hs.len, Option.map_some, if_pos (by omega)]
  · exact fun s hs => ⟨.next, s, rfl, _, hs⟩

end

/-! ## Fields -/

section

variable {knownEnums : List (String × String)} {structs : Structs} {userPrefix : String}
  {fixedMode big : Bool} {p : List Def} {depth : ℕ} {nested : String → Codec UInt8 Int Value}

/-- The structs are written by functions of the program. -/
def WritesNested (cbs : Callbacks σ) (structs : Structs) (userPrefix : String) (env : Env σ)
    (nested : String → Codec UInt8 Int Value) : Prop :=
  ∀ name ∈ structs.map Prod.fst, ∃ k, env (writeFnName userPrefix name) = some k ∧
    Writes cbs (nested name) k

/-- What `gen_write_call` generates writes an element by its codec. -/
theorem genWriteCall_writes [Platform] (hc : Compiled knownEnums structs userPrefix fixedMode big p)
    (hnested : WritesNested cbs structs userPrefix (programEnv cbs p (depth + 1)) nested)
    {s : String × List Field} (hs : s ∈ structs) {f : Field} (hf : f ∈ s.2) (pl : Place) :
    ∃ fn address k, genWriteCall (optionsFor userPrefix structs fixedMode big) f pl =
        [.call fn (.place pl address) false, .check, .add] ∧
      programEnv cbs p (depth + 1) fn = some k ∧ Writes cbs (itemCodec structs big nested f) k := by
  have hkind := hc.wellFormed.kinds s hs f hf
  have hnames : (optionsFor userPrefix structs fixedMode big).allStructNames =
      structs.map Prod.fst := rfl
  rcases hkind.wire_or_struct hc.wellFormed with ⟨-, hnot⟩ | ⟨-, hmem⟩
  · cases henum : f.isEnum with
    | true =>
      have hwire := hkind.enum_wire hc.wellFormed henum
      obtain ⟨t, b, hreach, henv⟩ := hc.scalar (callable_of_enum hwire)
      obtain ⟨hbool, hsize⟩ := hreach.enum hwire
      obtain ⟨-, hdef⟩ := generateC_enum hc.wellFormed hc.generated hs hf henum
      refine ⟨_, false, _, ?_, programEnv_def hc.linked hdef depth, ?_⟩
      · rw [genWriteCall, hnames, if_neg hnot, if_pos henum]
        rfl
      · rw [itemCodec, if_neg hnot, if_pos henum]
        exact writes_enum (f := genEnumWriteFn _ f.type f.wireType) (henv cbs depth).2 rfl
          hreach.order hbool hsize
    | false =>
      have htype := hc.callable s hs f hf henum hnot
      obtain ⟨t, b, hreach, henv⟩ := hc.scalar htype
      refine ⟨_, false, _, ?_, (henv cbs (depth + 1)).2, ?_⟩
      · rw [genWriteCall, hnames, if_neg hnot, if_neg (by simp [henum])]
      · rw [itemCodec_scalar hkind henum hnot hreach]
        exact writes_scalar cbs hreach.order
  · obtain ⟨k, hk, hwrites⟩ := hnested _ hmem
    refine ⟨_, true, k, ?_, hk, ?_⟩
    · rw [genWriteCall, hnames, if_pos hmem]
      rfl
    · rw [itemCodec, if_pos hmem]
      exact hwrites

variable {vs : List Value} {all bs : List UInt8} {io₀ : σ}

/-- **What is generated for a field** writes its value. -/
theorem genWriteField_triple [Platform]
    (hc : Compiled knownEnums structs userPrefix fixedMode big p)
    (hnested : WritesNested cbs structs userPrefix (programEnv cbs p (depth + 1)) nested)
    {s : String × List Field} (hs : s ∈ structs) {f : Field} (hf : f ∈ s.2) {names : List String}
    {code : Code Stmt Bound} {v : Value}
    (hcode : genWriteField (optionsFor userPrefix structs fixedMode big) f = .ok code)
    (hget : vs[names.idxOf f.name]? = some v)
    (hvalid : (fieldCodec structs fixedMode big nested f).Valid v)
    (hall : bs ++ (fieldCodec structs fixedMode big nested f).encode v <+: all)
    (hmax : (all.length : Int) ≤ intMax) :
    Triple (machine names (programEnv cbs p (depth + 1)))
      (fun s => ∃ l, Wrote cbs vs all io₀ l bs s) code
      (writePost cbs vs all io₀ fun s => ∃ l, Wrote cbs vs all io₀ l
        (bs ++ (fieldCodec structs fixedMode big nested f).encode v) s) := by
  have hmode : (optionsFor userPrefix structs fixedMode big).fixedMode = fixedMode := rfl
  rw [fieldCodec] at hvalid hall ⊢
  rw [genWriteField, hmode] at hcode
  cases hlen : f.arrayLen with
  | none =>
    rw [hlen] at hcode hvalid hall
    cases hcode
    obtain ⟨fn, address, k, hcall, hk, hwrites⟩ :=
      genWriteCall_writes hc hnested hs hf (.field f.name)
    rw [hcall]
    refine Triple.exists_pre (Q := writePost cbs vs all io₀ fun _ => True) fun l => ?_
    refine writeCall_triple hk hwrites hvalid hall hmax fun s hs => ?_
    have harg : s.get names (.field f.name) = some v := by rw [Frame.get, hs.obj, hget]
    refine ⟨hs, harg, ?_⟩
    cases address with
    | true => exact Frame.put_get harg
    | false => rfl
  | some n =>
    rw [hlen] at hcode hvalid hall
    dsimp only at hcode hvalid hall ⊢
    have hint := hc.arrays s hs f hf n hlen
    obtain ⟨fn, address, k, hcall, hk, hwrites⟩ :=
      genWriteCall_writes hc hnested hs hf (.item f.name)
    by_cases hfixed : fixedMode = true ∨ fieldIsString f = false
    · rw [if_pos hfixed] at hcode hvalid hall ⊢
      cases hcode
      obtain ⟨as, rfl, rfl, has⟩ := arrayCodec_valid hvalid
      rw [arrayCodec_encode] at hall ⊢
      rw [hcall]
      exact Triple.exists_pre (Q := writePost cbs vs all io₀ fun _ => True) fun l =>
        writeItems_triple hk hwrites hget List.prefix_rfl has hall hmax fun _ _ => if_pos hint
    · rw [if_neg hfixed] at hcode hvalid hall ⊢
      have htext : fieldIsString f = true := by simpa using (not_or.mp hfixed).2
      have hkind := hc.wellFormed.kinds s hs f hf
      obtain ⟨-, -, -, hpos⟩ := fieldIsString_scalar hc.wellFormed hkind htext
      rw [itemCodec_text hc.wellFormed hkind htext] at hwrites
      rcases htype : lengthPrefixType n with msg | lpType
      · rw [htype] at hcode
        cases hcode
      · obtain ⟨hsize, t, b, horder, -, hcodec, henv⟩ := hc.lengthPrefix htype
        have hprefix := writes_scalar cbs horder
        rw [hcodec] at hprefix
        rw [htype] at hcode
        cases hcode
        rw [hsize] at hvalid hall ⊢
        obtain ⟨as, rfl⟩ := textCodec_array ⟨hpos, lengthPrefixSize_lt hsize⟩ hvalid
        rw [hcall]
        exact writeText_triple (henv cbs (depth + 1)).2 hprefix hk hwrites hpos
          (lengthPrefixSize_lt hsize) rfl hint hget hvalid hall hmax

/-! ## Functions -/

/-- The codecs of the fields of a struct. -/
def fieldCodecs (structs : Structs) (fixedMode big : Bool)
    (nested : String → Codec UInt8 Int Value) (fields : List Field) :
    List (Codec UInt8 Int Value) := fields.map (fieldCodec structs fixedMode big nested)

/-- What is generated for the fields writes their values, one after the other. -/
theorem genWriteFields_triple [Platform]
    (hc : Compiled knownEnums structs userPrefix fixedMode big p)
    (hnested : WritesNested cbs structs userPrefix (programEnv cbs p (depth + 1)) nested)
    {name : String} {fields : List Field} (hs : (name, fields) ∈ structs)
    {codes : List (Code Stmt Bound)}
    (hcodes : List.Forall₂ (fun f code =>
      genWriteField (optionsFor userPrefix structs fixedMode big) f = .ok code) fields codes)
    (hvalid : Codec.ValidAll (fieldCodecs structs fixedMode big nested fields) vs)
    (hall : Codec.encodeAll (fieldCodecs structs fixedMode big nested fields) vs = all)
    (hmax : (all.length : Int) ≤ intMax) :
    Triple (machine (fields.map Field.name) (programEnv cbs p (depth + 1)))
      (fun s => ∃ l, Wrote cbs vs all io₀ l [] s) (.all codes)
      (writePost cbs vs all io₀ fun s => ∃ l, Wrote cbs vs all io₀ l all s) := by
  have hlen := hcodes.length_eq
  have hvs := hvalid.length_eq
  have hcs : (fieldCodecs structs fixedMode big nested fields).length = fields.length :=
    List.length_map _
  refine ((Triple.all (Q := writePost cbs vs all io₀ fun _ => True)
    (I := fun i s => ∃ l, Wrote cbs vs all io₀ l
      (Codec.encodeAll ((fieldCodecs structs fixedMode big nested fields).take i) (vs.take i)) s)
    fun i hi => ?_).next ?_).pre ?_
  · have hfi : i < fields.length := by omega
    have hvi : i < vs.length := by omega
    have hci : i < (fieldCodecs structs fixedMode big nested fields).length := by omega
    have hpre := @Codec.encodeAll_take_prefix _ _ _
      (fieldCodecs structs fixedMode big nested fields) vs (i + 1)
    rw [Codec.encodeAll_take_succ hci hvi, hall] at hpre
    rw [Codec.encodeAll_take_succ hci hvi]
    have hfield : (fieldCodecs structs fixedMode big nested fields)[i] =
        fieldCodec structs fixedMode big nested fields[i] := List.getElem_map _
    have hv := hvalid.get hci hvi
    rw [List.get_eq_getElem, List.get_eq_getElem, hfield] at hv
    rw [hfield] at hpre ⊢
    refine genWriteField_triple hc hnested hs (List.getElem_mem hfi) (hcodes.get hfi hi) ?_ hv hpre
      hmax
    rw [hc.idxOf hs hfi, List.getElem?_eq_getElem hvi]
  · rintro s ⟨l, hw⟩
    rw [← hlen, ← hcs, List.take_length, hvs, List.take_length, hall] at hw
    exact ⟨l, hw⟩
  · exact fun s hs => hs

/-- **A function that writes a struct** writes it by its codec. -/
theorem genWriteFn_writes [Platform] (hc : Compiled knownEnums structs userPrefix fixedMode big p)
    (hnested : WritesNested cbs structs userPrefix (programEnv cbs p (depth + 1)) nested)
    {name : String} {fields : List Field} (hs : (name, fields) ∈ structs) {fn : StructFn}
    (hfn : genWriteFn (optionsFor userPrefix structs fixedMode big) name fields = .ok fn) :
    Writes cbs ((Codec.all (fieldCodecs structs fixedMode big nested fields)).imap
      .record Value.fields fun _ => rfl) (fn.run (programEnv cbs p (depth + 1))) := by
  rintro _ ⟨vs, rfl, hvalid⟩ hmax io
  obtain ⟨body, hbody, rfl⟩ := genFn_inv hfn
  rcases genBody_inv hbody with ⟨rfl, rfl⟩ | ⟨codes, rfl, hcodes⟩
  · rfl
  · obtain ⟨fl, s, hexec, hpost⟩ := genWriteFields_triple hc hnested hs hcodes hvalid rfl hmax
      ⟨vs, none, 0, none, 0, 0, io⟩ ⟨none, rfl, List.nil_prefix, rfl, rfl, rfl⟩
    have hencode : ((Codec.all (fieldCodecs structs fixedMode big nested fields)).imap
        Value.record Value.fields fun _ => rfl).encode (.record vs) =
        Codec.encodeAll (fieldCodecs structs fixedMode big nested fields) vs := rfl
    rw [hencode, StructFn.run]
    dsimp only [Value.fields]
    rw [Code.exec, hexec]
    cases fl with
    | next =>
      obtain ⟨l, hw⟩ := hpost
      have hpushed := hw.pushed
      dsimp only at hpushed
      simp only [Code.exec, machine, Stmt.exec, hw.obj, hw.total, written, hpushed, Int.zero_add]
    | stop => exact hpost.elim
    | exit r =>
      have hrefused : Refused cbs vs _ io r s := hpost
      simp only [hrefused.obj, written, hrefused.pushed]

/-- **Every struct** is written by its function. -/
theorem writes_struct [Platform] (hc : Compiled knownEnums structs userPrefix fixedMode big p)
    (cbs : Callbacks σ) (depth : ℕ) :
    WritesNested cbs structs userPrefix (programEnv cbs p (depth + 1))
      (structCodec structs fixedMode big depth) := by
  induction depth with
  | zero =>
    intro name hname
    obtain ⟨⟨name, fields⟩, hs, rfl⟩ := List.mem_map.mp hname
    obtain ⟨-, ⟨fn, hfn, hmem⟩, -⟩ := generateC_struct hc.generated hs
    obtain ⟨body, -, rfl⟩ := genFn_inv hfn
    exact ⟨_, programEnv_def hc.linked hmem 0, fun v hv => hv.elim⟩
  | succ depth ih =>
    intro name hname
    obtain ⟨⟨name, fields⟩, hs, rfl⟩ := List.mem_map.mp hname
    obtain ⟨-, ⟨fn, hfn, hmem⟩, -⟩ := generateC_struct hc.generated hs
    have hwrites := genWriteFn_writes hc ih hs hfn
    obtain ⟨body, -, rfl⟩ := genFn_inv hfn
    refine ⟨_, programEnv_def hc.linked hmem (depth + 1), ?_⟩
    rw [structCodec, hc.fields hs]
    exact hwrites

end

end BuffersGenC

end HtcwFrameArq
