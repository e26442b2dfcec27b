import HtcwFrameArq.Linking

/-!
# What the generated functions count

With texts that have prefixes there is a function for the size of a struct, which is the number of
bytes of its codec. It is counted in a `size_t`, and the callback is not called.
-/

namespace HtcwFrameArq

namespace BuffersGenC

open Commands Streams

variable {σ : Type}

/-- A function returns how many bytes the codec makes of a value. -/
def Sizes (c : Codec UInt8 Int Value) (k : Callee σ) : Prop :=
  ∀ v, c.Valid v → ∀ io, k v io = some ⟨((c.encode v).length % 2 ^ 32 : ℕ), v, 0, io⟩

/-- `n` bytes have been counted. -/
structure Counted (vs : List Value) (io₀ : σ) (n : ℕ) (s : Frame σ) : Prop where
  obj : s.obj = vs
  io : s.io = io₀
  total : s.total = (n % 2 ^ 32 : ℕ)

/-- Counting always goes on. -/
def sizePost (next : Frame σ → Prop) : Post (Frame σ) Int :=
  ⟨next, fun _ => False, fun _ _ => False⟩

section

variable {names : List String} {env : Env σ} {vs : List Value} {io₀ : σ} {n m : ℕ}
  {c : Codec UInt8 Int Value}

theorem Counted.add {s : Frame σ} (h : Counted vs io₀ n s) (m : ℕ) :
    Counted vs io₀ (n + m) { s with total := (s.total + m) % 2 ^ 32 } := by
  refine ⟨h.obj, h.io, ?_⟩
  have htotal := h.total
  dsimp only
  omega

/-- A statement that adds a number. -/
theorem add_triple {P : Frame σ → Prop} {a : Stmt}
    (hP : ∀ s, P s → Counted vs io₀ n s ∧
      a.exec names env s = some (.next, { s with total := (s.total + m) % 2 ^ 32 })) :
    Triple (machine names env) P (.act a) (sizePost (Counted vs io₀ (n + m))) := by
  intro s hs
  obtain ⟨hcounted, hexec⟩ := hP s hs
  exact ⟨.next, _, hexec, hcounted.add m⟩

/-- The addition of the size of a struct. -/
theorem addCall_triple {P : Frame σ → Prop} {fn : String} {pl : Place} {k : Callee σ} {v : Value}
    (hk : env fn = some k) (hsizes : Sizes c k) (hv : c.Valid v)
    (hP : ∀ s, P s → Counted vs io₀ n s ∧ s.get names pl = some v) :
    Triple (machine names env) P (.act (.addCall fn pl))
      (sizePost (Counted vs io₀ (n + (c.encode v).length))) := by
  intro s hs
  obtain ⟨hcounted, hget⟩ := hP s hs
  refine ⟨.next, _, ?_, hcounted.add (c.encode v).length⟩
  have htotal : (s.total + ((c.encode v).length % 2 ^ 32 : ℕ)) % 2 ^ 32 =
      (s.total + (c.encode v).length) % 2 ^ 32 := by omega
  simp only [Code.exec, machine, Stmt.exec, hk, hget, hsizes v hv s.io, bind, Option.bind, htotal]

/-- The sizes of the structs of an array. -/
theorem addItems_triple {name fn : String} {k : Callee σ} {as : List Value}
    (hk : env fn = some k) (hsizes : Sizes c k)
    (hget : vs[names.idxOf name]? = some (.array as)) (hint : (as.length : Int) ≤ intMax)
    (hvalid : ∀ a ∈ as, c.Valid a) :
    Triple (machine names env) (Counted vs io₀ n)
      (.block (.loop (.lit as.length) (.act (.addCall fn (.item name)))))
      (sizePost (Counted vs io₀ (n + (as.flatMap c.encode).length))) := by
  have htake (i : ℕ) (hi : i < as.length) : ((as.take (i + 1)).flatMap c.encode).length =
      ((as.take i).flatMap c.encode).length + (c.encode as[i]).length := by
    rw [List.take_succ_eq_append_getElem hi, List.flatMap_append, List.length_append]
    simp
  refine Triple.block ((Triple.loop (n := as.length)
    (I := fun i => Counted vs io₀ (n + ((as.take i).flatMap c.encode).length))
    (B := fun _ => False) (E := fun _ _ => False) (Q := sizePost fun _ => True)
    (fun _ _ => if_pos hint) ?_ ?_ (fun _ h => h.elim) (fun _ _ h => h)).pre ?_)
  · intro i hi
    rw [htake i hi, ← Nat.add_assoc]
    refine addCall_triple hk hsizes (hvalid _ (List.getElem_mem hi)) ?_
    rintro s ⟨s₀, hs₀, rfl⟩
    refine ⟨⟨hs₀.obj, hs₀.io, hs₀.total⟩, ?_⟩
    rw [Frame.get]
    dsimp only [machine]
    rw [hs₀.obj, hget]
    exact List.getElem?_eq_getElem hi
  · intro s hs
    rwa [List.take_length] at hs
  · intro s hs
    exact hs

/-- The size of a text: that of its length, and that of its characters. -/
theorem addText_triple {lpType name : String} {wide : Bool} {k p size : ℕ} {big : Bool}
    {as : List Value} (hsize : 0 < size) (hp : k < 256 ^ p) (hlp : wireSize lpType = p)
    (hint : (k : Int) ≤ intMax) (hget : vs[names.idxOf name]? = some (.array as))
    (hvalid : (textCodec size k p big).Valid (.array as)) :
    Triple (machine names env) (Counted vs io₀ n)
      (.block (.all [
        .act (.declare lpType "_len" true),
        .loop (.lit k) (.acts [.breakNul name wide, .increment "_len"]),
        .act (.addText p "_len" size)]))
      (sizePost (Counted vs io₀ (n + ((textCodec size k p big).encode (.array as)).length))) := by
  obtain ⟨hlen, hitems⟩ := (textCodec_valid ⟨hsize, hp⟩).mp hvalid
  have hbytes : ((textCodec size k p big).encode (.array as)).length =
      p + (characters as).length * size := by
    have hbits (j : ℕ) : (bitsCodec j big).Fixed := Codec.imap_fixed Codec.block_fixed
    have hchars := characters_start as
    rw [textCodec_encode ⟨hsize, hp⟩, List.length_append,
      (hbits size).flatMap_length fun a ha => hitems a (hchars.subset ha),
      hbits p _ ⟨_, rfl, lt_of_le_of_lt (hlen ▸ hchars.length_le) hp⟩]
    rfl
  refine Triple.block (Triple.seq (R := fun s => Counted vs io₀ n s ∧ s.len = some 0 ∧
    s.lenSize = p) ?_ (Triple.seq (R := fun s => Counted vs io₀ n s ∧
    s.len = some (characters as).length) ?_ (Triple.seq (R := Counted vs io₀
    (n + ((textCodec size k p big).encode (.array as)).length)) ?_ ?_)))
  · refine Triple.act_next fun s hs => ?_
    exact ⟨_, rfl, ⟨hs.obj, hs.io, hs.total⟩, rfl, hlp⟩
  · exact count_triple (fun s hs => hs.obj) (fun s len i hs => ⟨hs.obj, hs.io, hs.total⟩) hget hlen
      hint hp
  · rw [hbytes]
    refine add_triple fun s hs => ⟨hs.1, ?_⟩
    simp only [Stmt.exec, hs.2, bind, Option.bind]
  · exact fun s hs => ⟨.next, s, rfl, hs⟩

end

/-! ## Fields -/

section

variable {knownEnums : List (String × String)} {structs : Structs} {userPrefix : String}
  {big : Bool} {p : List Def} {depth : ℕ} {nested : String → Codec UInt8 Int Value}

/-- The structs are counted by functions of the program. -/
def SizesNested (structs : Structs) (userPrefix : String) (env : Env σ)
    (nested : String → Codec UInt8 Int Value) : Prop :=
  ∀ name ∈ structs.map Prod.fst, ∃ k, env (sizeFnName userPrefix name) = some k ∧
    Sizes (nested name) k

variable {vs : List Value} {io₀ : σ} {n : ℕ} {env : Env σ}

/-- **What is generated for a field** adds its size. -/
theorem genSizeField_triple (hc : Compiled knownEnums structs userPrefix false big p)
    (hnested : SizesNested structs userPrefix env nested)
    {s : String × List Field} (hs : s ∈ structs) {f : Field} (hf : f ∈ s.2) {names : List String}
    {code : Code Stmt Bound} {v : Value}
    (hcode : genSizeField (optionsFor userPrefix structs false big) f = .ok code)
    (hget : vs[names.idxOf f.name]? = some v)
    (hvalid : (fieldCodec structs false big nested f).Valid v) :
    Triple (machine names env) (Counted vs io₀ n) code (sizePost
      (Counted vs io₀ (n + ((fieldCodec structs false big nested f).encode v).length))) := by
  have hnames : (optionsFor userPrefix structs false big).allStructNames =
      structs.map Prod.fst := rfl
  have hkind := hc.wellFormed.kinds s hs f hf
  -- the elements of other fields have one size
  have hitem (hnot : f.wireType ∉ structs.map Prod.fst) :
      (itemCodec structs big nested f).Fixed ∧
        (itemCodec structs big nested f).max = wireSize f.wireType :=
    ⟨itemCodec_fixed fun h => absurd h hnot,
      (itemCodec_wire big nested hc.wellFormed hkind hnot).1⟩
  rw [fieldCodec] at hvalid ⊢
  rw [genSizeField, hnames] at hcode
  cases hlen : f.arrayLen with
  | none =>
    rw [hlen] at hcode hvalid
    dsimp only at hcode hvalid ⊢
    split_ifs at hcode with hmem
    · cases hcode
      obtain ⟨k, hk, hsizes⟩ := hnested _ hmem
      rw [itemCodec, if_pos hmem] at hvalid ⊢
      exact addCall_triple hk hsizes hvalid fun s hs => ⟨hs, by rw [Frame.get, hs.obj, hget]⟩
    · cases hcode
      obtain ⟨hfixed, hmax⟩ := hitem hmem
      rw [hfixed v hvalid, hmax]
      exact add_triple fun s hs => ⟨hs, rfl⟩
  | some m =>
    rw [hlen] at hcode hvalid
    dsimp only at hcode hvalid ⊢
    have hint := hc.arrays s hs f hf m hlen
    by_cases htext : fieldIsString f = false
    · rw [if_pos htext] at hcode
      rw [if_pos (.inr htext)] at hvalid ⊢
      obtain ⟨as, rfl, rfl, has⟩ := arrayCodec_valid hvalid
      rw [arrayCodec_encode]
      split_ifs at hcode with hmem
      · cases hcode
        obtain ⟨k, hk, hsizes⟩ := hnested _ hmem
        rw [itemCodec, if_pos hmem] at has ⊢
        exact addItems_triple hk hsizes hget hint has
      · cases hcode
        obtain ⟨hfixed, hmax⟩ := hitem hmem
        rw [hfixed.flatMap_length has, hmax]
        exact add_triple fun s hs => ⟨hs, rfl⟩
    · rw [if_neg htext] at hcode
      rw [if_neg (by simp [htext])] at hvalid ⊢
      obtain ⟨-, -, -, hpos⟩ := fieldIsString_scalar hc.wellFormed hkind (by simpa using htext)
      rcases htype : lengthPrefixType m with msg | lpType
      · rw [htype] at hcode
        cases hcode
      · rw [htype] at hcode
        cases hcode
        have hsize : lengthPrefixSize m = .ok (wireSize lpType) := by
          rw [lengthPrefixSize, htype]
          rfl
        rw [hsize] at hvalid ⊢
        obtain ⟨as, rfl⟩ := textCodec_array ⟨hpos, lengthPrefixSize_lt hsize⟩ hvalid
        exact addText_triple hpos (lengthPrefixSize_lt hsize) rfl hint hget hvalid

/-! ## Functions -/

/-- **A function that counts a struct** counts the bytes of its codec. -/
theorem genSizeFn_sizes (hc : Compiled knownEnums structs userPrefix false big p)
    (hnested : SizesNested structs userPrefix env nested)
    {name : String} {fields : List Field} (hs : (name, fields) ∈ structs) {fn : StructFn}
    (hfn : genSizeFn (optionsFor userPrefix structs false big) name fields = .ok fn) :
    Sizes ((Codec.all (fields.map (fieldCodec structs false big nested))).imap
      .record Value.fields fun _ => rfl) (fn.run env) := by
  rintro _ ⟨vs, rfl, hvalid⟩ io
  have hencode : ((Codec.all (fields.map (fieldCodec structs false big nested))).imap
      Value.record Value.fields fun _ => rfl).encode (.record vs) =
      Codec.encodeAll (fields.map (fieldCodec structs false big nested)) vs := rfl
  rw [hencode]
  obtain ⟨body, hbody, rfl⟩ := genFn_inv hfn
  rcases genBody_inv hbody with ⟨rfl, rfl⟩ | ⟨codes, rfl, hcodes⟩
  · rfl
  · have hlen := hcodes.length_eq
    have hvs := hvalid.length_eq
    set cs := fields.map (fieldCodec structs false big nested) with hcs
    have hcslen : cs.length = fields.length := List.length_map _
    have hbody : Triple (machine (fields.map Field.name) env) _ (.all codes) _ :=
      Triple.all (Q := sizePost fun _ => True) (I := fun i => Counted vs io
        (Codec.encodeAll (cs.take i) (vs.take i)).length) fun i hi => by
      have hfi : i < fields.length := by omega
      have hvi : i < vs.length := by omega
      have hci : i < cs.length := by omega
      have hfield : cs[i] = fieldCodec structs false big nested fields[i] := List.getElem_map _
      have hv := hvalid.get hci hvi
      rw [List.get_eq_getElem, List.get_eq_getElem, hfield] at hv
      rw [Codec.encodeAll_take_succ hci hvi, List.length_append, hfield]
      refine genSizeField_triple hc hnested hs (List.getElem_mem hfi) (hcodes.get hfi hi) ?_ hv
      rw [hc.idxOf hs hfi, List.getElem?_eq_getElem hvi]
    obtain ⟨fl, s, hexec, hpost⟩ := hbody ⟨vs, none, 0, none, 0, 0, io⟩ ⟨rfl, rfl, rfl⟩
    rw [StructFn.run]
    dsimp only [Value.fields]
    rw [Code.exec, hexec]
    cases fl with
    | next =>
      have hcounted : Counted vs io (Codec.encodeAll (cs.take codes.length)
        (vs.take codes.length)).length s := hpost
      rw [← hlen, ← hcslen, List.take_length, hvs, List.take_length] at hcounted
      simp only [Code.exec, machine, Stmt.exec, hcounted.obj, hcounted.io, hcounted.total]
    | stop => exact hpost.elim
    | exit r => exact hpost.elim

/-- **Every struct** is counted by its function. -/
theorem sizes_struct [Platform] (hc : Compiled knownEnums structs userPrefix false big p)
    (cbs : Callbacks σ) (depth : ℕ) :
    SizesNested structs userPrefix (programEnv cbs p (depth + 1))
      (structCodec structs false big depth) := by
  induction depth with
  | zero =>
    intro name hname
    obtain ⟨⟨name, fields⟩, hs, rfl⟩ := List.mem_map.mp hname
    obtain ⟨-, -, hsize⟩ := generateC_struct hc.generated hs
    obtain ⟨fn, hfn, hmem⟩ := hsize rfl
    obtain ⟨body, -, rfl⟩ := genFn_inv hfn
    exact ⟨_, programEnv_def hc.linked hmem 0, fun v hv => hv.elim⟩
  | succ depth ih =>
    intro name hname
    obtain ⟨⟨name, fields⟩, hs, rfl⟩ := List.mem_map.mp hname
    obtain ⟨-, -, hsize⟩ := generateC_struct hc.generated hs
    obtain ⟨fn, hfn, hmem⟩ := hsize rfl
    have hsizes := genSizeFn_sizes hc ih hs hfn
    obtain ⟨body, -, rfl⟩ := genFn_inv hfn
    refine ⟨_, programEnv_def hc.linked hmem (depth + 1), ?_⟩
    rw [structCodec, hc.fields hs]
    exact hsizes

end

end BuffersGenC

end HtcwFrameArq
