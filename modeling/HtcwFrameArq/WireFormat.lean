import HtcwFrameArq.Codecs
import HtcwFrameArq.WireSize

/-!
# The wire format

What the generated functions are to write and read: a codec for each struct of a header. A scalar is
the bytes of its wire type, a struct or an array one part after the other, and a text is its length
and its characters, unless all of it is transmitted.

`structCodec_size` says that the size of a struct is the largest size of its values, and in fixed
mode the size of each of them.
-/

namespace HtcwFrameArq

namespace BuffersGenC

open Streams

/-! ## Objects -/

/-- An object: the bytes of a scalar as a number, as many as its type has on the platform, the value
of an enum, the elements of an array, the fields of a struct in their order. -/
inductive Value : Type where
  | bits (n : ℕ) : Value
  | enum (e : Int) : Value
  | array (vs : List Value) : Value
  | record (vs : List Value) : Value

/-- The bytes of a scalar. -/
def Value.toBits : Value → ℕ
  | bits n => n
  | _ => 0

/-- The value of an enum. -/
def Value.toEnum : Value → Int
  | enum e => e
  | _ => 0

/-- The elements of an array. -/
def Value.elems : Value → List Value
  | array vs => vs
  | _ => []

/-- The fields of a struct. -/
def Value.fields : Value → List Value
  | record vs => vs
  | _ => []

/-! ## Scalars -/

/-- The errors of `buffers.h`. -/
def buffersErrorEof : Int := -2

/-- The size of a wire type. -/
def wireSize (wireType : String) : ℕ := (wireTypeSizes.lookup wireType).getD 0

/-- The wire types with a sign. -/
def signedWireTypes : List String := ["int8_t", "int16_t", "int32_t", "int64_t"]

/-- The value of a number of `n` bytes as one of a wire type. -/
def signExtend (wireType : String) (k : ℕ) : Int :=
  if wireType ∈ signedWireTypes ∧ 256 ^ wireSize wireType ≤ 2 * k
  then (k : Int) - (256 ^ wireSize wireType : ℕ) else k

/-- An enum value that its wire type can represent. -/
def InRange (wireType : String) (e : Int) : Prop :=
  if wireType ∈ signedWireTypes
  then -(256 ^ wireSize wireType : ℕ) ≤ 2 * e ∧ 2 * e < (256 ^ wireSize wireType : ℕ)
  else 0 ≤ e ∧ e < (256 ^ wireSize wireType : ℕ)

instance (wireType : String) (e : Int) : Decidable (InRange wireType e) := by
  unfold InRange
  infer_instance

/-- An enum value as a number of bytes, which is a conversion to an unsigned type. -/
def enumBits (wireType : String) (e : Int) : ℕ := (e % (256 ^ wireSize wireType : ℕ)).toNat

theorem enumBits_lt (wireType : String) (e : Int) :
    enumBits wireType e < 256 ^ wireSize wireType := by
  have hpos : (0 : Int) < (256 ^ wireSize wireType : ℕ) := by exact_mod_cast Nat.pow_pos (by decide)
  have hlt := Int.emod_lt_of_pos e hpos
  have hnonneg := Int.emod_nonneg e (Int.ne_of_gt hpos)
  rw [enumBits]
  omega

theorem signExtend_inRange {wireType : String} {k : ℕ} (h : k < 256 ^ wireSize wireType) :
    InRange wireType (signExtend wireType k) := by
  rw [InRange, signExtend]
  by_cases hsigned : wireType ∈ signedWireTypes
  · rw [if_pos hsigned]
    by_cases hneg : 256 ^ wireSize wireType ≤ 2 * k
    · rw [if_pos ⟨hsigned, hneg⟩]
      omega
    · rw [if_neg (by tauto)]
      omega
  · rw [if_neg hsigned, if_neg (by tauto)]
    omega

/-- A value in range is what is read back. -/
theorem signExtend_enumBits {wireType : String} {e : Int} (h : InRange wireType e) :
    signExtend wireType (enumBits wireType e) = e := by
  rw [InRange] at h
  rw [signExtend, enumBits]
  generalize 256 ^ wireSize wireType = m at *
  by_cases hsigned : wireType ∈ signedWireTypes
  · rw [if_pos hsigned] at h
    rcases Int.lt_or_le e 0 with hneg | hpos
    · have hmod : e % (m : Int) = e + m := by
        rw [← Int.add_emod_right, Int.emod_eq_of_lt (by omega) (by omega)]
      rw [hmod, if_pos ⟨hsigned, by omega⟩]
      omega
    · rw [Int.emod_eq_of_lt hpos (by omega), if_neg (by omega)]
      omega
  · rw [if_neg hsigned] at h
    rw [Int.emod_eq_of_lt h.1 h.2, if_neg (by tauto)]
    omega

/-- A scalar, by its bytes. -/
def bitsCodec (n : ℕ) (big : Bool) : Codec UInt8 Int Value :=
  (Codec.number n big).imap .bits Value.toBits fun _ => rfl

/-- A bool is 0 or 1, and read as 1 if it is not 0. -/
def boolCodec : Codec UInt8 Int Value :=
  Codec.block 1 (fun v => v = .bits 0 ∨ v = .bits 1) Eq
    (fun v => [if v.toBits ≠ 0 then 1 else 0])
    (fun bs => .bits (if bs.headD 0 ≠ 0 then 1 else 0)) (fun _ => rfl)
    (fun _ => by split <;> simp) (fun _ h => by rw [h])
    (fun h => by rcases h with rfl | rfl <;> rfl)

/-- An enum, by the bytes of its value. -/
def enumCodec (wireType : String) (big : Bool) : Codec UInt8 Int Value :=
  Codec.block (wireSize wireType) (fun v => ∃ e, v = .enum e ∧ InRange wireType e) Eq
    (fun v => Codec.ordered big (Codec.lowBytes (wireSize wireType) (enumBits wireType v.toEnum)))
    (fun bs => .enum (signExtend wireType (Codec.ofLowBytes (Codec.ordered big bs))))
    (fun _ => by simp)
    (fun {bs} h => by
      have hlt := Codec.ofLowBytes_lt (Codec.ordered big bs)
      rw [Codec.ordered_length, h] at hlt
      exact ⟨_, rfl, signExtend_inRange hlt⟩)
    (fun _ h => by rw [h])
    (by
      rintro _ ⟨e, rfl, he⟩
      rw [Codec.ordered_ordered, Codec.ofLowBytes_lowBytes, Value.toEnum,
        Nat.mod_eq_of_lt (enumBits_lt wireType e), signExtend_enumBits he])

/-! ## Texts, fields and structs -/

/-- The parts of a text of at most `n` characters of `size` bytes, with a prefix of `p` bytes. -/
def textParts (size n p : ℕ) (big : Bool) (h : 0 < size ∧ n < 256 ^ p) :
    Codec.Text UInt8 Int Value where
  item := bitsCodec size big
  count := Codec.number p big
  capacity := n
  stop v := v.toBits = 0
  nul := .bits 0
  tooLong := buffersErrorEof
  item_fixed := Codec.imap_fixed Codec.block_fixed
  item_exact := Codec.imap_exact Codec.block_exact
  count_fixed := Codec.block_fixed
  count_exact := Codec.block_exact
  count_valid hk := lt_of_le_of_lt hk h.2
  nul_valid := ⟨0, rfl, Nat.pow_pos (by decide)⟩
  nul_stop := rfl
  exists_item := ⟨.bits 1, ⟨1, rfl, Nat.one_lt_pow (Nat.pos_iff_ne_zero.mp h.1) (by decide)⟩, rfl⟩

/-- A text, where there is a prefix for its length. -/
def textCodec (size n p : ℕ) (big : Bool) : Codec UInt8 Int Value :=
  if h : 0 < size ∧ n < 256 ^ p
  then (Codec.text (textParts size n p big h)).imap .array Value.elems fun _ => rfl
  else .empty

/-- `n` values of one codec. -/
def arrayCodec (n : ℕ) (item : Codec UInt8 Int Value) : Codec UInt8 Int Value :=
  (Codec.all (List.replicate n item)).imap .array Value.elems fun _ => rfl

/-- One element of a field, where `nested` is the codec of a struct. -/
def itemCodec (structs : Structs) (big : Bool) (nested : String → Codec UInt8 Int Value)
    (f : Field) : Codec UInt8 Int Value :=
  if f.wireType ∈ structs.map Prod.fst then nested f.wireType
  else if f.isEnum then enumCodec f.wireType big
  else if f.type = "bool" then boolCodec
  else bitsCodec (wireSize f.wireType) big

/-- A field. -/
def fieldCodec (structs : Structs) (fixedMode big : Bool)
    (nested : String → Codec UInt8 Int Value) (f : Field) : Codec UInt8 Int Value :=
  match f.arrayLen with
  | none => itemCodec structs big nested f
  | some n =>
    if fixedMode = true ∨ fieldIsString f = false then arrayCodec n (itemCodec structs big nested f)
    else
      match lengthPrefixSize n with
      | .ok p => textCodec (wireSize f.wireType) n p big
      | .error _ => .empty

/-- A struct, to a depth. -/
def structCodec (structs : Structs) (fixedMode big : Bool) :
    ℕ → String → Codec UInt8 Int Value
  | 0, _ => .empty
  | depth + 1, name =>
    (Codec.all ((structs.fields name).map
      (fieldCodec structs fixedMode big (structCodec structs fixedMode big depth)))).imap
        .record Value.fields fun _ => rfl

/-- The codec of a struct. -/
def Structs.codec (structs : Structs) (fixedMode big : Bool) (name : String) :
    Codec UInt8 Int Value := structCodec structs fixedMode big structs.depth name

/-! ## Sizes -/

section

variable {knownEnums : List (String × String)} {structs : Structs} {fixedMode big : Bool}
  {nested : String → Codec UInt8 Int Value} {f : Field}

theorem arrayCodec_max (n : ℕ) (item : Codec UInt8 Int Value) :
    (arrayCodec n item).max = item.max * n := by
  have hsum : (arrayCodec n item).max = ((List.replicate n item).map Codec.max).sum := rfl
  rw [hsum, List.map_replicate, List.sum_replicate_nat, Nat.mul_comm]

theorem arrayCodec_valid {n : ℕ} {item : Codec UInt8 Int Value} {v : Value}
    (h : (arrayCodec n item).Valid v) :
    ∃ as, v = .array as ∧ as.length = n ∧ ∀ a ∈ as, item.Valid a := by
  obtain ⟨as, rfl, has⟩ := h
  exact ⟨as, rfl, Codec.validAll_replicate.mp has⟩

theorem arrayCodec_old {n : ℕ} {item : Codec UInt8 Int Value} {valid : Bool} {v : Value} :
    (arrayCodec n item).Old valid v ↔
      ∃ as, v = .array as ∧ as.length = n ∧ ∀ a ∈ as, item.Old valid a := by
  refine Codec.imap_old.trans (exists_congr fun as => and_congr_right fun _ => ?_)
  rw [Codec.all_old, Codec.oldAll_replicate]

theorem arrayCodec_encode (item : Codec UInt8 Int Value) (as : List Value) :
    (arrayCodec as.length item).encode (.array as) = as.flatMap item.encode :=
  Codec.encodeAll_replicate item as

theorem arrayCodec_exists {n : ℕ} {item : Codec UInt8 Int Value} (h : ∃ v, item.Valid v) :
    ∃ v, (arrayCodec n item).Valid v := by
  obtain ⟨v, hv⟩ := h
  refine ⟨.array (List.replicate n v), _, rfl, Codec.validAll_replicate.mpr ?_⟩
  exact ⟨List.length_replicate, fun a ha => List.eq_of_mem_replicate ha ▸ hv⟩

theorem textCodec_eq {size n p : ℕ} (h : 0 < size ∧ n < 256 ^ p) :
    (textCodec size n p big).max = size * n + p ∧ ∃ v, (textCodec size n p big).Valid v := by
  rw [textCodec, dif_pos h]
  refine ⟨?_, ?_⟩
  · have hmax : ((Codec.text (textParts size n p big h)).imap Value.array Value.elems
        fun _ => rfl).max = p + n * size := rfl
    rw [hmax, Nat.mul_comm, Nat.add_comm]
  · obtain ⟨as, has, -⟩ := Codec.Text.encode_attained (T := textParts size n p big h)
    exact ⟨.array as, as, rfl, has⟩

theorem bitsCodec_exists (n : ℕ) : ∃ v, (bitsCodec n big).Valid v :=
  ⟨.bits 0, 0, rfl, Nat.pow_pos (by decide)⟩

theorem enumCodec_exists (wireType : String) : ∃ v, (enumCodec wireType big).Valid v := by
  have hlt : 0 < 256 ^ wireSize wireType := Nat.pow_pos (by decide)
  exact ⟨.enum (signExtend wireType 0), _, rfl, signExtend_inRange hlt⟩

/-- An element that is no struct has the size of its wire type. -/
theorem itemCodec_wire (big : Bool) (nested : String → Codec UInt8 Int Value)
    (hwf : WellFormed knownEnums structs)
    (hkind : f.Kind knownEnums (structs.map Prod.fst))
    (hnot : f.wireType ∉ structs.map Prod.fst) :
    (itemCodec structs big nested f).max = wireSize f.wireType ∧
      ∃ v, (itemCodec structs big nested f).Valid v := by
  rw [itemCodec, if_neg hnot]
  split_ifs with henum hbool
  · exact ⟨rfl, enumCodec_exists f.wireType⟩
  · have hwire : f.wireType = "uint8_t" :=
      (hkind.of_scalar hwf (by rw [hbool]; rfl)).2
    rw [hwire]
    exact ⟨rfl, .bits 0, .inl rfl⟩
  · exact ⟨rfl, bitsCodec_exists _⟩

/-- All elements of a field have one size, if the values of its struct have. -/
theorem itemCodec_fixed (h : f.wireType ∈ structs.map Prod.fst → (nested f.wireType).Fixed) :
    (itemCodec structs big nested f).Fixed := by
  rw [itemCodec]
  split_ifs with hmem
  · exact h hmem
  · exact Codec.block_fixed
  · exact Codec.block_fixed
  · exact Codec.imap_fixed Codec.block_fixed

/-- The elements of a text are scalars of one or two bytes. -/
theorem fieldIsString_scalar (hwf : WellFormed knownEnums structs)
    (hkind : f.Kind knownEnums (structs.map Prod.fst)) (htext : fieldIsString f = true) :
    f.isEnum = false ∧ f.type ≠ "bool" ∧ f.wireType ∉ structs.map Prod.fst ∧
      0 < wireSize f.wireType := by
  have htype : f.type = "char" ∨ f.type = "wchar_t" := by
    rw [fieldIsString, Bool.and_eq_true, decide_eq_true_iff] at htext
    simpa using htext.2
  have hwire : ∃ wire, scalarTypeMap.lookup (lower f.type) = some wire := by
    rcases htype with h | h <;> rw [h] <;> exact ⟨_, rfl⟩
  obtain ⟨wire, hwire⟩ := hwire
  obtain ⟨henum, hscalar⟩ := hkind.of_scalar hwf hwire
  refine ⟨henum, ?_, hwf.not_struct ?_, ?_⟩
  · rcases htype with h | h <;> rw [h] <;> decide
  · rw [hscalar]
    exact isSome_of_scalar hwire
  · have hall : ∀ s ∈ scalarTypeMap, 0 < wireSize s.2 := by decide
    rw [hscalar]
    exact hall _ (mem_of_lookup hwire)

theorem itemCodec_text (hwf : WellFormed knownEnums structs)
    (hkind : f.Kind knownEnums (structs.map Prod.fst)) (htext : fieldIsString f = true) :
    itemCodec structs big nested f = bitsCodec (wireSize f.wireType) big := by
  obtain ⟨henum, hbool, hnot, -⟩ := fieldIsString_scalar hwf hkind htext
  rw [itemCodec, if_neg hnot, if_neg (by simp [henum]), if_neg hbool]

theorem lengthPrefixSize_lt {n p : ℕ} (h : lengthPrefixSize n = .ok p) : n < 256 ^ p := by
  rw [lengthPrefixSize, lengthPrefixType] at h
  split_ifs at h with h₁ h₂ h₃
  · cases h
    exact h₁
  · cases h
    exact h₂
  · cases h
    exact Nat.lt_succ_of_le h₃
  · cases h

/-- The size of a field is the largest size of its values. -/
theorem fieldCodec_size (big : Bool) {nestedSize : String → List String → Except SizeError ℕ}
    {visiting : List String} {n : ℕ} (hwf : WellFormed knownEnums structs)
    (hkind : f.Kind knownEnums (structs.map Prod.fst))
    (hnested : ∀ name path k, nestedSize name path = .ok k →
      (nested name).max = k ∧ ∃ v, (nested name).Valid v)
    (h : wireSizeOf structs fixedMode nestedSize visiting f = .ok n) :
    (fieldCodec structs fixedMode big nested f).max = n ∧
      ∃ v, (fieldCodec structs fixedMode big nested f).Valid v := by
  obtain ⟨e, p, helem, hp, rfl⟩ := wireSizeOf_ok_iff.mp h
  have hitem : (itemCodec structs big nested f).max = e ∧
      ∃ v, (itemCodec structs big nested f).Valid v := by
    rcases hkind.wire_or_struct hwf with ⟨hsome, hnot⟩ | ⟨hnone, hmem⟩
    · obtain ⟨hmax, hexists⟩ := itemCodec_wire big nested hwf hkind hnot
      refine ⟨?_, hexists⟩
      rw [hmax, wireSize]
      rcases elementSize_ok helem with hsize | ⟨hsize, -⟩
      · rw [hsize]
        rfl
      · rw [hsize] at hsome
        cases hsome
    · rw [itemCodec, if_pos hmem]
      rcases elementSize_ok helem with hsize | ⟨-, -, -, hsize⟩
      · rw [hsize] at hnone
        cases hnone
      · exact hnested _ _ _ hsize
  rw [fieldCodec]
  cases hlen : f.arrayLen with
  | none =>
    have htext : fieldIsString f = false := by
      rw [fieldIsString, hlen]
      rfl
    rw [if_neg (by simp [htext])] at hp
    subst hp
    simpa using hitem
  | some len =>
    rw [hlen] at hp
    dsimp only [Option.getD_some] at hp ⊢
    by_cases hfixed : fixedMode = true ∨ fieldIsString f = false
    · rw [if_pos hfixed]
      rw [if_neg (by rcases hfixed with h | h <;> simp [h])] at hp
      subst hp
      exact ⟨by rw [arrayCodec_max, hitem.1]; rfl, arrayCodec_exists hitem.2⟩
    · rw [if_neg hfixed]
      obtain ⟨hmode, htext⟩ := not_or.mp hfixed
      rw [if_pos ⟨by simpa using hmode, by simpa using htext⟩] at hp
      rcases hlength : lengthPrefixSize len with msg | k
      · rw [hlength] at hp
        cases hp
      · rw [hlength] at hp
        cases hp
        have htext : fieldIsString f = true := by simpa using htext
        obtain ⟨-, -, hnot, hpos⟩ := fieldIsString_scalar hwf hkind htext
        have hmax := (itemCodec_wire big nested hwf hkind hnot).1
        dsimp only
        rw [← hitem.1, hmax]
        exact textCodec_eq ⟨hpos, lengthPrefixSize_lt hlength⟩

/-- **The size of a struct** is the largest size of its values, and there are values. -/
theorem structCodec_size {depth n : ℕ} {name : String} {visiting : List String}
    (hwf : WellFormed knownEnums structs)
    (h : structWireSize structs fixedMode depth name visiting = .ok n) :
    (structCodec structs fixedMode big depth name).max = n ∧
      ∃ v, (structCodec structs fixedMode big depth name).Valid v := by
  induction depth generalizing name visiting n with
  | zero => cases h
  | succ depth ih =>
    rw [structWireSize] at h
    obtain ⟨ns, hns, rfl⟩ := sumSizes_ok_iff.mp h
    have hfields (f : Field) (hf : f ∈ structs.fields name) :
        f.Kind knownEnums (structs.map Prod.fst) := by
      rw [Structs.fields] at hf
      rcases hlookup : structs.lookup name with _ | fields
      · rw [hlookup] at hf
        cases hf
      · rw [hlookup] at hf
        exact hwf.kinds (name, fields) (mem_of_lookup hlookup) f hf
    rw [List.forall₂_map_left_iff] at hns
    have hall : (((structs.fields name).map (fieldCodec structs fixedMode big
          (structCodec structs fixedMode big depth))).map Codec.max).sum = ns.sum ∧
        ∃ vs, Codec.ValidAll ((structs.fields name).map (fieldCodec structs fixedMode big
          (structCodec structs fixedMode big depth))) vs := by
      clear h
      generalize structs.fields name = fields at hns hfields
      induction hns with
      | nil => exact ⟨rfl, [], .nil⟩
      | @cons f k fields ns hf _ ihs =>
        obtain ⟨hmax, v, hv⟩ := fieldCodec_size big hwf (hfields f List.mem_cons_self)
          (fun _ _ _ hsize => ih hsize) hf
        obtain ⟨hsum, vs, hvs⟩ := ihs fun g hg => hfields g (List.mem_cons_of_mem f hg)
        refine ⟨?_, v :: vs, .cons hv hvs⟩
        rw [List.map_cons, List.map_cons, List.sum_cons, List.sum_cons, hmax, hsum]
    obtain ⟨hsum, vs, hvs⟩ := hall
    exact ⟨hsum, .record vs, vs, rfl, hvs⟩

/-- In fixed mode all values of a struct have one size. -/
theorem structCodec_fixed (depth : ℕ) (name : String) :
    (structCodec structs true big depth name).Fixed := by
  induction depth generalizing name with
  | zero => exact fun _ h => h.elim
  | succ depth ih =>
    refine Codec.imap_fixed (Codec.all_fixed fun c hc => ?_)
    obtain ⟨f, -, rfl⟩ := List.mem_map.mp hc
    have hitem : (itemCodec structs big (structCodec structs true big depth) f).Fixed :=
      itemCodec_fixed fun _ => ih _
    rw [fieldCodec]
    split
    · exact hitem
    · rw [if_pos (.inl rfl)]
      refine Codec.imap_fixed (Codec.all_fixed fun c hc => ?_)
      rw [List.eq_of_mem_replicate hc]
      exact hitem

/-- In fixed mode an object is read as it was written. -/
theorem structCodec_exact (depth : ℕ) (name : String) :
    (structCodec structs true big depth name).Exact := by
  induction depth generalizing name with
  | zero => exact fun _ _ h => h.elim
  | succ depth ih =>
    refine Codec.imap_exact (Codec.all_exact fun c hc => ?_)
    obtain ⟨f, -, rfl⟩ := List.mem_map.mp hc
    have hitem : (itemCodec structs big (structCodec structs true big depth) f).Exact := by
      rw [itemCodec]
      split_ifs
      · exact ih _
      · exact Codec.block_exact
      · exact Codec.block_exact
      · exact Codec.imap_exact Codec.block_exact
    rw [fieldCodec]
    split
    · exact hitem
    · rw [if_pos (.inl rfl)]
      refine Codec.imap_exact (Codec.all_exact fun c hc => ?_)
      rw [List.eq_of_mem_replicate hc]
      exact hitem

end

end BuffersGenC

end HtcwFrameArq
