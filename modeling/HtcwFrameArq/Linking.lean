import HtcwFrameArq.BuffersGenC

/-!
# Linking

Which function a call reaches. The emitted functions are to have names of their own, and the type of
a scalar is to be one that `buffers.h` has functions for: the generator puts the name of the type,
as the header has it, into the name of the function.
-/

namespace HtcwFrameArq

namespace BuffersGenC

open Streams

/-! ## The functions of `buffers.c` -/

/-- The names of the functions of `buffers.c`. -/
def supportNames : List String :=
  bufferNames.map (fun e => "buffers_read_" ++ e.name) ++
    bufferNames.map fun e => "buffers_write_" ++ e.name

/-- The types that a scalar may have for its functions to exist: one word, in lower case. -/
def callableTypes : List String :=
  ["uint8_t", "uint16_t", "uint32_t", "uint64_t", "int8_t", "int16_t", "int32_t", "int64_t",
    "float", "double", "bool", "char", "short", "int", "long", "wchar_t", "size_t"]

/-- A single byte has no byte order. -/
def Scalar.Single (t : Scalar) : Prop := t.size = 1

instance (t : Scalar) : Decidable t.Single := inferInstanceAs (Decidable (_ = _))

theorem Scalar.codec_eq {t : Scalar} (h : t ≠ bool) (big : Bool) :
    t.codec big = bitsCodec t.size big := by
  cases t with
  | bool => exact absurd rfl h
  | _ => rfl

/-- The function for a type: its entry in `buffers.c`. -/
def Entry (type : String) (big : Bool) (e : BufferFns) : Prop :=
  e.name = type ++ endianSuffixForType type (if big then "_be" else "_le") ∧ e.type = type ∧
    (e.big = big ∨ e.scalar.Single) ∧
    e.scalar.size = wireSize ((scalarTypeMap.lookup (lower type)).getD "") ∧
    (e.scalar = .bool ↔ type = "bool")

instance (type : String) (big : Bool) (e : BufferFns) :
    Decidable (Entry type big e) := by
  unfold Entry
  infer_instance

theorem exists_entry {type : String} (h : type ∈ callableTypes) (big : Bool) :
    ∃ e ∈ bufferNames, Entry type big e := by
  have hall : ∀ type ∈ callableTypes, ∀ big, ∃ e ∈ bufferNames, Entry type big e := by
    decide +kernel
  exact hall type h big

theorem append_right_injective (s : String) : Function.Injective (s ++ ·) := by
  intro a b h
  simpa using h

theorem read_ne_write (a b : String) : "buffers_read_" ++ a ≠ "buffers_write_" ++ b := by
  intro h
  have h := congrArg String.toList h
  rw [String.toList_append, String.toList_append] at h
  have h := congrArg (fun l => l[8]?) h
  simp at h

theorem supportNames_nodup : supportNames.Nodup := by
  have hkeys : (bufferNames.map BufferFns.name).Nodup := by decide +kernel
  have hmap (s : String) : (bufferNames.map fun e => s ++ e.name).Nodup := by
    have h := hkeys.map (append_right_injective s)
    rwa [List.map_map] at h
  refine List.nodup_append.mpr ⟨hmap _, hmap _, ?_⟩
  intro a ha b hb
  obtain ⟨e, -, rfl⟩ := List.mem_map.mp ha
  obtain ⟨e', -, rfl⟩ := List.mem_map.mp hb
  exact read_ne_write e.name e'.name

theorem lookup_of_mem {α : Type} {l : List (String × α)} (hnodup : (l.map Prod.fst).Nodup)
    {k : String} {v : α} (h : (k, v) ∈ l) : l.lookup k = some v := by
  induction l with
  | nil => cases h
  | cons e l ih =>
    rw [List.map_cons, List.nodup_cons] at hnodup
    rcases List.mem_cons.mp h with rfl | h
    · exact List.lookup_cons_self
    · have hne : k ≠ e.1 := fun heq => hnodup.1 (heq ▸ List.mem_map_of_mem h)
      rw [List.lookup_cons, beq_false_of_ne hne]
      exact ih hnodup.2 h

section

variable [Platform] {σ : Type} (cbs : Callbacks σ)

theorem support_names : (support cbs).map Prod.fst = supportNames := by
  rw [support, supportNames, List.map_append, List.map_map, List.map_map]
  rfl

theorem support_read {e : BufferFns} (he : e ∈ bufferNames) :
    (support cbs).lookup ("buffers_read_" ++ e.name) =
      some (readCallee cbs e.type e.scalar e.big) :=
  lookup_of_mem (support_names cbs ▸ supportNames_nodup)
    (List.mem_append_left _ (List.mem_map_of_mem he))

theorem support_write {e : BufferFns} (he : e ∈ bufferNames) :
    (support cbs).lookup ("buffers_write_" ++ e.name) = some (writeCallee cbs e.scalar e.big) :=
  lookup_of_mem (support_names cbs ▸ supportNames_nodup)
    (List.mem_append_right _ (List.mem_map_of_mem he))

end

/-! ## The functions of a program -/

/-- The functions have names of their own. -/
def Linked (p : List Def) : Prop := (p.map Def.name ++ supportNames).Nodup

instance (p : List Def) : Decidable (Linked p) := inferInstanceAs (Decidable (List.Nodup _))

theorem linked_of_names {p : List Def} (h : (p.map Def.name).Nodup)
    (hsupport : ∀ name ∈ p.map Def.name, name ∉ supportNames) : Linked p :=
  List.nodup_append.mpr ⟨h, supportNames_nodup, fun a ha _ hb hab => hsupport a ha (hab ▸ hb)⟩

section

variable [Platform] {σ : Type} {cbs : Callbacks σ} {p : List Def}

theorem programEnv_support (hlink : Linked p) {name : String} {k : Callee σ}
    (h : (support cbs).lookup name = some k) (depth : ℕ) :
    programEnv cbs p depth name = some k := by
  cases depth with
  | zero => exact h
  | succ depth =>
    have hmem : name ∈ supportNames := by
      rw [← support_names cbs]
      exact List.mem_map_of_mem (mem_of_lookup h)
    have hnone : p.find? (fun d => d.name = name) = none := by
      rw [List.find?_eq_none]
      intro d hd hname
      have hname : d.name = name := by simpa using hname
      exact (List.nodup_append.mp hlink).2.2 _ (List.mem_map_of_mem hd) name hmem hname
    rw [programEnv, hnone]
    exact h

theorem programEnv_def (hlink : Linked p) {d : Def} (hd : d ∈ p) (depth : ℕ) :
    programEnv cbs p (depth + 1) d.name = some (d.run (programEnv cbs p depth)) := by
  have hnodup : (p.map Def.name).Nodup := (List.nodup_append.mp hlink).1
  have hfind : p.find? (fun d' => d'.name = d.name) = some d := by
    clear hlink
    induction p with
    | nil => cases hd
    | cons d' p ih =>
      rw [List.map_cons, List.nodup_cons] at hnodup
      rcases List.mem_cons.mp hd with rfl | hd
      · rw [List.find?_cons_of_pos (by simp)]
      · have hne : d'.name ≠ d.name := fun h => hnodup.1 (h ▸ List.mem_map_of_mem hd)
        rw [List.find?_cons_of_neg (by simpa using hne)]
        exact ih hd hnodup.2
  rw [programEnv, hfind]

end

/-! ## What the generator defines -/

section

variable {knownEnums : List (String × String)} {structs : Structs} {userPrefix : String}
  {fixedMode big : Bool} {p : List Def}

theorem mem_dictSet {d : List (String × String)} {k v : String} (e : String × String) :
    e ∈ dictSet d k v ↔ e = (k, v) ∨ e ∈ d ∧ e.1 ≠ k := by
  rw [dictSet]
  split_ifs with hk
  · rw [List.mem_map]
    constructor
    · rintro ⟨e', he', rfl⟩
      split_ifs with hk'
      · exact .inl rfl
      · exact .inr ⟨he', hk'⟩
    · rintro (rfl | ⟨he, hne⟩)
      · obtain ⟨e', he', hk'⟩ := List.mem_map.mp hk
        exact ⟨e', he', if_pos hk'⟩
      · exact ⟨e, he, if_neg hne⟩
  · rw [List.mem_append, List.mem_singleton]
    constructor
    · rintro (he | he)
      · exact .inr ⟨he, fun h => hk (h ▸ List.mem_map_of_mem he)⟩
      · exact .inl he
    · rintro (he | ⟨he, -⟩)
      · exact .inr he
      · exact .inl he

/-- The enums that the functions are for are those of the fields, with their wire types. -/
theorem mem_enumTypes (hwf : WellFormed knownEnums structs) (e : String × String) :
    e ∈ enumTypes structs ↔
      ∃ s ∈ structs, ∃ f ∈ s.2, f.isEnum = true ∧ e = (f.type, f.wireType) := by
  have hfold (fields : List Field) (d : List (String × String))
      (hd : ∀ e ∈ d, knownEnums.lookup e.1 = some e.2)
      (hfields : ∀ f ∈ fields, f.isEnum = true → knownEnums.lookup f.type = some f.wireType) :
      e ∈ fields.foldl (fun d f => if f.isEnum then dictSet d f.type f.wireType else d) d ↔
        e ∈ d ∨ ∃ f ∈ fields, f.isEnum = true ∧ e = (f.type, f.wireType) := by
    induction fields generalizing d with
    | nil => simp
    | cons f fields ih =>
      rw [List.foldl_cons]
      by_cases henum : f.isEnum = true
      · have hf := hfields f List.mem_cons_self henum
        rw [if_pos henum, ih _ _ fun g hg => hfields g (List.mem_cons_of_mem f hg)]
        · rw [mem_dictSet]
          constructor
          · rintro ((rfl | ⟨he, -⟩) | ⟨g, hg, h⟩)
            · exact .inr ⟨f, List.mem_cons_self, henum, rfl⟩
            · exact .inl he
            · exact .inr ⟨g, List.mem_cons_of_mem f hg, h⟩
          · rintro (he | ⟨g, hg, henum', rfl⟩)
            · by_cases hkey : e.1 = f.type
              · -- the entry of a type is always the same
                have hsame := hd e he
                rw [hkey, hf] at hsame
                exact .inl (.inl (Prod.ext hkey (Option.some.inj hsame).symm))
              · exact .inl (.inr ⟨he, hkey⟩)
            · rcases List.mem_cons.mp hg with rfl | hg
              · exact .inl (.inl rfl)
              · exact .inr ⟨g, hg, henum', rfl⟩
        · intro e' he'
          rcases (mem_dictSet e').mp he' with rfl | ⟨he', -⟩
          · exact hf
          · exact hd e' he'
      · rw [if_neg henum, ih _ hd fun g hg => hfields g (List.mem_cons_of_mem f hg)]
        refine or_congr_right ?_
        constructor
        · rintro ⟨g, hg, h⟩
          exact ⟨g, List.mem_cons_of_mem f hg, h⟩
        · rintro ⟨g, hg, h⟩
          rcases List.mem_cons.mp hg with rfl | hg
          · exact absurd h.1 henum
          · exact ⟨g, hg, h⟩
  rw [enumTypes, hfold _ _ (by simp)]
  · simp only [List.not_mem_nil, false_or, List.mem_flatMap]
    constructor
    · rintro ⟨f, ⟨s, hs, hf⟩, h⟩
      exact ⟨s, hs, f, hf, h⟩
    · rintro ⟨s, hs, f, hf, h⟩
      exact ⟨f, ⟨s, hs, hf⟩, h⟩
  · intro f hf henum
    obtain ⟨s, hs, hf⟩ := List.mem_flatMap.mp hf
    cases hwf.kinds s hs f hf with
    | scalar h _ => rw [henum] at h; cases h
    | enum _ htype => exact htype
    | struct h _ _ _ => rw [henum] at h; cases h

/-- The functions of each struct. -/
theorem genStructs_mem {o : Options} (h : genStructs o structs = .ok p) {name : String}
    {fields : List Field} (hs : (name, fields) ∈ structs) :
    (∃ f, genReadFn o name fields = .ok f ∧ .struct f ∈ p) ∧
      (∃ f, genWriteFn o name fields = .ok f ∧ .struct f ∈ p) ∧
      (o.fixedMode = false → ∃ f, genSizeFn o name fields = .ok f ∧ .struct f ∈ p) := by
  induction structs generalizing p with
  | nil => cases hs
  | cons s structs ih =>
    obtain ⟨name', fields'⟩ := s
    obtain ⟨readFn, writeFn, sizeFns, rest, hread, hwrite, hsize, hrest, rfl⟩ := genStructs_inv h
    rcases List.mem_cons.mp hs with heq | hs
    · cases heq
      refine ⟨⟨readFn, hread, by simp⟩, ⟨writeFn, hwrite, by simp⟩, fun hmode => ?_⟩
      rw [if_neg (by simp [hmode])] at hsize
      obtain ⟨sizeFn, hsize, rfl⟩ := hsize
      exact ⟨sizeFn, hsize, by simp⟩
    · obtain ⟨⟨f, hf, hmem⟩, ⟨g, hg, hmem'⟩, hsizes⟩ := ih hrest hs
      refine ⟨⟨f, hf, List.mem_append_right _ hmem⟩, ⟨g, hg, List.mem_append_right _ hmem'⟩,
        fun hmode => ?_⟩
      obtain ⟨k, hk, hmem''⟩ := hsizes hmode
      exact ⟨k, hk, List.mem_append_right _ hmem''⟩

/-- The functions for an enum of a field are defined. -/
theorem generateC_enum (hwf : WellFormed knownEnums structs)
    (hgen : generateC userPrefix structs fixedMode big = .ok p) {s : String × List Field}
    (hs : s ∈ structs) {f : Field} (hf : f ∈ s.2) (henum : f.isEnum = true) :
    let o := optionsFor userPrefix structs fixedMode big
    Def.enum (genEnumReadFn o f.type f.wireType) ∈ p ∧
      Def.enum (genEnumWriteFn o f.type f.wireType) ∈ p := by
  rw [generateC] at hgen
  rcases hdefs : genStructs (optionsFor userPrefix structs fixedMode big) structs with msg | defs
  · rw [hdefs] at hgen
    cases hgen
  · rw [hdefs] at hgen
    cases hgen
    have hmem := (mem_enumTypes hwf (f.type, f.wireType)).mpr ⟨s, hs, f, hf, henum, rfl⟩
    have henums (d : Def) (hd : d ∈ [Def.enum (genEnumReadFn
        (optionsFor userPrefix structs fixedMode big) f.type f.wireType), .enum (genEnumWriteFn
        (optionsFor userPrefix structs fixedMode big) f.type f.wireType)]) :
        d ∈ genEnums (optionsFor userPrefix structs fixedMode big) (enumTypes structs) ++ defs :=
      List.mem_append_left _ (List.mem_flatMap.mpr ⟨_, hmem, hd⟩)
    exact ⟨henums _ (by simp), henums _ (by simp)⟩

/-- The functions for a struct are defined. -/
theorem generateC_struct (hgen : generateC userPrefix structs fixedMode big = .ok p)
    {name : String} {fields : List Field} (hs : (name, fields) ∈ structs) :
    let o := optionsFor userPrefix structs fixedMode big
    (∃ f, genReadFn o name fields = .ok f ∧ .struct f ∈ p) ∧
      (∃ f, genWriteFn o name fields = .ok f ∧ .struct f ∈ p) ∧
      (fixedMode = false → ∃ f, genSizeFn o name fields = .ok f ∧ .struct f ∈ p) := by
  rw [generateC] at hgen
  rcases hdefs : genStructs (optionsFor userPrefix structs fixedMode big) structs with msg | defs
  · rw [hdefs] at hgen
    cases hgen
  · rw [hdefs] at hgen
    cases hgen
    obtain ⟨⟨f, hf, hmem⟩, ⟨g, hg, hmem'⟩, hsize⟩ := genStructs_mem hdefs hs
    refine ⟨⟨f, hf, List.mem_append_right _ hmem⟩, ⟨g, hg, List.mem_append_right _ hmem'⟩,
      fun hmode => ?_⟩
    obtain ⟨k, hk, hmem''⟩ := hsize hmode
    exact ⟨k, hk, List.mem_append_right _ hmem''⟩

end

/-! ## A program that compiles -/

/-- The program of some structs, and what a C compiler and the linker ask of it. -/
structure Compiled (knownEnums : List (String × String)) (structs : Structs) (userPrefix : String)
    (fixedMode big : Bool) (p : List Def) : Prop where
  wellFormed : WellFormed knownEnums structs
  generated : generateC userPrefix structs fixedMode big = .ok p
  linked : Linked p
  callable : ∀ s ∈ structs, ∀ f ∈ s.2, f.isEnum = false → f.wireType ∉ structs.map Prod.fst →
    f.type ∈ callableTypes
  arrays : ∀ s ∈ structs, ∀ f ∈ s.2, ∀ n, f.arrayLen = some n → (n : Int) ≤ intMax

section

variable {knownEnums : List (String × String)} {structs : Structs} {userPrefix : String}
  {fixedMode big : Bool} {p : List Def} {σ : Type}

/-- The wire type of a type that has functions. -/
def wireOf (type : String) : String := (scalarTypeMap.lookup (lower type)).getD ""

/-- The function of `buffers.c` that a call for a type reaches. -/
structure Reaches (type : String) (big : Bool) (t : Scalar) (b : Bool) : Prop where
  order : b = big ∨ t.Single
  size : t.size = wireSize (wireOf type)
  bool : t = .bool ↔ type = "bool"

theorem Compiled.scalar [Platform] (h : Compiled knownEnums structs userPrefix fixedMode big p)
    {type : String} (htype : type ∈ callableTypes) : ∃ t b, Reaches type big t b ∧
      ∀ (cbs : Callbacks σ) depth,
        programEnv cbs p depth ("buffers_read_" ++ type ++ endianSuffixForType type
          (optionsFor userPrefix structs fixedMode big).endianSuffix) =
            some (readCallee cbs type t b) ∧
        programEnv cbs p depth ("buffers_write_" ++ type ++ endianSuffixForType type
          (optionsFor userPrefix structs fixedMode big).endianSuffix) =
            some (writeCallee cbs t b) := by
  obtain ⟨⟨key, _, t, b⟩, he, hkey, rfl, horder, hsize, hbool⟩ := exists_entry htype big
  refine ⟨t, b, ⟨horder, hsize, hbool⟩, fun cbs depth => ?_⟩
  have hread := support_read cbs he
  have hwrite := support_write cbs he
  dsimp only at hkey hread hwrite
  rw [hkey, ← String.append_assoc] at hread hwrite
  exact ⟨programEnv_support h.linked hread depth, programEnv_support h.linked hwrite depth⟩

/-- The codec of a scalar field is that of the function it reaches. -/
theorem itemCodec_scalar {nested : String → Codec UInt8 Int Value} {f : Field} {t : Scalar}
    {b : Bool} (hkind : f.Kind knownEnums (structs.map Prod.fst))
    (henum : f.isEnum = false) (hnot : f.wireType ∉ structs.map Prod.fst)
    (hreach : Reaches f.type big t b) : itemCodec structs big nested f = t.codec big := by
  rw [itemCodec, if_neg hnot, if_neg (by simp [henum])]
  by_cases hbool : f.type = "bool"
  · rw [if_pos hbool, hreach.bool.mpr hbool]
    rfl
  · rw [if_neg hbool, Scalar.codec_eq fun h => hbool (hreach.bool.mp h), hreach.size, wireOf]
    cases hkind with
    | scalar _ htype => rw [htype]; rfl
    | enum h _ => rw [henum] at h; cases h
    | struct _ _ hmem _ => exact absurd hmem hnot

/-- The function that a call for a wire type reaches. -/
theorem Reaches.enum {wire : String} {t : Scalar} {b : Bool} (h : Reaches wire big t b)
    (hwire : wire ∈ enumWireTypes) : t ≠ .bool ∧ t.size = wireSize wire := by
  have hall : ∀ w ∈ enumWireTypes, w ≠ "bool" ∧ wireOf w = w := by decide +kernel
  obtain ⟨hne, heq⟩ := hall wire hwire
  exact ⟨fun hbool => hne (h.bool.mp hbool), by rw [h.size, heq]⟩

theorem callable_of_enum {wire : String} (h : wire ∈ enumWireTypes) : wire ∈ callableTypes := by
  have hall : ∀ w ∈ enumWireTypes, w ∈ callableTypes := by decide
  exact hall wire h

theorem lengthPrefixType_mem {n : ℕ} {type : String} (h : lengthPrefixType n = .ok type) :
    type ∈ enumWireTypes := by
  rw [lengthPrefixType] at h
  split_ifs at h <;> cases h <;> decide

/-- A wire type is as wide on every platform. -/
theorem wideOf_enum [Platform] {wire : String} (h : wire ∈ enumWireTypes) :
    Platform.sizeof wire = wireSize wire := by
  have hall : ∀ w ∈ enumWireTypes, (w, wireSize w) ∈ exactSizes := by decide +kernel
  exact Platform.exact _ (hall wire h)

/-- The functions for the length of a text. -/
theorem Compiled.lengthPrefix [Platform]
    (h : Compiled knownEnums structs userPrefix fixedMode big p)
    {n : ℕ} {type : String} (htype : lengthPrefixType n = .ok type) :
    lengthPrefixSize n = .ok (wireSize type) ∧ ∃ t b, (b = big ∨ t.Single) ∧
      Platform.sizeof type = t.size ∧
      t.codec big = bitsCodec (wireSize type) big ∧ ∀ (cbs : Callbacks σ) depth,
        programEnv cbs p depth ("buffers_read_" ++ type ++ endianSuffixForType type
          (optionsFor userPrefix structs fixedMode big).endianSuffix) =
            some (readCallee cbs type t b) ∧
        programEnv cbs p depth ("buffers_write_" ++ type ++ endianSuffixForType type
          (optionsFor userPrefix structs fixedMode big).endianSuffix) =
            some (writeCallee cbs t b) := by
  have hmem := lengthPrefixType_mem htype
  obtain ⟨t, b, hreach, henv⟩ := h.scalar (callable_of_enum hmem)
  obtain ⟨hbool, hsize⟩ := hreach.enum hmem
  refine ⟨?_, t, b, hreach.order, (wideOf_enum hmem).trans hsize.symm, ?_, henv⟩
  · rw [lengthPrefixSize, htype]
    rfl
  · rw [Scalar.codec_eq hbool, hsize]

/-- The name of a field leads to its place. -/
theorem Compiled.idxOf (h : Compiled knownEnums structs userPrefix fixedMode big p)
    {name : String} {fields : List Field} (hs : (name, fields) ∈ structs) {i : ℕ}
    (hi : i < fields.length) : (fields.map Field.name).idxOf fields[i].name = i := by
  have hidx := (h.wellFormed.fieldNames _ hs).idxOf_getElem i (by simpa using hi)
  rwa [List.getElem_map] at hidx

/-- The fields of a struct, by its name. -/
theorem Compiled.fields (h : Compiled knownEnums structs userPrefix fixedMode big p)
    {name : String} {fields : List Field} (hs : (name, fields) ∈ structs) :
    structs.fields name = fields := by
  rw [Structs.fields, lookup_of_mem h.wellFormed.names hs]
  rfl

end

end BuffersGenC

end HtcwFrameArq
