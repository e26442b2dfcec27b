import HtcwFrameArq.GeneratedReads
import HtcwFrameArq.GeneratedSizes
import HtcwFrameArq.Calls

/-!
# The generated files

What `buffers_gen_c.py` makes of a header, from the declarations to the bytes. The script writes
both files exactly if there are structs, none contains itself and, in variable mode, no text is too
long. The size in the header is then the largest number of bytes that an object takes, and what the
functions of a program do is what the codec of the struct says: `Generated.writes`,
`Generated.reads` and `Generated.round_trip`.
-/

namespace HtcwFrameArq

namespace BuffersGenC

open Commands Streams

/-! ## When the files are generated -/

/-- No text is too long for a prefix. -/
def TextsFit (structs : Structs) : Prop :=
  ∀ s ∈ structs, ∀ f ∈ s.2, fieldIsString f = true → f.arrayLen.getD 0 ≤ 0xFFFFFFFF

section

variable {h : Header} {structs : Structs} {userPrefix stem extension : String}
  {fixedMode big : Bool}

theorem lengthPrefixType_exists {n : ℕ} (hn : n ≤ 0xFFFFFFFF) :
    ∃ type, lengthPrefixType n = .ok type := by
  rw [lengthPrefixType]
  split_ifs <;> exact ⟨_, rfl⟩

theorem genFields_exists {gen : Field → Except String (Code Stmt Bound)} {fields : List Field}
    (h : ∀ f ∈ fields, ∃ code, gen f = .ok code) : ∃ body, genBody gen fields = .ok body := by
  have hcodes : ∃ codes, genFields gen fields = .ok codes := by
    induction fields with
    | nil => exact ⟨[], rfl⟩
    | cons f fields ih =>
      obtain ⟨⟨code, hcode⟩, hrest⟩ := List.forall_mem_cons.mp h
      obtain ⟨codes, hcodes⟩ := ih hrest
      exact ⟨code :: codes, by rw [genFields, hcode, hcodes]; rfl⟩
  obtain ⟨codes, hcodes⟩ := hcodes
  rw [genBody]
  split_ifs
  · exact ⟨_, rfl⟩
  · exact ⟨some (.all codes), by rw [hcodes]; rfl⟩

/-- The code for a field only fails for the prefix of a text. -/
theorem genField_exists {o : Options} {f : Field}
    (hlen : o.fixedMode = false → fieldIsString f = true → f.arrayLen.getD 0 ≤ 0xFFFFFFFF) :
    (∃ code, genWriteField o f = .ok code) ∧ (∃ code, genReadField o f = .ok code) ∧
      (o.fixedMode = false → ∃ code, genSizeField o f = .ok code) := by
  rw [genWriteField, genReadField, genSizeField]
  cases harray : f.arrayLen with
  | none => exact ⟨⟨_, rfl⟩, ⟨_, rfl⟩, fun _ => by dsimp only; split_ifs <;> exact ⟨_, rfl⟩⟩
  | some n =>
    dsimp only
    by_cases hplain : fieldIsString f = false
    · rw [if_pos (.inr hplain), if_pos (.inr hplain), if_pos hplain]
      exact ⟨⟨_, rfl⟩, ⟨_, rfl⟩, fun _ => by split_ifs <;> exact ⟨_, rfl⟩⟩
    · have htext : fieldIsString f = true := by simpa using hplain
      rw [if_neg hplain]
      cases hmode : o.fixedMode with
      | true =>
        rw [if_pos (.inl rfl), if_pos (.inl rfl)]
        exact ⟨⟨_, rfl⟩, ⟨_, rfl⟩, fun h => absurd h (by decide)⟩
      | false =>
        have hn := hlen hmode htext
        rw [harray, Option.getD_some] at hn
        obtain ⟨type, htype⟩ := lengthPrefixType_exists hn
        rw [if_neg (by simp [htext]), if_neg (by simp [htext]), htype]
        exact ⟨⟨_, rfl⟩, ⟨_, rfl⟩, fun _ => ⟨_, rfl⟩⟩

theorem genStructs_exists {o : Options} (htexts : o.fixedMode = false → TextsFit structs) :
    ∃ defs, genStructs o structs = .ok defs := by
  induction structs with
  | nil => exact ⟨[], rfl⟩
  | cons s structs ih =>
    obtain ⟨name, fields⟩ := s
    have hfield (f : Field) (hf : f ∈ fields) := @genField_exists o f fun h htext =>
      htexts h (name, fields) List.mem_cons_self f hf htext
    obtain ⟨write, hwrite⟩ := genFields_exists fun f hf => (hfield f hf).1
    obtain ⟨read, hread⟩ := genFields_exists fun f hf => (hfield f hf).2.1
    obtain ⟨defs, hdefs⟩ := ih fun h s hs => htexts h s (List.mem_cons_of_mem _ hs)
    rw [genStructs, genReadFn, genWriteFn, hread, hwrite, hdefs]
    cases hvariable : o.fixedMode with
    | true => exact ⟨_, rfl⟩
    | false =>
      obtain ⟨size, hsize⟩ := genFields_exists fun f hf => (hfield f hf).2.2 hvariable
      rw [genSizeFn, hsize]
      exact ⟨_, rfl⟩

/-- The functions are generated if the texts fit. -/
theorem generateC_exists (htexts : fixedMode = false → TextsFit structs) :
    ∃ p, generateC userPrefix structs fixedMode big = .ok p := by
  obtain ⟨defs, hdefs⟩ :=
    @genStructs_exists structs (optionsFor userPrefix structs fixedMode big) htexts
  exact ⟨_, by rw [generateC, hdefs]; rfl⟩

theorem maxSizes_exists {xs : List (Except SizeError ℕ)} :
    (∃ n, maxSizes xs = .ok n) ↔ ∀ x ∈ xs, ∃ n, x = .ok n := by
  induction xs with
  | nil => exact ⟨fun _ => by simp, fun _ => ⟨0, rfl⟩⟩
  | cons x xs ih =>
    rw [List.forall_mem_cons, ← ih, maxSizes]
    rcases x with e | n
    · exact ⟨fun ⟨_, h⟩ => (nomatch h), fun ⟨⟨_, h⟩, _⟩ => (nomatch h)⟩
    · constructor
      · rintro ⟨k, hk⟩
        rcases hrest : maxSizes xs with e | m
        · rw [hrest] at hk
          cases hk
        · exact ⟨⟨n, rfl⟩, ⟨m, rfl⟩⟩
      · rintro ⟨-, m, hm⟩
        exact ⟨_, by rw [hm]; rfl⟩

theorem sizeDefines_exists {names : List String}
    (h : ∀ name ∈ names, ∃ n, structs.size fixedMode name = .ok n) :
    ∃ lines, sizeDefines userPrefix structs fixedMode names = .ok lines := by
  induction names with
  | nil => exact ⟨[], rfl⟩
  | cons name names ih =>
    obtain ⟨⟨n, hn⟩, hrest⟩ := List.forall_mem_cons.mp h
    obtain ⟨lines, hlines⟩ := ih hrest
    exact ⟨_, by rw [sizeDefines, hn, hlines]; rfl⟩

/-- The header is generated if all structs have sizes. -/
theorem generateH_exists_iff :
    (∃ lines, generateH stem extension userPrefix structs fixedMode = .ok lines) ↔
      ∀ name ∈ structs.map Prod.fst, ∃ n, structs.size fixedMode name = .ok n := by
  have hmax := @maxSizes_exists (structs.map fun s => structs.size fixedMode s.1)
  rw [List.forall_mem_map] at hmax ⊢
  rw [← hmax]
  constructor
  · rintro ⟨lines, hlines⟩
    rw [generateH, computeMaxWireSize] at hlines
    rcases hsizes : maxSizes (structs.map fun s => structs.size fixedMode s.1) with e | m
    · rw [hsizes] at hlines
      cases hlines
    · exact ⟨m, hsizes⟩
  · rintro ⟨m, hm⟩
    obtain ⟨lines, hlines⟩ := @sizeDefines_exists structs userPrefix fixedMode
      (structs.map Prod.fst) (List.forall_mem_map.mpr (hmax.mp ⟨m, hm⟩))
    exact ⟨_, by rw [generateH, computeMaxWireSize, hm, hlines]; rfl⟩

/-- A struct that is contained is one of the header. -/
theorem Structs.Contains.mem {a b : String} (h : structs.Contains a b) :
    b ∈ structs.map Prod.fst := by
  obtain ⟨f, -, -, -, hmem⟩ := h
  exact hmem

/-- `main` gets both files if there are structs and nothing goes wrong with either file. -/
theorem main_exists_iff (hparsed : parseHeader h = .ok structs) :
    (∃ files, main stem extension userPrefix fixedMode big h = .ok files) ↔ structs ≠ [] ∧
      (∃ lines, generateH stem extension userPrefix structs fixedMode = .ok lines) ∧
        ∃ p, generateC userPrefix structs fixedMode big = .ok p := by
  simp only [main, hparsed, orExit, bind, Except.bind]
  by_cases hnil : structs = []
  · rw [if_pos hnil]
    exact ⟨by rintro ⟨_, ⟨⟩⟩, fun h => absurd hnil h.1⟩
  rw [if_neg hnil, and_iff_right hnil]
  rcases generateH stem extension userPrefix structs fixedMode with e | lines
  · exact ⟨by rintro ⟨_, ⟨⟩⟩, by rintro ⟨⟨_, ⟨⟩⟩, _⟩⟩
  · rcases generateC userPrefix structs fixedMode big with msg | p
    · exact ⟨by rintro ⟨_, ⟨⟩⟩, by rintro ⟨_, ⟨_, ⟨⟩⟩⟩⟩
    · exact ⟨fun _ => ⟨⟨lines, rfl⟩, p, rfl⟩, fun _ => ⟨_, rfl⟩⟩

/-- **Both files are generated** exactly if there are structs, none contains itself and the texts
fit. -/
theorem files_generated_iff (husual : h.Usual) (hparsed : parseHeader h = .ok structs) :
    (∃ files, main stem extension userPrefix fixedMode big h = .ok files) ↔ structs ≠ [] ∧
      (∀ name ∈ structs.map Prod.fst, ¬ Relation.TransGen structs.Contains name name) ∧
        (fixedMode = false → TextsFit structs) := by
  obtain ⟨knownEnums, -, hwf⟩ := parseHeader_wellFormed husual hparsed
  have hfields {s : String × List Field} (hs : s ∈ structs) : structs.fields s.1 = s.2 := by
    rw [Structs.fields, lookup_of_mem hwf.names hs]
    rfl
  rw [main_exists_iff hparsed]
  refine and_congr_right fun _ => ⟨?_, ?_⟩
  · rintro ⟨hlines, -⟩
    have hsizes := generateH_exists_iff.mp hlines
    refine ⟨fun name hname =>
      ((structs.size_exists_iff fixedMode name).mp (hsizes name hname) name .refl).1, ?_⟩
    intro hmode s hs f hf htext
    have hsized := ((structs.size_exists_iff fixedMode s.1).mp
      (hsizes s.1 (List.mem_map_of_mem hs)) s.1 .refl).2 f (hfields hs ▸ hf)
    exact hsized.2 hmode htext
  · rintro ⟨hcircle, htexts⟩
    refine ⟨generateH_exists_iff.mpr fun name hname => ?_, generateC_exists htexts⟩
    refine (structs.size_exists_iff fixedMode name).mpr fun a ha => ?_
    have hmem : a ∈ structs.map Prod.fst := by
      rcases ha.cases_tail with rfl | ⟨b, -, hba⟩
      · exact hname
      · exact hba.mem
    refine ⟨hcircle a hmem, ?_⟩
    obtain ⟨s, hs, rfl⟩ := List.mem_map.mp hmem
    rw [hfields hs]
    refine fun f hf => ⟨fun hnone => ?_, fun hmode htext => htexts hmode s hs f hf htext⟩
    rcases (hwf.kinds s hs f hf).wire_or_struct hwf with ⟨hsome, -⟩ | ⟨-, hstruct⟩
    · rw [hnone] at hsome
      cases hsome
    · exact hstruct

/-- The structs of `labelH`. -/
def labelStructs : Structs := (parseHeader labelH).toOption.getD []

/-- The functions for them. -/
def labelC (fixedMode big : Bool) : List Def :=
  (generateC "" labelStructs fixedMode big).toOption.getD []

theorem labelStructs_parsed : parseHeader labelH = .ok labelStructs := by decide +kernel

theorem labelC_generates :
    generateC "" labelStructs false false = .ok (labelC false false) := by decide +kernel

/-- No struct of `labelH` contains itself. -/
theorem files_generated_iff_label : labelStructs ≠ [] ∧
    (∀ name ∈ labelStructs.map Prod.fst, ¬ Relation.TransGen labelStructs.Contains name name) ∧
      (false = false → TextsFit labelStructs) :=
  (@files_generated_iff labelH labelStructs "" "label" ".h" false false labelH_usual
    labelStructs_parsed).mp
      ⟨(main "label" ".h" "" false false labelH).toOption.getD ([], []), by decide +kernel⟩

/-- **All calls are resolved** exactly if the types of all scalars are one word in lower case. -/
theorem calls_resolved_iff {p : List Def} (husual : h.Usual) (hparsed : parseHeader h = .ok structs)
    (hgen : generateC userPrefix structs fixedMode big = .ok p) :
    Resolved p ↔ ∀ s ∈ structs, ∀ f ∈ s.2, f.isEnum = false →
      f.wireType ∉ structs.map Prod.fst → f.type ∈ callableTypes := by
  obtain ⟨knownEnums, -, hwf⟩ := parseHeader_wellFormed husual hparsed
  exact resolved_iff hwf hgen

theorem calls_resolved_iff_label : Resolved (labelC false false) :=
  (calls_resolved_iff labelH_usual labelStructs_parsed labelC_generates).mpr (by decide +kernel)

/-- There is no `buffers_read_unsigned int_le`. -/
example : ((parseHeader ⟨[], [], [⟨"count_t", [⟨"unsigned int", "n", none⟩]⟩]⟩).bind fun structs =>
    generateC "" structs false false).map (fun p => decide (Resolved p)) = .ok false := by
  decide +kernel

end

/-! ## Sizes -/

section

variable {h : Header} {structs : Structs} {fixedMode : Bool}

theorem maxSizes_ok {xs : List (Except SizeError ℕ)} {m : ℕ} (h : maxSizes xs = .ok m) :
    (∀ x ∈ xs, ∃ n ≤ m, x = .ok n) ∧ (xs ≠ [] → .ok m ∈ xs) := by
  induction xs generalizing m with
  | nil => exact ⟨by simp, fun h => absurd rfl h⟩
  | cons x xs ih =>
    rw [maxSizes] at h
    rcases x with e | n
    · cases h
    · rcases hrest : maxSizes xs with e | k
      · rw [hrest] at h
        cases h
      · rw [hrest] at h
        cases h
        obtain ⟨hle, hmem⟩ := ih hrest
        refine ⟨List.forall_mem_cons.mpr ⟨⟨n, le_max_left n k, rfl⟩, fun x hx => ?_⟩, fun _ => ?_⟩
        · obtain ⟨j, hj, rfl⟩ := hle x hx
          exact ⟨j, hj.trans (le_max_right n k), rfl⟩
        · rcases le_total k n with hkn | hnk
          · rw [max_eq_left hkn]
            exact List.mem_cons_self
          · rw [max_eq_right hnk]
            by_cases hnil : xs = []
            · rw [hnil] at hrest
              cases hrest
              rw [Nat.le_zero.mp hnk]
              exact List.mem_cons_self
            · exact List.mem_cons_of_mem _ (hmem hnil)

end

/-! ## Programs -/

/-- A header that is read, and the program that is generated from it. Of what the script does not
check it is assumed that no enum or struct is named like a type that the script knows, that an `int`
counts up to the length of each array, that no two functions have the same name, and that every call
reaches a function. -/
structure Generated (h : Header) (userPrefix : String) (fixedMode big : Bool) (structs : Structs)
    (p : List Def) : Prop where
  usual : h.Usual
  parsed : parseHeader h = .ok structs
  generated : generateC userPrefix structs fixedMode big = .ok p
  linked : Linked p
  resolved : Resolved p
  arrays : ∀ s ∈ structs, ∀ f ∈ s.2, ∀ n, f.arrayLen = some n → (n : Int) ≤ intMax

theorem labelC_generated : Generated labelH "" false false labelStructs (labelC false false) where
  usual := labelH_usual
  parsed := labelStructs_parsed
  generated := labelC_generates
  linked := linked_of_names (by decide +kernel) (by decide +kernel)
  resolved := by decide +kernel
  arrays := by decide +kernel

/-- A struct of the header, of at most `n` bytes, which an `int` can count. -/
structure Structs.Measured (structs : Structs) (fixedMode : Bool) (name : String) (n : ℕ) :
    Prop where
  mem : name ∈ structs.map Prod.fst
  size : structs.size fixedMode name = .ok n
  int : (n : Int) ≤ intMax

theorem labelStructs_measured : labelStructs.Measured false "label_t" 16 where
  mem := by decide +kernel
  size := by decide +kernel
  int := by decide

/-- An object of the struct `label_t`. -/
def label : Value :=
  .record [.bits 1, .enum 300, .array [.record [.bits 1, .bits 2], .record [.bits 3, .bits 65535]],
    .array [.bits 72, .bits 105, .bits 0, .bits 7]]

theorem fields_record (vs : List Value) : Value.fields (.record vs) = vs := rfl

/-- A struct of some codecs. -/
def recordCodec (cs : List (Codec UInt8 Int Value)) : Codec UInt8 Int Value :=
  (Codec.all cs).imap .record Value.fields fields_record

/-- The parts of `label_t`. -/
theorem label_codec : labelStructs.codec false false "label_t" =
    recordCodec [boolCodec, enumCodec "int16_t" false,
      arrayCodec 2 (recordCodec [bitsCodec 2 false, bitsCodec 2 false]),
      textCodec 1 4 1 false] := by
  have hdepth : labelStructs.depth = 3 := by decide +kernel
  have hlabel : labelStructs.fields "label_t" = [⟨"shown", "bool", "uint8_t", none, false⟩,
    ⟨"shade", "shade_t", "int16_t", none, true⟩, ⟨"corners", "point_t", "point_t", some 2, false⟩,
    ⟨"text", "char", "int8_t", some 4, false⟩] := by decide +kernel
  have hpoint : labelStructs.fields "point_t" = [⟨"x", "int16_t", "int16_t", none, false⟩,
    ⟨"y", "int16_t", "int16_t", none, false⟩] := by decide +kernel
  have hnames : labelStructs.map Prod.fst = ["point_t", "label_t"] := by decide +kernel
  have hpoints : structCodec labelStructs false false 2 "point_t" =
      recordCodec [bitsCodec 2 false, bitsCodec 2 false] := by
    rw [structCodec, hpoint, recordCodec]
    simp only [List.map_cons, List.map_nil, fieldCodec, itemCodec, hnames]
    rfl
  rw [Structs.codec, hdepth, structCodec, hlabel, recordCodec]
  simp only [List.map_cons, List.map_nil, fieldCodec, itemCodec, hnames, ← hpoints]
  rfl

theorem label_valid : (labelStructs.codec false false "label_t").Valid label := by
  have hbits {size n : ℕ} (hn : n < 256 ^ size) : (bitsCodec size false).Valid (.bits n) :=
    ⟨n, rfl, hn⟩
  have hpoint {a b : ℕ} (ha : a < 256 ^ 2) (hb : b < 256 ^ 2) :
      (recordCodec [bitsCodec 2 false, bitsCodec 2 false]).Valid (.record [.bits a, .bits b]) :=
    ⟨_, rfl, .cons (hbits ha) (.cons (hbits hb) .nil)⟩
  rw [label_codec]
  refine ⟨_, rfl, .cons (.inr rfl) (.cons ⟨300, rfl, by decide⟩ (.cons ⟨_, rfl, ?_⟩
    (.cons ?_ .nil)))⟩
  · exact .cons (hpoint (by decide) (by decide)) (.cons (hpoint (by decide) (by decide)) .nil)
  · rw [textCodec_valid (by decide)]
    refine ⟨rfl, ?_⟩
    simp only [List.forall_mem_cons]
    exact ⟨hbits (by decide), hbits (by decide), hbits (by decide), hbits (by decide), by simp⟩

/-- The same object, but its bool is a byte 37. -/
def unset : Value :=
  .record [.bits 37, .enum 300, .array [.record [.bits 1, .bits 2], .record [.bits 3, .bits 65535]],
    .array [.bits 72, .bits 105, .bits 0, .bits 7]]

theorem unset_room : (labelStructs.codec false false "label_t").Room unset := by
  have hroom := (labelStructs.codec false false "label_t").room_of_valid label_valid
  rw [label_codec] at hroom ⊢
  obtain ⟨_, ⟨⟩, hall⟩ := hroom
  cases hall with
  | cons _ hall => exact ⟨_, rfl, .cons trivial hall⟩

theorem labelStructs_wide : letI : Platform := ilp32; labelStructs.AsWide := by
  let _ : Platform := ilp32
  unfold Structs.AsWide
  decide +kernel

/-- Callbacks that append to a list, and take from its front. -/
def tape : Callbacks (List UInt8) where
  read
    | [] => (-1, [])
    | b :: bs => (b.toNat, bs)
  write b bs := (1, bs ++ [b])

theorem tape_accepts (b : UInt8) (bs : List UInt8) : 0 ≤ (tape.write b bs).1 :=
  (by decide : (0 : Int) ≤ 1)

theorem push_tape (bs cs : List UInt8) : push (putByte tape.write) bs cs = (none, cs ++ bs) := by
  induction bs generalizing cs with
  | nil => rw [push, List.append_nil]
  | cons b bs ih =>
    have hput : putByte tape.write b cs = (none, cs ++ [b]) := rfl
    rw [push, hput]
    dsimp only
    rw [ih, List.append_assoc, List.singleton_append]

theorem supplies_tape (bs cs : List UInt8) : Supplies (readByte tape.read) (bs ++ cs) bs cs := by
  induction bs with
  | nil => exact .nil cs
  | cons b bs ih =>
    refine .cons ?_ ih
    have hnonneg : ¬ ((b.toNat : Int) = -1) ∧ ¬ ((b.toNat : Int) < 0) := by omega
    rw [List.cons_append, readByte, tape]
    simp [hnonneg]

/-- The bytes of `label`. -/
def labelBytes : List UInt8 := [1, 44, 1, 1, 0, 2, 0, 3, 0, 255, 255, 2, 72, 105]

/-- The function with a name. Functions call each other to a depth that is enough. -/
def call [Platform] {σ : Type} (cbs : Callbacks σ) (structs : Structs) (p : List Def)
    (name : String) : Option (Callee σ) := programEnv cbs p (structs.depth + 1) name

namespace Generated

variable {h : Header} {structs : Structs} {userPrefix : String} {fixedMode big : Bool}
  {p : List Def} {name : String} {n : ℕ} {σ : Type}

theorem compiled (hg : Generated h userPrefix fixedMode big structs p) :
    ∃ knownEnums, Compiled knownEnums structs userPrefix fixedMode big p := by
  obtain ⟨knownEnums, -, hwf⟩ := parseHeader_wellFormed hg.usual hg.parsed
  exact ⟨knownEnums, hwf, hg.generated, hg.linked, (resolved_iff hwf hg.generated).mp hg.resolved,
    hg.arrays⟩

/-- The largest size of the codec of a struct is the size that was computed. -/
theorem codec_max (hg : Generated h userPrefix fixedMode big structs p)
    (hsize : structs.size fixedMode name = .ok n) :
    (structs.codec fixedMode big name).max = n ∧
      ∃ v, (structs.codec fixedMode big name).Valid v := by
  obtain ⟨knownEnums, hc⟩ := hg.compiled
  exact structCodec_size hc.wellFormed hsize

variable [Platform]

/-- **Writing.** The bytes of the codec go to the callback, up to its first error, which is
returned; without one it is the number of bytes. -/
theorem writes (hg : Generated h userPrefix fixedMode big structs p)
    (hs : structs.Measured fixedMode name n) (cbs : Callbacks σ) :
    ∃ k, call cbs structs p (writeFnName userPrefix name) = some k ∧
      ∀ v, (structs.codec fixedMode big name).Valid v → ∀ io,
        k v io = some
          ⟨(written cbs.write ((structs.codec fixedMode big name).encode v) 0 io).1, v, 0,
          (written cbs.write ((structs.codec fixedMode big name).encode v) 0 io).2⟩ := by
  obtain ⟨knownEnums, hc⟩ := hg.compiled
  obtain ⟨k, hk, hwrites⟩ := writes_struct hc cbs structs.depth name hs.mem
  refine ⟨k, hk, fun v hv => hwrites v hv ?_⟩
  have hle := (structs.codec fixedMode big name).encode_le hv
  rw [(hg.codec_max hs.size).1] at hle
  have hint := hs.int
  have heq : (structCodec structs fixedMode big structs.depth name).encode v =
      (structs.codec fixedMode big name).encode v := rfl
  rw [heq]
  omega

/-- **Reading.** Whatever the callback does, the function comes to an end: with a valid object and
the number of bytes it took, at most as many as the struct has, or with an error. After an error an
object is valid that was valid before. -/
theorem reads (hg : Generated h userPrefix fixedMode big structs p) (hwide : structs.AsWide)
    (hs : structs.Measured fixedMode name n) (cbs : Callbacks σ) :
    ∃ k, call cbs structs p (readFnName userPrefix name) = some k ∧
      ∀ old, (structs.codec fixedMode big name).Room old → ∀ io,
        ∃ ret v io', k old io = some ⟨ret, v, 0, io'⟩ ∧
          (0 ≤ ret ∨ (structs.codec fixedMode big name).Valid old →
            (structs.codec fixedMode big name).Valid v) ∧
          ((ret < 0 ∧ ∃ taken ≤ n, ((structs.codec fixedMode big name).decode old).run
              (readByte cbs.read) io = ⟨.error ret, taken, io'⟩) ∨
            ∃ taken ≤ n, ret = taken ∧ ((structs.codec fixedMode big name).decode old).run
              (readByte cbs.read) io = ⟨.ok v, taken, io'⟩) := by
  obtain ⟨knownEnums, hc⟩ := hg.compiled
  obtain ⟨k, hk, hreads⟩ := reads_struct hc hwide false cbs structs.depth name hs.mem
  obtain ⟨k', hk', hkeeps⟩ := reads_struct hc hwide true cbs structs.depth name hs.mem
  obtain rfl := Option.some.inj (hk.symm.trans hk')
  refine ⟨k, hk, fun old hold io => ?_⟩
  have hensures : (((structs.codec fixedMode big name).decode old).run
      (readByte cbs.read) io).taken ≤ _ ∧ _ :=
    ((structs.codec fixedMode big name).decode_ensures hold).run io
  rw [(hg.codec_max hs.size).1] at hensures
  have hint := hs.int
  have hcount : ((((structCodec structs fixedMode big structs.depth name).decode old).run
      (readByte cbs.read) io).taken : Int) ≤ intMax := by
    have heq : ((structCodec structs fixedMode big structs.depth name).decode old) =
      ((structs.codec fixedMode big name).decode old) := rfl
    rw [heq]
    omega
  obtain ⟨hok, herror⟩ := hreads old hold io hcount
  rcases hrun : ((structs.codec fixedMode big name).decode old).run (readByte cbs.read) io with
    ⟨e | v, taken, io'⟩
  · rw [hrun] at hensures
    obtain ⟨hneg, v, -, hcall⟩ := herror e taken io' hrun
    refine ⟨e, v, io', hcall, fun hvalid => ?_, .inl ⟨hneg, taken, hensures.1, rfl⟩⟩
    obtain ⟨-, w, hw, hcall'⟩ :=
      (hkeeps old (hvalid.resolve_left (by omega)) io hcount).2 e taken io' hrun
    rw [hcall] at hcall'
    cases hcall'
    exact hw
  · rw [hrun] at hensures
    exact ⟨taken, v, io', hok v taken io' hrun, fun _ => hensures.2 v rfl,
      .inr ⟨taken, hensures.1, rfl, rfl⟩⟩

/-- **Reading anything.** Whatever comes from the callback and whatever was in the object, even if
it has not been set, a function that reads comes to an end. It returns the number of bytes it took,
at most as many as the struct has, and leaves a valid object; or an error after at most as many,
that of the callback, or its own, after which it takes nothing. An object that was valid before is
so in any case. -/
theorem reads_anything (hg : Generated h userPrefix fixedMode big structs p)
    (hwide : structs.AsWide) (hs : structs.Measured fixedMode name n) (source : Callbacks σ) :
    ∃ k, call source structs p (readFnName userPrefix name) = some k ∧
      ∀ old, (structs.codec fixedMode big name).Room old → ∀ t, ∃ ret v t',
        k old t = some ⟨ret, v, 0, t'⟩ ∧
        (0 ≤ ret ∨ (structs.codec fixedMode big name).Valid old →
          (structs.codec fixedMode big name).Valid v) ∧
        ∃ bs t₁, bs.length ≤ n ∧ Supplies (readByte source.read) t bs t₁ ∧
          (ret = bs.length ∧ t' = t₁ ∨
            ret < 0 ∧ (readByte source.read t₁ = (.error ret, t') ∨ t' = t₁)) := by
  obtain ⟨k, hk, hreads⟩ := hg.reads hwide hs source
  refine ⟨k, hk, fun old hold t => ?_⟩
  obtain ⟨ret, v, t', hcall, hv, ⟨hneg, taken, hle, hrun⟩ | ⟨taken, hle, rfl, hrun⟩⟩ :=
    hreads old hold t
  · obtain ⟨bs, t₁, rfl, hsupplies, hend⟩ := Reader.supplies_of_error hrun
    exact ⟨ret, v, t', hcall, hv, bs, t₁, hle, hsupplies, .inr ⟨hneg, hend⟩⟩
  · obtain ⟨bs, rfl, -, hsupplies⟩ := Reader.takes_of_run hrun
    exact ⟨_, v, t', hcall, hv, bs, t', hle, hsupplies, .inl ⟨rfl, rfl⟩⟩

omit [Platform] in
/-- Two bytes, of which the second one is the first of an enum. -/
theorem reads_anything_label :
    letI : Platform := ilp32
    ∃ k, call tape labelStructs (labelC false false) "label_read" = some k ∧ ∃ ret v t',
      k unset [1, 44] = some ⟨ret, v, 0, t'⟩ ∧
      ∃ bs t₁, bs.length ≤ 16 ∧ Supplies (readByte tape.read) [1, 44] bs t₁ ∧
        (ret = bs.length ∧ t' = t₁ ∨
          ret < 0 ∧ (readByte tape.read t₁ = (.error ret, t') ∨ t' = t₁)) := by
  let _ : Platform := ilp32
  obtain ⟨k, hk, hreads⟩ :=
    labelC_generated.reads_anything labelStructs_wide labelStructs_measured tape
  obtain ⟨ret, v, t', hcall, -, hbytes⟩ := hreads unset unset_room [1, 44]
  exact ⟨k, hk, ret, v, t', hcall, hbytes⟩

/-- **Sizes.** A function that writes returns at most the size in the header if the callback refuses
nothing, and that size for some object; in fixed mode it does so for every object. -/
theorem sizes (hg : Generated h userPrefix fixedMode big structs p)
    (hs : structs.Measured fixedMode name n) (cbs : Callbacks σ)
    (haccept : ∀ b io, 0 ≤ (cbs.write b io).1) :
    ∃ k, call cbs structs p (writeFnName userPrefix name) = some k ∧
      (∀ v, (structs.codec fixedMode big name).Valid v → ∀ io, ∃ ret io',
        k v io = some ⟨ret, v, 0, io'⟩ ∧ 0 ≤ ret ∧ ret ≤ n ∧ (fixedMode = true → ret = n)) ∧
      ∃ v, (structs.codec fixedMode big name).Valid v ∧
        ∀ io, ∃ io', k v io = some ⟨n, v, 0, io'⟩ := by
  obtain ⟨k, hk, hwrites⟩ := hg.writes hs cbs
  obtain ⟨hmax, w, hw⟩ := hg.codec_max hs.size
  have hret (v : Value) (hv : (structs.codec fixedMode big name).Valid v) (io : σ) : ∃ io',
      k v io = some ⟨((structs.codec fixedMode big name).encode v).length, v, 0, io'⟩ := by
    obtain ⟨io', hpush⟩ := push_accepted haccept ((structs.codec fixedMode big name).encode v) io
    refine ⟨io', ?_⟩
    rw [hwrites v hv io, written, hpush, Int.zero_add]
  refine ⟨k, hk, fun v hv io => ?_, ?_⟩
  · obtain ⟨io', hcall⟩ := hret v hv io
    have hle := (structs.codec fixedMode big name).encode_le hv
    refine ⟨_, io', hcall, by omega, by omega, ?_⟩
    rintro rfl
    rw [← hmax]
    exact congrArg _ (structCodec_fixed structs.depth name v hv)
  · obtain ⟨v, hv, hlen⟩ := (structs.codec fixedMode big name).max_attained hw
    refine ⟨v, hv, fun io => ?_⟩
    obtain ⟨io', hcall⟩ := hret v hv io
    exact ⟨io', by rw [hcall, hlen, hmax]⟩

/-- **The largest size** in the header: no object of any struct takes more bytes, and one takes as
many. -/
theorem max_size (hg : Generated h userPrefix fixedMode big structs p)
    (hmax : computeMaxWireSize structs fixedMode = .ok n) (hint : (n : Int) ≤ intMax)
    (cbs : Callbacks σ) (haccept : ∀ b io, 0 ≤ (cbs.write b io).1) :
    (∀ name ∈ structs.map Prod.fst, ∃ k,
      call cbs structs p (writeFnName userPrefix name) = some k ∧
      ∀ v, (structs.codec fixedMode big name).Valid v → ∀ io, ∃ ret io',
        k v io = some ⟨ret, v, 0, io'⟩ ∧ 0 ≤ ret ∧ ret ≤ n) ∧
      (structs ≠ [] → ∃ name ∈ structs.map Prod.fst, ∃ k,
        call cbs structs p (writeFnName userPrefix name) = some k ∧
        ∃ v, (structs.codec fixedMode big name).Valid v ∧
          ∀ io, ∃ io', k v io = some ⟨n, v, 0, io'⟩) := by
  obtain ⟨hle, hmem⟩ := maxSizes_ok hmax
  constructor
  · intro name hname
    obtain ⟨s, hs, rfl⟩ := List.mem_map.mp hname
    obtain ⟨m, hm, hsize⟩ := hle _ (List.mem_map_of_mem hs)
    obtain ⟨k, hk, hall, -⟩ := hg.sizes ⟨hname, hsize, by omega⟩ cbs haccept
    refine ⟨k, hk, fun v hv io => ?_⟩
    obtain ⟨ret, io', hcall, hnonneg, hret, -⟩ := hall v hv io
    exact ⟨ret, io', hcall, hnonneg, by omega⟩
  · intro hne
    obtain ⟨s, hs, hsize⟩ := List.mem_map.mp (hmem (by simpa using hne))
    obtain ⟨k, hk, -, hlargest⟩ := hg.sizes ⟨List.mem_map_of_mem hs, hsize, hint⟩ cbs haccept
    exact ⟨s.1, List.mem_map_of_mem hs, k, hk, hlargest⟩

omit [Platform] in
theorem max_size_label :
    letI : Platform := ilp32
    ∃ name ∈ labelStructs.map Prod.fst, ∃ k,
    call tape labelStructs (labelC false false) (writeFnName "" name) = some k ∧
      ∃ v, (labelStructs.codec false false name).Valid v ∧
        ∀ io, ∃ io', k v io = some ⟨16, v, 0, io'⟩ :=
  letI : Platform := ilp32
  (labelC_generated.max_size (by decide +kernel) (by decide) tape tape_accepts).2
    (by decide +kernel)

/-- **Counting.** In variable mode the function for the size returns how many bytes the function
that writes is going to write. -/
theorem counts (hg : Generated h userPrefix false big structs p)
    (hs : structs.Measured false name n) (cbs : Callbacks σ)
    (haccept : ∀ b io, 0 ≤ (cbs.write b io).1) :
    ∃ kw ks, call cbs structs p (writeFnName userPrefix name) = some kw ∧
      call cbs structs p (sizeFnName userPrefix name) = some ks ∧
      ∀ v, (structs.codec false big name).Valid v → ∀ io io', ∃ ret io'',
        kw v io = some ⟨ret, v, 0, io''⟩ ∧ ks v io' = some ⟨ret, v, 0, io'⟩ := by
  obtain ⟨knownEnums, hc⟩ := hg.compiled
  obtain ⟨kw, hkw, hwrites⟩ := hg.writes hs cbs
  obtain ⟨ks, hks, hsizes⟩ := sizes_struct hc cbs structs.depth name hs.mem
  refine ⟨kw, ks, hkw, hks, fun v hv io io' => ?_⟩
  have hle := (structs.codec false big name).encode_le hv
  rw [(hg.codec_max hs.size).1] at hle
  have hint := hs.int
  obtain ⟨io'', hpush⟩ := push_accepted haccept ((structs.codec false big name).encode v) io
  refine ⟨((structs.codec false big name).encode v).length, io'', ?_, ?_⟩
  · rw [hwrites v hv io, written, hpush, Int.zero_add]
  · have heq : (structCodec structs false big structs.depth name).encode v =
        (structs.codec false big name).encode v := rfl
    rw [hsizes v hv io', heq, Nat.mod_eq_of_lt (by rw [intMax] at hint; omega)]

omit [Platform] in
theorem counts_label :
    letI : Platform := ilp32
    ∃ kw ks,
    call tape labelStructs (labelC false false) "label_write" = some kw ∧
      call tape labelStructs (labelC false false) "label_size" = some ks ∧
      ∃ ret io'', kw label [] = some ⟨ret, label, 0, io''⟩ ∧
        ks label [7] = some ⟨ret, label, 0, [7]⟩ := by
  let _ : Platform := ilp32
  obtain ⟨kw, ks, hkw, hks, hcounts⟩ := labelC_generated.counts labelStructs_measured tape
    tape_accepts
  exact ⟨kw, ks, hkw, hks, hcounts label label_valid [] [7]⟩

/-- **Round trip.** What a sink has taken is read from any source that supplies it: the same number
of bytes, and the object up to what stands after the end of a text, in fixed mode all of it. If the
source ends before, its error is returned. -/
theorem round_trip {τ : Type} (hg : Generated h userPrefix fixedMode big structs p)
    (hwide : structs.AsWide) (hs : structs.Measured fixedMode name n) (sink : Callbacks σ)
    (source : Callbacks τ) :
    ∃ kw kr, call sink structs p (writeFnName userPrefix name) = some kw ∧
      call source structs p (readFnName userPrefix name) = some kr ∧
      ∀ v old, (structs.codec fixedMode big name).Valid v →
        (structs.codec fixedMode big name).Room old → ∀ io,
        ∃ ret io', kw v io = some ⟨ret, v, 0, io'⟩ ∧ (0 ≤ ret → ∃ bs w,
          ret = bs.length ∧ push (putByte sink.write) bs io = (none, io') ∧
          (structs.codec fixedMode big name).Same v w ∧ (fixedMode = true → w = v) ∧
          (∀ t t', Supplies (readByte source.read) t bs t' →
            kr old t = some ⟨ret, w, 0, t'⟩) ∧
          ∀ pre post t t₁ e t', bs = pre ++ post → post ≠ [] →
            Supplies (readByte source.read) t pre t₁ → readByte source.read t₁ = (.error e, t') →
            ∃ w', kr old t = some ⟨e, w', 0, t'⟩) := by
  obtain ⟨kw, hkw, hwrites⟩ := hg.writes hs sink
  obtain ⟨kr, hkr, hreads⟩ := hg.reads hwide hs source
  refine ⟨kw, kr, hkw, hkr, fun v old hv hold io => ⟨_, _, hwrites v hv io, fun hret => ?_⟩⟩
  obtain ⟨w, hsame, htakes⟩ := (structs.codec fixedMode big name).decode_encode hv hold
  set bs := (structs.codec fixedMode big name).encode v with hbs
  rw [written] at hret ⊢
  rcases hpush : push (putByte sink.write) bs io with ⟨_ | e, io'⟩
  · refine ⟨bs, w, by simp, hpush, hsame, ?_, ?_, ?_⟩
    · rintro rfl
      exact (structCodec_exact structs.depth name v w hsame).symm
    · intro t t' hsupplies
      have hrun := htakes.run hsupplies
      obtain ⟨ret, v', t'', hcall, -, herror | hok⟩ := hreads old hold t
      · obtain ⟨-, taken, -, hrun'⟩ := herror
        rw [hrun] at hrun'
        cases hrun'
      · obtain ⟨taken, -, rfl, hrun'⟩ := hok
        rw [hrun] at hrun'
        cases hrun'
        rw [hcall]
        simp
    · intro pre post t t₁ e t' happend hpost hsupplies hend
      rw [happend] at htakes
      have hrun := htakes.run_short hpost hsupplies hend
      obtain ⟨ret, v', t'', hcall, -, herror | hok⟩ := hreads old hold t
      · obtain ⟨-, taken, -, hrun'⟩ := herror
        rw [hrun] at hrun'
        cases hrun'
        exact ⟨v', hcall⟩
      · obtain ⟨taken, -, rfl, hrun'⟩ := hok
        rw [hrun] at hrun'
        cases hrun'
  · rw [hpush] at hret
    have hneg := push_error_neg hpush
    dsimp only at hret
    omega

omit [Platform] in
/-- What stands after the end of the text in the object stays as it is. -/
theorem round_trip_label :
    letI : Platform := ilp32
    ∃ kw kr,
    call tape labelStructs (labelC false false) "label_write" = some kw ∧
      call tape labelStructs (labelC false false) "label_read" = some kr ∧
      kw label [] = some ⟨14, label, 0, labelBytes⟩ ∧
      ∃ w, (labelStructs.codec false false "label_t").Same label w ∧
        kr unset (labelBytes ++ [9]) = some ⟨14, w, 0, [9]⟩ := by
  let _ : Platform := ilp32
  obtain ⟨kw, kr, hkw, hkr, hround⟩ :=
    labelC_generated.round_trip labelStructs_wide labelStructs_measured tape tape
  obtain ⟨ret, io', hwrite, hread⟩ := hround label unset label_valid unset_room []
  obtain ⟨k, hk, hwrites⟩ := labelC_generated.writes labelStructs_measured tape
  rw [hkw] at hk
  cases hk
  have hbytes : kw label [] = some ⟨14, label, 0, labelBytes⟩ := hwrites label label_valid []
  rw [hbytes] at hwrite
  cases hwrite
  obtain ⟨bs, w, -, hpush, hsame, -, hread, -⟩ := hread (by decide)
  rw [push_tape, List.nil_append] at hpush
  cases hpush
  exact ⟨kw, kr, hkw, hkr, hbytes, w, hsame, hread _ _ (supplies_tape labelBytes [9])⟩

end Generated

end BuffersGenC

end HtcwFrameArq
