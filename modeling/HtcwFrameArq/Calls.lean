import HtcwFrameArq.Linking

/-!
# The calls

Which functions the emitted code calls, and when all of them exist. A call for a struct, an enum or
the length of a text always finds its function. That for a scalar does exactly if the type is one
word in lower case, although the script accepts other ones: `resolved_iff`.
-/

namespace HtcwFrameArq

namespace BuffersGenC

open Commands

/-- The function that a statement calls. -/
def Stmt.callee : Stmt → Option String
  | call fn _ _ => some fn
  | addCall fn _ => some fn
  | _ => none

/-- The functions that a command calls. -/
def callees : Code Stmt Bound → List String
  | .skip => []
  | .act a => a.callee.toList
  | .seq c d => callees c ++ callees d
  | .loop _ c => callees c
  | .block c => callees c

/-- The functions that a function calls. -/
def Def.callees : Def → List String
  | struct f => (f.body.map BuffersGenC.callees).getD []
  | enum f => [f.callee]

/-- Every function that is called is defined. -/
def Resolved (p : List Def) : Prop :=
  ∀ d ∈ p, ∀ fn ∈ d.callees, fn ∈ p.map Def.name ++ supportNames

instance (p : List Def) : Decidable (Resolved p) := by
  unfold Resolved
  infer_instance

theorem mem_callees_all {cs : List (Code Stmt Bound)} {fn : String} :
    fn ∈ callees (.all cs) ↔ ∃ c ∈ cs, fn ∈ callees c := by
  induction cs with
  | nil => simp [Code.all, callees]
  | cons c cs ih => simp [Code.all, callees, ih]

/-- What a body calls is called for a field, and the other way round. -/
theorem genBody_callees {gen : Field → Except String (Code Stmt Bound)} {fields : List Field}
    {body : Option (Code Stmt Bound)} (h : genBody gen fields = .ok body) :
    (∀ f ∈ fields, ∃ code, gen f = .ok code ∧
        ∀ fn ∈ callees code, fn ∈ (body.map callees).getD []) ∧
      ∀ fn ∈ (body.map callees).getD [], ∃ f ∈ fields, ∃ code, gen f = .ok code ∧
        fn ∈ callees code := by
  rcases genBody_inv h with ⟨rfl, rfl⟩ | ⟨codes, rfl, hcodes⟩
  · exact ⟨by simp, by simp⟩
  · dsimp only [Option.map_some, Option.getD_some]
    simp only [mem_callees_all]
    clear h
    induction hcodes with
    | nil => exact ⟨by simp, by simp⟩
    | @cons f code fields codes hf _ ih =>
      obtain ⟨hfields, hcodes⟩ := ih
      refine ⟨List.forall_mem_cons.mpr ⟨⟨code, hf, fun fn hfn => ⟨code, by simp, hfn⟩⟩, ?_⟩, ?_⟩
      · intro g hg
        obtain ⟨code', hcode', hmem⟩ := hfields g hg
        refine ⟨code', hcode', fun fn hfn => ?_⟩
        obtain ⟨c, hc, hcall⟩ := hmem fn hfn
        exact ⟨c, List.mem_cons_of_mem _ hc, hcall⟩
      · rintro fn ⟨c, hc, hfn⟩
        rcases List.mem_cons.mp hc with rfl | hc
        · exact ⟨f, List.mem_cons_self, c, hf, hfn⟩
        · obtain ⟨g, hg, hrest⟩ := hcodes fn ⟨c, hc, hfn⟩
          exact ⟨g, List.mem_cons_of_mem _ hg, hrest⟩

/-! ## What is called for a field -/

section

variable {o : Options} {f : Field} {code : Code Stmt Bound} {fn : String}

/-- The function of `buffers.c` for a type. -/
def supportName (verb type : String) (o : Options) : String :=
  verb ++ type ++ endianSuffixForType type o.endianSuffix

/-- The function that reads or writes an element. -/
def itemCallee (o : Options) (f : Field) (structFn enumFn verb : String) : String :=
  if f.wireType ∈ o.allStructNames then structFn
  else if f.isEnum then enumFn ++ f.type else supportName verb f.type o

theorem callees_genReadCall (p : Place) : callees (.acts (genReadCall o f p)) =
    [itemCallee o f (readFnName o.userPrefix f.wireType) "read_" "buffers_read_"] := by
  rw [genReadCall, itemCallee]
  split_ifs <;> rfl

theorem callees_genWriteCall (p : Place) : callees (.acts (genWriteCall o f p)) =
    [itemCallee o f (writeFnName o.userPrefix f.wireType) "write_" "buffers_write_"] := by
  rw [genWriteCall, itemCallee]
  split_ifs <;> rfl

/-- The functions for the length of a text. -/
def LengthCallee (o : Options) (verb fn : String) : Prop :=
  ∃ n type, lengthPrefixType n = .ok type ∧ fn = supportName verb type o

/-- The code that reads a field calls the function for its elements, and that for a length. -/
theorem callees_genReadField (h : genReadField o f = .ok code) :
    ∃ lens, (∀ fn ∈ lens, LengthCallee o "buffers_read_" fn) ∧ callees code = lens ++
      [itemCallee o f (readFnName o.userPrefix f.wireType) "read_" "buffers_read_"] := by
  rw [genReadField] at h
  split at h
  · cases h
    exact ⟨[], by simp, callees_genReadCall _⟩
  · next n _ =>
    split_ifs at h
    · cases h
      exact ⟨[], by simp, callees_genReadCall _⟩
    · rcases htype : lengthPrefixType n with msg | type
      · rw [htype] at h
        cases h
      · rw [htype] at h
        cases h
        refine ⟨[supportName "buffers_read_" type o], ?_, ?_⟩
        · intro fn hfn
          exact ⟨n, type, htype, List.mem_singleton.mp hfn⟩
        · rw [← callees_genReadCall (.item f.name), ← List.append_nil (callees (.acts _))]
          rfl

/-- The code that writes a field calls the function for its elements, and that for a length. -/
theorem callees_genWriteField (h : genWriteField o f = .ok code) :
    ∃ lens, (∀ fn ∈ lens, LengthCallee o "buffers_write_" fn) ∧ callees code = lens ++
      [itemCallee o f (writeFnName o.userPrefix f.wireType) "write_" "buffers_write_"] := by
  rw [genWriteField] at h
  split at h
  · cases h
    exact ⟨[], by simp, callees_genWriteCall _⟩
  · next n _ =>
    split_ifs at h
    · cases h
      exact ⟨[], by simp, callees_genWriteCall _⟩
    · rcases htype : lengthPrefixType n with msg | type
      · rw [htype] at h
        cases h
      · rw [htype] at h
        cases h
        refine ⟨[supportName "buffers_write_" type o], ?_, ?_⟩
        · intro fn hfn
          exact ⟨n, type, htype, List.mem_singleton.mp hfn⟩
        · rw [← callees_genWriteCall (.item f.name), ← List.append_nil (callees (.acts _))]
          rfl

/-- The code that counts a field calls the function for a struct. -/
theorem callees_genSizeField (h : genSizeField o f = .ok code) (fn : String)
    (hfn : fn ∈ callees code) :
    f.wireType ∈ o.allStructNames ∧ fn = sizeFnName o.userPrefix f.wireType := by
  rw [genSizeField] at h
  split at h
  · split_ifs at h with hmem
    · cases h
      exact ⟨hmem, List.mem_singleton.mp hfn⟩
    · cases h
      cases hfn
  · next n _ =>
    split_ifs at h with htext hmem
    · cases h
      exact ⟨hmem, List.mem_singleton.mp hfn⟩
    · cases h
      cases hfn
    · rcases htype : lengthPrefixType n with msg | type
      · rw [htype] at h
        cases h
      · rw [htype] at h
        cases h
        cases hfn

end

/-! ## What is defined -/

section

variable {knownEnums : List (String × String)} {structs : Structs} {userPrefix : String}
  {fixedMode big : Bool} {p : List Def} {o : Options}

/-- A function for a struct was generated from its fields. -/
theorem genStructs_origin {defs : List Def} (h : genStructs o structs = .ok defs) {d : Def}
    (hd : d ∈ defs) : ∃ s ∈ structs, ∃ fn, d = .struct fn ∧
      (genReadFn o s.1 s.2 = .ok fn ∨ genWriteFn o s.1 s.2 = .ok fn ∨
        o.fixedMode = false ∧ genSizeFn o s.1 s.2 = .ok fn) := by
  induction structs generalizing defs with
  | nil =>
    cases h
    cases hd
  | cons s structs ih =>
    obtain ⟨name, fields⟩ := s
    obtain ⟨readFn, writeFn, sizeFns, rest, hread, hwrite, hsize, hrest, rfl⟩ := genStructs_inv h
    rcases List.mem_append.mp hd with hd | hd
    · rcases List.mem_append.mp hd with hd | hd
      · rcases List.mem_pair.mp hd with rfl | rfl
        · exact ⟨_, List.mem_cons_self, readFn, rfl, .inl hread⟩
        · exact ⟨_, List.mem_cons_self, writeFn, rfl, .inr (.inl hwrite)⟩
      · cases hmode : o.fixedMode with
        | true =>
          rw [if_pos hmode] at hsize
          rw [hsize] at hd
          cases hd
        | false =>
          rw [if_neg (by simp [hmode])] at hsize
          obtain ⟨sizeFn, hsize, rfl⟩ := hsize
          rw [List.mem_singleton.mp hd]
          exact ⟨_, List.mem_cons_self, sizeFn, rfl, .inr (.inr ⟨rfl, hsize⟩)⟩
    · obtain ⟨s, hs, hfn⟩ := ih hrest hd
      exact ⟨s, List.mem_cons_of_mem _ hs, hfn⟩

/-- A function of a program is for an enum of a field, or for a struct. -/
theorem generateC_origin (hwf : WellFormed knownEnums structs)
    (hgen : generateC userPrefix structs fixedMode big = .ok p) {d : Def} (hd : d ∈ p) :
    let o := optionsFor userPrefix structs fixedMode big
    (∃ s ∈ structs, ∃ f ∈ s.2, f.isEnum = true ∧
      (d = .enum (genEnumReadFn o f.type f.wireType) ∨
        d = .enum (genEnumWriteFn o f.type f.wireType))) ∨
      ∃ s ∈ structs, ∃ fn, d = .struct fn ∧
        (genReadFn o s.1 s.2 = .ok fn ∨ genWriteFn o s.1 s.2 = .ok fn ∨
          fixedMode = false ∧ genSizeFn o s.1 s.2 = .ok fn) := by
  rw [generateC] at hgen
  rcases hdefs : genStructs (optionsFor userPrefix structs fixedMode big) structs with msg | defs
  · rw [hdefs] at hgen
    cases hgen
  · rw [hdefs] at hgen
    cases hgen
    rcases List.mem_append.mp hd with hd | hd
    · obtain ⟨e, he, hd⟩ := List.mem_flatMap.mp hd
      obtain ⟨s, hs, f, hf, henum, rfl⟩ := (mem_enumTypes hwf e).mp he
      exact .inl ⟨s, hs, f, hf, henum, List.mem_pair.mp hd⟩
    · exact .inr (genStructs_origin hdefs hd)

/-! ## Names -/

/-- The last two characters. -/
def lastTwo (s : String) : List Char := s.toList.reverse.take 2

theorem lastTwo_append {s t : String} (h : 2 ≤ t.toList.length) :
    lastTwo (s ++ t) = lastTwo t := by
  rw [lastTwo, lastTwo, String.toList_append, List.reverse_append, List.take_append_of_le_length]
  rwa [List.length_reverse]

/-- The suffix for a type is that for the byte order, unless the type is a single byte. -/
theorem endianSuffix_cases (type sfx : String) : endianSuffixForType type sfx = sfx ∨
    endianSuffixForType type sfx = "" ∧
      type ∈ ["uint8_t", "int8_t", "bool", "char", "unsigned char"] := by
  rw [endianSuffixForType]
  split_ifs with hsingle
  · refine .inr ⟨rfl, ?_⟩
    rcases hlookup : scalarTypeMap.lookup type with _ | wire
    · rw [hlookup] at hsingle
      have hall : ∀ t ∈ singleByteWireTypes,
          t ∈ ["uint8_t", "int8_t", "bool", "char", "unsigned char"] := by decide
      exact hall type hsingle
    · rw [hlookup] at hsingle
      have hall : ∀ e ∈ scalarTypeMap, e.2 ∈ singleByteWireTypes →
          e.1 ∈ ["uint8_t", "int8_t", "bool", "char", "unsigned char"] := by decide
      exact hall _ (mem_of_lookup hlookup) hsingle
  · exact .inl rfl

/-- How the name of a function of `buffers.c` ends. -/
theorem lastTwo_supportName (verb type : String) (o : Options) :
    lastTwo (supportName verb type o) ∈ ["le", "be", "_t", "ol", "ar"].map lastTwo := by
  rw [supportName]
  rcases endianSuffix_cases type o.endianSuffix with hsfx | ⟨hsfx, htype⟩
  · rw [hsfx, Options.endianSuffix]
    cases o.big
    · rw [if_neg (by decide), lastTwo_append (by decide)]
      decide
    · rw [if_pos rfl, lastTwo_append (by decide)]
      decide
  · have hall : ∀ t ∈ ["uint8_t", "int8_t", "bool", "char", "unsigned char"],
        2 ≤ t.toList.length ∧ lastTwo t ∈ ["le", "be", "_t", "ol", "ar"].map lastTwo := by decide
    obtain ⟨hlen, hmem⟩ := hall type htype
    rwa [hsfx, String.append_empty, lastTwo_append hlen]

/-- The name of a function of `buffers.c` is that of no function of a program. -/
theorem supportName_not_def (hwf : WellFormed knownEnums structs)
    (hgen : generateC userPrefix structs fixedMode big = .ok p) (type : String) (o : Options) :
    supportName "buffers_read_" type o ∉ p.map Def.name := by
  intro hmem
  obtain ⟨d, hd, hname⟩ := List.mem_map.mp hmem
  have hends (fn s : String) (hfn : d.name = fn ++ s) (hs : 2 ≤ s.toList.length)
      (hother : lastTwo s ∉ ["le", "be", "_t", "ol", "ar"].map lastTwo) : False := by
    have hlast := lastTwo_supportName "buffers_read_" type o
    rw [← hname, hfn, lastTwo_append hs] at hlast
    exact hother hlast
  rcases generateC_origin hwf hgen hd with ⟨s, -, f, -, -, rfl | rfl⟩ | ⟨s, -, fn, rfl, hfn⟩
  · have hhead := congrArg (fun s => s.toList.head?) hname
    simp [supportName, Def.name, genEnumReadFn] at hhead
  · have hhead := congrArg (fun s => s.toList.head?) hname
    simp [supportName, Def.name, genEnumWriteFn] at hhead
  · rcases hfn with hfn | hfn | ⟨-, hfn⟩
    · obtain ⟨body, -, rfl⟩ := genFn_inv hfn
      exact hends _ "_read" rfl (by decide) (by decide)
    · obtain ⟨body, -, rfl⟩ := genFn_inv hfn
      exact hends _ "_write" rfl (by decide) (by decide)
    · obtain ⟨body, -, rfl⟩ := genFn_inv hfn
      exact hends _ "_size" rfl (by decide) (by decide)

theorem supportName_mem {type : String} (h : type ∈ callableTypes) (o : Options) :
    supportName "buffers_read_" type o ∈ supportNames ∧
      supportName "buffers_write_" type o ∈ supportNames := by
  obtain ⟨e, he, hname, -⟩ := exists_entry h o.big
  constructor
  · refine List.mem_append_left _ (List.mem_map.mpr ⟨e, he, ?_⟩)
    rw [hname, supportName, String.append_assoc]
    rfl
  · refine List.mem_append_right _ (List.mem_map.mpr ⟨e, he, ?_⟩)
    rw [hname, supportName, String.append_assoc]
    rfl

/-- A scalar has a function exactly if its type is one word in lower case. -/
theorem supportName_mem_iff {type wire : String} (o : Options)
    (h : scalarTypeMap.lookup (lower type) = some wire) :
    supportName "buffers_read_" type o ∈ supportNames ↔ type ∈ callableTypes := by
  constructor
  · intro hmem
    rcases List.mem_append.mp hmem with hmem | hmem
    · obtain ⟨e, he, hname⟩ := List.mem_map.mp hmem
      rw [supportName, String.append_assoc] at hname
      have hname := append_right_injective "buffers_read_" hname
      -- what is left of a name without the suffix for the byte order
      have hall : ∀ e ∈ bufferNames, ∀ k ∈ [0, 3],
          (scalarTypeMap.lookup (lower (String.ofList
            (e.name.toList.take (e.name.toList.length - k))))).isSome = true →
          String.ofList (e.name.toList.take (e.name.toList.length - k)) ∈ callableTypes := by
        decide +kernel
      have htype (s : String) (hs : e.name = type ++ s) :
          String.ofList (e.name.toList.take (e.name.toList.length - s.toList.length)) = type := by
        rw [hs, String.toList_append, List.length_append, Nat.add_sub_cancel, List.take_left,
          String.ofList_toList]
      have hlen : (endianSuffixForType type o.endianSuffix).toList.length ∈ [0, 3] := by
        rcases endianSuffix_cases type o.endianSuffix with hsfx | ⟨hsfx, -⟩
        · rw [hsfx, Options.endianSuffix]
          cases o.big <;> decide
        · rw [hsfx]
          decide
      have hcall := hall e he _ hlen
      rw [htype _ hname] at hcall
      exact hcall (by rw [h]; rfl)
    · obtain ⟨e, -, hname⟩ := List.mem_map.mp hmem
      rw [supportName, String.append_assoc] at hname
      exact absurd hname.symm (read_ne_write _ _)
  · exact fun htype => (supportName_mem htype o).1

/-! ## All calls -/

/-- What is called for an element is defined. -/
theorem itemCallee_mem (hwf : WellFormed knownEnums structs)
    (hgen : generateC userPrefix structs fixedMode big = .ok p)
    (hcallable : ∀ s ∈ structs, ∀ f ∈ s.2, f.isEnum = false → f.wireType ∉ structs.map Prod.fst →
      f.type ∈ callableTypes) {s : String × List Field} (hs : s ∈ structs) {f : Field}
    (hf : f ∈ s.2) :
    let o := optionsFor userPrefix structs fixedMode big
    itemCallee o f (readFnName o.userPrefix f.wireType) "read_" "buffers_read_" ∈
        p.map Def.name ++ supportNames ∧
      itemCallee o f (writeFnName o.userPrefix f.wireType) "write_" "buffers_write_" ∈
        p.map Def.name ++ supportNames := by
  intro o
  have hnames : o.allStructNames = structs.map Prod.fst := rfl
  rw [itemCallee, itemCallee, hnames]
  by_cases hmem : f.wireType ∈ structs.map Prod.fst
  · rw [if_pos hmem, if_pos hmem]
    obtain ⟨⟨name, fields⟩, hs', hname⟩ := List.mem_map.mp hmem
    obtain ⟨⟨fn, hfn, hdef⟩, ⟨fn', hfn', hdef'⟩, -⟩ := generateC_struct hgen hs'
    obtain ⟨body, -, rfl⟩ := genFn_inv hfn
    obtain ⟨body', -, rfl⟩ := genFn_inv hfn'
    rw [← hname]
    exact ⟨List.mem_append_left _ (List.mem_map_of_mem hdef),
      List.mem_append_left _ (List.mem_map_of_mem hdef')⟩
  · rw [if_neg hmem, if_neg hmem]
    cases henum : f.isEnum with
    | true =>
      obtain ⟨hread, hwrite⟩ := generateC_enum hwf hgen hs hf henum
      exact ⟨List.mem_append_left _ (List.mem_map_of_mem hread),
        List.mem_append_left _ (List.mem_map_of_mem hwrite)⟩
    | false =>
      obtain ⟨hread, hwrite⟩ := supportName_mem (hcallable s hs f hf henum hmem) o
      exact ⟨List.mem_append_right _ hread, List.mem_append_right _ hwrite⟩

/-- **When all calls are resolved**: exactly if the types of all scalars are one word in lower
case. -/
theorem resolved_iff (hwf : WellFormed knownEnums structs)
    (hgen : generateC userPrefix structs fixedMode big = .ok p) :
    Resolved p ↔ ∀ s ∈ structs, ∀ f ∈ s.2, f.isEnum = false →
      f.wireType ∉ structs.map Prod.fst → f.type ∈ callableTypes := by
  set o := optionsFor userPrefix structs fixedMode big with ho
  constructor
  · intro hresolved s hs f hf henum hnot
    obtain ⟨⟨fn, hfn, hdef⟩, -⟩ := generateC_struct hgen hs
    obtain ⟨body, hbody, rfl⟩ := genFn_inv hfn
    obtain ⟨code, hcode, hbody⟩ := (genBody_callees hbody).1 f hf
    obtain ⟨lens, -, hcallees⟩ := callees_genReadField hcode
    have hcallee : supportName "buffers_read_" f.type o ∈ callees code := by
      rw [hcallees, itemCallee, if_neg (by exact hnot), if_neg (by simp [henum])]
      exact List.mem_append_right _ List.mem_cons_self
    have hdefined := hresolved _ hdef _ (hbody _ hcallee)
    have hsupport := (List.mem_append.mp hdefined).resolve_left
      (supportName_not_def hwf hgen f.type o)
    cases hwf.kinds s hs f hf with
    | scalar _ htype => exact (supportName_mem_iff o htype).mp hsupport
    | enum h _ => rw [henum] at h; cases h
    | struct _ _ hmem _ => exact absurd hmem hnot
  · intro hcallable d hd fn hfn
    have hitem {s : String × List Field} (hs : s ∈ structs) {f : Field} (hf : f ∈ s.2) :=
      itemCallee_mem hwf hgen hcallable hs hf
    have hwire {type : String} (htype : type ∈ enumWireTypes) :
        supportName "buffers_read_" type o ∈ p.map Def.name ++ supportNames ∧
          supportName "buffers_write_" type o ∈ p.map Def.name ++ supportNames := by
      obtain ⟨hread, hwrite⟩ := supportName_mem (callable_of_enum htype) o
      exact ⟨List.mem_append_right _ hread, List.mem_append_right _ hwrite⟩
    rcases generateC_origin hwf hgen hd with ⟨s, hs, f, hf, henum, rfl | rfl⟩ |
      ⟨s, hs, f, rfl, hgenFn⟩
    · rw [List.mem_singleton.mp hfn]
      exact (hwire ((hwf.kinds s hs f hf).enum_wire hwf henum)).1
    · rw [List.mem_singleton.mp hfn]
      exact (hwire ((hwf.kinds s hs f hf).enum_wire hwf henum)).2
    · rcases hgenFn with hgenFn | hgenFn | ⟨hmode, hgenFn⟩
      · obtain ⟨body, hbody, rfl⟩ := genFn_inv hgenFn
        obtain ⟨f, hf, code, hcode, hfn⟩ := (genBody_callees hbody).2 fn hfn
        obtain ⟨lens, hlens, hcallees⟩ := callees_genReadField hcode
        rw [hcallees, List.mem_append, List.mem_singleton] at hfn
        rcases hfn with hfn | rfl
        · obtain ⟨n, type, htype, rfl⟩ := hlens fn hfn
          exact (hwire (lengthPrefixType_mem htype)).1
        · exact (hitem hs hf).1
      · obtain ⟨body, hbody, rfl⟩ := genFn_inv hgenFn
        obtain ⟨f, hf, code, hcode, hfn⟩ := (genBody_callees hbody).2 fn hfn
        obtain ⟨lens, hlens, hcallees⟩ := callees_genWriteField hcode
        rw [hcallees, List.mem_append, List.mem_singleton] at hfn
        rcases hfn with hfn | rfl
        · obtain ⟨n, type, htype, rfl⟩ := hlens fn hfn
          exact (hwire (lengthPrefixType_mem htype)).2
        · exact (hitem hs hf).2
      · obtain ⟨body, hbody, rfl⟩ := genFn_inv hgenFn
        obtain ⟨f, hf, code, hcode, hfn⟩ := (genBody_callees hbody).2 fn hfn
        obtain ⟨hmem, rfl⟩ := callees_genSizeField hcode fn hfn
        obtain ⟨⟨name, fields⟩, hs', hname⟩ := List.mem_map.mp hmem
        obtain ⟨-, -, hsize⟩ := generateC_struct hgen hs'
        obtain ⟨sizeFn, hsizeFn, hdef⟩ := hsize hmode
        obtain ⟨body', -, rfl⟩ := genFn_inv hsizeFn
        rw [← hname]
        exact List.mem_append_left _ (List.mem_map_of_mem hdef)

end

end BuffersGenC

end HtcwFrameArq
