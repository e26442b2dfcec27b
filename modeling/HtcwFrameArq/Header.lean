import Mathlib

/-!
# Reading a header

`buffers_gen_c.py` reads the structs and enums of a C header. The model starts where the regular
expressions have taken the text apart: a declaration has a name and entries or fields, in the order
of the text. `parseEnums` reads the values of the enumerators and picks a wire type, `resolveType`
finds the wire type of a field, and `parseHeader` checks the names.

An error is the message with which the script exits, or the exception with which it ends.
-/

namespace HtcwFrameArq

namespace BuffersGenC

/-! ## Type mapping -/

/-- `SCALAR_TYPE_MAP` -/
def scalarTypeMap : List (String × String) :=
  [("uint8_t", "uint8_t"), ("uint16_t", "uint16_t"), ("uint32_t", "uint32_t"),
    ("uint64_t", "uint64_t"), ("int8_t", "int8_t"), ("int16_t", "int16_t"),
    ("int32_t", "int32_t"), ("int64_t", "int64_t"), ("bool", "uint8_t"), ("char", "int8_t"),
    ("unsigned char", "uint8_t"), ("short", "int16_t"), ("unsigned short", "uint16_t"),
    ("int", "int32_t"), ("unsigned int", "uint32_t"), ("long", "int32_t"),
    ("unsigned long", "uint32_t"), ("long long", "int64_t"), ("unsigned long long", "uint64_t"),
    ("float", "float"), ("double", "double"), ("wchar_t", "int16_t"), ("size_t", "uint32_t")]

/-- `SINGLE_BYTE_WIRE_TYPES` -/
def singleByteWireTypes : List String := ["uint8_t", "int8_t"]

/-- `WIRE_TYPE_SIZES` -/
def wireTypeSizes : List (String × ℕ) :=
  [("uint8_t", 1), ("uint16_t", 2), ("uint32_t", 4), ("uint64_t", 8), ("int8_t", 1),
    ("int16_t", 2), ("int32_t", 4), ("int64_t", 8), ("float", 4), ("double", 8)]

/-- `enum_wire_type` -/
def enumWireType (minVal maxVal : Int) : String :=
  if 0 ≤ minVal then
    if maxVal ≤ 0xFF then "uint8_t"
    else if maxVal ≤ 0xFFFF then "uint16_t"
    else if maxVal ≤ 0xFFFFFFFF then "uint32_t"
    else "uint64_t"
  else
    if -128 ≤ minVal ∧ maxVal ≤ 127 then "int8_t"
    else if -32768 ≤ minVal ∧ maxVal ≤ 32767 then "int16_t"
    else if -2147483648 ≤ minVal ∧ maxVal ≤ 2147483647 then "int32_t"
    else "int64_t"

/-- `length_prefix_type` -/
def lengthPrefixType (arrayLen : ℕ) : Except String String :=
  if arrayLen < 256 then .ok "uint8_t"
  else if arrayLen < 65536 then .ok "uint16_t"
  else if arrayLen ≤ 0xFFFFFFFF then .ok "uint32_t"
  else .error s!"Array length {arrayLen} exceeds UINT32_MAX"

/-- `length_prefix_size` -/
def lengthPrefixSize (arrayLen : ℕ) : Except String ℕ := do
  let type ← lengthPrefixType arrayLen
  .ok ((wireTypeSizes.lookup type).getD 0)

/-- `endian_suffix_for_type` -/
def endianSuffixForType (cType endianSuffix : String) : String :=
  let wire := (scalarTypeMap.lookup cType).getD cType
  if wire ∈ singleByteWireTypes then "" else endianSuffix

/-- `str.lower`, on the letters of an identifier -/
def lower (s : String) : String := String.ofList (s.toList.map Char.toLower)

/-! ## Declarations -/

/-- An entry of an enum: a name only, or what is behind its first `=`. -/
inductive EnumEntry : Type where
  | next : EnumEntry
  | assign (rhs : String) : EnumEntry
  deriving DecidableEq

/-- An enum of the header. -/
structure EnumDecl where
  name : String
  body : List EnumEntry
  deriving DecidableEq

/-- A field of a struct, as it is written: the type with single blanks between its words. -/
structure RawField where
  type : String
  name : String
  arrayLen : Option ℕ
  deriving DecidableEq

/-- A struct of the header. -/
structure StructDecl where
  name : String
  body : List RawField
  deriving DecidableEq

/-- What the regular expressions find in a header. -/
structure Header where
  typedefEnums : List EnumDecl
  enums : List EnumDecl
  structs : List StructDecl
  deriving DecidableEq

/-- A field. -/
structure Field where
  name : String
  type : String
  wireType : String
  arrayLen : Option ℕ
  isEnum : Bool
  deriving DecidableEq

/-- The structs by their names, in order. -/
abbrev Structs : Type := List (String × List Field)

/-! ## Literals -/

/-- `str.isspace` of a character -/
def isSpace (c : Char) : Bool :=
  c.toNat ∈ List.range' 9 5 ++ List.range' 0x1C 5 ++ [0x85, 0xA0, 0x1680] ++
    List.range' 0x2000 11 ++ [0x2028, 0x2029, 0x202F, 0x205F, 0x3000]

/-- `str.strip` -/
def strip (text : String) : List Char := (text.toList.dropWhile isSpace).rdropWhile isSpace

/-- `[0-9A-Fa-f]` -/
def isHexDigit (c : Char) : Bool :=
  c.isDigit || decide ('A' ≤ c ∧ c ≤ 'F') || decide ('a' ≤ c ∧ c ≤ 'f')

/-- `[xX][0-9A-Fa-f]+` -/
def isHexTail : List Char → Bool
  | [] => false
  | x :: digits => (x == 'x' || x == 'X') && !digits.isEmpty && digits.all isHexDigit

/-- The group of `_INT_LITERAL_RE`, up to the end of the text. -/
def isIntGroup : List Char → Bool
  | [] => false
  | c :: cs =>
    if c = '0' then isHexTail cs || cs.all fun d => decide ('0' ≤ d ∧ d ≤ '7')
    else c.isDigit && cs.all Char.isDigit

/-- What is behind a minus. -/
def unsigned : List Char → List Char
  | '-' :: cs => cs
  | cs => cs

/-- `_INT_LITERAL_RE.fullmatch` -/
def isIntLiteral (rhs : List Char) : Bool := isIntGroup ((unsigned rhs).dropWhile isSpace)

/-- The value of a digit. -/
def digitValue (c : Char) : ℕ :=
  if c.isDigit then c.toNat - '0'.toNat else c.toLower.toNat - 'a'.toNat + 10

/-- The value of some digits. -/
def fromDigits (base : ℕ) (digits : List Char) : ℕ :=
  digits.foldl (fun n c => base * n + digitValue c) 0

/-- `sys.int_info.default_max_str_digits` -/
def maxStrDigits : ℕ := 4300

/-- `int` with base 0, behind the sign of a text that `_INT_LITERAL_RE` matches. It takes no blanks
there, and no decimal digits after a zero but zeros. -/
def unsignedInt : List Char → Except String ℕ
  | '0' :: 'x' :: digits => .ok (fromDigits 16 digits)
  | '0' :: 'X' :: digits => .ok (fromDigits 16 digits)
  | digits =>
    if maxStrDigits < digits.length ∨ ¬ digits.all Char.isDigit ∨
        digits.head? = some '0' ∧ ¬ digits.all (· == '0') then .error "ValueError"
    else .ok (fromDigits 10 digits)

/-- `int(rhs, 0)` -/
def pyInt (rhs : List Char) : Except String Int := do
  let n ← unsignedInt (unsigned rhs)
  .ok (if rhs.head? = some '-' then -n else n)

/-- The value behind a `=`. -/
def literalValue (name text : String) : Except String Int :=
  let rhs := strip text
  if isIntLiteral rhs then pyInt rhs
  else
    let shown := String.ofList rhs
    .error s!"Enum '{name}': non-literal value '{shown}' not supported"

example : literalValue "shade_t" " -0x1F" = .ok (-31) := by decide +kernel

/-- The expression matches it, and `int` raises an exception. -/
example : literalValue "shade_t" "010" = .error "ValueError" := by decide +kernel

/-! ## Enums -/

/-- The values of the enumerators from `current` on. -/
def enumValues (name : String) : Int → List EnumEntry → Except String (List Int)
  | _, [] => .ok []
  | current, .next :: es => do
    let rest ← enumValues name (current + 1) es
    .ok (current :: rest)
  | _, .assign rhs :: es => do
    let value ← literalValue name rhs
    let rest ← enumValues name (value + 1) es
    .ok (value :: rest)

/-- The smallest and the largest of some values. -/
def minMax (v : Int) (vs : List Int) : Int × Int := (vs.foldl min v, vs.foldl max v)

/-- The loop of `parse_enums`. -/
def parseEnumsFrom (enums : List (String × String)) :
    List EnumDecl → Except String (List (String × String))
  | [] => .ok enums
  | ⟨name, body⟩ :: found =>
    if name ∈ enums.map Prod.fst then .error s!"Duplicate enum name: '{name}'"
    else do
      match ← enumValues name 0 body with
      | [] => parseEnumsFrom enums found
      | v :: vs =>
        let bounds := minMax v vs
        parseEnumsFrom (enums ++ [(name, enumWireType bounds.1 bounds.2)]) found

/-- `parse_enums` -/
def parseEnums (h : Header) : Except String (List (String × String)) :=
  let typedefNames := h.typedefEnums.map EnumDecl.name
  parseEnumsFrom [] (h.typedefEnums ++ h.enums.filter fun e => e.name ∉ typedefNames)

/-- The enums that are gone through: one that is also a typedef is left out. -/
def Header.allEnums (h : Header) : List EnumDecl :=
  h.typedefEnums ++ h.enums.filter fun e => e.name ∉ h.typedefEnums.map EnumDecl.name

/-! ## Fields and structs -/

/-- `resolve_type` -/
def resolveType (typeStr structName fieldName : String) (allStructNames : List String)
    (knownEnums : List (String × String)) : Except String String :=
  match scalarTypeMap.lookup (lower typeStr) with
  | some wire => .ok wire
  | none =>
    match knownEnums.lookup typeStr with
    | some wire => .ok wire
    | none =>
      if typeStr ∈ allStructNames then .ok typeStr
      else .error
        s!"Struct '{structName}', field '{fieldName}': unsupported or unknown type '{typeStr}'"

/-- `parse_field` -/
def parseField (raw : RawField) (structName : String) (allStructNames : List String)
    (knownEnums : List (String × String)) : Except String Field := do
  let wireType ← resolveType raw.type structName raw.name allStructNames knownEnums
  .ok ⟨raw.name, raw.type, wireType, raw.arrayLen, decide (raw.type ∈ knownEnums.map Prod.fst)⟩

/-- `parse_struct_body` -/
def parseStructBody (structName : String) (allStructNames : List String)
    (knownEnums : List (String × String)) : List RawField → Except String (List Field)
  | [] => .ok []
  | raw :: body => do
    let field ← parseField raw structName allStructNames knownEnums
    let rest ← parseStructBody structName allStructNames knownEnums body
    .ok (field :: rest)

/-- The check for fields of one name. -/
def checkFieldNames (structName : String) (seen : List String) : List Field → Except String Unit
  | [] => .ok ()
  | f :: fields =>
    if f.name ∈ seen then .error s!"Struct '{structName}': duplicate field name '{f.name}'"
    else checkFieldNames structName (seen ++ [f.name]) fields

/-- The loop of `parse_header`. -/
def parseStructs (allStructNames : List String) (knownEnums : List (String × String))
    (structs : Structs) : List StructDecl → Except String Structs
  | [] => .ok structs
  | ⟨name, body⟩ :: found =>
    if name ∈ structs.map Prod.fst then .error s!"Duplicate struct name: '{name}'"
    else do
      let fields ← parseStructBody name allStructNames knownEnums body
      checkFieldNames name [] fields
      parseStructs allStructNames knownEnums (structs ++ [(name, fields)]) found

/-- `parse_header` -/
def parseHeader (h : Header) : Except String Structs := do
  let knownEnums ← parseEnums h
  parseStructs (h.structs.map StructDecl.name) knownEnums [] h.structs

/-! ## What has been checked -/

/-- What is assumed of the names of a header: no enum is named like a scalar type, in upper or lower
case, and no struct like a wire type. The script does not check it. `resolve_type` would take a
field of an enum `BOOL` for a byte, whatever its enumerators are. -/
structure Header.Usual (h : Header) : Prop where
  enums : ∀ e ∈ h.typedefEnums ++ h.enums, scalarTypeMap.lookup (lower e.name) = none
  structs : ∀ s ∈ h.structs, wireTypeSizes.lookup s.name = none

/-- The three kinds of fields. -/
inductive Field.Kind (knownEnums : List (String × String)) (structNames : List String) (f : Field) :
    Prop where
  | scalar (henum : f.isEnum = false)
      (htype : scalarTypeMap.lookup (lower f.type) = some f.wireType)
  | enum (henum : f.isEnum = true) (htype : knownEnums.lookup f.type = some f.wireType)
  | struct (henum : f.isEnum = false) (htype : f.type = f.wireType)
      (hmem : f.wireType ∈ structNames) (hscalar : scalarTypeMap.lookup (lower f.type) = none)

/-- The wire types of enums. -/
def enumWireTypes : List String :=
  ["uint8_t", "uint16_t", "uint32_t", "uint64_t", "int8_t", "int16_t", "int32_t", "int64_t"]

/-- The structs of a header, as its other functions rely on them. -/
structure WellFormed (knownEnums : List (String × String)) (structs : Structs) : Prop where
  enumNames : ∀ e ∈ knownEnums, scalarTypeMap.lookup (lower e.1) = none
  enumWire : ∀ e ∈ knownEnums, e.2 ∈ enumWireTypes
  names : (structs.map Prod.fst).Nodup
  notWire : ∀ s ∈ structs, wireTypeSizes.lookup s.1 = none
  fieldNames : ∀ s ∈ structs, (s.2.map Field.name).Nodup
  kinds : ∀ s ∈ structs, ∀ f ∈ s.2, f.Kind knownEnums (structs.map Prod.fst)

theorem mem_of_lookup {α : Type} {l : List (String × α)} {k : String} {v : α}
    (h : l.lookup k = some v) : (k, v) ∈ l := by
  obtain ⟨l₁, l₂, rfl, -⟩ := List.lookup_eq_some_iff.mp h
  simp

theorem enumWireType_mem (a b : Int) : enumWireType a b ∈ enumWireTypes := by
  rw [enumWireType]
  split_ifs <;> decide

theorem isSome_of_scalar {type wire : String} (h : scalarTypeMap.lookup type = some wire) :
    (wireTypeSizes.lookup wire).isSome = true := by
  have hall : ∀ e ∈ scalarTypeMap, (wireTypeSizes.lookup e.2).isSome = true := by decide
  exact hall (type, wire) (mem_of_lookup h)

theorem isSome_of_enum {wire : String} (h : wire ∈ enumWireTypes) :
    (wireTypeSizes.lookup wire).isSome = true := by
  have hall : ∀ w ∈ enumWireTypes, (wireTypeSizes.lookup w).isSome = true := by decide
  exact hall wire h

section

variable {knownEnums : List (String × String)} {structs : Structs} {f : Field}

/-- A wire type is not the name of a struct. -/
theorem WellFormed.not_struct (hwf : WellFormed knownEnums structs) {wire : String}
    (h : (wireTypeSizes.lookup wire).isSome = true) : wire ∉ structs.map Prod.fst := by
  intro hmem
  obtain ⟨s, hs, rfl⟩ := List.mem_map.mp hmem
  rw [hwf.notWire s hs] at h
  cases h

/-- A field that is not a struct has a wire type. -/
theorem Field.Kind.wire_or_struct (hwf : WellFormed knownEnums structs)
    (h : f.Kind knownEnums (structs.map Prod.fst)) :
    (wireTypeSizes.lookup f.wireType).isSome = true ∧ f.wireType ∉ structs.map Prod.fst ∨
      wireTypeSizes.lookup f.wireType = none ∧ f.wireType ∈ structs.map Prod.fst := by
  cases h with
  | scalar _ htype =>
    have hsome := isSome_of_scalar htype
    exact .inl ⟨hsome, hwf.not_struct hsome⟩
  | enum _ htype =>
    have hsome := isSome_of_enum (hwf.enumWire _ (mem_of_lookup htype))
    exact .inl ⟨hsome, hwf.not_struct hsome⟩
  | struct _ _ hmem =>
    obtain ⟨s, hs, hname⟩ := List.mem_map.mp hmem
    exact .inr ⟨hname ▸ hwf.notWire s hs, hmem⟩

/-- The wire type of an enum. -/
theorem Field.Kind.enum_wire (hwf : WellFormed knownEnums structs) {names : List String}
    (h : f.Kind knownEnums names) (henum : f.isEnum = true) : f.wireType ∈ enumWireTypes := by
  cases h with
  | scalar hno _ => rw [henum] at hno; cases hno
  | enum _ htype => exact hwf.enumWire _ (mem_of_lookup htype)
  | struct hno _ _ _ => rw [henum] at hno; cases hno

/-- A field whose type is the name of a scalar type is a scalar. -/
theorem Field.Kind.of_scalar (hwf : WellFormed knownEnums structs)
    (h : f.Kind knownEnums (structs.map Prod.fst)) {wire : String}
    (htype : scalarTypeMap.lookup (lower f.type) = some wire) :
    f.isEnum = false ∧ f.wireType = wire := by
  cases h with
  | scalar henum htype' =>
    rw [htype] at htype'
    exact ⟨henum, (Option.some.inj htype').symm⟩
  | enum _ htype' =>
    rw [hwf.enumNames _ (mem_of_lookup htype')] at htype
    cases htype
  | struct _ _ _ hscalar =>
    rw [hscalar] at htype
    cases htype

end

/-- The entry of an enum with these values. -/
def enumEntry (name : String) : List Int → List (String × String)
  | [] => []
  | v :: vs => [(name, enumWireType (minMax v vs).1 (minMax v vs).2)]

/-- One round of `parse_enums`. -/
theorem parseEnumsFrom_cons {enums enums' : List (String × String)} {decl : EnumDecl}
    {found : List EnumDecl} : parseEnumsFrom enums (decl :: found) = .ok enums' ↔
      decl.name ∉ enums.map Prod.fst ∧ ∃ values, enumValues decl.name 0 decl.body = .ok values ∧
        parseEnumsFrom (enums ++ enumEntry decl.name values) found = .ok enums' := by
  rw [parseEnumsFrom]
  by_cases hdup : decl.name ∈ enums.map Prod.fst
  · rw [if_pos hdup]
    exact ⟨fun h => (nomatch h), fun h => absurd hdup h.1⟩
  · rw [if_neg hdup]
    rcases hvalues : enumValues decl.name 0 decl.body with msg | values
    · exact ⟨fun h => (nomatch h), fun ⟨_, _, h, _⟩ => (nomatch h)⟩
    · have hnil : enums = enums ++ enumEntry decl.name [] := (List.append_nil enums).symm
      constructor
      · intro h
        cases values with
        | nil => exact ⟨hdup, [], rfl, hnil ▸ h⟩
        | cons v vs => exact ⟨hdup, v :: vs, rfl, h⟩
      · rintro ⟨-, values', heq, h⟩
        cases heq
        cases values with
        | nil => exact hnil ▸ h
        | cons v vs => exact h

/-- What `parse_enums` adds. -/
theorem parseEnumsFrom_mem {enums enums' : List (String × String)} {found : List EnumDecl}
    (h : parseEnumsFrom enums found = .ok enums') (e : String × String) (he : e ∈ enums') :
    e ∈ enums ∨ e.1 ∈ found.map EnumDecl.name ∧ e.2 ∈ enumWireTypes := by
  induction found generalizing enums with
  | nil =>
    cases h
    exact .inl he
  | cons decl found ih =>
    obtain ⟨-, values, -, h⟩ := parseEnumsFrom_cons.mp h
    rcases ih h with hmem | ⟨hname, hwire⟩
    · rcases List.mem_append.mp hmem with hmem | hmem
      · exact .inl hmem
      · cases values with
        | nil => cases hmem
        | cons v vs =>
          rw [List.mem_singleton.mp hmem]
          exact .inr ⟨List.mem_cons_self, enumWireType_mem _ _⟩
    · exact .inr ⟨List.mem_cons_of_mem _ hname, hwire⟩

/-- The kind of a field that was parsed. -/
theorem parseField_kind {raw : RawField} {structName : String} {allStructNames : List String}
    {knownEnums : List (String × String)} {f : Field}
    (hplain : ∀ e ∈ knownEnums, scalarTypeMap.lookup (lower e.1) = none)
    (h : parseField raw structName allStructNames knownEnums = .ok f) :
    f.name = raw.name ∧ f.Kind knownEnums allStructNames := by
  rw [parseField, resolveType] at h
  have henum (hmem : raw.type ∈ knownEnums.map Prod.fst) :
      scalarTypeMap.lookup (lower raw.type) = none := by
    obtain ⟨e, he, htype⟩ := List.mem_map.mp hmem
    rw [← htype]
    exact hplain e he
  split at h
  · next wire hscalar =>
    cases h
    refine ⟨rfl, .scalar (decide_eq_false fun hmem => ?_) hscalar⟩
    rw [henum hmem] at hscalar
    cases hscalar
  · next hscalar =>
    split at h
    · next wire hwire =>
      cases h
      refine ⟨rfl, .enum (decide_eq_true ?_) hwire⟩
      exact List.mem_map.mpr ⟨(raw.type, wire), mem_of_lookup hwire, rfl⟩
    · next hwire =>
      by_cases hstruct : raw.type ∈ allStructNames
      · rw [if_pos hstruct] at h
        cases h
        refine ⟨rfl, .struct (decide_eq_false fun hmem => ?_) rfl hstruct hscalar⟩
        obtain ⟨e, he, htype⟩ := List.mem_map.mp hmem
        exact bne_iff_ne.mp (List.lookup_eq_none_iff.mp hwire e he) htype.symm
      · rw [if_neg hstruct] at h
        cases h

theorem parseStructBody_kind {structName : String} {allStructNames : List String}
    {knownEnums : List (String × String)} {body : List RawField} {fields : List Field}
    (hplain : ∀ e ∈ knownEnums, scalarTypeMap.lookup (lower e.1) = none)
    (h : parseStructBody structName allStructNames knownEnums body = .ok fields) :
    ∀ f ∈ fields, f.Kind knownEnums allStructNames := by
  induction body generalizing fields with
  | nil =>
    cases h
    simp
  | cons raw body ih =>
    rw [parseStructBody] at h
    rcases hfield : parseField raw structName allStructNames knownEnums with msg | f
    · rw [hfield] at h
      cases h
    · rcases hrest : parseStructBody structName allStructNames knownEnums body with msg | rest
      · rw [hfield, hrest] at h
        cases h
      · rw [hfield, hrest] at h
        cases h
        exact List.forall_mem_cons.mpr ⟨(parseField_kind hplain hfield).2, ih hrest⟩

theorem checkFieldNames_nodup {structName : String} {seen : List String} {fields : List Field}
    (h : checkFieldNames structName seen fields = .ok ()) (hseen : seen.Nodup) :
    (seen ++ fields.map Field.name).Nodup := by
  induction fields generalizing seen with
  | nil => simpa using hseen
  | cons f fields ih =>
    rw [checkFieldNames] at h
    split_ifs at h with hdup
    have hrest := ih h (List.nodup_append.mpr ⟨hseen, List.nodup_singleton _, by
      intro a ha b hb
      rw [List.mem_singleton.mp hb]
      rintro rfl
      exact hdup ha⟩)
    rwa [List.append_assoc] at hrest

/-- What the loop of `parse_header` adds. -/
theorem parseStructs_mem {allStructNames : List String} {knownEnums : List (String × String)}
    {structs structs' : Structs} {found : List StructDecl}
    (hplain : ∀ e ∈ knownEnums, scalarTypeMap.lookup (lower e.1) = none)
    (h : parseStructs allStructNames knownEnums structs found = .ok structs')
    (hnodup : (structs.map Prod.fst).Nodup)
    (hstructs : ∀ s ∈ structs, (s.2.map Field.name).Nodup ∧
      ∀ f ∈ s.2, f.Kind knownEnums allStructNames) :
    structs'.map Prod.fst = structs.map Prod.fst ++ found.map StructDecl.name ∧
      (structs'.map Prod.fst).Nodup ∧
      ∀ s ∈ structs', (s.2.map Field.name).Nodup ∧ ∀ f ∈ s.2, f.Kind knownEnums allStructNames := by
  induction found generalizing structs with
  | nil =>
    cases h
    exact ⟨by simp, hnodup, hstructs⟩
  | cons decl found ih =>
    obtain ⟨name, body⟩ := decl
    rw [parseStructs] at h
    split_ifs at h with hdup
    rcases hbody : parseStructBody name allStructNames knownEnums body with msg | fields
    · rw [hbody] at h
      cases h
    · rcases hcheck : checkFieldNames name [] fields with msg | u
      · simp only [hbody, hcheck, bind, Except.bind] at h
        cases h
      · simp only [hbody, hcheck, bind, Except.bind] at h
        obtain ⟨hnames, hrest⟩ := ih h
          (by
            rw [List.map_append]
            refine List.nodup_append.mpr ⟨hnodup, List.nodup_singleton _, ?_⟩
            intro a ha b hb
            rw [List.mem_singleton.mp hb]
            rintro rfl
            exact hdup ha)
          (by
            intro s hs
            rcases List.mem_append.mp hs with hs | hs
            · exact hstructs s hs
            · rw [List.mem_singleton.mp hs]
              exact ⟨checkFieldNames_nodup hcheck List.nodup_nil,
                parseStructBody_kind hplain hbody⟩)
        refine ⟨?_, hrest⟩
        rw [hnames, List.map_append, List.append_assoc]
        rfl

/-- **A header that was read** is well formed. -/
theorem parseHeader_wellFormed {h : Header} {structs : Structs} (husual : h.Usual)
    (hok : parseHeader h = .ok structs) :
    ∃ knownEnums, parseEnums h = .ok knownEnums ∧ WellFormed knownEnums structs := by
  rw [parseHeader] at hok
  rcases henums : parseEnums h with msg | knownEnums
  · rw [henums] at hok
    cases hok
  · rw [henums] at hok
    have hmem (e : String × String) (he : e ∈ knownEnums) :
        scalarTypeMap.lookup (lower e.1) = none ∧ e.2 ∈ enumWireTypes := by
      rcases parseEnumsFrom_mem henums e he with hnil | ⟨hname, hwire⟩
      · cases hnil
      · obtain ⟨decl, hdecl, hname⟩ := List.mem_map.mp hname
        rw [← hname]
        refine ⟨husual.enums decl ?_, hwire⟩
        rcases List.mem_append.mp hdecl with hdecl | hdecl
        · exact List.mem_append_left _ hdecl
        · exact List.mem_append_right _ (List.mem_filter.mp hdecl).1
    obtain ⟨hnames, hnodup, hstructs⟩ := parseStructs_mem (fun e he => (hmem e he).1) hok
      List.nodup_nil (by simp)
    rw [List.map_nil, List.nil_append] at hnames
    refine ⟨knownEnums, rfl, fun e he => (hmem e he).1, fun e he => (hmem e he).2, hnodup, ?_,
      fun s hs => (hstructs s hs).1, ?_⟩
    · intro s hs
      have hname : s.1 ∈ h.structs.map StructDecl.name :=
        hnames ▸ List.mem_map_of_mem hs
      obtain ⟨decl, hdecl, hname⟩ := List.mem_map.mp hname
      rw [← hname]
      exact husual.structs decl hdecl
    · rw [hnames]
      exact fun s hs => (hstructs s hs).2

/-! ## Two headers -/

/-- `interface.h` -/
def interfaceH : Header where
  typedefEnums :=
    [⟨"st_message_command_t", [.next, .next, .next, .next, .next, .next, .next]⟩,
      ⟨"st_gpio_mode_t", [.next, .next, .next, .next, .next]⟩]
  enums := []
  structs :=
    [⟨"st_rng_message_t", []⟩,
      ⟨"st_gpio_get_message_t", [⟨"uint64_t", "mask", none⟩]⟩,
      ⟨"st_gpio_set_message_t", [⟨"uint64_t", "mask", none⟩, ⟨"uint64_t", "values", none⟩]⟩,
      ⟨"st_gpio_mode_message_t",
        [⟨"uint8_t", "gpio", none⟩, ⟨"st_gpio_mode_t", "mode", none⟩]⟩,
      ⟨"st_rng_response_message_t", [⟨"uint32_t", "value", none⟩]⟩,
      ⟨"st_gpio_get_response_message_t", [⟨"uint64_t", "values", none⟩]⟩]

/-- A header with what `interface.h` does not have: a signed enum, an array of structs, a text. -/
def labelH : Header where
  typedefEnums := [⟨"shade_t", [.assign " -1", .next, .assign " 300"]⟩]
  enums := []
  structs :=
    [⟨"point_t", [⟨"int16_t", "x", none⟩, ⟨"int16_t", "y", none⟩]⟩,
      ⟨"label_t", [⟨"bool", "shown", none⟩, ⟨"shade_t", "shade", none⟩,
        ⟨"point_t", "corners", some 2⟩, ⟨"char", "text", some 4⟩]⟩]

theorem interfaceH_usual : interfaceH.Usual := ⟨by decide +kernel, by decide +kernel⟩

theorem labelH_usual : labelH.Usual := ⟨by decide +kernel, by decide +kernel⟩

end BuffersGenC

end HtcwFrameArq
