import HtcwFrameArq.Emitted

/-!
# The C generator

`buffers_gen_c.py` from the structs of a header on: one function that reads and one that writes for
each struct, one for its size where texts have prefixes, a pair of functions for each enum, and a
header with the sizes.
-/

namespace HtcwFrameArq

namespace BuffersGenC

open Commands

/-! ## Names -/

/-- `type_fn_suffix` -/
def typeFnSuffix (typeName : String) : String :=
  if "_t".toList <:+ typeName.toList
  then String.ofList (typeName.toList.take (typeName.toList.length - 2)) else typeName

/-- `read_fn_name` -/
def readFnName (userPrefix structName : String) : String :=
  userPrefix ++ typeFnSuffix structName ++ "_read"

/-- `write_fn_name` -/
def writeFnName (userPrefix structName : String) : String :=
  userPrefix ++ typeFnSuffix structName ++ "_write"

/-- `size_fn_name` -/
def sizeFnName (userPrefix structName : String) : String :=
  userPrefix ++ typeFnSuffix structName ++ "_size"

/-! ## Calls -/

/-- What the functions that generate code have in common: the prefix, the names of the structs, the
mode and the suffix for the byte order. -/
structure Options where
  userPrefix : String
  allStructNames : List String
  fixedMode : Bool
  big : Bool
  deriving DecidableEq

/-- The suffix for the byte order. -/
def Options.endianSuffix (o : Options) : String := if o.big then "_be" else "_le"

/-- `gen_read_call` -/
def genReadCall (o : Options) (f : Field) (p : Place) : List Stmt :=
  if f.wireType ∈ o.allStructNames then
    [.call (readFnName o.userPrefix f.wireType) (.place p true) false, .check, .add]
  else if f.isEnum then [.call ("read_" ++ f.type) (.place p true) true, .check]
  else
    [.call ("buffers_read_" ++ f.type ++ endianSuffixForType f.type o.endianSuffix)
      (.place p true) true, .check]

/-- `gen_write_call` -/
def genWriteCall (o : Options) (f : Field) (p : Place) : List Stmt :=
  if f.wireType ∈ o.allStructNames then
    [.call (writeFnName o.userPrefix f.wireType) (.place p true) false, .check, .add]
  else if f.isEnum then [.call ("write_" ++ f.type) (.place p false) false, .check, .add]
  else
    [.call ("buffers_write_" ++ f.type ++ endianSuffixForType f.type o.endianSuffix)
      (.place p false) false, .check, .add]

/-- `gen_enum_read_fn` -/
def genEnumReadFn (o : Options) (enumName wireType : String) : EnumFn :=
  ⟨.read, "read_" ++ enumName, enumName, wireType,
    "buffers_read_" ++ wireType ++ endianSuffixForType wireType o.endianSuffix⟩

/-- `gen_enum_write_fn` -/
def genEnumWriteFn (o : Options) (enumName wireType : String) : EnumFn :=
  ⟨.write, "write_" ++ enumName, enumName, wireType,
    "buffers_write_" ++ wireType ++ endianSuffixForType wireType o.endianSuffix⟩

/-! ## Functions for structs -/

/-- The part of `gen_write_fn` for a field. -/
def genWriteField (o : Options) (f : Field) : Except String (Code Stmt Bound) :=
  match f.arrayLen with
  | none => .ok (.acts (genWriteCall o f (.field f.name)))
  | some n =>
    if o.fixedMode = true ∨ fieldIsString f = false then
      .ok (.loop (.lit n) (.acts (genWriteCall o f (.item f.name))))
    else do
      let lpType ← lengthPrefixType n
      let var := "_len_" ++ f.name
      .ok (.block (.all [
        .act (.declare lpType var true),
        .loop (.lit n) (.acts [.breakNul f.name (f.type ≠ "char"), .increment var]),
        .acts [.call ("buffers_write_" ++ lpType ++ endianSuffixForType lpType o.endianSuffix)
          (.var var false) false, .check, .add],
        .loop (.var var) (.acts (genWriteCall o f (.item f.name)))]))

/-- The part of `gen_read_fn` for a field. -/
def genReadField (o : Options) (f : Field) : Except String (Code Stmt Bound) :=
  match f.arrayLen with
  | none => .ok (.acts (genReadCall o f (.field f.name)))
  | some n =>
    if o.fixedMode = true ∨ fieldIsString f = false then
      .ok (.loop (.lit n) (.acts (genReadCall o f (.item f.name))))
    else do
      let lpType ← lengthPrefixType n
      let var := "_len_" ++ f.name
      .ok (.block (.all [
        .act (.declare lpType var false),
        .acts [.call ("buffers_read_" ++ lpType ++ endianSuffixForType lpType o.endianSuffix)
          (.var var true) true, .check],
        .act (.checkLen var n),
        .loop (.var var) (.acts (genReadCall o f (.item f.name))),
        .act (.terminate f.name var n (f.type = "wchar_t"))]))

/-- The part of `gen_size_fn` for a field. -/
def genSizeField (o : Options) (f : Field) : Except String (Code Stmt Bound) :=
  match f.arrayLen with
  | none =>
    if f.wireType ∈ o.allStructNames then
      .ok (.act (.addCall (sizeFnName o.userPrefix f.wireType) (.field f.name)))
    else .ok (.act (.addSize (wireSize f.wireType)))
  | some n =>
    if fieldIsString f = false then
      if f.wireType ∈ o.allStructNames then
        .ok (.block (.loop (.lit n)
          (.act (.addCall (sizeFnName o.userPrefix f.wireType) (.item f.name)))))
      else .ok (.act (.addArray n (wireSize f.wireType)))
    else do
      let lpType ← lengthPrefixType n
      .ok (.block (.all [
        .act (.declare lpType "_len" true),
        .loop (.lit n) (.acts [.breakNul f.name (f.type ≠ "char"), .increment "_len"]),
        .act (.addText (wireSize lpType) "_len" (wireSize f.wireType))]))

/-- The code for each field, in order. -/
def genFields (gen : Field → Except String (Code Stmt Bound)) :
    List Field → Except String (List (Code Stmt Bound))
  | [] => .ok []
  | f :: fields => do
    let code ← gen f
    let rest ← genFields gen fields
    .ok (code :: rest)

/-- The body of a function for a struct, which has none without fields. -/
def genBody (gen : Field → Except String (Code Stmt Bound)) (fields : List Field) :
    Except String (Option (Code Stmt Bound)) :=
  if fields = [] then .ok none
  else do
    let codes ← genFields gen fields
    .ok (some (.all codes))

/-- `gen_read_fn` -/
def genReadFn (o : Options) (structName : String) (fields : List Field) :
    Except String StructFn := do
  let body ← genBody (genReadField o) fields
  .ok ⟨.read, readFnName o.userPrefix structName, structName, fields.map Field.name, body⟩

/-- `gen_write_fn` -/
def genWriteFn (o : Options) (structName : String) (fields : List Field) :
    Except String StructFn := do
  let body ← genBody (genWriteField o) fields
  .ok ⟨.write, writeFnName o.userPrefix structName, structName, fields.map Field.name, body⟩

/-- `gen_size_fn` -/
def genSizeFn (o : Options) (structName : String) (fields : List Field) :
    Except String StructFn := do
  let body ← genBody (genSizeField o) fields
  .ok ⟨.size, sizeFnName o.userPrefix structName, structName, fields.map Field.name, body⟩

/-- The code of a function is that for its fields. -/
theorem genFields_inv {gen : Field → Except String (Code Stmt Bound)} {fields : List Field}
    {codes : List (Code Stmt Bound)} (h : genFields gen fields = .ok codes) :
    List.Forall₂ (fun f code => gen f = .ok code) fields codes := by
  induction fields generalizing codes with
  | nil =>
    cases h
    exact .nil
  | cons f fields ih =>
    rw [genFields] at h
    rcases hf : gen f with msg | code
    · rw [hf] at h
      cases h
    · rcases hrest : genFields gen fields with msg | rest
      · rw [hf, hrest] at h
        cases h
      · rw [hf, hrest] at h
        cases h
        exact .cons hf (ih hrest)

theorem genBody_inv {gen : Field → Except String (Code Stmt Bound)} {fields : List Field}
    {body : Option (Code Stmt Bound)} (h : genBody gen fields = .ok body) :
    fields = [] ∧ body = none ∨
      ∃ codes, body = some (.all codes) ∧
        List.Forall₂ (fun f code => gen f = .ok code) fields codes := by
  rw [genBody] at h
  split_ifs at h with hnil
  · cases h
    exact .inl ⟨hnil, rfl⟩
  · rcases hcodes : genFields gen fields with msg | codes
    · rw [hcodes] at h
      cases h
    · rw [hcodes] at h
      cases h
      exact .inr ⟨codes, rfl, genFields_inv hcodes⟩

/-- A function that was generated from a body. -/
theorem genFn_inv {body : Except String (Option (Code Stmt Bound))}
    {make : Option (Code Stmt Bound) → StructFn} {fn : StructFn}
    (h : (do let b ← body; .ok (make b)) = (.ok fn : Except String StructFn)) :
    ∃ b, body = .ok b ∧ fn = make b := by
  rcases body with msg | b
  · cases h
  · cases h
    exact ⟨b, rfl, rfl⟩

/-! ## Files -/

/-- Sets a key of a dictionary, which stays where it is if it is there. -/
def dictSet (d : List (String × String)) (k v : String) : List (String × String) :=
  if k ∈ d.map Prod.fst then d.map fun e => if e.1 = k then (k, v) else e else d ++ [(k, v)]

/-- `enum_types` -/
def enumTypes (structs : Structs) : List (String × String) :=
  (structs.flatMap Prod.snd).foldl
    (fun d f => if f.isEnum then dictSet d f.type f.wireType else d) []

/-- The functions for the enums. -/
def genEnums (o : Options) (enums : List (String × String)) : List Def :=
  enums.flatMap fun e => [.enum (genEnumReadFn o e.1 e.2), .enum (genEnumWriteFn o e.1 e.2)]

/-- The functions for the structs. -/
def genStructs (o : Options) : Structs → Except String (List Def)
  | [] => .ok []
  | (name, fields) :: structs => do
    let readFn ← genReadFn o name fields
    let writeFn ← genWriteFn o name fields
    let sizeFns ← if o.fixedMode then .ok [] else do
      let sizeFn ← genSizeFn o name fields
      .ok [sizeFn]
    let rest ← genStructs o structs
    .ok ([.struct readFn, .struct writeFn] ++ sizeFns.map .struct ++ rest)

/-- What is generated for the first struct, and for the others. -/
theorem genStructs_inv {o : Options} {name : String} {fields : List Field} {structs : Structs}
    {defs : List Def} (h : genStructs o ((name, fields) :: structs) = .ok defs) :
    ∃ readFn writeFn sizeFns rest, genReadFn o name fields = .ok readFn ∧
      genWriteFn o name fields = .ok writeFn ∧
      (if o.fixedMode = true then sizeFns = []
        else ∃ sizeFn, genSizeFn o name fields = .ok sizeFn ∧ sizeFns = [sizeFn]) ∧
      genStructs o structs = .ok rest ∧
      defs = [.struct readFn, .struct writeFn] ++ sizeFns.map .struct ++ rest := by
  rw [genStructs] at h
  rcases hread : genReadFn o name fields with msg | readFn
  · rw [hread] at h
    cases h
  rcases hwrite : genWriteFn o name fields with msg | writeFn
  · rw [hread, hwrite] at h
    cases h
  rw [hread, hwrite] at h
  cases hmode : o.fixedMode with
  | true =>
    rw [hmode] at h
    rcases hrest : genStructs o structs with msg | rest
    · rw [hrest] at h
      cases h
    · rw [hrest] at h
      cases h
      exact ⟨readFn, writeFn, [], rest, rfl, rfl, rfl, rfl, rfl⟩
  | false =>
    rw [hmode] at h
    rcases hsize : genSizeFn o name fields with msg | sizeFn
    · rw [hsize] at h
      cases h
    rcases hrest : genStructs o structs with msg | rest
    · rw [hsize, hrest] at h
      cases h
    · rw [hsize, hrest] at h
      cases h
      exact ⟨readFn, writeFn, [sizeFn], rest, rfl, rfl, ⟨sizeFn, rfl, rfl⟩, rfl, rfl⟩

/-- The options for the structs of a header. -/
def optionsFor (userPrefix : String) (structs : Structs) (fixedMode big : Bool) : Options :=
  ⟨userPrefix, structs.map Prod.fst, fixedMode, big⟩

/-- The functions of `generate_c`. -/
def generateC (userPrefix : String) (structs : Structs) (fixedMode big : Bool) :
    Except String (List Def) := do
  let o := optionsFor userPrefix structs fixedMode big
  let defs ← genStructs o structs
  .ok (genEnums o (enumTypes structs) ++ defs)

/-- The lines of `generate_c`. -/
def generateCLines (stem : String) (defs : List Def) : List String :=
  ["#include \"buffers.h\"", "#include \"" ++ stem ++ "_buffers.h\"", ""] ++
    defs.flatMap fun d => d.lines ++ [""]

/-- The function that writes a struct with one text. -/
example : (genWriteFn ⟨"", ["text_t"], false, false⟩ "text_t"
    [⟨"text", "char", "int8_t", some 4, false⟩]).map StructFn.lines = .ok [
      "int text_write(const text_t* s, buffers_write_callback_t on_write, " ++
        "void* on_write_state) \x7b",
      "    int res;",
      "    int total = 0;",
      "    \x7b",
      "        uint8_t _len_text = 0;",
      "        for(int i = 0; i < 4; ++i) \x7b",
      "            if(s->text[i] == '\\0') break;",
      "            _len_text++;",
      "        \x7d",
      "        res = buffers_write_uint8_t(_len_text, on_write, on_write_state);",
      "        if(res < 0) \x7b return res; \x7d",
      "        total += res;",
      "        for(int i = 0; i < (int)_len_text; ++i) \x7b",
      "            res = buffers_write_char(s->text[i], on_write, on_write_state);",
      "            if(res < 0) \x7b return res; \x7d",
      "            total += res;",
      "        \x7d",
      "    \x7d",
      "    return total;",
      "\x7d"] := by decide +kernel

/-! ## The header with the sizes -/

/-- Letters and digits are kept, everything else is an underscore, in upper case. -/
def upperIdent (s : String) : String :=
  String.ofList (s.toList.map fun c => (if c.isAlphanum then c else '_').toUpper)

/-- `header_stem_to_define_prefix` -/
def headerStemToDefinePrefix (stem : String) : String :=
  let ident := upperIdent stem
  if ident.toList.head?.any Char.isDigit then "_" ++ ident else ident

/-- `struct_size_define_name` -/
def structSizeDefineName (structName userPrefix : String) : String :=
  String.ofList (userPrefix.toList.map Char.toUpper) ++ upperIdent (typeFnSuffix structName) ++
    "_SIZE"

/-- The line that defines the size of each struct. -/
def sizeDefines (userPrefix : String) (structs : Structs) (fixedMode : Bool) :
    List String → Except SizeError (List String)
  | [] => .ok []
  | name :: rest => do
    let size ← structs.size fixedMode name
    let lines ← sizeDefines userPrefix structs fixedMode rest
    .ok (("#define " ++ structSizeDefineName name userPrefix ++ " (" ++ toString size ++ ")") ::
      lines)

/-- The prototypes of the functions of a struct. -/
def prototypes (userPrefix structName : String) (fixedMode : Bool) : List String :=
  ["int " ++ readFnName userPrefix structName ++ "(" ++ structName ++
      "* s, buffers_read_callback_t on_read, void* on_read_state);",
    "int " ++ writeFnName userPrefix structName ++ "(const " ++ structName ++
      "* s, buffers_write_callback_t on_write, void* on_write_state);"] ++
    (if fixedMode then []
      else ["size_t " ++ sizeFnName userPrefix structName ++ "(const " ++ structName ++ "* s);"]) ++
    [""]

/-- The lines of `generate_h`. -/
def generateH (stem extension userPrefix : String) (structs : Structs) (fixedMode : Bool) :
    Except SizeError (List String) := do
  let guard := String.ofList (stem.toList.map Char.toUpper) ++ "_BUFFERS_H"
  let maxSize ← computeMaxWireSize structs fixedMode
  let defines ← sizeDefines userPrefix structs fixedMode (structs.map Prod.fst)
  .ok (["#ifndef " ++ guard, "#define " ++ guard, "#include \"" ++ stem ++ extension ++ "\"",
      "#include \"buffers.h\"", "",
      "#define " ++ headerStemToDefinePrefix stem ++ "_MAX_SIZE (" ++ toString maxSize ++ ")"] ++
    defines ++ ["", "#ifdef __cplusplus", "extern \"C\" \x7b", "#endif", ""] ++
    structs.flatMap (fun s => prototypes userPrefix s.1 fixedMode) ++
    ["#ifdef __cplusplus", "\x7d", "#endif", "#endif /* " ++ guard ++ " */", ""])

/-- `main`, from the declarations of the header on: the lines of the two files. -/
def main (stem extension userPrefix : String) (fixedMode big : Bool) (h : Header) :
    Except SizeError (List String × List String) := do
  let structs ← orExit (parseHeader h)
  if structs = [] then .error (.exit "No structs found in header")
  else do
    let lines ← generateH stem extension userPrefix structs fixedMode
    let defs ← orExit (generateC userPrefix structs fixedMode big)
    .ok (lines, generateCLines stem defs)

end BuffersGenC

end HtcwFrameArq
