import HtcwFrameArq.Commands
import HtcwFrameArq.Buffers

/-!
# The emitted C

The C that `buffers_gen_c.py` emits, as commands over a few kinds of statements: their text, line by
line, and what they do. A function works on the object that `s` points to; a call hands a field, an
element or the length of a text to another function, by value or by address.

Execution is stuck (`none`) where C has no defined behaviour: a variable without a value, a place
outside of the object, an `int` that overflows, or a function that does not exist.
-/

namespace HtcwFrameArq

namespace BuffersGenC

open Commands Streams

/-! ## Statements -/

/-- The functions for a struct. -/
inductive Kind : Type where
  | read : Kind
  | write : Kind
  | size : Kind
  deriving DecidableEq

/-- A field of the object, or its element at the counter. -/
inductive Place : Type where
  | field (name : String) : Place
  | item (name : String) : Place
  deriving DecidableEq

/-- What a call is given: a place, or the variable for the length of a text. -/
inductive Arg : Type where
  | place (p : Place) (address : Bool) : Arg
  | var (name : String) (address : Bool) : Arg
  deriving DecidableEq

/-- The statements without a body. -/
inductive Stmt : Type where
  /-- `res = fn(arg, …)`, with `&bytes_read` if `counted` -/
  | call (fn : String) (arg : Arg) (counted : Bool) : Stmt
  | check : Stmt
  | add : Stmt
  | declare (type var : String) (init : Bool) : Stmt
  | breakNul (name : String) (wide : Bool) : Stmt
  | increment (var : String) : Stmt
  | checkLen (var : String) (capacity : ℕ) : Stmt
  | terminate (name var : String) (capacity : ℕ) (wide : Bool) : Stmt
  | addCall (fn : String) (p : Place) : Stmt
  | addArray (n size : ℕ) : Stmt
  | addText (prefixSize : ℕ) (var : String) (size : ℕ) : Stmt
  | addSize (size : ℕ) : Stmt
  | ret : Stmt
  deriving DecidableEq

/-- What a counter stays below: a number, or the length of a text. -/
inductive Bound : Type where
  | lit (n : ℕ) : Bound
  | var (name : String) : Bound
  deriving DecidableEq

/-! ## Text -/

/-- The callback of a function. -/
def Kind.callback : Kind → String
  | read => "on_read"
  | write => "on_write"
  | size => ""

/-- The variable that a function returns. -/
def Kind.total : Kind → String
  | read => "bytes_read"
  | write => "total"
  | size => "size"

def Place.text : Place → String
  | field name => "s->" ++ name
  | item name => "s->" ++ name ++ "[i]"

def Arg.text : Arg → String
  | place p address => (if address then "&" else "") ++ p.text
  | var name address => (if address then "&" else "") ++ name

def Bound.text : Bound → String
  | lit n => toString n
  | var name => "(int)" ++ name

/-- The character that ends a text. -/
def nulText (wide : Bool) : String := if wide then "L'\\0'" else "'\\0'"

/-- The lines of a statement. -/
def Stmt.lines (kind : Kind) : Stmt → List String
  | call fn arg counted =>
    ["res = " ++ fn ++ "(" ++ arg.text ++ ", " ++ kind.callback ++ ", " ++ kind.callback ++
      "_state" ++ (if counted then ", &bytes_read" else "") ++ ");"]
  | check => ["if(res < 0) \x7b return res; \x7d"]
  | add => [kind.total ++ " += res;"]
  | declare type var init => [type ++ " " ++ var ++ (if init then " = 0" else "") ++ ";"]
  | breakNul name wide => ["if(s->" ++ name ++ "[i] == " ++ nulText wide ++ ") break;"]
  | increment var => [var ++ "++;"]
  | checkLen var capacity =>
    ["if(" ++ var ++ " > " ++ toString capacity ++ ") \x7b return BUFFERS_ERROR_EOF; \x7d"]
  | terminate name var capacity wide =>
    ["if(" ++ var ++ " < " ++ toString capacity ++ ") \x7b",
      "    s->" ++ name ++ "[" ++ var ++ "] = " ++ nulText wide ++ ";", "\x7d"]
  | addCall fn p => ["size += " ++ fn ++ "(&" ++ p.text ++ ");"]
  | addArray n size => ["size += (size_t)" ++ toString n ++ " * " ++ toString size ++ ";"]
  | addText prefixSize var size =>
    ["size += " ++ toString prefixSize ++ " + (size_t)" ++ var ++ " * " ++ toString size ++ ";"]
  | addSize size => ["size += " ++ toString size ++ ";"]
  | ret => ["return " ++ kind.total ++ ";"]

/-- Four more blanks. -/
def indented (lines : List String) : List String := lines.map ("    " ++ ·)

/-- The lines of a command. -/
def codeLines (kind : Kind) : Code Stmt Bound → List String
  | .skip => []
  | .act a => a.lines kind
  | .seq c d => codeLines kind c ++ codeLines kind d
  | .loop b c =>
    ["for(int i = 0; i < " ++ b.text ++ "; ++i) \x7b"] ++ indented (codeLines kind c) ++ ["\x7d"]
  | .block c => ["\x7b"] ++ indented (codeLines kind c) ++ ["\x7d"]

/-! ## Execution -/

/-- `INT_MAX` -/
def intMax : Int := 2147483647

/-- The variables of a function, the object, and the state of the callback. -/
structure Frame (σ : Type) where
  obj : List Value
  res : Option Int
  total : Int
  len : Option ℕ
  /-- the size of the type of the length -/
  lenSize : ℕ
  i : ℕ
  io : σ

/-- What a call has done: the value it returned, the object, how many bytes it counted. -/
structure Outcome (σ : Type) where
  ret : Int
  obj : Value
  counted : ℕ
  io : σ

/-- A function on an object and the state of the callback. -/
abbrev Callee (σ : Type) : Type := Value → σ → Option (Outcome σ)

/-- The functions by their names. -/
abbrev Env (σ : Type) : Type := String → Option (Callee σ)

section

variable {σ : Type} (names : List String) (env : Env σ)

/-- The value at a place. -/
def Frame.get (s : Frame σ) : Place → Option Value
  | .field name => s.obj[names.idxOf name]?
  | .item name => s.obj[names.idxOf name]?.bind fun v => v.elems[s.i]?

/-- Puts an element of an array. -/
def Frame.putItem (s : Frame σ) (name : String) (i : ℕ) (v : Value) : Frame σ :=
  { s with obj := s.obj.modify (names.idxOf name) fun a => .array (a.elems.set i v) }

/-- Puts a value at a place. -/
def Frame.put (s : Frame σ) : Place → Value → Frame σ
  | .field name, v => { s with obj := s.obj.set (names.idxOf name) v }
  | .item name, v => s.putItem names name s.i v

/-- The value of an argument; what a variable without a value points to does not matter. -/
def Frame.arg (s : Frame σ) : Arg → Option Value
  | .place p _ => s.get names p
  | .var _ true => some (.bits (s.len.getD 0))
  | .var _ false => s.len.map .bits

/-- What a call leaves in its argument. -/
def Frame.store (s : Frame σ) : Arg → Value → Frame σ
  | .place p true, v => s.put names p v
  | .var _ true, v => { s with len := some v.toBits }
  | _, _ => s

/-- Execution of a statement. -/
def Stmt.exec : Stmt → Frame σ → Option (Flow Int × Frame σ)
  | call fn arg counted, s => do
    let callee ← env fn
    let v ← s.arg names arg
    let out ← callee v s.io
    let total := if counted then s.total + out.counted else s.total
    if total ≤ intMax
      then some (.next, { s.store names arg out.obj with res := some out.ret, total, io := out.io })
      else none
  | check, s => do
    let res ← s.res
    some (if res < 0 then .exit res else .next, s)
  | add, s => do
    let res ← s.res
    if s.total + res ≤ intMax then some (.next, { s with total := s.total + res }) else none
  | declare type _ init, s =>
    some (.next, { s with len := if init then some 0 else none, lenSize := wireSize type })
  | breakNul name _, s => do
    let v ← s.get names (.item name)
    some (if v.toBits = 0 then .stop else .next, s)
  | increment _, s => do
    let len ← s.len
    some (.next, { s with len := some ((len + 1) % 256 ^ s.lenSize) })
  | checkLen _ capacity, s => do
    let len ← s.len
    some (if capacity < len then .exit buffersErrorEof else .next, s)
  | terminate name _ capacity _, s => do
    let len ← s.len
    some (.next, if len < capacity then s.putItem names name len (.bits 0) else s)
  | addCall fn p, s => do
    let callee ← env fn
    let v ← s.get names p
    let out ← callee v s.io
    some (.next, { s with total := (s.total + out.ret) % 2 ^ 32 })
  | addArray n size, s => some (.next, { s with total := (s.total + (n * size : ℕ)) % 2 ^ 32 })
  | addText prefixSize _ size, s => do
    let len ← s.len
    some (.next, { s with total := (s.total + (prefixSize + len * size : ℕ)) % 2 ^ 32 })
  | addSize size, s => some (.next, { s with total := (s.total + size) % 2 ^ 32 })
  | ret, s => some (.exit s.total, s)

/-- How often a loop is entered. A length that is no `int` is negative as one. -/
def Bound.times : Bound → Frame σ → Option ℕ
  | lit n, _ => if (n : Int) ≤ intMax then some n else none
  | var _, s => s.len.map fun len : ℕ => if (len : Int) ≤ intMax then len else 0

/-- The machine on which a function is executed. -/
def machine : Machine Stmt Bound (Frame σ) Int where
  act := Stmt.exec names env
  bound := Bound.times
  count i s := { s with i }

end

/-! ## Functions -/

/-- A function for a struct; for a struct without fields it has no body. -/
structure StructFn where
  kind : Kind
  name : String
  struct : String
  fields : List String
  body : Option (Code Stmt Bound)
  deriving DecidableEq

/-- A function for an enum: it reads or writes the wire type. -/
structure EnumFn where
  kind : Kind
  name : String
  enum : String
  wireType : String
  callee : String
  deriving DecidableEq

/-- A function definition. -/
inductive Def : Type where
  | struct (f : StructFn) : Def
  | enum (f : EnumFn) : Def
  deriving DecidableEq

def Def.name : Def → String
  | struct f => f.name
  | enum f => f.name

/-- The lines of a function for a struct. -/
def StructFn.lines (f : StructFn) : List String :=
  let head := match f.kind with
    | .read => "int " ++ f.name ++ "(" ++ f.struct ++
      "* s, buffers_read_callback_t on_read, void* on_read_state) \x7b"
    | .write => "int " ++ f.name ++ "(const " ++ f.struct ++
      "* s, buffers_write_callback_t on_write, void* on_write_state) \x7b"
    | .size => "size_t " ++ f.name ++ "(const " ++ f.struct ++ "* s) \x7b"
  let body := match f.body with
    | none =>
      [match f.kind with
        | .read => "(void)s; (void)on_read; (void)on_read_state;"
        | .write => "(void)s; (void)on_write; (void)on_write_state;"
        | .size => "(void)s;", "return 0;"]
    | some body =>
      (match f.kind with
        | .size => ["size_t size = 0;"]
        | kind => ["int res;", "int " ++ kind.total ++ " = 0;"]) ++
        codeLines f.kind body ++ Stmt.ret.lines f.kind
  [head] ++ indented body ++ ["\x7d"]

/-- The lines of a function for an enum. -/
def EnumFn.lines (f : EnumFn) : List String :=
  match f.kind with
  | .read =>
    ["static int " ++ f.name ++ "(" ++ f.enum ++
        "* e, buffers_read_callback_t on_read, void* on_read_state, int* bytes_read) \x7b",
      "    " ++ f.wireType ++ " tmp;",
      "    int res = " ++ f.callee ++ "(&tmp, on_read, on_read_state, bytes_read);",
      "    if(res < 0) \x7b return res; \x7d",
      "    *e = (" ++ f.enum ++ ")tmp;",
      "    return 0;",
      "\x7d"]
  | _ =>
    ["static int " ++ f.name ++ "(" ++ f.enum ++
        " e, buffers_write_callback_t on_write, void* on_write_state) \x7b",
      "    " ++ f.wireType ++ " tmp = (" ++ f.wireType ++ ")e;",
      "    return " ++ f.callee ++ "(tmp, on_write, on_write_state);",
      "\x7d"]

def Def.lines : Def → List String
  | struct f => f.lines
  | enum f => f.lines

section

variable {σ : Type}

/-- A call of a function for a struct. -/
def StructFn.run (env : Env σ) (f : StructFn) : Callee σ := fun v io =>
  match f.body with
  | none => some ⟨0, v, 0, io⟩
  | some body =>
    match (body.seq (.act .ret)).exec (machine f.fields env)
      ⟨v.fields, none, 0, none, 0, 0, io⟩ with
    | some (.exit r, s) => some ⟨r, .record s.obj, 0, s.io⟩
    | _ => none

/-- A call of a function for an enum. -/
def EnumFn.run (env : Env σ) (f : EnumFn) : Callee σ := fun v io => do
  let callee ← env f.callee
  match f.kind with
  | .read => do
    let out ← callee (.bits 0) io
    if out.ret < 0 then some { out with obj := v }
    else some ⟨0, .enum (signExtend f.wireType out.obj.toBits), out.counted, out.io⟩
  | _ => do
    let out ← callee (.bits (enumBits f.wireType v.toEnum)) io
    some { out with obj := v }

def Def.run (env : Env σ) : Def → Callee σ
  | struct f => f.run env
  | enum f => f.run env

/-- The callbacks of a caller. -/
structure Callbacks (σ : Type) where
  read : σ → Int × σ
  write : UInt8 → σ → Int × σ

variable [Platform] (cbs : Callbacks σ)

/-- A function of `buffers.c` that reads an object of a type. -/
def readCallee (type : String) (t : Scalar) (big : Bool) : Callee σ := fun old io =>
  match (t.read big).run (readByte cbs.read) io with
  | ⟨.ok v, n, io'⟩ => (stored type t v).map fun v => ⟨0, v, n, io'⟩
  | ⟨.error e, n, io'⟩ => some ⟨e, old, n, io'⟩

/-- A function of `buffers.c` that writes. -/
def writeCallee (t : Scalar) (big : Bool) : Callee σ := fun v io =>
  match t.write cbs.write big v io with
  | (r, io') => some ⟨r, v, 0, io'⟩

/-- The functions of `buffers.c`. -/
def support : List (String × Callee σ) :=
  bufferNames.map (fun e => ("buffers_read_" ++ e.name, readCallee cbs e.type e.scalar e.big)) ++
    bufferNames.map fun e => ("buffers_write_" ++ e.name, writeCallee cbs e.scalar e.big)

/-- The functions of a program, which call each other to a depth. -/
def programEnv (p : List Def) : ℕ → String → Option (Callee σ)
  | 0, name => (support cbs).lookup name
  | depth + 1, name =>
    match p.find? fun d => d.name = name with
    | some d => some (d.run (programEnv p depth))
    | none => (support cbs).lookup name

end

/-! ## Places and texts -/

section

variable {σ : Type} {names : List String} {env : Env σ}

/-- A value that is put where it already is. -/
theorem Frame.put_get {s : Frame σ} {p : Place} {v : Value} (h : s.get names p = some v) :
    s.put names p v = s := by
  cases p with
  | field name =>
    obtain ⟨hk, rfl⟩ := List.getElem?_eq_some_iff.mp h
    rw [Frame.put, List.set_getElem_self]
  | item name =>
    rw [Frame.get] at h
    obtain ⟨a, ha, hv⟩ := Option.bind_eq_some_iff.mp h
    have hsame : Value.array (a.elems.set s.i v) = a := by
      cases a with
      | array vs =>
        obtain ⟨hi, rfl⟩ := List.getElem?_eq_some_iff.mp hv
        exact congrArg Value.array (List.set_getElem_self hi)
      | bits n => cases hv
      | enum e => cases hv
      | record vs => cases hv
    have hself : s.obj.modify (names.idxOf name) (fun a => .array (a.elems.set s.i v)) = s.obj := by
      refine List.ext_getElem? fun j => ?_
      rw [List.getElem?_modify]
      split_ifs with hj
      · rw [← hj, ha]
        exact congrArg some hsame
      · exact Option.map_id'
    rw [Frame.put, Frame.putItem, hself]

/-- The characters of a text: they end at a terminator. -/
def characters (as : List Value) : List Value := as.takeWhile fun a => !decide (a.toBits = 0)

theorem characters_start (as : List Value) : characters as <+: as := List.takeWhile_prefix _

/-- What a text is encoded as. -/
theorem textCodec_encode {size n p : ℕ} {big : Bool} (h : 0 < size ∧ n < 256 ^ p)
    (as : List Value) : (textCodec size n p big).encode (.array as) =
      (bitsCodec p big).encode (.bits (characters as).length) ++
        (characters as).flatMap (bitsCodec size big).encode := by
  rw [← Codec.encodeAll_replicate, textCodec, dif_pos h]
  rfl

theorem textCodec_array {size n p : ℕ} {big : Bool} (h : 0 < size ∧ n < 256 ^ p) {v : Value}
    (hvalid : (textCodec size n p big).Valid v) : ∃ as, v = .array as := by
  rw [textCodec, dif_pos h] at hvalid
  obtain ⟨as, rfl, -⟩ := hvalid
  exact ⟨as, rfl⟩

/-- There is room in a text only. -/
theorem textCodec_old {size n p : ℕ} {big valid : Bool} (h : 0 < size ∧ n < 256 ^ p) {v : Value} :
    (textCodec size n p big).Old valid v ↔ (textCodec size n p big).Valid v := by
  rw [textCodec, dif_pos h]
  cases valid <;> rfl

theorem textCodec_valid {size n p : ℕ} {big : Bool} (h : 0 < size ∧ n < 256 ^ p)
    {as : List Value} : (textCodec size n p big).Valid (.array as) ↔
      as.length = n ∧ ∀ a ∈ as, (bitsCodec size big).Valid a := by
  rw [textCodec, dif_pos h]
  constructor
  · rintro ⟨as', heq, hvalid⟩
    cases heq
    exact Codec.validAll_replicate.mp hvalid
  · exact fun hvalid => ⟨as, rfl, Codec.validAll_replicate.mpr hvalid⟩

/-- What is left of a text after `k` characters: a terminator if there is room for one. -/
def afterText (n k : ℕ) (old : List Value) : List Value :=
  if k < n then .bits 0 :: old.drop (k + 1) else []

/-- How a text is decoded. -/
theorem textCodec_decode {size n p : ℕ} {big : Bool} (h : 0 < size ∧ n < 256 ^ p)
    (old : List Value) : (textCodec size n p big).decode (.array old) =
      ((bitsCodec p big).decode (.bits 0)).bind fun v =>
        if n < v.toBits then .fail buffersErrorEof
        else (Codec.decodeAll (List.replicate v.toBits (bitsCodec size big)) old).map fun bs =>
          .array (bs ++ afterText n v.toBits old) := by
  have hbits : (bitsCodec p big).decode (.bits 0) =
      ((Codec.number p big : Codec UInt8 Int ℕ).decode 0).map .bits := rfl
  rw [hbits, Reader.map_bind, textCodec, dif_pos h]
  have htext : ((Codec.text (textParts size n p big h)).imap Value.array Value.elems
      fun _ => rfl).decode (.array old) =
      (((Codec.number p big : Codec UInt8 Int ℕ).decode 0).bind fun k =>
        if n < k then .fail buffersErrorEof
        else (Codec.decodeAll (List.replicate k (bitsCodec size big)) old).map fun bs =>
          bs ++ afterText n k old).map .array := rfl
  rw [htext, Reader.map, Reader.bind_assoc]
  congr 1
  funext k
  by_cases hk : n < k
  · rw [if_pos hk, if_pos (by exact hk)]
    rfl
  · rw [if_neg hk, if_neg (by exact hk)]
    exact Reader.map_map _ _ _

/-- How a text goes on after some of its characters. -/
theorem lt_characters_iff {as : List Value} {j : ℕ} (hj : j ≤ (characters as).length)
    (hlen : j < as.length) : j < (characters as).length ↔ as[j].toBits ≠ 0 := by
  induction as generalizing j with
  | nil => cases hlen
  | cons a as ih =>
    rw [characters, List.takeWhile_cons] at hj ⊢
    cases j with
    | zero => by_cases h : a.toBits = 0 <;> simp [h]
    | succ j =>
      by_cases h : a.toBits = 0
      · rw [if_neg (by simp [h])] at hj
        cases hj
      · rw [if_pos (by simp [h])] at hj ⊢
        have hj' : j ≤ (characters as).length := by
          rw [List.length_cons] at hj
          exact Nat.le_of_succ_le_succ hj
        rw [List.length_cons, Nat.add_lt_add_iff_right, List.getElem_cons_succ]
        exact ih hj' (by simpa using hlen)

/-- The loop that counts the characters of a text. -/
theorem count_triple {R : Frame σ → Prop} {E : Int → Frame σ → Prop} {vs as : List Value}
    {name var : String} {wide : Bool} {n p : ℕ}
    (hobj : ∀ s, R s → s.obj = vs) (hR : ∀ s len i, R s → R { s with len, i })
    (hget : vs[names.idxOf name]? = some (.array as)) (hn : as.length = n)
    (hint : (n : Int) ≤ intMax) (hp : n < 256 ^ p) :
    Triple (machine names env) (fun s => R s ∧ s.len = some 0 ∧ s.lenSize = p)
      (.loop (.lit n) (.acts [.breakNul name wide, .increment var]))
      ⟨fun s => R s ∧ s.len = some (characters as).length, fun _ => False, E⟩ := by
  have hle : (characters as).length ≤ n := by
    rw [← hn]
    exact (characters_start as).length_le
  refine (Triple.loop (n := n)
    (I := fun j s => R s ∧ s.len = some j ∧ s.lenSize = p ∧ j ≤ (characters as).length)
    (B := fun s => R s ∧ s.len = some (characters as).length) (E := E)
    (Q := ⟨fun _ => True, fun _ => False, E⟩) ?_ ?_ ?_ (fun _ h => h) (fun _ _ h => h)).pre ?_
  · intro s hs
    exact if_pos hint
  · rintro j hj s ⟨s₀, ⟨hs₀, hlen₀, hsize₀, hle'⟩, hcount⟩
    have hs : R s := hcount ▸ hR s₀ s₀.len j hs₀
    have hlen : s.len = some j := hcount ▸ hlen₀
    have hsize : s.lenSize = p := hcount ▸ hsize₀
    have hi : s.i = j := by rw [hcount]; rfl
    have hj' : j < as.length := by omega
    have hchar : s.get names (.item name) = some as[j] := by
      rw [Frame.get, hobj s hs, hget, hi]
      exact List.getElem?_eq_getElem hj'
    simp only [Code.acts, Code.all, List.map_cons, List.map_nil, Code.exec, machine, Stmt.exec,
      bind, Option.bind, hchar]
    by_cases hnul : as[j].toBits = 0
    · -- the text ends here
      rw [if_pos hnul]
      have heq : (characters as).length = j := by
        have hnot := mt (lt_characters_iff hle' hj').mp (by simpa using hnul)
        omega
      exact ⟨.stop, _, rfl, hs, heq ▸ hlen⟩
    · rw [if_neg hnul]
      have hlt := (lt_characters_iff hle' hj').mpr hnul
      simp only [hlen]
      refine ⟨.next, _, rfl, hR s _ s.i hs, ?_, hsize, hlt⟩
      rw [hsize, Nat.mod_eq_of_lt (by omega)]
  · rintro s ⟨hs, hlen, -, hle'⟩
    have heq : (characters as).length = n := by omega
    exact ⟨hs, heq ▸ hlen⟩
  · rintro s ⟨hs, hlen, hsize⟩
    exact ⟨hs, hlen, hsize, Nat.zero_le _⟩

end

end BuffersGenC

end HtcwFrameArq
