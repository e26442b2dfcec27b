import HtcwFrameArq.WireFormat

/-!
# The support functions

`buffers.c`, which the generator emits: reading and writing scalars, byte by byte, through
callbacks. A function that reads is a `Reader`: each byte is one call of the callback, followed by
the check of its result, and `*bytes_read` is the number of bytes taken.

`Scalar.read_eq` and `Scalar.write_eq` say that they are the two sides of a codec. Whether what is
read fills an object depends on the `Platform`.
-/

namespace HtcwFrameArq

namespace BuffersGenC

open Streams

variable {σ : Type}

/-! ## Bytes -/

/-- `read_byte` -/
def readByte (cb : σ → Int × σ) (s : σ) : Except Int UInt8 × σ :=
  match cb s with
  | (b, s') =>
    if b = -1 then (.error buffersErrorEof, s')
    else if b < 0 then (.error b, s')
    else (.ok (UInt8.ofNat b.toNat), s')

/-- `write_byte` -/
def writeByte (cb : UInt8 → σ → Int × σ) (v : UInt8) (s : σ) : Int × σ :=
  match cb v s with
  | (r, s') => if r < 0 then (r, s') else (1, s')

/-- A byte of a reader. -/
def nextByte : Reader UInt8 Int UInt8 := .more .done

/-- `r = …; if (r < 0) return r; total += r;` for each of some writers, and `return total` -/
def writeEach : List (σ → Int × σ) → Int → σ → Int × σ
  | [], total, s => (total, s)
  | w :: ws, total, s =>
    match w s with
    | (r, s') => if r < 0 then (r, s') else writeEach ws (total + r) s'

/-! ## Scalars -/

/-- `buffers_read_uint16_t_le` -/
def buffersReadUint16Le : Reader UInt8 Int UInt16 :=
  nextByte.bind fun lo => nextByte.bind fun hi => .done ((hi.toUInt16 <<< 8) ||| lo.toUInt16)

/-- `buffers_read_uint16_t_be` -/
def buffersReadUint16Be : Reader UInt8 Int UInt16 :=
  nextByte.bind fun hi => nextByte.bind fun lo => .done ((hi.toUInt16 <<< 8) ||| lo.toUInt16)

/-- `buffers_read_uint32_t_le` -/
def buffersReadUint32Le : Reader UInt8 Int UInt32 :=
  nextByte.bind fun b0 => nextByte.bind fun b1 => nextByte.bind fun b2 => nextByte.bind fun b3 =>
    .done ((b3.toUInt32 <<< 24) ||| (b2.toUInt32 <<< 16) ||| (b1.toUInt32 <<< 8) ||| b0.toUInt32)

/-- `buffers_read_uint32_t_be` -/
def buffersReadUint32Be : Reader UInt8 Int UInt32 :=
  nextByte.bind fun b0 => nextByte.bind fun b1 => nextByte.bind fun b2 => nextByte.bind fun b3 =>
    .done ((b0.toUInt32 <<< 24) ||| (b1.toUInt32 <<< 16) ||| (b2.toUInt32 <<< 8) ||| b3.toUInt32)

/-- `buffers_read_uint64_t_le` -/
def buffersReadUint64Le : Reader UInt8 Int UInt64 :=
  buffersReadUint32Le.bind fun lo => buffersReadUint32Le.bind fun hi =>
    .done ((hi.toUInt64 <<< 32) ||| lo.toUInt64)

/-- `buffers_read_uint64_t_be` -/
def buffersReadUint64Be : Reader UInt8 Int UInt64 :=
  buffersReadUint32Be.bind fun hi => buffersReadUint32Be.bind fun lo =>
    .done ((hi.toUInt64 <<< 32) ||| lo.toUInt64)

/-- `buffers_read_bool` -/
def buffersReadBool : Reader UInt8 Int ℕ :=
  nextByte.bind fun tmp => .done (if tmp ≠ 0 then 1 else 0)

section

variable (cb : UInt8 → σ → Int × σ)

/-- `buffers_write_uint16_t_le` -/
def buffersWriteUint16Le (value : UInt16) : σ → Int × σ :=
  writeEach [writeByte cb value.toUInt8, writeByte cb (value >>> 8).toUInt8] 0

/-- `buffers_write_uint16_t_be` -/
def buffersWriteUint16Be (value : UInt16) : σ → Int × σ :=
  writeEach [writeByte cb (value >>> 8).toUInt8, writeByte cb value.toUInt8] 0

/-- `buffers_write_uint32_t_le` -/
def buffersWriteUint32Le (value : UInt32) : σ → Int × σ :=
  writeEach [writeByte cb value.toUInt8, writeByte cb (value >>> 8).toUInt8,
    writeByte cb (value >>> 16).toUInt8, writeByte cb (value >>> 24).toUInt8] 0

/-- `buffers_write_uint32_t_be` -/
def buffersWriteUint32Be (value : UInt32) : σ → Int × σ :=
  writeEach [writeByte cb (value >>> 24).toUInt8, writeByte cb (value >>> 16).toUInt8,
    writeByte cb (value >>> 8).toUInt8, writeByte cb value.toUInt8] 0

/-- `buffers_write_uint64_t_le` -/
def buffersWriteUint64Le (value : UInt64) : σ → Int × σ :=
  writeEach [buffersWriteUint32Le cb value.toUInt32,
    buffersWriteUint32Le cb (value >>> 32).toUInt32] 0

/-- `buffers_write_uint64_t_be` -/
def buffersWriteUint64Be (value : UInt64) : σ → Int × σ :=
  writeEach [buffersWriteUint32Be cb (value >>> 32).toUInt32,
    buffersWriteUint32Be cb value.toUInt32] 0

/-- `buffers_write_bool` -/
def buffersWriteBool (v : ℕ) : σ → Int × σ := writeByte cb (if v ≠ 0 then 1 else 0)

end

/-! ## Platforms -/

/-- The types that are as wide on every platform. -/
def exactSizes : List (String × ℕ) :=
  [("uint8_t", 1), ("uint16_t", 2), ("uint32_t", 4), ("uint64_t", 8), ("int8_t", 1),
    ("int16_t", 2), ("int32_t", 4), ("int64_t", 8), ("char", 1), ("unsigned_char", 1)]

/-- The sizes of the C types, by their names in `buffers.c`. The wire types are fixed, but a `long`,
a `size_t` or a `wchar_t` is wider on some platforms than on others. -/
class Platform where
  sizeof : String → ℕ
  exact : ∀ e ∈ exactSizes, sizeof e.1 = e.2

/-- The sizes of `ilp32`. -/
def ilp32Sizes : List (String × ℕ) :=
  exactSizes ++ [("bool", 1), ("short", 2), ("unsigned_short", 2), ("int", 4), ("unsigned_int", 4),
    ("long", 4), ("unsigned_long", 4), ("long_long", 8), ("unsigned_long_long", 8), ("float", 4),
    ("double", 8), ("wchar_t", 2), ("size_t", 4)]

/-- A platform with an `int`, a `long` and pointers of four bytes, as the ESP32 is. -/
@[reducible] def ilp32 : Platform where
  sizeof type := (ilp32Sizes.lookup type).getD 0
  exact := by decide

/-! ## The names -/

/-- How a scalar is read and written. The other functions delegate to those of an unsigned type. -/
inductive Scalar : Type where
  | byte : Scalar
  | bool : Scalar
  | half : Scalar
  | word : Scalar
  | long : Scalar
  deriving DecidableEq

/-- The functions of single bytes. -/
def singleByteNames : List (String × Scalar) :=
  [("uint8_t", .byte), ("int8_t", .byte), ("char", .byte), ("unsigned_char", .byte),
    ("bool", .bool)]

/-- The functions that come with both byte orders. -/
def multiByteNames : List (String × Scalar) :=
  [("uint16_t", .half), ("uint32_t", .word), ("uint64_t", .long), ("int16_t", .half),
    ("int32_t", .word), ("int64_t", .long), ("float", .word), ("double", .long),
    ("short", .half), ("unsigned_short", .half), ("int", .word), ("unsigned_int", .word),
    ("long", .word), ("unsigned_long", .word), ("long_long", .long),
    ("unsigned_long_long", .long), ("wchar_t", .half), ("size_t", .word)]

/-- The functions of `buffers.c` for a type: their name without `buffers_read_` and
`buffers_write_`, the type, and how its objects are read and written. -/
structure BufferFns where
  name : String
  type : String
  scalar : Scalar
  big : Bool

/-- The functions of `buffers.c`. -/
def bufferNames : List BufferFns :=
  singleByteNames.map (fun e => ⟨e.1, e.1, e.2, false⟩) ++
    multiByteNames.flatMap fun e =>
      [⟨e.1 ++ "_le", e.1, e.2, false⟩, ⟨e.1 ++ "_be", e.1, e.2, true⟩]

/-- The size of a scalar. -/
def Scalar.size : Scalar → ℕ
  | byte => 1
  | bool => 1
  | half => 2
  | word => 4
  | long => 8

/-- What a function reads. -/
def Scalar.read : Scalar → Bool → Reader UInt8 Int Value
  | byte, _ => nextByte.map fun v => .bits v.toNat
  | bool, _ => buffersReadBool.map .bits
  | half, false => buffersReadUint16Le.map fun v => .bits v.toNat
  | half, true => buffersReadUint16Be.map fun v => .bits v.toNat
  | word, false => buffersReadUint32Le.map fun v => .bits v.toNat
  | word, true => buffersReadUint32Be.map fun v => .bits v.toNat
  | long, false => buffersReadUint64Le.map fun v => .bits v.toNat
  | long, true => buffersReadUint64Be.map fun v => .bits v.toNat

/-- What a function writes. -/
def Scalar.write (cb : UInt8 → σ → Int × σ) : Scalar → Bool → Value → σ → Int × σ
  | byte, _, v => writeByte cb (UInt8.ofNat v.toBits)
  | bool, _, v => buffersWriteBool cb v.toBits
  | half, false, v => buffersWriteUint16Le cb (UInt16.ofNat v.toBits)
  | half, true, v => buffersWriteUint16Be cb (UInt16.ofNat v.toBits)
  | word, false, v => buffersWriteUint32Le cb (UInt32.ofNat v.toBits)
  | word, true, v => buffersWriteUint32Be cb (UInt32.ofNat v.toBits)
  | long, false, v => buffersWriteUint64Le cb (UInt64.ofNat v.toBits)
  | long, true, v => buffersWriteUint64Be cb (UInt64.ofNat v.toBits)

/-- What a function for a type leaves in an object when it has read `v`. A `bool` or a `size_t` is
assigned. All other objects are written as if they had the size of the wire type, through a pointer
or by `memcpy`, which is to be their size. -/
def stored [Platform] (type : String) (t : Scalar) (v : Value) : Option Value :=
  if type = "bool" then some v
  else if type = "size_t" then some (.bits (v.toBits % 256 ^ Platform.sizeof type))
  else if Platform.sizeof type = t.size then some v
  else none

/-! ## Their codecs -/

/-- The codec of a scalar. -/
def Scalar.codec : Scalar → Bool → Codec UInt8 Int Value
  | byte, big => bitsCodec 1 big
  | bool, _ => boolCodec
  | half, big => bitsCodec 2 big
  | word, big => bitsCodec 4 big
  | long, big => bitsCodec 8 big

/-- Nothing of what is read is lost in an object of the size of the wire type. -/
theorem stored_eq [Platform] {type : String} {t : Scalar} {big : Bool} {v : Value}
    (h : type = "bool" ∨ Platform.sizeof type = t.size) (hv : (t.codec big).Valid v) :
    stored type t v = some v := by
  obtain ⟨n, rfl, hn⟩ : ∃ n, v = .bits n ∧ n < 256 ^ t.size := by
    cases t with
    | bool => rcases hv with rfl | rfl <;> exact ⟨_, rfl, by decide⟩
    | _ => exact hv
  rw [stored]
  by_cases hbool : type = "bool"
  · rw [if_pos hbool]
  have hsize := h.resolve_left hbool
  rw [if_neg hbool, if_pos hsize, hsize]
  split_ifs
  · rw [Value.toBits, Nat.mod_eq_of_lt hn]
  · rfl

/-- A sink of bytes: an error of the callback refuses one. -/
def putByte (cb : UInt8 → σ → Int × σ) (v : UInt8) (s : σ) : Option Int × σ :=
  match cb v s with
  | (r, s') => if r < 0 then (some r, s') else (none, s')

/-- What a writer of some bytes returns: their number, or the first error. -/
def written (cb : UInt8 → σ → Int × σ) (bs : List UInt8) (total : Int) (s : σ) : Int × σ :=
  match push (putByte cb) bs s with
  | (none, s') => (total + bs.length, s')
  | (some e, s') => (e, s')

section Writing

variable {cb : UInt8 → σ → Int × σ}

theorem push_error_neg {bs : List UInt8} {s s' : σ} {e : Int}
    (h : push (putByte cb) bs s = (some e, s')) : e < 0 := by
  induction bs generalizing s with
  | nil => cases h
  | cons b bs ih =>
    rw [push, putByte] at h
    rcases hcb : cb b s with ⟨r, s₁⟩
    rw [hcb] at h
    dsimp only at h
    split_ifs at h with hr
    · cases h
      exact hr
    · exact ih h

/-- A callback that refuses nothing takes all bytes. -/
theorem push_accepted (haccept : ∀ b s, 0 ≤ (cb b s).1) (bs : List UInt8) (s : σ) :
    ∃ s', push (putByte cb) bs s = (none, s') := by
  induction bs generalizing s with
  | nil => exact ⟨s, rfl⟩
  | cons b bs ih =>
    have hb := haccept b s
    rw [push, putByte]
    rcases hcb : cb b s with ⟨r, s₁⟩
    rw [hcb] at hb
    dsimp only at hb ⊢
    rw [if_neg (by omega)]
    exact ih s₁

theorem writeByte_written (v : UInt8) : writeByte cb v = written cb [v] 0 := by
  funext s
  rw [writeByte, written, push, putByte]
  rcases cb v s with ⟨r, s'⟩
  dsimp only
  split_ifs <;> rfl

/-- One writer after the other. -/
theorem writeEach_written {ws : List (σ → Int × σ)} {bss : List (List UInt8)}
    (h : List.Forall₂ (fun w bs => w = written cb bs 0) ws bss) (total : Int) :
    writeEach ws total = written cb bss.flatten total := by
  funext s
  induction h generalizing total s with
  | nil =>
    rw [writeEach, List.flatten_nil, written, push, List.length_nil]
    simp
  | @cons w bs ws bss hw _ ih =>
    subst hw
    rw [writeEach, List.flatten_cons, written, written]
    rcases hpush : push (putByte cb) bs s with ⟨_ | e, s'⟩
    · rw [push_append hpush]
      dsimp only
      rw [if_neg (by omega), ih, written, List.length_append]
      rcases push (putByte cb) bss.flatten s' with ⟨_ | e, s''⟩
      · simp only [Prod.mk.injEq, and_true]
        omega
      · rfl
    · rw [push_refused hpush]
      dsimp only
      rw [if_pos (push_error_neg hpush)]

/-! ### Their bytes -/

theorem bytes_half (k : ℕ) :
    [(UInt16.ofNat k).toUInt8, (UInt16.ofNat k >>> 8).toUInt8] = Codec.lowBytes 2 k := by
  simp only [Codec.lowBytes, List.cons.injEq, and_true, ← UInt8.toNat_inj]
  simp [Nat.shiftRight_eq_div_pow]
  omega

theorem bytes_word (k : ℕ) :
    [(UInt32.ofNat k).toUInt8, (UInt32.ofNat k >>> 8).toUInt8, (UInt32.ofNat k >>> 16).toUInt8,
      (UInt32.ofNat k >>> 24).toUInt8] = Codec.lowBytes 4 k := by
  simp only [Codec.lowBytes, List.cons.injEq, and_true, ← UInt8.toNat_inj]
  simp [Nat.shiftRight_eq_div_pow]
  omega

theorem lowBytes_append (m n k : ℕ) :
    Codec.lowBytes m k ++ Codec.lowBytes n (k / 256 ^ m) = Codec.lowBytes (m + n) k := by
  induction m generalizing k with
  | zero => rw [Codec.lowBytes, Nat.pow_zero, Nat.div_one, List.nil_append, Nat.zero_add]
  | succ m ih =>
    rw [Nat.add_right_comm, Codec.lowBytes, Codec.lowBytes, List.cons_append, Nat.pow_succ',
      ← Nat.div_div_eq_div_mul, ih]

theorem long_low (k : ℕ) : (UInt64.ofNat k).toUInt32 = UInt32.ofNat k := by
  rw [← UInt32.toNat_inj]
  simp

theorem long_high (k : ℕ) :
    Codec.lowBytes 4 (UInt64.ofNat k >>> 32).toUInt32.toNat = Codec.lowBytes 4 (k / 256 ^ 4) := by
  have hnat : (UInt64.ofNat k >>> 32).toUInt32.toNat = k / 256 ^ 4 % 256 ^ 4 := by
    simp [Nat.shiftRight_eq_div_pow]
    omega
  rw [hnat, Codec.lowBytes_mod]

theorem written_half (cb : UInt8 → σ → Int × σ) (k : ℕ) : buffersWriteUint16Le cb (UInt16.ofNat k) =
    written cb (Codec.lowBytes 2 k) 0 := by
  rw [← bytes_half]
  exact writeEach_written (.cons (writeByte_written _) (.cons (writeByte_written _) .nil)) 0

theorem written_half_be (cb : UInt8 → σ → Int × σ) (k : ℕ) :
    buffersWriteUint16Be cb (UInt16.ofNat k) =
    written cb (Codec.lowBytes 2 k).reverse 0 := by
  rw [← bytes_half]
  exact writeEach_written (.cons (writeByte_written _) (.cons (writeByte_written _) .nil)) 0

theorem written_word (cb : UInt8 → σ → Int × σ) (k : ℕ) : buffersWriteUint32Le cb (UInt32.ofNat k) =
    written cb (Codec.lowBytes 4 k) 0 := by
  rw [← bytes_word]
  exact writeEach_written (.cons (writeByte_written _) (.cons (writeByte_written _)
    (.cons (writeByte_written _) (.cons (writeByte_written _) .nil)))) 0

theorem written_word_be (cb : UInt8 → σ → Int × σ) (k : ℕ) :
    buffersWriteUint32Be cb (UInt32.ofNat k) =
    written cb (Codec.lowBytes 4 k).reverse 0 := by
  rw [← bytes_word]
  exact writeEach_written (.cons (writeByte_written _) (.cons (writeByte_written _)
    (.cons (writeByte_written _) (.cons (writeByte_written _) .nil)))) 0

theorem written_long (cb : UInt8 → σ → Int × σ) (k : ℕ) : buffersWriteUint64Le cb (UInt64.ofNat k) =
    written cb (Codec.lowBytes 8 k) 0 := by
  have hhigh := written_word cb (UInt64.ofNat k >>> 32).toUInt32.toNat
  rw [long_high, UInt32.ofNat_toNat] at hhigh
  have hlow := written_word cb k
  rw [← long_low] at hlow
  rw [← lowBytes_append 4 4 k]
  have heach := writeEach_written (.cons hlow (.cons hhigh .nil)) 0
  rwa [List.flatten_cons, List.flatten_cons, List.flatten_nil, List.append_nil] at heach

theorem written_long_be (cb : UInt8 → σ → Int × σ) (k : ℕ) :
    buffersWriteUint64Be cb (UInt64.ofNat k) =
    written cb (Codec.lowBytes 8 k).reverse 0 := by
  have hhigh := written_word_be cb (UInt64.ofNat k >>> 32).toUInt32.toNat
  rw [long_high, UInt32.ofNat_toNat] at hhigh
  have hlow := written_word_be cb k
  rw [← long_low] at hlow
  rw [← lowBytes_append 4 4 k, List.reverse_append]
  have heach := writeEach_written (.cons hhigh (.cons hlow .nil)) 0
  rwa [List.flatten_cons, List.flatten_cons, List.flatten_nil, List.append_nil] at heach

/-- **What a scalar function writes** is what its codec encodes. -/
theorem Scalar.write_eq (t : Scalar) (big : Bool) (v : Value) :
    t.write cb big v = written cb ((t.codec big).encode v) 0 := by
  cases t with
  | byte => cases big <;> exact writeByte_written _
  | bool => exact writeByte_written _
  | half =>
    cases big with
    | false => exact written_half cb _
    | true => exact written_half_be cb _
  | word =>
    cases big with
    | false => exact written_word cb _
    | true => exact written_word_be cb _
  | long =>
    cases big with
    | false => exact written_long cb _
    | true => exact written_long_be cb _

end Writing

/-! ### Reading -/

theorem shift_or (hi lo k : ℕ) (h : lo < 2 ^ k) : (hi <<< k) ||| lo = hi * 2 ^ k + lo := by
  rw [← Nat.shiftLeft_add_eq_or_of_lt h, Nat.shiftLeft_eq]

theorem toNat_half (lo hi : UInt8) :
    (hi.toUInt16 <<< 8 ||| lo.toUInt16).toNat = Codec.ofLowBytes [lo, hi] := by
  have hlo := lo.toNat_lt
  have hhi := hi.toNat_lt
  simp only [UInt16.toNat_or, UInt16.toNat_shiftLeft, UInt8.toNat_toUInt16, Codec.ofLowBytes]
  simp
  rw [Nat.mod_eq_of_lt, shift_or _ _ 8 (by omega)]
  · omega
  · rw [Nat.shiftLeft_eq]
    omega

theorem toNat_word (b0 b1 b2 b3 : UInt8) :
    ((b3.toUInt32 <<< 24) ||| (b2.toUInt32 <<< 16) ||| (b1.toUInt32 <<< 8) |||
      b0.toUInt32).toNat = Codec.ofLowBytes [b0, b1, b2, b3] := by
  have h0 := b0.toNat_lt
  have h1 := b1.toNat_lt
  have h2 := b2.toNat_lt
  have h3 := b3.toNat_lt
  simp only [UInt32.toNat_or, UInt32.toNat_shiftLeft, UInt8.toNat_toUInt32, Codec.ofLowBytes]
  simp
  rw [Nat.mod_eq_of_lt, Nat.mod_eq_of_lt, Nat.mod_eq_of_lt, Nat.or_assoc, Nat.or_assoc,
    shift_or _ _ 8 (by omega), shift_or _ _ 16 (by omega), shift_or _ _ 24 (by omega)]
  · omega
  all_goals
    rw [Nat.shiftLeft_eq]
    omega

theorem toNat_long (lo hi : UInt32) :
    (hi.toUInt64 <<< 32 ||| lo.toUInt64).toNat = lo.toNat + 256 ^ 4 * hi.toNat := by
  have hlo := lo.toNat_lt
  have hhi := hi.toNat_lt
  simp only [UInt64.toNat_or, UInt64.toNat_shiftLeft, UInt32.toNat_toUInt64]
  simp
  rw [Nat.mod_eq_of_lt, shift_or _ _ 32 (by omega)]
  · omega
  · rw [Nat.shiftLeft_eq]
    omega

/-- Two readers of a byte are the same if they go on in the same way. -/
theorem more_congr {α : Type} {p q : UInt8 → Reader UInt8 Int α} (h : ∀ b, p b = q b) :
    Reader.more p = Reader.more q := congrArg Reader.more (funext h)

theorem done_bits {j k : ℕ} (h : j = k) :
    (Reader.done (.bits j) : Reader UInt8 Int Value) = .done (.bits k) := by rw [h]

theorem ofLowBytes_four_four (b0 b1 b2 b3 b4 b5 b6 b7 : UInt8) :
    Codec.ofLowBytes [b0, b1, b2, b3] + 256 ^ 4 * Codec.ofLowBytes [b4, b5, b6, b7] =
      Codec.ofLowBytes [b0, b1, b2, b3, b4, b5, b6, b7] := by
  simp only [Codec.ofLowBytes]
  omega

/-- **What a scalar function reads** is what its codec decodes. -/
theorem Scalar.read_eq (t : Scalar) (big : Bool) (old : Value) :
    t.read big = (t.codec big).decode old := by
  cases t with
  | byte =>
    cases big <;> exact more_congr fun b => done_bits (Nat.add_zero _).symm
  | bool => exact more_congr fun b => rfl
  | half =>
    cases big with
    | false => exact more_congr fun lo => more_congr fun hi => done_bits (toNat_half lo hi)
    | true => exact more_congr fun hi => more_congr fun lo => done_bits (toNat_half lo hi)
  | word =>
    cases big with
    | false =>
      exact more_congr fun b0 => more_congr fun b1 => more_congr fun b2 => more_congr fun b3 =>
        done_bits (toNat_word b0 b1 b2 b3)
    | true =>
      exact more_congr fun b0 => more_congr fun b1 => more_congr fun b2 => more_congr fun b3 =>
        done_bits (toNat_word b3 b2 b1 b0)
  | long =>
    cases big with
    | false =>
      refine more_congr fun b0 => more_congr fun b1 => more_congr fun b2 => more_congr fun b3 =>
        more_congr fun b4 => more_congr fun b5 => more_congr fun b6 => more_congr fun b7 =>
        done_bits ?_
      rw [toNat_long, toNat_word, toNat_word]
      exact ofLowBytes_four_four b0 b1 b2 b3 b4 b5 b6 b7
    | true =>
      refine more_congr fun b7 => more_congr fun b6 => more_congr fun b5 => more_congr fun b4 =>
        more_congr fun b3 => more_congr fun b2 => more_congr fun b1 => more_congr fun b0 =>
        done_bits ?_
      rw [toNat_long, toNat_word, toNat_word]
      exact ofLowBytes_four_four b0 b1 b2 b3 b4 b5 b6 b7

theorem readByte_neg {cb : σ → Int × σ} {s s' : σ} {e : Int}
    (h : readByte cb s = (.error e, s')) : e < 0 := by
  rw [readByte] at h
  rcases cb s with ⟨b, s₁⟩
  dsimp only at h
  split_ifs at h with heof hneg
  · cases h
    decide
  · cases h
    exact hneg
  · cases h

/-- A scalar fails only if the callback does. -/
theorem Scalar.codec_fails (t : Scalar) (big : Bool) (old : Value) (P : Int → Prop) :
    ((t.codec big).decode old).Fails P := by
  cases t with
  | bool => exact (Reader.take_fails 1 P).map _
  | byte => exact ((Reader.take_fails 1 P).map _).map _
  | half => exact ((Reader.take_fails 2 P).map _).map _
  | word => exact ((Reader.take_fails 4 P).map _).map _
  | long => exact ((Reader.take_fails 8 P).map _).map _

end BuffersGenC

end HtcwFrameArq
