import HtcwFrameArq.Readers

/-!
# Codecs

A `Codec` writes a value as a list of symbols and reads it back, into a value that was there before.
What it reads is the value written up to `Same`: a reader may leave alone what a writer does not
write. What was there before need not be a value, as long as there is `Room` for one. The laws are
fields, so every codec that is built by the combinators has them.

`block` is a codec for values of a fixed size, `all` one codec for each of several values, `text` is
a list up to a terminator, with its length in front, and `imap` is a codec on another type.
-/

namespace Streams

universe u v w x

/-- A codec of the values `α`. -/
structure Codec (β : Type u) (ε : Type v) (α : Type x) : Type (max u v x) where
  Valid : α → Prop
  /-- what can be read into -/
  Room : α → Prop
  /-- what a reader makes of a value -/
  Same : α → α → Prop
  encode : α → List β
  /-- reads into a value -/
  decode : α → Reader β ε α
  /-- the largest size of a value -/
  max : ℕ
  encode_le : ∀ {a}, Valid a → (encode a).length ≤ max
  max_attained : ∀ {a}, Valid a → ∃ b, Valid b ∧ (encode b).length = max
  same_encode : ∀ {a b}, Valid a → Same a b → encode b = encode a
  room_of_valid : ∀ {a}, Valid a → Room a
  decode_ensures : ∀ {old}, Room old → (decode old).Ensures max Valid
  decode_encode : ∀ {a old}, Valid a → Room old →
    ∃ b, Same a b ∧ (decode old).Takes (encode a) b

namespace Codec

variable {β : Type u} {ε : Type v} {α : Type x}

/-- All values have the same size. -/
def Fixed (c : Codec β ε α) : Prop := ∀ a, c.Valid a → (c.encode a).length = c.max

/-- What is read is what was written. -/
def Exact (c : Codec β ε α) : Prop := ∀ a b, c.Same a b → a = b

/-- What there may be before a value is read: a `valid` value, or anything with room for one. -/
def Old (c : Codec β ε α) (valid : Bool) : α → Prop := if valid then c.Valid else c.Room

theorem old_of_valid {c : Codec β ε α} {valid : Bool} {a : α} (h : c.Valid a) : c.Old valid a := by
  cases valid with
  | true => exact h
  | false => exact c.room_of_valid h

theorem Old.room {c : Codec β ε α} {valid : Bool} {a : α} (h : c.Old valid a) : c.Room a := by
  cases valid with
  | true => exact c.room_of_valid h
  | false => exact h

/-- No value. -/
def empty : Codec β ε α where
  Valid _ := False
  Room _ := False
  Same _ _ := False
  encode _ := []
  decode a := .done a
  max := 0
  encode_le h := h.elim
  max_attained h := h.elim
  same_encode h := h.elim
  room_of_valid h := h
  decode_ensures h := h.elim
  decode_encode h := h.elim

/-- Values of the size `n`, by their symbols. -/
def block (n : ℕ) (Valid : α → Prop) (Same : α → α → Prop) (enc : α → List β)
    (dec : List β → α) (henc : ∀ {a}, Valid a → (enc a).length = n)
    (hdec : ∀ {bs : List β}, bs.length = n → Valid (dec bs))
    (hsame : ∀ {a b}, Valid a → Same a b → enc b = enc a)
    (hround : ∀ {a}, Valid a → Same a (dec (enc a))) : Codec β ε α where
  Valid := Valid
  Room _ := True
  Same := Same
  encode := enc
  decode _ := (Reader.take n).map dec
  max := n
  encode_le h := Nat.le_of_eq (henc h)
  max_attained {a} h := ⟨a, h, henc h⟩
  same_encode := hsame
  room_of_valid _ := trivial
  decode_ensures _ := (Reader.take_ensures n).map fun _ h => hdec h
  decode_encode {a _} h _ := by
    refine ⟨dec (enc a), hround h, ?_⟩
    have htakes := (@Reader.take_takes β ε (enc a)).map dec
    rwa [henc h] at htakes

theorem block_fixed {n : ℕ} {Valid : α → Prop} {Same : α → α → Prop} {enc : α → List β}
    {dec : List β → α} {henc hdec hsame hround} :
    (block n Valid Same enc dec henc hdec hsame hround : Codec β ε α).Fixed := fun _ h => henc h

theorem block_exact {n : ℕ} {Valid : α → Prop} {enc : α → List β} {dec : List β → α}
    {henc hdec hsame hround} :
    (block n Valid Eq enc dec henc hdec hsame hround : Codec β ε α).Exact := fun _ _ h => h

/-! ## Several values -/

section All

variable (cs : List (Codec β ε α))

/-- The values one after the other. -/
def encodeAll (cs : List (Codec β ε α)) (as : List α) : List β :=
  (List.zipWith (fun c a => c.encode a) cs as).flatten

/-- Reads as many values as there are codecs. -/
def decodeAll : List (Codec β ε α) → List α → Reader β ε (List α)
  | c :: cs, old :: olds => (c.decode old).bind fun a => (decodeAll cs olds).map (a :: ·)
  | _, _ => .done []

/-- Each value is one of its codec. -/
def ValidAll (cs : List (Codec β ε α)) (as : List α) : Prop :=
  List.Forall₂ (fun c a => c.Valid a) cs as

/-- There is room for a value of each codec. -/
def RoomAll (cs : List (Codec β ε α)) (as : List α) : Prop :=
  List.Forall₂ (fun c a => c.Room a) cs as

/-- Before values are read. -/
def OldAll (valid : Bool) (cs : List (Codec β ε α)) (as : List α) : Prop :=
  List.Forall₂ (fun c a => c.Old valid a) cs as

/-- Each value is the same for its codec. -/
inductive SameAll : List (Codec β ε α) → List α → List α → Prop where
  | nil : SameAll [] [] []
  | cons {c cs a b as bs} (h : c.Same a b) (hs : SameAll cs as bs) :
      SameAll (c :: cs) (a :: as) (b :: bs)

variable {cs} {as bs : List α}

theorem encodeAll_le (h : ValidAll cs as) :
    (encodeAll cs as).length ≤ (cs.map Codec.max).sum := by
  induction h with
  | nil => exact Nat.le_refl 0
  | @cons c a cs as hc _ ih =>
    rw [encodeAll, List.zipWith_cons_cons, List.flatten_cons, List.length_append, List.map_cons,
      List.sum_cons]
    exact Nat.add_le_add (c.encode_le hc) ih

theorem encodeAll_attained (h : ValidAll cs as) :
    ∃ bs, ValidAll cs bs ∧ (encodeAll cs bs).length = (cs.map Codec.max).sum := by
  induction h with
  | nil => exact ⟨[], .nil, rfl⟩
  | @cons c a cs as hc _ ih =>
    obtain ⟨b, hb, hmax⟩ := c.max_attained hc
    obtain ⟨bs, hbs, hsum⟩ := ih
    refine ⟨b :: bs, .cons hb hbs, ?_⟩
    rw [encodeAll, List.zipWith_cons_cons, List.flatten_cons, List.length_append, List.map_cons,
      List.sum_cons, hmax]
    exact congrArg (c.max + ·) hsum

theorem encodeAll_fixed (hcs : ∀ c ∈ cs, c.Fixed) (h : ValidAll cs as) :
    (encodeAll cs as).length = (cs.map Codec.max).sum := by
  induction h with
  | nil => rfl
  | @cons c a cs as hc _ ih =>
    rw [encodeAll, List.zipWith_cons_cons, List.flatten_cons, List.length_append, List.map_cons,
      List.sum_cons, hcs c List.mem_cons_self a hc]
    exact congrArg (c.max + ·) (ih fun c' hc' => hcs c' (List.mem_cons_of_mem c hc'))

theorem encodeAll_same (h : ValidAll cs as) (hs : SameAll cs as bs) :
    encodeAll cs bs = encodeAll cs as := by
  induction h generalizing bs with
  | nil =>
    cases hs
    rfl
  | @cons c a cs as hc _ ih =>
    cases hs with
    | @cons _ _ _ b _ bs hab hs =>
      rw [encodeAll, List.zipWith_cons_cons, List.flatten_cons, c.same_encode hc hab]
      exact congrArg (c.encode a ++ ·) (ih hs)

theorem roomAll_of_valid (h : ValidAll cs as) : RoomAll cs as :=
  List.Forall₂.imp (fun c _ ha => c.room_of_valid ha) h

theorem oldAll_of_valid {valid : Bool} (h : ValidAll cs as) : OldAll valid cs as :=
  List.Forall₂.imp (fun _ _ ha => old_of_valid ha) h

theorem decodeAll_ensures (h : RoomAll cs as) :
    (decodeAll cs as).Ensures (cs.map Codec.max).sum (ValidAll cs) := by
  induction h with
  | nil => exact .nil
  | @cons c a cs as hc _ ih =>
    rw [decodeAll, List.map_cons, List.sum_cons]
    exact (c.decode_ensures hc).bind fun b hb => ih.map fun bs hbs => .cons hb hbs

theorem decodeAll_encodeAll {olds : List α} (h : ValidAll cs as) (hold : RoomAll cs olds) :
    ∃ bs, SameAll cs as bs ∧ (decodeAll cs olds).Takes (encodeAll cs as) bs := by
  induction h generalizing olds with
  | nil =>
    cases hold
    exact ⟨[], .nil, rfl, rfl⟩
  | @cons c a cs as hc _ ih =>
    cases hold with
    | @cons _ old _ olds hold holds =>
      obtain ⟨b, hab, htakes⟩ := c.decode_encode hc hold
      obtain ⟨bs, hbs, htakes'⟩ := ih holds
      refine ⟨b :: bs, .cons hab hbs, ?_⟩
      rw [decodeAll, encodeAll, List.zipWith_cons_cons, List.flatten_cons]
      exact htakes.bind (htakes'.map (b :: ·))

/-- One value more. -/
theorem encodeAll_take_succ {i : ℕ} (hc : i < cs.length) (ha : i < as.length) :
    encodeAll (cs.take (i + 1)) (as.take (i + 1)) =
      encodeAll (cs.take i) (as.take i) ++ cs[i].encode as[i] := by
  rw [List.take_succ_eq_append_getElem hc, List.take_succ_eq_append_getElem ha, encodeAll,
    List.zipWith_append (by simp; omega), List.flatten_append]
  simp [encodeAll]

theorem encodeAll_take_prefix (i : ℕ) :
    encodeAll (cs.take i) (as.take i) <+: encodeAll cs as := by
  rw [encodeAll, encodeAll, ← List.take_zipWith]
  conv_rhs => rw [← List.take_append_drop i (List.zipWith _ cs as), List.flatten_append]
  exact List.prefix_append _ _

/-- One codec for each of several values. -/
def all (cs : List (Codec β ε α)) : Codec β ε (List α) where
  Valid := ValidAll cs
  Room := RoomAll cs
  Same := SameAll cs
  encode := encodeAll cs
  decode := decodeAll cs
  max := (cs.map Codec.max).sum
  encode_le := encodeAll_le
  max_attained := encodeAll_attained
  same_encode := encodeAll_same
  room_of_valid := roomAll_of_valid
  decode_ensures := decodeAll_ensures
  decode_encode := decodeAll_encodeAll

theorem sameAll_eq (h : ∀ c ∈ cs, c.Exact) (hs : SameAll cs as bs) : as = bs := by
  induction hs with
  | nil => rfl
  | @cons c cs a b as bs hab _ ih =>
    rw [h c List.mem_cons_self a b hab, ih fun c' hc' => h c' (List.mem_cons_of_mem c hc')]

theorem all_old {valid : Bool} : (all cs).Old valid as ↔ OldAll valid cs as := by
  cases valid <;> rfl

theorem all_exact (h : ∀ c ∈ cs, c.Exact) : (all cs).Exact := fun _ _ => sameAll_eq h

theorem all_fixed (h : ∀ c ∈ cs, c.Fixed) : (all cs).Fixed := fun _ => encodeAll_fixed h

end All

/-! ## Many values of one codec -/

section Replicate

variable {c : Codec β ε α} {n : ℕ} {as bs : List α}

theorem forall₂_replicate {P : Codec β ε α → α → Prop} :
    List.Forall₂ P (List.replicate n c) as ↔ as.length = n ∧ ∀ a ∈ as, P c a := by
  induction as generalizing n with
  | nil =>
    cases n with
    | zero => exact ⟨fun _ => ⟨rfl, by simp⟩, fun _ => .nil⟩
    | succ n => exact ⟨fun h => (nomatch h), fun h => absurd h.1 (by simp)⟩
  | cons a as ih =>
    cases n with
    | zero => exact ⟨fun h => (nomatch h), fun h => absurd h.1 (by simp)⟩
    | succ n =>
      rw [List.replicate_succ, List.forall₂_cons, List.length_cons, Nat.succ_inj,
        List.forall_mem_cons]
      refine Iff.trans (and_congr_right fun _ => ih) ?_
      exact and_left_comm

theorem validAll_replicate :
    ValidAll (List.replicate n c) as ↔ as.length = n ∧ ∀ a ∈ as, c.Valid a := forall₂_replicate

theorem oldAll_replicate {valid : Bool} :
    OldAll valid (List.replicate n c) as ↔ as.length = n ∧ ∀ a ∈ as, c.Old valid a :=
  forall₂_replicate

theorem encodeAll_replicate (c : Codec β ε α) (as : List α) :
    encodeAll (List.replicate as.length c) as = as.flatMap c.encode := by
  induction as with
  | nil => rfl
  | cons a as ih =>
    rw [List.length_cons, List.replicate_succ, encodeAll, List.zipWith_cons_cons, List.flatten_cons,
      List.flatMap_cons]
    exact congrArg (c.encode a ++ ·) ih

theorem Fixed.flatMap_length (h : c.Fixed) (has : ∀ a ∈ as, c.Valid a) :
    (as.flatMap c.encode).length = as.length * c.max := by
  rw [List.length_flatMap, List.map_congr_left fun a ha => h a (has a ha), List.map_const',
    List.sum_replicate_nat]

/-- Reading looks at as many old values as there are codecs. -/
theorem decodeAll_take (cs : List (Codec β ε α)) (olds : List α) :
    decodeAll cs (olds.take cs.length) = decodeAll cs olds := by
  induction cs generalizing olds with
  | nil =>
    rw [decodeAll, decodeAll]
    · simp
    · simp
  | cons c cs ih =>
    cases olds with
    | nil => rfl
    | cons old olds => rw [List.length_cons, List.take_succ_cons, decodeAll, decodeAll, ih]

end Replicate

/-! ## Text -/

/-- What a codec for a text is made of: the codec of an item and that of the length, how many items
there is room for, which items end a text and which one is put after it. -/
structure Text (β : Type u) (ε : Type v) (α : Type x) : Type (max u v x) where
  item : Codec β ε α
  count : Codec β ε ℕ
  capacity : ℕ
  stop : α → Bool
  nul : α
  tooLong : ε
  item_fixed : item.Fixed
  item_exact : item.Exact
  count_fixed : count.Fixed
  count_exact : count.Exact
  count_valid : ∀ {k}, k ≤ capacity → count.Valid k
  nul_valid : item.Valid nul
  nul_stop : stop nul = true
  exists_item : ∃ a, item.Valid a ∧ stop a = false

namespace Text

variable (T : Text β ε α)

/-- The items before the terminator. -/
def text (as : List α) : List α := as.takeWhile fun a => !T.stop a

/-- What is put after a text of `k` items. -/
def rest (k : ℕ) (old : List α) : List α :=
  if k < T.capacity then T.nul :: old.drop (k + 1) else []

/-- There is room for the text. -/
def Valid (as : List α) : Prop := ValidAll (List.replicate T.capacity T.item) as

def encode (as : List α) : List β :=
  T.count.encode (T.text as).length ++
    encodeAll (List.replicate (T.text as).length T.item) (T.text as)

def decode (old : List α) : Reader β ε (List α) :=
  (T.count.decode 0).bind fun k =>
    if T.capacity < k then .fail T.tooLong
    else (decodeAll (List.replicate k T.item) old).map (· ++ T.rest k old)

variable {T} {as bs old : List α}

theorem text_length_le (h : T.Valid as) : (T.text as).length ≤ T.capacity := by
  obtain ⟨hlen, -⟩ := validAll_replicate.mp h
  rw [← hlen]
  exact (List.takeWhile_prefix _).length_le

theorem text_valid (h : T.Valid as) :
    ValidAll (List.replicate (T.text as).length T.item) (T.text as) := by
  obtain ⟨-, hall⟩ := validAll_replicate.mp h
  exact validAll_replicate.mpr ⟨rfl, fun a ha => hall a (List.takeWhile_subset _ ha)⟩

theorem encode_length (h : T.Valid as) :
    (T.encode as).length = T.count.max + (T.text as).length * T.item.max := by
  rw [encode, List.length_append, T.count_fixed _ (T.count_valid (text_length_le h)),
    encodeAll_fixed _ (text_valid h), List.map_replicate, List.sum_replicate_nat]
  intro c hc
  rw [List.eq_of_mem_replicate hc]
  exact T.item_fixed

/-- A text without a terminator, and the terminator where there is room for it. -/
theorem text_rest {xs : List α} (hxs : ∀ a ∈ xs, T.stop a = false) (k : ℕ) :
    T.text (xs ++ T.rest k old) = xs := by
  rw [text, List.takeWhile_append_of_pos (by simpa using hxs), rest]
  split
  · rw [List.takeWhile_cons_of_neg (by simp [T.nul_stop]), List.append_nil]
  · exact List.append_nil xs

theorem rest_valid (hold : T.Valid old) {xs : List α} {k : ℕ} (hk : k ≤ T.capacity)
    (hxs : ValidAll (List.replicate k T.item) xs) : T.Valid (xs ++ T.rest k old) := by
  obtain ⟨hlen, hall⟩ := validAll_replicate.mp hold
  obtain ⟨rfl, hitems⟩ := validAll_replicate.mp hxs
  refine validAll_replicate.mpr ⟨?_, fun a ha => ?_⟩
  · rw [List.length_append, rest]
    split
    · rw [List.length_cons, List.length_drop]
      omega
    · rw [List.length_nil]
      omega
  · rcases List.mem_append.mp ha with ha | ha
    · exact hitems a ha
    · rw [rest] at ha
      split at ha
      · rcases List.mem_cons.mp ha with rfl | ha
        · exact T.nul_valid
        · exact hall a (List.mem_of_mem_drop ha)
      · cases ha

theorem old_valid (hold : T.Valid old) {k : ℕ} (hk : k ≤ T.capacity) :
    ValidAll (List.replicate k T.item) (old.take k) := by
  obtain ⟨hlen, hall⟩ := validAll_replicate.mp hold
  refine validAll_replicate.mpr ⟨?_, fun a ha => hall a (List.mem_of_mem_take ha)⟩
  rw [List.length_take, hlen]
  exact Nat.min_eq_left hk

theorem decode_ensures (hold : T.Valid old) :
    (T.decode old).Ensures (T.count.max + T.capacity * T.item.max) T.Valid := by
  refine (T.count.decode_ensures (T.count.room_of_valid (T.count_valid (Nat.zero_le _)))).bind
    fun k _ => ?_
  split
  · trivial
  · next hk =>
    have hk := Nat.le_of_not_lt hk
    have hread := decodeAll_ensures (roomAll_of_valid (old_valid hold hk))
    have htake := decodeAll_take (List.replicate k T.item) old
    rw [List.length_replicate] at htake
    rw [htake, List.map_replicate, List.sum_replicate_nat] at hread
    exact (hread.mono (Nat.mul_le_mul_right _ hk) fun _ h => h).map fun xs hxs =>
      rest_valid hold hk hxs

theorem decode_encode (h : T.Valid as) (hold : T.Valid old) :
    ∃ bs, T.text bs = T.text as ∧ (T.decode old).Takes (T.encode as) bs := by
  have hk := text_length_le h
  obtain ⟨k, hsame, hcount⟩ :=
    T.count.decode_encode (T.count_valid hk) (T.count.room_of_valid (T.count_valid (Nat.zero_le _)))
  obtain rfl := T.count_exact _ _ hsame
  obtain ⟨xs, hxs, hitems⟩ :=
    decodeAll_encodeAll (text_valid h) (roomAll_of_valid (old_valid hold hk))
  obtain rfl := sameAll_eq (fun c hc => List.eq_of_mem_replicate hc ▸ T.item_exact) hxs
  have htake := decodeAll_take (List.replicate (T.text as).length T.item) old
  rw [List.length_replicate] at htake
  rw [htake] at hitems
  refine ⟨T.text as ++ T.rest (T.text as).length old, text_rest (fun a ha => ?_) _, ?_⟩
  · have := List.mem_takeWhile_imp ha
    simpa using this
  · refine hcount.bind ?_
    rw [if_neg (Nat.not_lt.mpr hk)]
    exact hitems.map _

theorem encode_attained : ∃ as, T.Valid as ∧
    (T.encode as).length = T.count.max + T.capacity * T.item.max := by
  obtain ⟨a, ha, hstop⟩ := T.exists_item
  have hvalid : T.Valid (List.replicate T.capacity a) :=
    validAll_replicate.mpr ⟨List.length_replicate, fun b hb => List.eq_of_mem_replicate hb ▸ ha⟩
  refine ⟨_, hvalid, ?_⟩
  have htext : T.text (List.replicate T.capacity a) = List.replicate T.capacity a := by
    rw [text, List.takeWhile_eq_self_iff]
    intro b hb
    rw [List.eq_of_mem_replicate hb, hstop]
    rfl
  rw [encode_length hvalid, htext, List.length_replicate]

end Text

/-- The items of a text up to the terminator, with their number in front. What stands behind it
stays, so there is room in a text only. -/
def text (T : Text β ε α) : Codec β ε (List α) where
  Valid := T.Valid
  Room := T.Valid
  Same as bs := T.text bs = T.text as
  encode := T.encode
  decode := T.decode
  max := T.count.max + T.capacity * T.item.max
  encode_le h := by
    rw [Text.encode_length h]
    exact Nat.add_le_add_left (Nat.mul_le_mul_right _ (Text.text_length_le h)) _
  max_attained _ := Text.encode_attained
  same_encode {as bs} _ hsame := by rw [Text.encode, Text.encode, hsame]
  room_of_valid h := h
  decode_ensures := Text.decode_ensures
  decode_encode := Text.decode_encode

/-! ## Other types -/

/-- A codec on another type, of which `f` is a part. -/
def imap {γ : Type w} (c : Codec β ε α) (f : α → γ) (g : γ → α) (hgf : ∀ a, g (f a) = a) :
    Codec β ε γ where
  Valid y := ∃ a, y = f a ∧ c.Valid a
  Room y := ∃ a, y = f a ∧ c.Room a
  Same y z := ∃ a b, y = f a ∧ z = f b ∧ c.Same a b
  encode y := c.encode (g y)
  decode y := (c.decode (g y)).map f
  max := c.max
  encode_le := by
    rintro _ ⟨a, rfl, ha⟩
    rw [hgf]
    exact c.encode_le ha
  max_attained := by
    rintro _ ⟨a, rfl, ha⟩
    obtain ⟨b, hb, hmax⟩ := c.max_attained ha
    exact ⟨f b, ⟨b, rfl, hb⟩, by rw [hgf, hmax]⟩
  same_encode := by
    rintro _ _ ⟨a, hfa, ha⟩ ⟨a', b, rfl, rfl, hab⟩
    obtain rfl : a' = a := by rw [← hgf a', hfa, hgf]
    rw [hgf, hgf]
    exact c.same_encode ha hab
  room_of_valid := by
    rintro _ ⟨a, rfl, ha⟩
    exact ⟨a, rfl, c.room_of_valid ha⟩
  decode_ensures := by
    rintro _ ⟨a, rfl, ha⟩
    rw [hgf]
    exact (c.decode_ensures ha).map fun b hb => ⟨b, rfl, hb⟩
  decode_encode := by
    rintro _ _ ⟨a, rfl, ha⟩ ⟨old, rfl, hold⟩
    obtain ⟨b, hab, htakes⟩ := c.decode_encode ha hold
    rw [hgf, hgf]
    exact ⟨f b, ⟨a, b, rfl, rfl, hab⟩, htakes.map f⟩

theorem imap_old {γ : Type w} {c : Codec β ε α} {f : α → γ} {g : γ → α} {hgf : ∀ a, g (f a) = a}
    {valid : Bool} {y : γ} : (c.imap f g hgf).Old valid y ↔ ∃ a, y = f a ∧ c.Old valid a := by
  cases valid <;> rfl

theorem imap_fixed {γ : Type w} {c : Codec β ε α} (h : c.Fixed) {f : α → γ} {g : γ → α}
    {hgf : ∀ a, g (f a) = a} : (c.imap f g hgf).Fixed := by
  rintro _ ⟨a, rfl, ha⟩
  have hlen : (c.encode (g (f a))).length = c.max := by rw [hgf, h a ha]
  exact hlen

theorem imap_exact {γ : Type w} {c : Codec β ε α} (h : c.Exact) {f : α → γ} {g : γ → α}
    {hgf : ∀ a, g (f a) = a} : (c.imap f g hgf).Exact := by
  rintro _ _ ⟨a, b, rfl, rfl, hab⟩
  rw [h a b hab]

/-! ## Numbers -/

/-- The `n` lowest bytes of a number, the lowest first. -/
def lowBytes : ℕ → ℕ → List UInt8
  | 0, _ => []
  | n + 1, k => UInt8.ofNat k :: lowBytes n (k / 256)

/-- The number of some bytes, the lowest first. -/
def ofLowBytes : List UInt8 → ℕ
  | [] => 0
  | b :: bs => b.toNat + 256 * ofLowBytes bs

@[simp] theorem lowBytes_length (n k : ℕ) : (lowBytes n k).length = n := by
  induction n generalizing k with
  | zero => rfl
  | succ n ih => rw [lowBytes, List.length_cons, ih]

theorem ofLowBytes_lowBytes (n k : ℕ) : ofLowBytes (lowBytes n k) = k % 256 ^ n := by
  induction n generalizing k with
  | zero => rw [Nat.pow_zero, Nat.mod_one]; rfl
  | succ n ih =>
    rw [lowBytes, ofLowBytes, ih, UInt8.toNat_ofNat', Nat.pow_succ' (n := n), Nat.mod_mul]

theorem ofLowBytes_lt (bs : List UInt8) : ofLowBytes bs < 256 ^ bs.length := by
  induction bs with
  | nil => exact Nat.one_pos
  | cons b bs ih =>
    have hb := b.toNat_lt
    rw [ofLowBytes, List.length_cons, Nat.pow_succ']
    omega

theorem lowBytes_mod (n k : ℕ) : lowBytes n (k % 256 ^ n) = lowBytes n k := by
  induction n generalizing k with
  | zero => rfl
  | succ n ih =>
    have hlow : UInt8.ofNat (k % 256 ^ (n + 1)) = UInt8.ofNat k := by
      rw [← UInt8.toNat_inj, UInt8.toNat_ofNat', UInt8.toNat_ofNat']
      exact Nat.mod_mod_of_dvd k ⟨256 ^ n, Nat.pow_succ'⟩
    rw [lowBytes, lowBytes, hlow, Nat.pow_succ', Nat.mod_mul_right_div_self, ih]

/-- The bytes in the order of the wire. -/
def ordered (big : Bool) (bs : List UInt8) : List UInt8 := if big then bs.reverse else bs

@[simp] theorem ordered_length (big : Bool) (bs : List UInt8) :
    (ordered big bs).length = bs.length := by
  cases big
  · rfl
  · exact List.length_reverse

@[simp] theorem ordered_ordered (big : Bool) (bs : List UInt8) :
    ordered big (ordered big bs) = bs := by
  cases big
  · rfl
  · exact List.reverse_reverse bs

/-- A number of `n` bytes. -/
def number (n : ℕ) (big : Bool) : Codec UInt8 ε ℕ :=
  block n (· < 256 ^ n) Eq (fun k => ordered big (lowBytes n k))
    (fun bs => ofLowBytes (ordered big bs)) (fun _ => by simp)
    (fun {bs} h => by
      have hlt := ofLowBytes_lt (ordered big bs)
      rwa [ordered_length, h] at hlt)
    (fun _ h => by rw [h])
    (fun {k} h => by rw [ordered_ordered, ofLowBytes_lowBytes, Nat.mod_eq_of_lt h])

end Codec

end Streams
