import HtcwFrameArq.Header

/-!
# Wire sizes

`wire_size_of` and `struct_wire_size` compute how many bytes a field and a struct can take, and stop
with an error when a struct contains itself. The recursion is over the structs that are being
visited; the model counts its depth. `structWireSize_isOk_iff` says when there is a size: the
recursion is never too deep, and it ends with a number exactly if no struct that the struct contains
contains itself, every type has a size, and no text is too long for its prefix.
-/

namespace HtcwFrameArq

namespace BuffersGenC

/-- `_field_is_string` -/
def fieldIsString (f : Field) : Bool :=
  f.arrayLen.isSome && decide (f.type ∈ ["char", "wchar_t"])

/-- Why there is no size: an error of the script, or a recursion that is too deep. -/
inductive SizeError : Type where
  | exit (msg : String) : SizeError
  | depth : SizeError
  deriving DecidableEq

/-- An error of the script. -/
def orExit {α : Type} : Except String α → Except SizeError α
  | .ok a => .ok a
  | .error msg => .error (.exit msg)

/-- The first part of `wire_size_of`: the size of one element, where `nested` is the size of a
struct. It gets the structs that are being visited. -/
def elementSize (structs : Structs) (nested : String → List String → Except SizeError ℕ)
    (visiting : List String) (wireType : String) : Except SizeError ℕ :=
  match wireTypeSizes.lookup wireType with
  | some n => .ok n
  | none =>
    if wireType ∈ structs.map Prod.fst then
      if wireType ∈ visiting then
        .error (.exit s!"Circular struct reference detected involving '{wireType}'")
      else nested wireType (visiting ++ [wireType])
    else .error (.exit s!"Cannot determine wire size for type '{wireType}'")

/-- `wire_size_of` -/
def wireSizeOf (structs : Structs) (fixedMode : Bool)
    (nested : String → List String → Except SizeError ℕ) (visiting : List String) (f : Field) :
    Except SizeError ℕ := do
  let elementSize ← elementSize structs nested visiting f.wireType
  let size := elementSize * f.arrayLen.getD 1
  if fixedMode = false ∧ fieldIsString f = true then do
    let prefixSize ← orExit (lengthPrefixSize (f.arrayLen.getD 0))
    .ok (size + prefixSize)
  else .ok size

/-- The sum of sizes. -/
def sumSizes : List (Except SizeError ℕ) → Except SizeError ℕ
  | [] => .ok 0
  | x :: xs => do
    let n ← x
    let rest ← sumSizes xs
    .ok (n + rest)

/-- The fields of a struct. -/
def Structs.fields (structs : Structs) (name : String) : List Field :=
  (structs.lookup name).getD []

/-- `struct_wire_size`, to a depth. -/
def structWireSize (structs : Structs) (fixedMode : Bool) :
    ℕ → String → List String → Except SizeError ℕ
  | 0, _, _ => .error .depth
  | depth + 1, name, visiting =>
    sumSizes ((structs.fields name).map
      (wireSizeOf structs fixedMode (structWireSize structs fixedMode depth) visiting))

/-- A depth that is enough. -/
def Structs.depth (structs : Structs) : ℕ := structs.length + 1

/-- `struct_wire_size`, as it is called. -/
def Structs.size (structs : Structs) (fixedMode : Bool) (name : String) : Except SizeError ℕ :=
  structWireSize structs fixedMode structs.depth name []

/-- The largest of some sizes. -/
def maxSizes : List (Except SizeError ℕ) → Except SizeError ℕ
  | [] => .ok 0
  | x :: xs => do
    let n ← x
    let rest ← maxSizes xs
    .ok (max n rest)

/-- `compute_max_wire_size` -/
def computeMaxWireSize (structs : Structs) (fixedMode : Bool) : Except SizeError ℕ :=
  maxSizes (structs.map fun s => structs.size fixedMode s.1)

/-! ## When there is a size -/

/-- The struct `a` has a field that is a struct `b`, or an array of them. -/
def Structs.Contains (structs : Structs) (a b : String) : Prop :=
  ∃ f ∈ structs.fields a, f.wireType = b ∧ wireTypeSizes.lookup b = none ∧
    b ∈ structs.map Prod.fst

/-- A field has a size if its type has one: the type is known, and a text is not too long. -/
def Sized (structs : Structs) (fixedMode : Bool) (f : Field) : Prop :=
  (wireTypeSizes.lookup f.wireType = none → f.wireType ∈ structs.map Prod.fst) ∧
    (fixedMode = false → fieldIsString f = true → f.arrayLen.getD 0 ≤ 0xFFFFFFFF)

section

variable {structs : Structs} {fixedMode : Bool} {nested : String → List String → Except SizeError ℕ}
  {visiting : List String} {f : Field}

theorem sumSizes_ok_iff {xs : List (Except SizeError ℕ)} {n : ℕ} :
    sumSizes xs = .ok n ↔ ∃ ns, List.Forall₂ (fun x k => x = .ok k) xs ns ∧ ns.sum = n := by
  induction xs generalizing n with
  | nil =>
    constructor
    · rintro ⟨⟩
      exact ⟨[], .nil, rfl⟩
    · rintro ⟨ns, h, rfl⟩
      cases h
      rfl
  | cons x xs ih =>
    constructor
    · intro h
      rw [sumSizes] at h
      rcases x with e | k
      · cases h
      · rcases hrest : sumSizes xs with e | m
        · rw [hrest] at h
          cases h
        · rw [hrest] at h
          cases h
          obtain ⟨ns, hns, rfl⟩ := ih.mp hrest
          exact ⟨k :: ns, .cons rfl hns, rfl⟩
    · rintro ⟨ns, h, rfl⟩
      cases h with
      | @cons _ k _ ns hx hns =>
        subst hx
        rw [sumSizes, ih.mpr ⟨ns, hns, rfl⟩]
        rfl

/-- There is a sum if each of the sizes exists. -/
theorem sumSizes_exists {xs : List (Except SizeError ℕ)} :
    (∃ n, sumSizes xs = .ok n) ↔ ∀ x ∈ xs, ∃ n, x = .ok n := by
  constructor
  · rintro ⟨n, h⟩
    obtain ⟨ns, hns, -⟩ := sumSizes_ok_iff.mp h
    clear h
    induction hns with
    | nil => simp
    | cons hx _ ih => exact List.forall_mem_cons.mpr ⟨⟨_, hx⟩, ih⟩
  · intro h
    induction xs with
    | nil => exact ⟨0, rfl⟩
    | cons x xs ih =>
      obtain ⟨⟨k, rfl⟩, hxs⟩ := List.forall_mem_cons.mp h
      obtain ⟨m, hm⟩ := ih hxs
      exact ⟨k + m, by rw [sumSizes, hm]; rfl⟩

theorem lengthPrefixSize_ok_iff {n : ℕ} :
    (∃ k, orExit (lengthPrefixSize n) = .ok k) ↔ n ≤ 0xFFFFFFFF := by
  rw [lengthPrefixSize, lengthPrefixType]
  constructor
  · rintro ⟨k, h⟩
    split_ifs at h with h₁ h₂ h₃
    · omega
    · omega
    · exact h₃
    · cases h
  · intro hn
    split_ifs <;> exact ⟨_, rfl⟩

/-- What the size of a field is made of. -/
theorem wireSizeOf_ok_iff {n : ℕ} :
    wireSizeOf structs fixedMode nested visiting f = .ok n ↔
      ∃ e p, elementSize structs nested visiting f.wireType = .ok e ∧
        (if fixedMode = false ∧ fieldIsString f = true then
          orExit (lengthPrefixSize (f.arrayLen.getD 0)) = .ok p else p = 0) ∧
        n = e * f.arrayLen.getD 1 + p := by
  rw [wireSizeOf]
  rcases helem : elementSize structs nested visiting f.wireType with err | e
  · constructor
    · intro h
      cases h
    · rintro ⟨e, p, h, -⟩
      cases h
  · by_cases hpre : fixedMode = false ∧ fieldIsString f = true
    · simp only [if_pos hpre]
      rcases hp : orExit (lengthPrefixSize (f.arrayLen.getD 0)) with err | p
      · constructor
        · intro h
          cases h
        · rintro ⟨_, p, -, h, -⟩
          cases h
      · constructor
        · intro h
          cases h
          exact ⟨e, p, rfl, rfl, rfl⟩
        · rintro ⟨_, _, h, h', rfl⟩
          cases h
          cases h'
          rfl
    · simp only [if_neg hpre]
      constructor
      · intro h
        cases h
        exact ⟨e, 0, rfl, rfl, rfl⟩
      · rintro ⟨_, _, h, rfl, rfl⟩
        cases h
        rfl

/-- Where a size of an element comes from. -/
theorem elementSize_ok {wt : String} {e : ℕ}
    (h : elementSize structs nested visiting wt = .ok e) :
    wireTypeSizes.lookup wt = some e ∨
      wireTypeSizes.lookup wt = none ∧ wt ∈ structs.map Prod.fst ∧ wt ∉ visiting ∧
        nested wt (visiting ++ [wt]) = .ok e := by
  rw [elementSize] at h
  split at h
  · next n hn =>
    cases h
    exact .inl hn
  · next hnone =>
    split_ifs at h with hmem hvisit
    exact .inr ⟨hnone, hmem, hvisit, h⟩

end

/-- **A size that is computed** is that of a struct that contains no circle, and whose fields have
sizes. -/
theorem structWireSize_ok {structs : Structs} {fixedMode : Bool} {depth : ℕ} {name : String}
    {visiting : List String} {n : ℕ}
    (h : structWireSize structs fixedMode depth name visiting = .ok n) :
    Acc (fun b a => structs.Contains a b) name ∧
      ∀ a, Relation.ReflTransGen structs.Contains name a →
        ∀ f ∈ structs.fields a, Sized structs fixedMode f := by
  induction depth generalizing name visiting n with
  | zero => cases h
  | succ depth ih =>
    rw [structWireSize] at h
    have hfield (f : Field) (hf : f ∈ structs.fields name) :
        ∃ k, wireSizeOf structs fixedMode (structWireSize structs fixedMode depth) visiting f =
          .ok k := sumSizes_exists.mp ⟨n, h⟩ _ (List.mem_map_of_mem hf)
    have hnested (b : String) (hb : structs.Contains name b) :
        ∃ k, structWireSize structs fixedMode depth b (visiting ++ [b]) = .ok k := by
      obtain ⟨f, hf, rfl, hnone, -⟩ := hb
      obtain ⟨k, hk⟩ := hfield f hf
      obtain ⟨e, -, helem, -⟩ := wireSizeOf_ok_iff.mp hk
      rcases elementSize_ok helem with hsome | ⟨-, -, -, hsize⟩
      · rw [hnone] at hsome
        cases hsome
      · exact ⟨e, hsize⟩
    refine ⟨⟨name, fun b hb => ?_⟩, fun a ha => ?_⟩
    · obtain ⟨k, hk⟩ := hnested b hb
      exact (ih hk).1
    · rcases ha.cases_head with rfl | ⟨b, hb, hba⟩
      · intro f hf
        obtain ⟨k, hk⟩ := hfield f hf
        obtain ⟨e, p, helem, hp, -⟩ := wireSizeOf_ok_iff.mp hk
        refine ⟨fun hnone => ?_, fun hmode htext => ?_⟩
        · rcases elementSize_ok helem with hsome | ⟨-, hmem, -⟩
          · rw [hnone] at hsome
            cases hsome
          · exact hmem
        · rw [if_pos ⟨hmode, htext⟩] at hp
          exact lengthPrefixSize_ok_iff.mp ⟨p, hp⟩
      · obtain ⟨k, hk⟩ := hnested b hb
        exact (ih hk).2 a hba

/-- **A size is computed** if there is no circle and the fields have sizes: the structs that are
being visited contain each other, so there are never more of them than structs. -/
theorem structWireSize_exists {structs : Structs} {fixedMode : Bool} {depth : ℕ} {name : String}
    {visiting : List String}
    (hvisit : ∀ v ∈ visiting, Relation.ReflTransGen structs.Contains v name)
    (hnodup : visiting.Nodup) (hsub : visiting ⊆ structs.map Prod.fst)
    (hdepth : structs.length < depth + visiting.length)
    (hcircle : ∀ a, Relation.ReflTransGen structs.Contains name a →
      ¬ Relation.TransGen structs.Contains a a)
    (hsized : ∀ a, Relation.ReflTransGen structs.Contains name a →
      ∀ f ∈ structs.fields a, Sized structs fixedMode f) :
    ∃ n, structWireSize structs fixedMode depth name visiting = .ok n := by
  induction depth generalizing name visiting with
  | zero =>
    have hle := (hnodup.subperm hsub).length_le
    rw [List.length_map] at hle
    omega
  | succ depth ih =>
    rw [structWireSize, sumSizes_exists, List.forall_mem_map]
    intro f hf
    obtain ⟨hknown, htext⟩ := hsized name .refl f hf
    obtain ⟨e, he⟩ : ∃ e, elementSize structs (structWireSize structs fixedMode depth) visiting
        f.wireType = .ok e := by
      rw [elementSize]
      split
      · exact ⟨_, rfl⟩
      · next hnone =>
        have hmem := hknown hnone
        have hcontains : structs.Contains name f.wireType := ⟨f, hf, rfl, hnone, hmem⟩
        have hnot : f.wireType ∉ visiting := fun hv =>
          hcircle name .refl (Relation.TransGen.head' hcontains (hvisit _ hv))
        rw [if_pos hmem, if_neg hnot]
        refine ih ?_ ?_ ?_ ?_ (fun a ha => hcircle a (.head hcontains ha))
          (fun a ha => hsized a (.head hcontains ha))
        · intro v hv
          rcases List.mem_append.mp hv with hv | hv
          · exact (hvisit v hv).tail hcontains
          · rw [List.mem_singleton.mp hv]
        · exact List.nodup_append.mpr ⟨hnodup, List.nodup_singleton _, by
            intro v hv w hw
            rw [List.mem_singleton.mp hw]
            rintro rfl
            exact hnot hv⟩
        · exact List.append_subset.mpr ⟨hsub, by simpa using hmem⟩
        · rw [List.length_append, List.length_singleton]
          omega
    by_cases hpre : fixedMode = false ∧ fieldIsString f = true
    · obtain ⟨p, hp⟩ := lengthPrefixSize_ok_iff.mpr (htext hpre.1 hpre.2)
      exact ⟨_, wireSizeOf_ok_iff.mpr ⟨e, p, he, by rw [if_pos hpre]; exact hp, rfl⟩⟩
    · exact ⟨_, wireSizeOf_ok_iff.mpr ⟨e, 0, he, by rw [if_neg hpre], rfl⟩⟩

/-- **When there is a size**: no struct that the struct contains contains itself, and all its fields
have sizes. -/
theorem Structs.size_exists_iff (structs : Structs) (fixedMode : Bool) (name : String) :
    (∃ n, structs.size fixedMode name = .ok n) ↔
      ∀ a, Relation.ReflTransGen structs.Contains name a →
        ¬ Relation.TransGen structs.Contains a a ∧
          ∀ f ∈ structs.fields a, Sized structs fixedMode f := by
  constructor
  · rintro ⟨n, h⟩ a ha
    obtain ⟨hacc, hsized⟩ := structWireSize_ok h
    refine ⟨?_, hsized a ha⟩
    clear h hsized
    -- a circle would go on for ever
    induction hacc with
    | intro name _ ih =>
      intro hloop
      rcases ha.cases_head with rfl | ⟨b, hb, hba⟩
      · obtain ⟨b, hb, hback⟩ := Relation.TransGen.head'_iff.mp hloop
        exact ih b hb hback hloop
      · exact ih b hb hba hloop
  · intro h
    exact structWireSize_exists (by simp) List.nodup_nil (by simp)
      (by rw [Structs.depth]; exact Nat.lt_succ_self _) (fun a ha => (h a ha).1)
      (fun a ha => (h a ha).2)

end BuffersGenC

end HtcwFrameArq
