import Mathlib.Data.Int.Order.Basic
import Mathlib.Order.MinMax
import HtcwFrameArq.WireFormat

/-!
# Wire types of enums

`parse_enums` picks a wire type from the smallest and the largest enumerator. If any wire type can
hold all the enumerators, that one can, and none that can is smaller.
-/

namespace HtcwFrameArq

namespace BuffersGenC

/-! ## One range -/

/-- The size of each wire type, its smallest and its largest value. -/
def wireRanges : List (String × ℕ × Int × Int) :=
  [("uint8_t", 1, 0, 0xFF), ("uint16_t", 2, 0, 0xFFFF), ("uint32_t", 4, 0, 0xFFFFFFFF),
    ("uint64_t", 8, 0, 0xFFFFFFFFFFFFFFFF), ("int8_t", 1, -128, 127),
    ("int16_t", 2, -32768, 32767), ("int32_t", 4, -2147483648, 2147483647),
    ("int64_t", 8, -9223372036854775808, 9223372036854775807)]

theorem mem_wireRanges {r : String × ℕ × Int × Int} (h : r ∈ wireRanges) :
    wireSize r.1 = r.2.1 ∧ ∀ e, InRange r.1 e ↔ r.2.2.1 ≤ e ∧ e ≤ r.2.2.2 := by
  have hall : ∀ r ∈ wireRanges, wireSize r.1 = r.2.1 ∧
      if r.1 ∈ signedWireTypes
      then 2 * r.2.2.1 = -(256 ^ r.2.1 : ℕ) ∧ 2 * r.2.2.2 = (256 ^ r.2.1 : ℕ) - 2
      else r.2.2.1 = 0 ∧ r.2.2.2 = (256 ^ r.2.1 : ℕ) - 1 := by decide
  obtain ⟨hsize, hbounds⟩ := hall r h
  refine ⟨hsize, fun e => ?_⟩
  rw [InRange, hsize]
  split_ifs at hbounds ⊢ <;> omega

/-- The wire type of a range is one that holds it, and the smallest of those. -/
theorem enumWireType_least {lo hi : Int} {r : String × ℕ × Int × Int}
    (hr : r ∈ wireRanges) (hlo : r.2.2.1 ≤ lo) (hhi : hi ≤ r.2.2.2) :
    ∃ r' ∈ wireRanges, enumWireType lo hi = r'.1 ∧ r'.2.2.1 ≤ lo ∧ hi ≤ r'.2.2.2 ∧
      r'.2.1 ≤ r.2.1 := by
  -- what the sizes of the wire types are for
  have hsize : (r.2.1 = 1 ∧ (0 ≤ lo ∧ hi ≤ 0xFF ∨ -128 ≤ lo ∧ hi ≤ 127)) ∨
      (r.2.1 = 2 ∧ (0 ≤ lo ∧ hi ≤ 0xFFFF ∨ -32768 ≤ lo ∧ hi ≤ 32767)) ∨
      (r.2.1 = 4 ∧ (0 ≤ lo ∧ hi ≤ 0xFFFFFFFF ∨ -2147483648 ≤ lo ∧ hi ≤ 2147483647)) ∨
      r.2.1 = 8 ∧ (0 ≤ lo ∧ hi ≤ 0xFFFFFFFFFFFFFFFF ∨
        -9223372036854775808 ≤ lo ∧ hi ≤ 9223372036854775807) := by
    simp only [wireRanges, List.mem_cons, List.not_mem_nil, or_false] at hr
    rcases hr with rfl | rfl | rfl | rfl | rfl | rfl | rfl | rfl <;> dsimp only at hlo hhi ⊢ <;>
      omega
  have hpick (r' : String × ℕ × Int × Int) (hmem : r' ∈ wireRanges)
      (hbounds : r'.2.2.1 ≤ lo ∧ hi ≤ r'.2.2.2 ∧ r'.2.1 ≤ r.2.1) :
      ∃ r'' ∈ wireRanges, r'.1 = r''.1 ∧ r''.2.2.1 ≤ lo ∧ hi ≤ r''.2.2.2 ∧ r''.2.1 ≤ r.2.1 :=
    ⟨r', hmem, rfl, hbounds⟩
  rw [enumWireType]
  split_ifs with hsign h₁ h₂ h₃ h₁ h₂ h₃
  · exact hpick ("uint8_t", 1, 0, 0xFF) (by decide) (by dsimp only; omega)
  · exact hpick ("uint16_t", 2, 0, 0xFFFF) (by decide) (by dsimp only; omega)
  · exact hpick ("uint32_t", 4, 0, 0xFFFFFFFF) (by decide) (by dsimp only; omega)
  · exact hpick ("uint64_t", 8, 0, 0xFFFFFFFFFFFFFFFF) (by decide) (by dsimp only; omega)
  · exact hpick ("int8_t", 1, -128, 127) (by decide) (by dsimp only; omega)
  · exact hpick ("int16_t", 2, -32768, 32767) (by decide) (by dsimp only; omega)
  · exact hpick ("int32_t", 4, -2147483648, 2147483647) (by decide) (by dsimp only; omega)
  · exact hpick ("int64_t", 8, -9223372036854775808, 9223372036854775807) (by decide)
      (by dsimp only; omega)

/-! ## The enums of a header -/

/-- The bounds of some values are two of them. -/
theorem minMax_spec (v : Int) (vs : List Int) :
    (minMax v vs).1 ∈ v :: vs ∧ (minMax v vs).2 ∈ v :: vs ∧
      ∀ e ∈ v :: vs, (minMax v vs).1 ≤ e ∧ e ≤ (minMax v vs).2 := by
  induction vs using List.reverseRecOn with
  | nil => simp [minMax]
  | append_singleton vs w ih =>
    obtain ⟨hmin, hmax, hall⟩ := ih
    have hmin' : (minMax v (vs ++ [w])).1 = min (minMax v vs).1 w := by simp [minMax]
    have hmax' : (minMax v (vs ++ [w])).2 = max (minMax v vs).2 w := by simp [minMax]
    have hmem {e : Int} : e ∈ v :: (vs ++ [w]) ↔ e ∈ v :: vs ∨ e = w := by simp [or_assoc]
    rw [hmin', hmax', hmem, hmem]
    refine ⟨?_, ?_, fun e he => ?_⟩
    · rcases min_choice (minMax v vs).1 w with h | h
      · rw [h]
        exact .inl hmin
      · exact .inr h
    · rcases max_choice (minMax v vs).2 w with h | h
      · rw [h]
        exact .inl hmax
      · exact .inr h
    · rcases hmem.mp he with he | rfl
      · obtain ⟨hlo, hhi⟩ := hall e he
        exact ⟨min_le_of_left_le hlo, le_max_of_le_left hhi⟩
      · exact ⟨min_le_right _ _, le_max_right _ _⟩

/-- An entry of an enum is kept. -/
theorem parseEnumsFrom_keeps {enums enums' : List (String × String)} {found : List EnumDecl}
    (h : parseEnumsFrom enums found = .ok enums') {name wire : String}
    (hlookup : enums.lookup name = some wire) : enums'.lookup name = some wire := by
  induction found generalizing enums with
  | nil =>
    cases h
    exact hlookup
  | cons decl found ih =>
    obtain ⟨-, values, -, h⟩ := parseEnumsFrom_cons.mp h
    refine ih h ?_
    rw [List.lookup_append, hlookup]
    rfl

/-- What is entered for an enum. -/
theorem parseEnumsFrom_lookup {enums enums' : List (String × String)} {found : List EnumDecl}
    (h : parseEnumsFrom enums found = .ok enums') {decl : EnumDecl} (hdecl : decl ∈ found)
    {v : Int} {vs : List Int} (hvalues : enumValues decl.name 0 decl.body = .ok (v :: vs)) :
    enums'.lookup decl.name = some (enumWireType (minMax v vs).1 (minMax v vs).2) := by
  induction found generalizing enums with
  | nil => cases hdecl
  | cons decl' found ih =>
    obtain ⟨hnew, values, hvalues', h⟩ := parseEnumsFrom_cons.mp h
    rcases List.mem_cons.mp hdecl with rfl | hdecl
    · rw [hvalues] at hvalues'
      cases hvalues'
      refine parseEnumsFrom_keeps h ?_
      have hnone : enums.lookup decl.name = none := by
        rw [List.lookup_eq_none_iff]
        intro e he
        exact bne_iff_ne.mpr fun heq => hnew (heq ▸ List.mem_map_of_mem he)
      rw [List.lookup_append, hnone]
      exact List.lookup_cons_self
    · exact ih h hdecl

/-- **The wire type of an enum** of a header: if there is a wire type that all of its enumerators
are values of, it is such a one, and none of the others is smaller. -/
theorem parseEnums_least {h : Header} {knownEnums : List (String × String)}
    (hok : parseEnums h = .ok knownEnums) {decl : EnumDecl}
    (hdecl : decl ∈ h.allEnums)
    {values : List Int} (hvalues : enumValues decl.name 0 decl.body = .ok values)
    (hne : values ≠ []) {t : String} (ht : t ∈ enumWireTypes) (hall : ∀ e ∈ values, InRange t e) :
    ∃ wire, knownEnums.lookup decl.name = some wire ∧ (∀ e ∈ values, InRange wire e) ∧
      wireSize wire ≤ wireSize t := by
  cases values with
  | nil => exact absurd rfl hne
  | cons v vs =>
    obtain ⟨hmin, hmax, hbetween⟩ := minMax_spec v vs
    have hranges : enumWireTypes = wireRanges.map Prod.fst := rfl
    rw [hranges] at ht
    obtain ⟨r, hr, rfl⟩ := List.mem_map.mp ht
    obtain ⟨hsize, hrange⟩ := mem_wireRanges hr
    obtain ⟨r', hr', hwire, hlo, hhi, hle⟩ := enumWireType_least hr
      ((hrange _).mp (hall _ hmin)).1 ((hrange _).mp (hall _ hmax)).2
    obtain ⟨hsize', hrange'⟩ := mem_wireRanges hr'
    refine ⟨_, parseEnumsFrom_lookup hok hdecl hvalues, fun e he => ?_, ?_⟩
    · obtain ⟨hlo', hhi'⟩ := hbetween e he
      rw [hwire, hrange']
      exact ⟨hlo.trans hlo', hhi'.trans hhi⟩
    · rw [hwire, hsize', hsize]
      exact hle

/-- `-1`, `0` and `300` take two bytes with a sign. -/
theorem parseEnums_least_shade : ∃ wire,
    List.lookup "shade_t" [("shade_t", "int16_t")] = some wire ∧
      (∀ e ∈ [-1, 0, 300], InRange wire e) ∧ wireSize wire ≤ wireSize "int16_t" :=
  @parseEnums_least labelH [("shade_t", "int16_t")] (by decide +kernel)
    ⟨"shade_t", [.assign " -1", .next, .assign " 300"]⟩ (by decide) [-1, 0, 300]
    (by decide +kernel) (by decide) "int16_t" (by decide) (by decide)

end BuffersGenC

end HtcwFrameArq
