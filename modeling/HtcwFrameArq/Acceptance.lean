import HtcwFrameArq.Header

/-!
# Which headers are accepted

`parse_header` reads a header exactly if the names of its enums and structs and of the fields of
each struct are distinct, the enumerators that are given values have literals of Python, and each
type is that of a scalar, an enum or a struct: `parseHeader_exists_iff`. The check of the enums'
names leaves out those without enumerators.
-/

namespace HtcwFrameArq

namespace BuffersGenC

/-- A field has a type that is known. -/
def KnownType (enumNames structNames : List String) (raw : RawField) : Prop :=
  (scalarTypeMap.lookup (lower raw.type)).isSome = true ∨ raw.type ∈ enumNames ∨
    raw.type ∈ structNames

/-- The enums that have enumerators. -/
def Header.enumNames (h : Header) : List String :=
  (h.allEnums.filter fun e => e.body ≠ []).map EnumDecl.name

/-- The literals that are read: decimal and hexadecimal ones, and zero with any number of digits. C
has octal ones, too. -/
inductive Literal : List Char → Prop where
  | decimal {c : Char} {cs : List Char} (hzero : c ≠ '0')
      (hdigits : ∀ d ∈ c :: cs, d.isDigit = true) (hlen : (c :: cs).length ≤ maxStrDigits) :
      Literal (c :: cs)
  | zero {n : ℕ} (hlen : n < maxStrDigits) : Literal ('0' :: List.replicate n '0')
  | hex {x : Char} {cs : List Char} (hx : x = 'x' ∨ x = 'X') (hne : cs ≠ [])
      (hdigits : ∀ d ∈ cs, isHexDigit d = true) : Literal ('0' :: x :: cs)

/-- A text has a value: it is a literal, right behind a minus or not, with blanks around. -/
def HasValue (text : String) : Prop :=
  ∃ before sign literal after, text.toList = before ++ (sign ++ literal) ++ after ∧
    (∀ c ∈ before ++ after, isSpace c = true) ∧ (sign = [] ∨ sign = ['-']) ∧ Literal literal

/-- What the script asks of a header. -/
structure Header.Accepted (h : Header) : Prop where
  literal : ∀ e ∈ h.allEnums, ∀ rhs, .assign rhs ∈ e.body → HasValue rhs
  enums : h.allEnums.Pairwise fun a b => a.body ≠ [] → a.name ≠ b.name
  structs : (h.structs.map StructDecl.name).Nodup
  types : ∀ s ∈ h.structs, ∀ raw ∈ s.body,
    KnownType h.enumNames (h.structs.map StructDecl.name) raw
  fields : ∀ s ∈ h.structs, (s.body.map RawField.name).Nodup

/-! ## Literals -/

/-- The characters of a literal and its sign. -/
def isLiteralChar (c : Char) : Bool := isHexDigit c || c == 'x' || c == 'X' || c == '-'

theorem not_isSpace {c : Char} (h : isLiteralChar c = true) : isSpace c = false := by
  by_contra hspace
  have hall : ∀ n ∈ List.range' 9 5 ++ List.range' 0x1C 5 ++ [0x85, 0xA0, 0x1680] ++
      List.range' 0x2000 11 ++ [0x2028, 0x2029, 0x202F, 0x205F, 0x3000],
      isLiteralChar (Char.ofNat n) = false := by decide
  rw [Bool.not_eq_false, isSpace, decide_eq_true_iff] at hspace
  have hnot := hall c.toNat hspace
  rw [Char.ofNat_toNat, h] at hnot
  cases hnot

theorem isLiteralChar_digit {c : Char} (h : c.isDigit = true) : isLiteralChar c = true := by
  rw [isLiteralChar, isHexDigit, h]
  rfl

theorem isLiteralChar_hex {c : Char} (h : isHexDigit c = true) : isLiteralChar c = true := by
  rw [isLiteralChar, h]
  rfl

theorem Literal.chars {cs : List Char} (h : Literal cs) : ∀ c ∈ cs, isLiteralChar c = true := by
  cases h with
  | decimal _ hdigits _ => exact fun c hc => isLiteralChar_digit (hdigits c hc)
  | zero _ =>
    rw [List.forall_mem_cons]
    exact ⟨rfl, fun c hc => by rw [List.eq_of_mem_replicate hc]; rfl⟩
  | hex hx _ hdigits =>
    rw [List.forall_mem_cons, List.forall_mem_cons]
    exact ⟨rfl, by rcases hx with rfl | rfl <;> rfl, fun c hc => isLiteralChar_hex (hdigits c hc)⟩

/-- It begins with a digit. -/
theorem Literal.head {cs : List Char} (h : Literal cs) :
    ∃ c rest, cs = c :: rest ∧ c.isDigit = true := by
  cases h with
  | decimal _ hdigits _ => exact ⟨_, _, rfl, hdigits _ List.mem_cons_self⟩
  | zero _ => exact ⟨_, _, rfl, rfl⟩
  | hex _ _ _ => exact ⟨_, _, rfl, rfl⟩

theorem dropWhile_literal {cs : List Char} (h : ∀ c ∈ cs, isLiteralChar c = true) :
    cs.dropWhile isSpace = cs := by
  cases cs with
  | nil => rfl
  | cons c rest =>
    rw [List.dropWhile_cons_of_neg]
    rw [not_isSpace (h c List.mem_cons_self)]
    decide

/-- `strip` leaves what stands between blanks. -/
theorem strip_eq {text : String} {before cs after : List Char}
    (htext : text.toList = before ++ cs ++ after) (hspace : ∀ c ∈ before ++ after, isSpace c = true)
    (hcs : ∀ c ∈ cs, isLiteralChar c = true) (hne : cs ≠ []) : strip text = cs := by
  obtain ⟨hbefore, hafter⟩ := List.forall_mem_append.mp hspace
  have hdrop : (cs ++ after).dropWhile isSpace = cs ++ after := by
    obtain ⟨c, rest, rfl⟩ := List.exists_cons_of_ne_nil hne
    rw [List.cons_append, List.dropWhile_cons_of_neg]
    rw [not_isSpace (hcs c List.mem_cons_self)]
    decide
  have hreverse : cs.reverse.dropWhile isSpace = cs.reverse :=
    dropWhile_literal fun c hc => hcs c (List.mem_reverse.mp hc)
  rw [strip, htext, List.append_assoc, List.dropWhile_append_of_pos hbefore, hdrop,
    List.rdropWhile, List.reverse_append, List.dropWhile_append_of_pos
      fun c hc => hafter c (List.mem_reverse.mp hc), hreverse, List.reverse_reverse]

/-- The rest are blanks. -/
theorem strip_spec (text : String) : ∃ before after, text.toList = before ++ strip text ++ after ∧
    ∀ c ∈ before ++ after, isSpace c = true := by
  refine ⟨text.toList.takeWhile isSpace, (text.toList.dropWhile isSpace).rtakeWhile isSpace, ?_, ?_⟩
  · rw [strip, List.append_assoc, List.rdropWhile_append_rtakeWhile,
      List.takeWhile_append_dropWhile]
  · refine List.forall_mem_append.mpr ⟨fun c hc => List.mem_takeWhile_imp hc, fun c hc => ?_⟩
    exact List.mem_rtakeWhile_imp hc

/-- The rest of a hexadecimal literal. -/
theorem isHexTail_iff {x : Char} {digits : List Char} : isHexTail (x :: digits) = true ↔
    (x = 'x' ∨ x = 'X') ∧ digits ≠ [] ∧ ∀ d ∈ digits, isHexDigit d = true := by
  simp [isHexTail, and_assoc]

/-- What is behind the sign. -/
theorem unsignedInt_exists_iff {cs : List Char} :
    isIntGroup (cs.dropWhile isSpace) = true ∧ (∃ n, unsignedInt cs = .ok n) ↔ Literal cs := by
  have hhex {x : Char} {digits : List Char} (hx : x = 'x' ∨ x = 'X') :
      isIntGroup ('0' :: x :: digits) = true ↔ digits ≠ [] ∧ ∀ d ∈ digits, isHexDigit d = true := by
    have hoct : (x :: digits).all (fun d => decide ('0' ≤ d ∧ d ≤ '7')) = false := by
      rcases hx with rfl | rfl <;> rfl
    rw [isIntGroup, if_pos rfl, hoct, Bool.or_false, isHexTail_iff, and_iff_right hx]
  have hzero {cs : List Char} : ('0' :: cs).dropWhile isSpace = '0' :: cs :=
    List.dropWhile_cons_of_neg (by decide)
  constructor
  · rintro ⟨hgroup, n, hint⟩
    rw [unsignedInt.eq_def] at hint
    split at hint
    · rw [hzero, hhex (.inl rfl)] at hgroup
      exact .hex (.inl rfl) hgroup.1 hgroup.2
    · rw [hzero, hhex (.inr rfl)] at hgroup
      exact .hex (.inr rfl) hgroup.1 hgroup.2
    · split_ifs at hint with hbad
      simp only [not_or, not_lt, not_not, not_and] at hbad
      obtain ⟨hlen, hdigits, hzeros⟩ := hbad
      obtain _ | ⟨c, cs⟩ := cs
      · cases hgroup
      by_cases hc : c = '0'
      · subst hc
        have hall : ∀ d ∈ cs, d = '0' := by simpa using hzeros rfl
        rw [List.eq_replicate_of_mem hall]
        exact .zero hlen
      · exact .decimal hc (List.all_eq_true.mp hdigits) hlen
  · intro h
    rw [dropWhile_literal h.chars]
    cases h with
    | @decimal c cs hc hdigits hlen =>
      obtain ⟨hfirst, hrest⟩ := List.forall_mem_cons.mp hdigits
      have hgroup : isIntGroup (c :: cs) = true := by
        rw [isIntGroup, if_neg hc, hfirst, Bool.true_and, List.all_eq_true]
        exact hrest
      refine ⟨hgroup, ?_⟩
      have hgood : ¬ (maxStrDigits < (c :: cs).length ∨ ¬ (c :: cs).all Char.isDigit ∨
          (c :: cs).head? = some '0' ∧ ¬ (c :: cs).all (· == '0')) := by
        rw [not_or, not_or, not_lt, not_not, List.all_eq_true]
        exact ⟨hlen, hdigits, fun h => hc (Option.some.inj h.1)⟩
      rw [unsignedInt.eq_def]
      split
      · next heq => exact absurd (List.cons.inj heq).1 hc
      · next heq => exact absurd (List.cons.inj heq).1 hc
      · exact ⟨_, if_neg hgood⟩
    | @zero n hlen =>
      refine ⟨by rw [isIntGroup, if_pos rfl]; simp, ?_⟩
      have hgood : ¬ (maxStrDigits < ('0' :: List.replicate n '0').length ∨
          ¬ ('0' :: List.replicate n '0').all Char.isDigit ∨
            ('0' :: List.replicate n '0').head? = some '0' ∧
              ¬ ('0' :: List.replicate n '0').all (· == '0')) := by
        rw [not_or, not_or, not_lt, not_not, not_and, not_not, List.length_cons,
          List.length_replicate]
        exact ⟨hlen, by simp, fun _ => by simp⟩
      rw [unsignedInt.eq_def]
      split
      · next digits heq =>
        have hx : 'x' ∈ List.replicate n '0' := by rw [(List.cons.inj heq).2]; simp
        exact absurd (List.eq_of_mem_replicate hx) (by decide)
      · next digits heq =>
        have hx : 'X' ∈ List.replicate n '0' := by rw [(List.cons.inj heq).2]; simp
        exact absurd (List.eq_of_mem_replicate hx) (by decide)
      · exact ⟨_, if_neg hgood⟩
    | hex hx hne hdigits =>
      refine ⟨(hhex hx).mpr ⟨hne, hdigits⟩, ?_⟩
      rcases hx with rfl | rfl
      · exact ⟨_, rfl⟩
      · exact ⟨_, rfl⟩

theorem pyInt_exists_iff {rhs : List Char} : isIntLiteral rhs = true ∧ (∃ v, pyInt rhs = .ok v) ↔
    Literal (unsigned rhs) := by
  rw [← unsignedInt_exists_iff, isIntLiteral, pyInt]
  refine and_congr_right fun _ => ?_
  rcases unsignedInt (unsigned rhs) with msg | n
  · exact ⟨by rintro ⟨_, ⟨⟩⟩, by rintro ⟨_, ⟨⟩⟩⟩
  · exact ⟨fun _ => ⟨n, rfl⟩, fun _ => ⟨_, rfl⟩⟩

theorem literal_unsigned_iff {rhs : List Char} : Literal (unsigned rhs) ↔
    ∃ sign literal, rhs = sign ++ literal ∧ (sign = [] ∨ sign = ['-']) ∧ Literal literal := by
  by_cases hminus : ∃ cs, rhs = '-' :: cs
  · obtain ⟨cs, rfl⟩ := hminus
    refine ⟨fun h => ⟨['-'], cs, rfl, .inr rfl, h⟩, ?_⟩
    rintro ⟨sign, literal, heq, rfl | rfl, h⟩
    · obtain ⟨c, rest, rfl, hdigit⟩ := h.head
      rw [← (List.cons.inj heq).1] at hdigit
      cases hdigit
    · obtain rfl : cs = literal := (List.cons.inj heq).2
      exact h
  · have hself : unsigned rhs = rhs := by
      rw [unsigned.eq_def]
      split
      · exact absurd ⟨_, rfl⟩ hminus
      · rfl
    rw [hself]
    refine ⟨fun h => ⟨[], rhs, rfl, .inl rfl, h⟩, ?_⟩
    rintro ⟨sign, literal, rfl, rfl | rfl, h⟩
    · exact h
    · exact absurd ⟨_, rfl⟩ hminus

theorem literalValue_exists_iff (name : String) {text : String} :
    (∃ value, literalValue name text = .ok value) ↔ HasValue text := by
  have hvalue : (∃ value, literalValue name text = .ok value) ↔
      Literal (unsigned (strip text)) := by
    rw [← pyInt_exists_iff, literalValue]
    by_cases h : isIntLiteral (strip text) = true
    · rw [if_pos h, and_iff_right h]
    · rw [if_neg h]
      exact ⟨by rintro ⟨_, ⟨⟩⟩, fun h' => absurd h'.1 h⟩
  rw [hvalue, literal_unsigned_iff]
  constructor
  · rintro ⟨sign, literal, hstrip, hsign, hliteral⟩
    obtain ⟨before, after, htext, hspace⟩ := strip_spec text
    exact ⟨before, sign, literal, after, hstrip ▸ htext, hspace, hsign, hliteral⟩
  · rintro ⟨before, sign, literal, after, htext, hspace, hsign, hliteral⟩
    refine ⟨sign, literal, strip_eq htext hspace ?_ ?_, hsign, hliteral⟩
    · refine List.forall_mem_append.mpr ⟨?_, hliteral.chars⟩
      rcases hsign with rfl | rfl
      · simp
      · exact List.forall_mem_singleton.mpr rfl
    · obtain ⟨c, rest, rfl, -⟩ := hliteral.head
      simp

/-! ## Enums -/

theorem enumValues_exists_iff {name : String} {body : List EnumEntry} {current : Int} :
    (∃ values, enumValues name current body = .ok values) ↔
      ∀ rhs, .assign rhs ∈ body → HasValue rhs := by
  induction body generalizing current with
  | nil => exact ⟨fun _ => by simp, fun _ => ⟨[], rfl⟩⟩
  | cons entry body ih =>
    have hcons {v : Int} {rest : Except String (List Int)} :
        (∃ values, (do let r ← rest; .ok (v :: r)) = (.ok values : Except String (List Int))) ↔
          ∃ values, rest = .ok values := by
      rcases rest with msg | r
      · exact ⟨fun ⟨_, h⟩ => (nomatch h), fun ⟨_, h⟩ => (nomatch h)⟩
      · exact ⟨fun _ => ⟨r, rfl⟩, fun _ => ⟨v :: r, rfl⟩⟩
    cases entry with
    | next =>
      rw [enumValues, hcons, ih]
      simp
    | assign rhs =>
      have hhead : (∀ rhs', .assign rhs' ∈ .assign rhs :: body → HasValue rhs') ↔
          HasValue rhs ∧ ∀ rhs', .assign rhs' ∈ body → HasValue rhs' := by simp
      rw [enumValues, hhead, ← literalValue_exists_iff name]
      rcases literalValue name rhs with msg | value
      · exact ⟨by rintro ⟨_, ⟨⟩⟩, by rintro ⟨⟨_, ⟨⟩⟩, _⟩⟩
      · exact (hcons.trans ih).trans ⟨fun h => ⟨⟨value, rfl⟩, h⟩, And.right⟩

/-- There are as many values as enumerators. -/
theorem enumValues_length {name : String} {body : List EnumEntry} {current : Int}
    {values : List Int} (h : enumValues name current body = .ok values) :
    values.length = body.length := by
  induction body generalizing current values with
  | nil =>
    cases h
    rfl
  | cons entry body ih =>
    have hcons {v next : Int} (h : (do let r ← enumValues name next body; .ok (v :: r)) =
        (.ok values : Except String (List Int))) : values.length = (entry :: body).length := by
      rcases hrest : enumValues name next body with msg | r
      · rw [hrest] at h
        cases h
      · rw [hrest] at h
        cases h
        exact congrArg Nat.succ (ih hrest)
    cases entry with
    | next => exact hcons h
    | assign rhs =>
      rw [enumValues] at h
      rcases hvalue : literalValue name rhs with msg | value
      · rw [hvalue] at h
        cases h
      · rw [hvalue] at h
        exact hcons h

theorem enumValues_nil {name : String} {body : List EnumEntry} {current : Int} {values : List Int}
    (h : enumValues name current body = .ok values) : values = [] ↔ body = [] := by
  rw [← List.length_eq_zero_iff, ← List.length_eq_zero_iff, enumValues_length h]

theorem enumEntry_names {name : String} {values : List Int} :
    (enumEntry name values).map Prod.fst = if values = [] then [] else [name] := by
  cases values with
  | nil => rfl
  | cons v vs => rfl

/-- When the enums are accepted, and what is known then. -/
theorem parseEnumsFrom_exists_iff {enums : List (String × String)} {found : List EnumDecl} :
    (∃ enums', parseEnumsFrom enums found = .ok enums') ↔
      (∀ e ∈ found, (∀ rhs, .assign rhs ∈ e.body → HasValue rhs) ∧ e.name ∉ enums.map Prod.fst) ∧
        found.Pairwise fun a b => a.body ≠ [] → a.name ≠ b.name := by
  induction found generalizing enums with
  | nil => exact ⟨fun _ => ⟨by simp, .nil⟩, fun _ => ⟨enums, rfl⟩⟩
  | cons decl found ih =>
    have hnew (values : List Int) (hvalues : enumValues decl.name 0 decl.body = .ok values)
        (name : String) : name ∉ (enums ++ enumEntry decl.name values).map Prod.fst ↔
          name ∉ enums.map Prod.fst ∧ (decl.body ≠ [] → decl.name ≠ name) := by
      have hnil := enumValues_nil hvalues
      rw [List.map_append, List.mem_append, enumEntry_names, not_or]
      refine and_congr_right fun _ => ?_
      by_cases hbody : decl.body = []
      · rw [if_pos (hnil.mpr hbody)]
        simp [hbody]
      · rw [if_neg (mt hnil.mp hbody)]
        simp [hbody, eq_comm]
    rw [List.pairwise_cons, List.forall_mem_cons]
    constructor
    · rintro ⟨enums', h⟩
      obtain ⟨hdup, values, hvalues, h⟩ := parseEnumsFrom_cons.mp h
      obtain ⟨hfound, hpairwise⟩ := ih.mp ⟨enums', h⟩
      refine ⟨⟨⟨enumValues_exists_iff.mp ⟨values, hvalues⟩, hdup⟩, fun e he => ?_⟩,
        fun e he => ?_, hpairwise⟩
      · exact ⟨(hfound e he).1, ((hnew values hvalues e.name).mp (hfound e he).2).1⟩
      · exact ((hnew values hvalues e.name).mp (hfound e he).2).2
    · rintro ⟨⟨⟨hliteral, hdup⟩, hfound⟩, hnames, hpairwise⟩
      obtain ⟨values, hvalues⟩ := enumValues_exists_iff.mpr hliteral
      obtain ⟨enums', h⟩ := ih.mpr ⟨fun e he => ⟨(hfound e he).1,
        (hnew values hvalues e.name).mpr ⟨(hfound e he).2, hnames e he⟩⟩, hpairwise⟩
      exact ⟨enums', parseEnumsFrom_cons.mpr ⟨hdup, values, hvalues, h⟩⟩

/-- The names that are known are those of the enums with enumerators. -/
theorem parseEnumsFrom_names {enums enums' : List (String × String)} {found : List EnumDecl}
    (h : parseEnumsFrom enums found = .ok enums') : enums'.map Prod.fst =
      enums.map Prod.fst ++ (found.filter fun e => e.body ≠ []).map EnumDecl.name := by
  induction found generalizing enums with
  | nil =>
    cases h
    simp
  | cons decl found ih =>
    obtain ⟨-, values, hvalues, h⟩ := parseEnumsFrom_cons.mp h
    have hnil := enumValues_nil hvalues
    rw [ih h, List.map_append, enumEntry_names, List.append_assoc]
    by_cases hbody : decl.body = []
    · rw [if_pos (hnil.mpr hbody), List.filter_cons_of_neg (by simp [hbody])]
      rfl
    · rw [if_neg (mt hnil.mp hbody), List.filter_cons_of_pos (by simp [hbody])]
      rfl

/-! ## Structs -/

section

variable {knownEnums : List (String × String)} {allStructNames : List String} {name : String}

theorem parseField_exists_iff (name : String) {raw : RawField} :
    (∃ f, parseField raw name allStructNames knownEnums = .ok f) ↔
      KnownType (knownEnums.map Prod.fst) allStructNames raw := by
  rw [parseField, resolveType, KnownType]
  rcases hscalar : scalarTypeMap.lookup (lower raw.type) with _ | wire
  · rcases henum : knownEnums.lookup raw.type with _ | wire
    · have hnot : raw.type ∉ knownEnums.map Prod.fst := fun hmem => by
        obtain ⟨e, he, htype⟩ := List.mem_map.mp hmem
        exact bne_iff_ne.mp (List.lookup_eq_none_iff.mp henum e he) htype.symm
      dsimp only
      by_cases hstruct : raw.type ∈ allStructNames
      · rw [if_pos hstruct]
        exact ⟨fun _ => .inr (.inr hstruct), fun _ => ⟨_, rfl⟩⟩
      · rw [if_neg hstruct]
        refine ⟨by rintro ⟨_, ⟨⟩⟩, fun h => ?_⟩
        rcases h with h | h | h
        · cases h
        · exact absurd h hnot
        · exact absurd h hstruct
    · have hmem : raw.type ∈ knownEnums.map Prod.fst :=
        List.mem_map.mpr ⟨(raw.type, wire), mem_of_lookup henum, rfl⟩
      exact ⟨fun _ => .inr (.inl hmem), fun _ => ⟨_, rfl⟩⟩
  · exact ⟨fun _ => .inl rfl, fun _ => ⟨_, rfl⟩⟩

theorem parseField_name {raw : RawField} {f : Field}
    (h : parseField raw name allStructNames knownEnums = .ok f) : f.name = raw.name := by
  rw [parseField] at h
  rcases htype : resolveType raw.type name raw.name allStructNames knownEnums with msg | wire
  · rw [htype] at h
    cases h
  · rw [htype] at h
    cases h
    rfl

theorem parseStructBody_exists_iff (name : String) {body : List RawField} :
    (∃ fields, parseStructBody name allStructNames knownEnums body = .ok fields) ↔
      ∀ raw ∈ body, KnownType (knownEnums.map Prod.fst) allStructNames raw := by
  induction body with
  | nil => exact ⟨fun _ => by simp, fun _ => ⟨[], rfl⟩⟩
  | cons raw body ih =>
    rw [List.forall_mem_cons, ← ih, ← parseField_exists_iff name, parseStructBody]
    constructor
    · rintro ⟨fields, h⟩
      rcases hfield : parseField raw name allStructNames knownEnums with msg | f
      · rw [hfield] at h
        cases h
      · rcases hrest : parseStructBody name allStructNames knownEnums body with msg | rest
        · rw [hfield, hrest] at h
          cases h
        · exact ⟨⟨f, rfl⟩, ⟨rest, rfl⟩⟩
    · rintro ⟨⟨f, hf⟩, rest, hrest⟩
      exact ⟨f :: rest, by rw [hf, hrest]; rfl⟩

theorem parseStructBody_names {body : List RawField} {fields : List Field}
    (h : parseStructBody name allStructNames knownEnums body = .ok fields) :
    fields.map Field.name = body.map RawField.name := by
  induction body generalizing fields with
  | nil =>
    cases h
    rfl
  | cons raw body ih =>
    rw [parseStructBody] at h
    rcases hfield : parseField raw name allStructNames knownEnums with msg | f
    · rw [hfield] at h
      cases h
    · rcases hrest : parseStructBody name allStructNames knownEnums body with msg | rest
      · rw [hfield, hrest] at h
        cases h
      · rw [hfield, hrest] at h
        cases h
        rw [List.map_cons, List.map_cons, ih hrest, parseField_name hfield]

theorem checkFieldNames_iff (name : String) {seen : List String} {fields : List Field}
    (hseen : seen.Nodup) :
    checkFieldNames name seen fields = .ok () ↔ (seen ++ fields.map Field.name).Nodup := by
  refine ⟨fun h => checkFieldNames_nodup h hseen, fun h => ?_⟩
  induction fields generalizing seen with
  | nil => rfl
  | cons f fields ih =>
    have hcons : (seen ++ f.name :: fields.map Field.name).Nodup := h
    rw [List.append_cons] at hcons
    have hfirst := (List.nodup_append.mp hcons).1
    rw [checkFieldNames, if_neg fun hdup =>
      (List.nodup_append.mp hfirst).2.2 _ hdup _ List.mem_cons_self rfl]
    exact ih hfirst hcons

/-- When the structs are accepted. -/
theorem parseStructs_exists_iff {structs : Structs} {found : List StructDecl}
    (hnodup : (structs.map Prod.fst).Nodup) :
    (∃ structs', parseStructs allStructNames knownEnums structs found = .ok structs') ↔
      (structs.map Prod.fst ++ found.map StructDecl.name).Nodup ∧
        ∀ s ∈ found, (∀ raw ∈ s.body, KnownType (knownEnums.map Prod.fst) allStructNames raw) ∧
          (s.body.map RawField.name).Nodup := by
  induction found generalizing structs with
  | nil => exact ⟨fun _ => ⟨by simpa using hnodup, by simp⟩, fun _ => ⟨structs, rfl⟩⟩
  | cons decl found ih =>
    obtain ⟨name, body⟩ := decl
    rw [parseStructs, List.forall_mem_cons, List.map_cons]
    by_cases hdup : name ∈ structs.map Prod.fst
    · rw [if_pos hdup]
      refine ⟨by rintro ⟨_, ⟨⟩⟩, fun h => ?_⟩
      exact absurd rfl ((List.nodup_append.mp h.1).2.2 name hdup name List.mem_cons_self)
    · rw [if_neg hdup]
      have hnew (fields : List Field) : ((structs ++ [(name, fields)]).map Prod.fst).Nodup := by
        rw [List.map_append]
        refine List.nodup_append.mpr ⟨hnodup, List.nodup_singleton _, ?_⟩
        intro a ha b hb
        rw [List.mem_singleton.mp hb]
        rintro rfl
        exact hdup ha
      have hnames (fields : List Field) :
          (structs ++ [(name, fields)]).map Prod.fst ++ found.map StructDecl.name =
            structs.map Prod.fst ++ name :: found.map StructDecl.name := by simp
      rw [← parseStructBody_exists_iff name]
      rcases hbody : parseStructBody name allStructNames knownEnums body with msg | fields
      · exact ⟨by rintro ⟨_, ⟨⟩⟩, by rintro ⟨_, ⟨⟨_, ⟨⟩⟩, _⟩, _⟩⟩
      · have hcheck := @checkFieldNames_iff name [] fields List.nodup_nil
        rw [List.nil_append, parseStructBody_names hbody] at hcheck
        have hrest := ih (hnew fields)
        rw [hnames] at hrest
        constructor
        · rintro ⟨structs', h⟩
          rcases hfields : checkFieldNames name [] fields with msg | u
          · simp only [hfields, bind, Except.bind] at h
            cases h
          · simp only [hfields, bind, Except.bind] at h
            obtain ⟨hall, hfound⟩ := hrest.mp ⟨structs', h⟩
            exact ⟨hall, ⟨⟨fields, rfl⟩, hcheck.mp hfields⟩, hfound⟩
        · rintro ⟨hall, ⟨-, hfields⟩, hfound⟩
          obtain ⟨structs', h⟩ := hrest.mpr ⟨hall, hfound⟩
          refine ⟨structs', ?_⟩
          simp only [hcheck.mpr hfields, bind, Except.bind]
          exact h

end

/-- **A header is accepted** exactly if the script finds nothing wrong with it. An octal literal or
one behind a minus and a blank matches the expression for literals, but `int` takes neither. -/
theorem parseHeader_exists_iff (h : Header) :
    (∃ structs, parseHeader h = .ok structs) ↔ h.Accepted := by
  have henums := @parseEnumsFrom_exists_iff [] h.allEnums
  have hparse : parseEnums h = parseEnumsFrom [] h.allEnums := rfl
  rw [parseHeader]
  rcases hknown : parseEnums h with msg | knownEnums
  · refine ⟨by rintro ⟨_, ⟨⟩⟩, fun hacc => ?_⟩
    obtain ⟨enums', h⟩ := henums.mpr ⟨fun e he => ⟨hacc.literal e he, by simp⟩, hacc.enums⟩
    rw [← hparse, hknown] at h
    cases h
  · rw [hparse] at hknown
    obtain ⟨hfound, hpairwise⟩ := henums.mp ⟨knownEnums, hknown⟩
    have hnames : knownEnums.map Prod.fst = h.enumNames := parseEnumsFrom_names hknown
    have hstructs := @parseStructs_exists_iff knownEnums (h.structs.map StructDecl.name) []
      h.structs List.nodup_nil
    rw [hnames, List.map_nil, List.nil_append] at hstructs
    refine hstructs.trans ⟨fun hread => ?_, fun hacc => ⟨hacc.structs, fun s hs => ?_⟩⟩
    · obtain ⟨hnodup, hall⟩ := hread
      exact ⟨fun e he => (hfound e he).1, hpairwise, hnodup, fun s hs => (hall s hs).1,
        fun s hs => (hall s hs).2⟩
    · exact ⟨hacc.types s hs, hacc.fields s hs⟩

end BuffersGenC

end HtcwFrameArq
