import RecordText.Json.Printer
import RecordText.Proofs.UniqueKeys

/-!
# Texts of JSON values

The text that is written for a value is read back as that value: keys keep
their order and every string keeps its characters. Three things can be in the
way of it, and none else. A double need not be found again by its digits, a
value that is nested too deep is refused, and of two members with one key only
one is left.

The reader and the writer go through a value side by side. What a reader finds
behind the text of a value is left open, except that it may not go on a number.
-/

namespace RecordText.Json

/-! ### Strings -/

theorem fourHex?_hexDigits (n : Nat) (h : n < 0x20) :
    fourHex? '0' '0' (hexDigit (n / 16)) (hexDigit (n % 16)) = some n := by
  revert n
  decide

/-- An escape with four digits that name no half of a pair is read, whatever stands behind it. -/
theorem readStringTail?_unicode (a b c d : Char) (unit : Nat) (rest : List Char)
    (hunit : fourHex? a b c d = some unit) (hhigh : isHighHalf unit = false)
    (hlow : isLowHalf unit = false) :
    readStringTail? ('\\' :: 'u' :: a :: b :: c :: d :: rest) =
      consRead (Char.ofNat unit) (readStringTail? rest) := by
  rw [readStringTail?.eq_def]
  split
  case h_5 hother heq =>
    simp only [List.cons.injEq, true_and] at heq
    obtain ⟨rfl, rfl⟩ := heq
    exact absurd rfl (hother a b c d rest rfl)
  case h_6 hother heq =>
    obtain ⟨rfl, rfl⟩ := List.cons.inj heq
    exact absurd rfl (hother _ _ rfl)
  all_goals simp_all

/-- A character that is written as itself is read as itself. -/
theorem readStringTail?_plain (c : Char) (rest : List Char) (hquote : c ≠ '"') (hslash : c ≠ '\\')
    (hlow : ¬ c.toNat < 0x20) :
    readStringTail? (c :: rest) = consRead c (readStringTail? rest) := by
  rw [readStringTail?.eq_def]
  split
  case h_6 heq =>
    obtain ⟨rfl, rfl⟩ := List.cons.inj heq
    rw [if_neg (by simp only [hlow, hslash, or_self, not_false_eq_true])]
  all_goals simp_all

/-- Every character of a string is read back from what is written for it. -/
theorem readStringTail?_stringChar (c : Char) (rest : List Char) :
    readStringTail? (stringChar c ++ rest) = consRead c (readStringTail? rest) := by
  rw [stringChar]
  split_ifs with hquote hslash hfeed hreturn htab hback hform hlow
  · simp [readStringTail?, plainEscape?, hquote]
  · simp [readStringTail?, plainEscape?, hslash]
  · simp [readStringTail?, plainEscape?, hfeed]
  · simp [readStringTail?, plainEscape?, hreturn]
  · simp [readStringTail?, plainEscape?, htab]
  · simp [readStringTail?, plainEscape?, hback]
  · simp [readStringTail?, plainEscape?, hform]
  · have hunit := fourHex?_hexDigits c.toNat hlow
    have hread := readStringTail?_unicode _ _ _ _ c.toNat rest hunit
      (by simp [isHighHalf]; omega) (by simp [isLowHalf]; omega)
    rw [Char.ofNat_toNat] at hread
    exact hread
  · exact readStringTail?_plain c rest hquote hslash hlow

theorem readStringTail?_stringChars (s : List Char) (rest : List Char) :
    readStringTail? (s.flatMap stringChar ++ '"' :: rest) = some (s, rest) := by
  induction s with
  | nil => simp [readStringTail?]
  | cons c s ih =>
      rw [List.flatMap_cons, List.append_assoc, readStringTail?_stringChar, ih]
      rfl

/-! ### Integers -/

section Integers

/-- A text that does not go on a value in front of it: it is empty or starts with one of the signs
that stand behind items and members. -/
def Closes (rest : List Char) : Prop :=
  ∀ c ∈ rest.head?, c = ',' ∨ c = ']' ∨ c = '\x7d'

theorem closes_cons {c : Char} (rest : List Char) (h : c = ',' ∨ c = ']' ∨ c = '\x7d') :
    Closes (c :: rest) := by
  intro d hd
  rwa [← Option.some.inj hd]

theorem readDigits_append (digits rest : List Char) (hdigits : ∀ c ∈ digits, c.isDigit = true)
    (hrest : Closes rest) : readDigits (digits ++ rest) = (digits.map digitValue, rest) := by
  have hnone : ∀ c ∈ rest.head?, c.isDigit = false := by
    intro c hc
    rcases hrest c hc with rfl | rfl | rfl <;> decide
  rw [readDigits, List.takeWhile_append_of_pos hdigits, List.dropWhile_append_of_pos hdigits]
  cases rest with
  | nil => simp
  | cons c rest => simp [hnone c rfl]

theorem readFraction?_closes (rest : List Char) (hrest : Closes rest) :
    readFraction? rest = some (none, rest) := by
  cases rest with
  | nil => rfl
  | cons c rest => rcases hrest c rfl with rfl | rfl | rfl <;> rfl

theorem readExponent?_closes (rest : List Char) (hrest : Closes rest) :
    readExponent? rest = some (none, rest) := by
  cases rest with
  | nil => rfl
  | cons c rest => rcases hrest c rfl with rfl | rfl | rfl <;> rfl

theorem isDigit_of_mem_digitChars {n : Nat} {c : Char} (h : c ∈ Decimal.digitChars n) :
    c.isDigit = true :=
  Nat.isDigit_of_mem_toDigits (by decide) (by decide) h

theorem digitsValue_digitChars (n : Nat) :
    digitsValue ((Decimal.digitChars n).map digitValue) = n := by
  have hvalue := @Nat.ofDigitChars_ten_toDigits n
  rw [Nat.ofDigitChars_eq_foldl] at hvalue
  rw [digitsValue, List.foldl_map, Decimal.digitChars]
  simpa only [Nat.mul_comm 10, digitValue] using hvalue

/-- The first digit of a number that is not zero is not zero. -/
theorem exists_digitChars_eq_cons (n : Nat) (hn : n ≠ 0) :
    ∃ c rest, Decimal.digitChars n = c :: rest ∧ digitValue c ≠ 0 := by
  induction n using Nat.strongRecOn with
  | _ n ih =>
    by_cases hsmall : n < 10
    · refine ⟨n.digitChar, [], Nat.toDigits_of_lt_base hsmall, ?_⟩
      have hdigit := Nat.toNat_digitChar_sub_48_of_lt_ten hsmall
      rw [digitValue]
      exact fun hzero => hn (hdigit.symm.trans hzero)
    · obtain ⟨c, rest, hsplit, hc⟩ := ih (n / 10) (by omega) (by omega)
      refine ⟨c, rest ++ [(n % 10).digitChar], ?_, hc⟩
      rw [Decimal.digitChars, Nat.toDigits_of_base_le (by decide) (by omega)]
      rw [Decimal.digitChars] at hsplit
      rw [hsplit, List.cons_append]

theorem readWhole?_digitChars (n : Nat) (rest : List Char) (hrest : Closes rest) :
    readWhole? (Decimal.digitChars n ++ rest) =
      some ((Decimal.digitChars n).map digitValue, rest) := by
  rw [readWhole?, readDigits_append _ rest (fun c => isDigit_of_mem_digitChars) hrest]
  by_cases hn : n = 0
  · subst hn
    rfl
  · obtain ⟨c, tail, hsplit, hc⟩ := exists_digitChars_eq_cons n hn
    rw [hsplit, List.map_cons]
    split <;> simp_all

/-- The parts of the text of an integer. -/
def integerParts (negative : Bool) (n : Nat) : NumberParts :=
  { negative, whole := (Decimal.digitChars n).map digitValue, fraction := none, exponent := none }

theorem readNumberParts?_minus (n : Nat) (rest : List Char) (hrest : Closes rest) :
    readNumberParts? ('-' :: (Decimal.digitChars n ++ rest)) =
      some (integerParts true n, rest) := by
  simp [readNumberParts?, readWhole?_digitChars n rest hrest, readFraction?_closes rest hrest,
    readExponent?_closes rest hrest, integerParts]

/-- The first sign of a number is a digit. -/
theorem exists_digitChars_eq (n : Nat) :
    ∃ c rest, Decimal.digitChars n = c :: rest ∧ c.isDigit = true := by
  obtain ⟨c, rest, hsplit⟩ := List.exists_cons_of_ne_nil (Nat.toDigits_ne_nil (n := n) (b := 10))
  refine ⟨c, rest, hsplit, isDigit_of_mem_digitChars (n := n) ?_⟩
  rw [Decimal.digitChars, hsplit]
  exact List.mem_cons_self

theorem readNumberParts?_digits (n : Nat) (rest : List Char) (hrest : Closes rest) :
    readNumberParts? (Decimal.digitChars n ++ rest) = some (integerParts false n, rest) := by
  have hwhole := readWhole?_digitChars n rest hrest
  obtain ⟨c, tail, hsplit, hdigit⟩ := exists_digitChars_eq n
  have hsign : c ≠ '-' := by
    rintro rfl
    exact absurd hdigit (by decide)
  rw [hsplit, List.cons_append] at hwhole
  rw [hsplit, List.cons_append, readNumberParts?]
  · simp [hwhole, readFraction?_closes rest hrest, readExponent?_closes rest hrest, integerParts,
      hsplit]
  · intro more heq
    exact hsign (List.cons.inj heq).1

/-- Whether an integer fits a machine word, with or without a sign. -/
def FitsWord (n : Int) : Prop :=
  -0x8000000000000000 ≤ n ∧ n < 0x10000000000000000

theorem number?_digits (n : Nat) (h : n < 0x10000000000000000) :
    (integerParts false n).number? = some (.int n) := by
  have hmax : n ≤ maxWord := by
    rw [maxWord]
    omega
  simp [NumberParts.number?, NumberParts.int?, integerParts, digitsValue_digitChars, hmax]

theorem number?_minus (n : Nat) (hpos : 0 < n) (h : n ≤ 0x8000000000000000) :
    (integerParts true n).number? = some (.int (-n)) := by
  simp [NumberParts.number?, NumberParts.int?, integerParts, digitsValue_digitChars, hpos, h]

/-- An integer is read back from its digits. -/
theorem readNumber?_intChars (n : Int) (rest : List Char) (hn : FitsWord n) (hrest : Closes rest) :
    readNumber? (Decimal.intChars n ++ rest) = some (.number (.int n), rest) := by
  obtain ⟨hlow, hhigh⟩ := hn
  cases n with
  | ofNat m =>
      have hparts := readNumberParts?_digits m rest hrest
      have hnumber := number?_digits m (Int.ofNat_lt.1 hhigh)
      simp [readNumber?, Decimal.intChars, hparts, hnumber]
  | negSucc m =>
      have hparts := readNumberParts?_minus (m + 1) rest hrest
      have hnumber := number?_minus (m + 1) (by omega) (by omega)
      simp [readNumber?, Decimal.intChars, hparts, hnumber, Int.negSucc_eq]

end Integers

/-! ### Values -/

mutual

/-- How deep arrays and objects are nested in a value. -/
def nesting : Json → Nat
  | array items => itemsNesting items + 1
  | object members => membersNesting members + 1
  | _ => 0

/-- How deep arrays and objects are nested in items. -/
def itemsNesting : List Json → Nat
  | [] => 0
  | item :: rest => max (nesting item) (itemsNesting rest)

/-- How deep arrays and objects are nested in members. -/
def membersNesting : List (String × Json) → Nat
  | [] => 0
  | (_, value) :: rest => max (nesting value) (membersNesting rest)

end

/-- Every number in a value is an integer that fits a machine word. -/
inductive NumbersFit : Json → Prop where
  | null : NumbersFit .null
  | bool (value : Bool) : NumbersFit (.bool value)
  | number (value : Int) (hvalue : FitsWord value) : NumbersFit (.number (.int value))
  | string (value : String) : NumbersFit (.string value)
  | array (items : List Json) (hitems : ∀ item ∈ items, NumbersFit item) :
      NumbersFit (.array items)
  | object (members : List (String × Json)) (hmembers : ∀ member ∈ members, NumbersFit member.2) :
      NumbersFit (.object members)

attribute [simp] NumbersFit.null NumbersFit.bool NumbersFit.string

@[simp] theorem numbersFit_number_iff (n : Int) :
    (Json.number (.int n)).NumbersFit ↔ FitsWord n := by
  constructor
  · rintro (_ | _ | ⟨_, hn⟩)
    exact hn
  · exact .number n

@[simp] theorem numbersFit_array_iff (items : List Json) :
    (Json.array items).NumbersFit ↔ ∀ item ∈ items, item.NumbersFit := by
  constructor
  · rintro (_ | _ | _ | _ | ⟨_, hitems⟩)
    exact hitems
  · exact .array items

@[simp] theorem numbersFit_object_iff (members : List (String × Json)) :
    (Json.object members).NumbersFit ↔ ∀ member ∈ members, member.2.NumbersFit := by
  constructor
  · rintro (_ | _ | _ | _ | _ | ⟨_, hmembers⟩)
    exact hmembers
  · exact .object members

theorem itemsNesting_lt_iff {items : List Json} {depth : Nat} (hdepth : 0 < depth) :
    itemsNesting items < depth ↔ ∀ item ∈ items, item.nesting < depth := by
  induction items with
  | nil => simpa [itemsNesting] using hdepth
  | cons item items ih => rw [itemsNesting, Nat.max_lt, ih, List.forall_mem_cons]

theorem membersNesting_lt_iff {members : List (String × Json)} {depth : Nat} (hdepth : 0 < depth) :
    membersNesting members < depth ↔ ∀ member ∈ members, member.2.nesting < depth := by
  induction members with
  | nil => simpa [membersNesting] using hdepth
  | cons member members ih => rw [membersNesting, Nat.max_lt, ih, List.forall_mem_cons]

theorem nesting_lt_of_mem_items {items : List Json} {item : Json} (h : item ∈ items) :
    item.nesting < (Json.array items).nesting := by
  rw [nesting]
  exact (itemsNesting_lt_iff (Nat.succ_pos _)).1 (Nat.lt_succ_self _) item h

theorem nesting_lt_of_mem_members {members : List (String × Json)} {member : String × Json}
    (h : member ∈ members) : member.2.nesting < (Json.object members).nesting := by
  rw [nesting]
  exact (membersNesting_lt_iff (Nat.succ_pos _)).1 (Nat.lt_succ_self _) member h

/-- A value whose text can be read back where some levels of nesting are left. -/
structure IsReadable (depth : Nat) (value : Json) : Prop where
  numbers : value.NumbersFit
  keys : value.KeysUnique
  nesting : value.nesting < depth

namespace IsReadable

variable {depth : Nat}

theorem items {items : List Json} (h : IsReadable depth (.array items)) :
    1 < depth ∧ ∀ item ∈ items, IsReadable (depth - 1) item := by
  obtain ⟨hnumbers, hkeys, hnesting⟩ := h
  rw [numbersFit_array_iff] at hnumbers
  rw [keysUnique_array_iff] at hkeys
  rw [Json.nesting] at hnesting
  have hall := (itemsNesting_lt_iff (by omega)).1 (Nat.lt_sub_of_add_lt hnesting)
  refine ⟨by omega, fun item hitem => ?_⟩
  exact ⟨hnumbers item hitem, hkeys item hitem, hall item hitem⟩

theorem members {members : List (String × Json)} (h : IsReadable depth (.object members)) :
    1 < depth ∧ (members.map Prod.fst).Nodup ∧
      ∀ member ∈ members, IsReadable (depth - 1) member.2 := by
  obtain ⟨hnumbers, hkeys, hnesting⟩ := h
  obtain ⟨hnodup, hkeys⟩ := (keysUnique_object_iff _).1 hkeys
  rw [numbersFit_object_iff] at hnumbers
  rw [Json.nesting] at hnesting
  have hall := (membersNesting_lt_iff (by omega)).1 (Nat.lt_sub_of_add_lt hnesting)
  refine ⟨by omega, hnodup, fun member hmember => ?_⟩
  exact ⟨hnumbers member hmember, hkeys member hmember, hall member hmember⟩

end IsReadable

theorem isJsonBlank_of_isDigit {c : Char} (hc : c.isDigit = true) : isJsonBlank c = false := by
  simp only [isJsonBlank, Bool.or_eq_false_iff, beq_eq_false_iff_ne]
  refine ⟨⟨⟨?_, ?_⟩, ?_⟩, ?_⟩ <;> rintro rfl <;> exact absurd hc (by decide)

/-- The first sign of the text of an integer. -/
theorem exists_intChars_eq (n : Int) :
    ∃ c rest, Decimal.intChars n = c :: rest ∧ (c = '-' ∨ c.isDigit = true) := by
  cases n with
  | ofNat m =>
      obtain ⟨c, rest, hsplit, hdigit⟩ := exists_digitChars_eq m
      exact ⟨c, rest, hsplit, .inr hdigit⟩
  | negSucc m => exact ⟨'-', _, rfl, .inl rfl⟩

/-- The text of a value starts with neither a blank nor a sign that ends an array. -/
theorem exists_chars_eq {value : Json} (h : value.NumbersFit) :
    ∃ c rest, value.chars = c :: rest ∧ isJsonBlank c = false ∧ c ≠ ']' := by
  cases h with
  | null => exact ⟨'n', _, rfl, by decide⟩
  | bool value => cases value <;> exact ⟨_, _, rfl, by decide⟩
  | number n _ =>
      obtain ⟨c, rest, hsplit, hc⟩ := exists_intChars_eq n
      refine ⟨c, rest, by rw [chars, Number.chars, hsplit], ?_⟩
      rcases hc with rfl | hc
      · decide
      · refine ⟨isJsonBlank_of_isDigit hc, ?_⟩
        rintro rfl
        exact absurd hc (by decide)
  | string value => exact ⟨'"', _, rfl, by decide⟩
  | array items _ => exact ⟨'[', _, rfl, by decide⟩
  | object members _ => exact ⟨'\x7b', _, rfl, by decide⟩

theorem skipBlanks_cons {c : Char} (rest : List Char) (hc : isJsonBlank c = false) :
    skipBlanks (c :: rest) = c :: rest := by
  rw [skipBlanks, List.dropWhile_cons_of_neg (by simp [hc])]

theorem skipBlanks_chars {value : Json} (rest : List Char) (h : value.NumbersFit) :
    skipBlanks (value.chars ++ rest) = value.chars ++ rest := by
  obtain ⟨c, tail, hsplit, hblank, -⟩ := exists_chars_eq h
  rw [hsplit, List.cons_append, skipBlanks_cons _ hblank]

/-- The text of items starts with neither a blank nor a sign that ends an array. -/
theorem exists_itemsChars_eq {item : Json} (items : List Json) (h : item.NumbersFit) :
    ∃ c rest, itemsChars (item :: items) = c :: rest ∧ isJsonBlank c = false ∧ c ≠ ']' := by
  obtain ⟨c, rest, hsplit, hc⟩ := exists_chars_eq h
  cases items with
  | nil => exact ⟨c, rest, by rw [itemsChars, hsplit], hc⟩
  | cons next items => exact ⟨c, _, by rw [itemsChars, hsplit]; rfl, hc⟩

/-- The text of members starts with the quote of the first key. -/
theorem exists_membersChars_eq (member : String × Json) (members : List (String × Json)) :
    ∃ rest, membersChars (member :: members) = '"' :: rest := by
  cases members with
  | nil => exact ⟨_, rfl⟩
  | cons next members => exact ⟨_, rfl⟩

theorem setKey_of_not_mem {κ α : Type} [DecidableEq κ] {members : List (κ × α)} {key : κ}
    (value : α) (h : key ∉ members.map Prod.fst) :
    setKey members key value = members ++ [(key, value)] := by
  induction members with
  | nil => rfl
  | cons first rest ih =>
      obtain ⟨hfirst, hrest⟩ := not_or.1 (mt List.mem_cons.2 h)
      rw [setKey, if_neg (Ne.symm hfirst), ih hrest, List.cons_append]

/-- What the readers of a value, of the items of an array and of the members of an object make of
texts that were written, if no more than `fuel` characters are left to read. -/
structure ReadsBack (fuel : Nat) : Prop where
  value : ∀ {depth : Nat} {value : Json} (rest : List Char), IsReadable depth value → Closes rest →
    value.chars.length ≤ fuel → readValue? fuel depth (value.chars ++ rest) = some (value, rest)
  items : ∀ {depth : Nat} (read items : List Json) (rest : List Char), items ≠ [] →
    (∀ item ∈ items, IsReadable depth item) → (itemsChars items).length < fuel →
    readItems? fuel depth read (itemsChars items ++ ']' :: rest) =
      some (.array (read.reverse ++ items), rest)
  members : ∀ {depth : Nat} (read members : List (String × Json)) (rest : List Char),
    members ≠ [] → ((read ++ members).map Prod.fst).Nodup →
    (∀ member ∈ members, IsReadable depth member.2) → (membersChars members).length < fuel →
    readMembers? fuel depth read (membersChars members ++ '\x7d' :: rest) =
      some (.object (read ++ members), rest)

section Steps

variable {fuel depth : Nat}

theorem readValue?_number (c : Char) (rest : List Char) (hc : c = '-' ∨ c.isDigit = true) :
    readValue? (fuel + 1) depth (c :: rest) = readNumber? (c :: rest) := by
  have hother : ∀ d, d ≠ '-' → d.isDigit = false → c ≠ d := by
    rintro d hsign hdigit rfl
    rcases hc with hc | hc
    · exact hsign hc
    · rw [hdigit] at hc
      exact Bool.false_ne_true hc
  rw [readValue?]
  rw [if_neg (hother _ (by decide) (by decide)), if_neg (hother _ (by decide) (by decide)),
    if_neg (hother _ (by decide) (by decide)), if_neg (hother _ (by decide) (by decide)),
    if_neg (hother _ (by decide) (by decide)), if_neg (hother _ (by decide) (by decide))]

theorem readValue?_array (c : Char) (rest : List Char) (hdepth : 1 < depth)
    (hblank : isJsonBlank c = false) (hc : c ≠ ']') :
    readValue? (fuel + 1) depth ('[' :: c :: rest) =
      readItems? fuel (depth - 1) [] (c :: rest) := by
  rw [readValue?, if_pos rfl, if_neg (by omega), skipBlanks_cons rest hblank]
  split
  · next heq => exact absurd (List.cons.inj heq).1 hc
  · rfl

theorem readValue?_object (rest : List Char) (hdepth : 1 < depth) :
    readValue? (fuel + 1) depth ('\x7b' :: '"' :: rest) =
      readMembers? fuel (depth - 1) [] ('"' :: rest) := by
  rw [readValue?, if_neg (by decide), if_pos rfl, if_neg (by omega),
    skipBlanks_cons rest (by decide)]
  rfl

theorem readValue?_noItems (rest : List Char) (hdepth : 1 < depth) :
    readValue? (fuel + 1) depth ('[' :: ']' :: rest) = some (.array [], rest) := by
  rw [readValue?, if_pos rfl, if_neg (by omega), skipBlanks_cons rest (by decide)]
  rfl

theorem readValue?_noMembers (rest : List Char) (hdepth : 1 < depth) :
    readValue? (fuel + 1) depth ('\x7b' :: '\x7d' :: rest) = some (.object [], rest) := by
  rw [readValue?, if_neg (by decide), if_pos rfl, if_neg (by omega),
    skipBlanks_cons rest (by decide)]
  rfl

theorem stringChars_append (key : String) (rest : List Char) :
    stringChars key ++ rest = '"' :: (key.toList.flatMap stringChar ++ '"' :: rest) := by
  simp [stringChars]

theorem readItems?_last {text rest : List Char} {item : Json} (read : List Json)
    (h : readValue? fuel depth (skipBlanks text) = some (item, ']' :: rest)) :
    readItems? (fuel + 1) depth read text = some (.array (item :: read).reverse, rest) := by
  rw [readItems?, h]
  simp only [skipBlanks_cons (c := ']') rest (by decide)]

theorem readItems?_next {text rest : List Char} {item : Json} (read : List Json)
    (h : readValue? fuel depth (skipBlanks text) = some (item, ',' :: rest)) :
    readItems? (fuel + 1) depth read text = readItems? fuel depth (item :: read) rest := by
  rw [readItems?, h]
  simp only [skipBlanks_cons (c := ',') rest (by decide)]

theorem readMembers?_last {rest after : List Char} {value : Json} (key : String)
    (read : List (String × Json))
    (h : readValue? fuel depth (skipBlanks rest) = some (value, '\x7d' :: after)) :
    readMembers? (fuel + 1) depth read (stringChars key ++ ':' :: rest) =
      some (.object (setKey read key value), after) := by
  have hkey := readStringTail?_stringChars key.toList (':' :: rest)
  rw [stringChars_append, readMembers?]
  simp only [skipBlanks_cons (c := '"') _ (by decide), hkey,
    skipBlanks_cons (c := ':') _ (by decide), h, skipBlanks_cons (c := '\x7d') _ (by decide),
    String.ofList_toList]

theorem readMembers?_next {rest after : List Char} {value : Json} (key : String)
    (read : List (String × Json))
    (h : readValue? fuel depth (skipBlanks rest) = some (value, ',' :: after)) :
    readMembers? (fuel + 1) depth read (stringChars key ++ ':' :: rest) =
      readMembers? fuel depth (setKey read key value) after := by
  have hkey := readStringTail?_stringChars key.toList (':' :: rest)
  rw [stringChars_append, readMembers?]
  simp only [skipBlanks_cons (c := '"') _ (by decide), hkey,
    skipBlanks_cons (c := ':') _ (by decide), h, skipBlanks_cons (c := ',') _ (by decide),
    String.ofList_toList]

theorem ReadsBack.value_succ (ih : ReadsBack fuel) {value : Json} (rest : List Char)
    (h : IsReadable depth value) (hrest : Closes rest) (hfuel : value.chars.length ≤ fuel + 1) :
    readValue? (fuel + 1) depth (value.chars ++ rest) = some (value, rest) := by
  cases value with
  | null => simp [chars, readValue?, readWord?, Text.behind?]
  | bool value => cases value <;> simp [chars, readValue?, readWord?, Text.behind?]
  | number n =>
      cases h.numbers with
      | number n hn =>
        obtain ⟨c, tail, hsplit, hc⟩ := exists_intChars_eq n
        have hread := readNumber?_intChars n rest hn hrest
        rw [hsplit, List.cons_append] at hread
        rw [chars, Number.chars, hsplit, List.cons_append, readValue?_number c _ hc, hread]
  | string s =>
      have hread := readStringTail?_stringChars s.toList rest
      simp [chars, stringChars, readValue?, hread]
  | array items =>
      obtain ⟨hdepth, hitems⟩ := h.items
      have htext : (Json.array items).chars ++ rest = '[' :: (itemsChars items ++ ']' :: rest) := by
        simp [chars]
      have hlength : (itemsChars items).length < fuel := by
        rw [chars] at hfuel
        simp only [List.length_append, List.length_cons, List.length_nil] at hfuel
        omega
      rw [htext]
      cases items with
      | nil => exact readValue?_noItems rest hdepth
      | cons item items =>
          obtain ⟨c, tail, hsplit, hblank, hc⟩ :=
            exists_itemsChars_eq items (hitems item List.mem_cons_self).numbers
          have hread := ih.items [] (item :: items) rest (List.cons_ne_nil _ _) hitems hlength
          rw [hsplit, List.cons_append] at hread ⊢
          rw [readValue?_array c _ hdepth hblank hc, hread]
          rfl
  | object members =>
      obtain ⟨hdepth, hkeys, hmembers⟩ := h.members
      have htext : (Json.object members).chars ++ rest =
          '\x7b' :: (membersChars members ++ '\x7d' :: rest) := by
        simp [chars]
      have hlength : (membersChars members).length < fuel := by
        rw [chars] at hfuel
        simp only [List.length_append, List.length_cons, List.length_nil] at hfuel
        omega
      rw [htext]
      cases members with
      | nil => exact readValue?_noMembers rest hdepth
      | cons member members =>
          obtain ⟨tail, hsplit⟩ := exists_membersChars_eq member members
          have hread := ih.members [] (member :: members) rest (List.cons_ne_nil _ _) hkeys
            hmembers hlength
          rw [hsplit, List.cons_append] at hread ⊢
          rw [readValue?_object _ hdepth, hread]
          rfl

theorem ReadsBack.items_succ (ih : ReadsBack fuel) (read items : List Json) (rest : List Char)
    (hne : items ≠ []) (hitems : ∀ item ∈ items, IsReadable depth item)
    (hfuel : (itemsChars items).length < fuel + 1) :
    readItems? (fuel + 1) depth read (itemsChars items ++ ']' :: rest) =
      some (.array (read.reverse ++ items), rest) := by
  cases items with
  | nil => exact absurd rfl hne
  | cons item items =>
      obtain ⟨hitem, hmore⟩ := List.forall_mem_cons.1 hitems
      have hskip := fun rest => skipBlanks_chars rest hitem.numbers
      cases items with
      | nil =>
          rw [itemsChars] at hfuel ⊢
          have hread := ih.value (']' :: rest) hitem (closes_cons rest (by simp)) (by omega)
          rw [readItems?_last read (by rw [hskip, hread]), List.reverse_cons]
      | cons next items =>
          rw [itemsChars] at hfuel ⊢
          rw [List.length_append, List.length_cons] at hfuel
          rw [List.append_assoc, List.cons_append]
          have hread := ih.value (',' :: (itemsChars (next :: items) ++ ']' :: rest)) hitem
            (closes_cons _ (by simp)) (by omega)
          have hrest := ih.items (item :: read) (next :: items) rest (List.cons_ne_nil _ _) hmore
            (by omega)
          rw [readItems?_next read (by rw [hskip, hread]), hrest, List.reverse_cons,
            List.append_assoc, List.singleton_append]

theorem ReadsBack.members_succ (ih : ReadsBack fuel) (read members : List (String × Json))
    (rest : List Char) (hne : members ≠ []) (hkeys : ((read ++ members).map Prod.fst).Nodup)
    (hmembers : ∀ member ∈ members, IsReadable depth member.2)
    (hfuel : (membersChars members).length < fuel + 1) :
    readMembers? (fuel + 1) depth read (membersChars members ++ '\x7d' :: rest) =
      some (.object (read ++ members), rest) := by
  cases members with
  | nil => exact absurd rfl hne
  | cons member members =>
      obtain ⟨key, value⟩ := member
      obtain ⟨hmember, hmore⟩ := List.forall_mem_cons.1 hmembers
      have hvalue : IsReadable depth value := hmember
      have hskip := fun rest => skipBlanks_chars rest hvalue.numbers
      have hnew : setKey read key value = read ++ [(key, value)] := by
        apply setKey_of_not_mem
        rw [List.map_append, List.map_cons] at hkeys
        exact fun hmem => (List.nodup_append.1 hkeys).2.2 _ hmem _ List.mem_cons_self rfl
      cases members with
      | nil =>
          rw [membersChars] at hfuel ⊢
          simp only [List.length_append, List.length_cons] at hfuel
          have hread := ih.value ('\x7d' :: rest) hvalue (closes_cons rest (by simp)) (by omega)
          rw [List.append_assoc, List.cons_append,
            readMembers?_last key read (by rw [hskip, hread]), hnew]
      | cons next members =>
          rw [membersChars] at hfuel ⊢
          simp only [List.length_append, List.length_cons] at hfuel
          have hread := ih.value (',' :: (membersChars (next :: members) ++ '\x7d' :: rest)) hvalue
            (closes_cons _ (by simp)) (by omega)
          have hrest := ih.members (read ++ [(key, value)]) (next :: members) rest
            (List.cons_ne_nil _ _) (by rwa [List.append_assoc]) hmore (by omega)
          rw [List.append_assoc, List.append_assoc, List.cons_append, List.cons_append,
            readMembers?_next key read (by rw [hskip, hread]), hnew, hrest, List.append_assoc,
            List.singleton_append]

end Steps

theorem readsBack (fuel : Nat) : ReadsBack fuel := by
  induction fuel with
  | zero =>
      constructor
      · intro depth value rest h _ hfuel
        obtain ⟨c, tail, hsplit, -⟩ := exists_chars_eq h.numbers
        rw [hsplit] at hfuel
        cases hfuel
      · intro depth read items rest _ _ hfuel
        cases hfuel
      · intro depth read members rest _ _ _ hfuel
        cases hfuel
  | succ fuel ih => exact ⟨ih.value_succ, ih.items_succ, ih.members_succ⟩

theorem nesting_isKeptByReaders : IsKeptByReaders fun depth value => value.nesting ≤ depth - 1 where
  null _ := Nat.zero_le _
  bool _ _ := Nat.zero_le _
  number _ _ := Nat.zero_le _
  string _ _ := Nat.zero_le _
  array depth items hdepth hitems := by
    have hall := (itemsNesting_lt_iff hdepth).2 fun item hitem =>
      Nat.lt_of_le_pred hdepth (hitems item hitem)
    rwa [nesting, Nat.add_sub_cancel, Nat.add_one_le_iff]
  object depth members hdepth _ hmembers := by
    have hall := (membersNesting_lt_iff hdepth).2 fun member hmember =>
      Nat.lt_of_le_pred hdepth (hmembers member hmember)
    rwa [nesting, Nat.add_sub_cancel, Nat.add_one_le_iff]

/-- Whatever is read from a text is nested less deep than the limit. -/
theorem nesting_of_parse? {text : String} {value : Json} (h : parse? text = some value) :
    value.nesting < depthLimit :=
  Nat.lt_of_le_pred (by decide) (nesting_isKeptByReaders.of_parse? h)

/-- The text of a value is read back as the value. -/
theorem parseChars?_chars {value : Json} (h : IsReadable depthLimit value) :
    parseChars? value.chars = some value := by
  have hread := (readsBack (2 * value.chars.length + 2)).value [] h (fun _ hc => by cases hc)
    (by omega)
  have hskip := skipBlanks_chars [] h.numbers
  rw [List.append_nil] at hread hskip
  rw [parseChars?, hskip, hread]
  rfl

end RecordText.Json
