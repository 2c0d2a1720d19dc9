import Lockspace.Config.MaxAge
import Mathlib.Data.List.Basic
import Mathlib.Data.List.TakeWhile

namespace Lockspace

/-- The units in which an age is written. An age without one is in milliseconds. -/
inductive AgeUnit where
  | bare
  | millis
  | secs

namespace AgeUnit

def letters : AgeUnit → List Char
  | bare => []
  | millis => ['m', 's']
  | secs => ['s']

def nanos : AgeUnit → Nat
  | bare | millis => 1000000
  | secs => 1000000000

theorem nanos_le (unit : AgeUnit) : unit.nanos ≤ 1000000000 := by
  cases unit <;> decide

theorem plain_letters (unit : AgeUnit) {c : Char} (member : c ∈ unit.letters) :
    isBlank c = false := by
  cases unit with
  | bare => cases member
  | millis =>
    obtain rfl | rfl : c = 'm' ∨ c = 's' := by simpa [letters] using member
    · decide
    · decide
  | secs =>
    obtain rfl : c = 's' := by simpa [letters] using member
    decide

/-- Every number of units that is a word fits into a span. -/
theorem fits (unit : AgeUnit) {n : Nat} (word : n < wordCount 64) : n * unit.nanos ≤ maxNanos :=
  (Nat.mul_le_mul (Nat.le_sub_one_of_lt word) unit.nanos_le).trans (by decide)

/-- The span that is made of a number of units. -/
def span : AgeUnit → Nat → Duration
  | bare, n | millis, n => .ofMillis n
  | secs, n => .ofSecs n

theorem span_eq (unit : AgeUnit) {n : Nat} (word : n < wordCount 64) :
    unit.span n = ⟨n * unit.nanos, unit.fits word⟩ := by
  have exact : ∀ {n : Nat} (fits : n ≤ maxNanos), Duration.ofNanos n = ⟨n, fits⟩ :=
    fun fits => by simp only [Duration.ofNanos, Nat.min_eq_left fits]
  cases unit
  · exact exact ((bare).fits word)
  · exact exact ((millis).fits word)
  · exact exact ((secs).fits word)

end AgeUnit

/-- An age in writing: a number that fits into a word, in decimal digits, perhaps with a plus sign,
then its unit, with blanks anywhere around these two. -/
structure AgeSpelling where
  lead : List Char
  plus : Bool
  digits : List Char
  gap : List Char
  unit : AgeUnit
  tail : List Char
  blanks : ∀ c ∈ lead ++ gap ++ tail, isBlank c
  numeric : ∀ c ∈ digits, isDigit c
  nonempty : digits ≠ []
  word : decimalValue digits < wordCount 64

namespace AgeSpelling

/-- The number of an age as it is written. -/
def number (s : AgeSpelling) : List Char :=
  (if s.plus then ['+'] else []) ++ s.digits

def text (s : AgeSpelling) : List Char :=
  s.lead ++ s.number ++ s.gap ++ s.unit.letters ++ s.tail

/-- What is written, exactly. -/
def age (s : AgeSpelling) : Duration where
  nanos := decimalValue s.digits * s.unit.nanos
  le_max := s.unit.fits s.word

end AgeSpelling

theorem dropBlanks_append {lead rest : List Char} (blanks : ∀ c ∈ lead, isBlank c)
    (first : ∀ c ∈ rest.head?, isBlank c = false) : dropBlanks (lead ++ rest) = rest := by
  unfold dropBlanks
  rw [List.dropWhile_append_of_pos blanks]
  cases rest with
  | nil => rfl
  | cons c rest => exact List.dropWhile_cons_of_neg (by simp [first c rfl])

/-- Blanks come off both ends of what neither begins nor ends with one. -/
theorem trimBlanks_append {lead core tail : List Char} (before : ∀ c ∈ lead, isBlank c)
    (after : ∀ c ∈ tail, isBlank c) (some : core ≠ [])
    (first : ∀ c ∈ core.head?, isBlank c = false)
    (last : ∀ c ∈ core.getLast?, isBlank c = false) :
    trimBlanks (lead ++ core ++ tail) = core := by
  have front : dropBlanks (lead ++ core ++ tail) = core ++ tail := by
    rw [List.append_assoc]
    refine dropBlanks_append before ?_
    rwa [List.head?_append_of_ne_nil _ some]
  have back : dropBlanks (tail.reverse ++ core.reverse) = core.reverse := by
    refine dropBlanks_append (fun c member => after c (List.mem_reverse.mp member)) ?_
    rwa [List.head?_reverse]
  rw [trimBlanks, front, List.reverse_append, back, List.reverse_reverse]

theorem exists_dropBlanks (cs : List Char) :
    ∃ lead, (∀ c ∈ lead, isBlank c) ∧ cs = lead ++ dropBlanks cs :=
  ⟨cs.takeWhile isBlank, fun _ => List.mem_takeWhile_imp, List.takeWhile_append_dropWhile.symm⟩

/-- What comes off are blanks at either end. -/
theorem exists_trimBlanks (cs : List Char) : ∃ lead tail, (∀ c ∈ lead, isBlank c) ∧
    (∀ c ∈ tail, isBlank c) ∧ cs = lead ++ trimBlanks cs ++ tail := by
  obtain ⟨lead, before, front⟩ := exists_dropBlanks cs
  obtain ⟨tail, after, back⟩ := exists_dropBlanks (dropBlanks cs).reverse
  refine ⟨lead, tail.reverse, before, fun c member => after c (List.mem_reverse.mp member), ?_⟩
  have same : dropBlanks cs = trimBlanks cs ++ tail.reverse := by
    rw [trimBlanks, ← List.reverse_append, ← back, List.reverse_reverse]
  rw [List.append_assoc, ← same]
  exact front

theorem stripEnding?_eq_some {ending cs rest : List Char} :
    stripEnding? ending cs = some rest ↔ cs = rest ++ ending := by
  unfold stripEnding?
  rw [Option.ite_none_right_eq_some, List.isSuffixOf_iff_suffix]
  constructor
  · rintro ⟨⟨front, rfl⟩, same⟩
    rw [List.length_append, Nat.add_sub_cancel, List.take_left] at same
    rw [Option.some.inj same]
  · rintro rfl
    rw [List.length_append, Nat.add_sub_cancel, List.take_left]
    exact ⟨List.suffix_append rest ending, rfl⟩

theorem stripEnding?_eq_none {ending cs : List Char} :
    stripEnding? ending cs = none ↔ ∀ rest, cs ≠ rest ++ ending := by
  simp only [Option.eq_none_iff_forall_ne_some, ne_eq, stripEnding?_eq_some]

/-- A number is read from an optional plus sign and decimal digits that denote it, where it is below
the limit. -/
theorem unsigned?_eq_some {limit n : Nat} {cs : List Char} :
    unsigned? limit cs = some n ↔ ∃ (plus : Bool) (digits : List Char),
      cs = (if plus then ['+'] else []) ++ digits ∧ (∀ c ∈ digits, isDigit c) ∧ digits ≠ [] ∧
        decimalValue digits < limit ∧ decimalValue digits = n := by
  have accepted : ∀ digits : List Char,
      (if digits ≠ [] ∧ digits.all isDigit ∧ decimalValue digits < limit
        then some (decimalValue digits) else none) = some n ↔
      (∀ c ∈ digits, isDigit c) ∧ digits ≠ [] ∧ decimalValue digits < limit ∧
        decimalValue digits = n := by
    intro digits
    rw [Option.ite_none_right_eq_some, Option.some_inj, List.all_eq_true, and_assoc, and_assoc,
      and_left_comm]
  have signed : ∀ rest, unsigned? limit ('+' :: rest) = some n ↔ (∀ c ∈ rest, isDigit c) ∧
      rest ≠ [] ∧ decimalValue rest < limit ∧ decimalValue rest = n := accepted
  have bare : ∀ digits, digits.head? ≠ some '+' → (unsigned? limit digits = some n ↔
      (∀ c ∈ digits, isDigit c) ∧ digits ≠ [] ∧ decimalValue digits < limit ∧
        decimalValue digits = n) := by
    intro digits other
    rw [← accepted]
    unfold unsigned?
    dsimp only
    split
    · exact absurd rfl other
    · rfl
  constructor
  · intro read
    by_cases plus : cs.head? = some '+'
    · obtain ⟨rest, rfl⟩ := List.head?_eq_some_iff.mp plus
      exact ⟨true, rest, rfl, (signed rest).mp read⟩
    · exact ⟨false, cs, rfl, (bare cs plus).mp read⟩
  · rintro ⟨plus, digits, rfl, holds⟩
    cases plus with
    | true => exact (signed digits).mpr holds
    | false =>
      refine (bare digits fun first => ?_).mpr holds
      exact absurd (holds.1 '+' (List.mem_of_mem_head? first)) (by decide)

theorem isBlank_of_isDigit {c : Char} (digit : isDigit c) : isBlank c = false := by
  simp only [isDigit, Bool.and_eq_true, decide_eq_true_eq] at digit
  have least : 48 ≤ c.toNat := digit.1
  have most : c.toNat ≤ 57 := digit.2
  simp only [isBlank, Bool.or_eq_false_iff, Bool.and_eq_false_iff, decide_eq_false_iff_not,
    beq_eq_false_iff_ne]
  omega

namespace AgeSpelling

variable (s : AgeSpelling)

theorem unsigned?_number : unsigned? (wordCount 64) s.number = some (decimalValue s.digits) :=
  unsigned?_eq_some.mpr ⟨s.plus, s.digits, rfl, s.numeric, s.nonempty, s.word, rfl⟩

/-- A written number has no blank in it, and no letter of a unit. -/
theorem plain_number {c : Char} (member : c ∈ s.number) :
    isBlank c = false ∧ c ≠ 'm' ∧ c ≠ 's' := by
  rcases List.mem_append.mp member with sign | digit
  · split at sign
    · rw [List.mem_singleton.mp sign]
      decide
    · cases sign
  · have numeric := s.numeric c digit
    refine ⟨isBlank_of_isDigit numeric, ?_, ?_⟩
    · rintro rfl
      cases numeric
    · rintro rfl
      cases numeric

theorem number_ne_nil : s.number ≠ [] :=
  List.append_ne_nil_of_right_ne_nil _ s.nonempty

/-- The number of an age is read with any blanks around it. -/
theorem ageNumber?_number {lead tail : List Char} (before : ∀ c ∈ lead, isBlank c)
    (after : ∀ c ∈ tail, isBlank c) :
    ageNumber? (lead ++ s.number ++ tail) = some (decimalValue s.digits) := by
  rw [ageNumber?, trimBlanks_append before after s.number_ne_nil, s.unsigned?_number]
  · exact fun c first => (s.plain_number (List.mem_of_mem_head? first)).1
  · exact fun c last => (s.plain_number (List.mem_of_mem_getLast? last)).1

/-- What is read as a number in front of a unit is one with blanks around it. -/
theorem exists_of_ageNumber? {lead cs tail : List Char} {n : Nat} (unit : AgeUnit)
    (before : ∀ c ∈ lead, isBlank c) (after : ∀ c ∈ tail, isBlank c)
    (read : ageNumber? cs = some n) :
    ∃ s : AgeSpelling, s.text = lead ++ (cs ++ unit.letters) ++ tail ∧ s.age = unit.span n := by
  obtain ⟨front, gap, first, last, split⟩ := exists_trimBlanks cs
  obtain ⟨plus, digits, same, numeric, nonempty, word, rfl⟩ := unsigned?_eq_some.mp read
  have blanks : ∀ c ∈ (lead ++ front) ++ gap ++ tail, isBlank c := by
    simp only [List.mem_append]
    rintro c (((inside | inside) | inside) | inside)
    · exact before c inside
    · exact first c inside
    · exact last c inside
    · exact after c inside
  refine ⟨⟨lead ++ front, plus, digits, gap, unit, tail, blanks, numeric, nonempty, word⟩, ?_,
    (unit.span_eq word).symm⟩
  rw [split, same]
  simp only [text, number, List.append_assoc]

/-- A unit is found behind what has no letter of one. -/
theorem maxAge?_append (unit : AgeUnit) {rest : List Char}
    (plain : ∀ c ∈ rest, c ≠ 'm' ∧ c ≠ 's') :
    maxAge? (rest ++ unit.letters) = (ageNumber? rest).map unit.span := by
  have millis : ∀ front, rest ++ ['s'] ≠ front ++ ['m', 's'] := by
    intro front same
    rw [List.append_cons front 'm' ['s']] at same
    have before := List.append_cancel_right same
    exact (plain 'm' (by simp [before])).1 rfl
  have bare : ∀ ending, 's' ∈ ending → ∀ front, rest ≠ front ++ ending := by
    rintro ending inside front rfl
    exact (plain 's' (List.mem_append_right front inside)).2 rfl
  unfold maxAge?
  cases unit with
  | bare =>
    rw [AgeUnit.letters, List.append_nil, stripEnding?_eq_none.mpr (bare _ (by decide)),
      stripEnding?_eq_none.mpr (bare _ (by decide))]
    rfl
  | millis =>
    rw [AgeUnit.letters, stripEnding?_eq_some.mpr rfl]
    rfl
  | secs =>
    rw [AgeUnit.letters, stripEnding?_eq_none.mpr millis, stripEnding?_eq_some.mpr rfl]
    rfl

/-- A unit that was found is the end of the text. -/
theorem exists_of_maxAge? {cs : List Char} {age : Duration} (read : maxAge? cs = some age) :
    ∃ (unit : AgeUnit) (rest : List Char), cs = rest ++ unit.letters ∧
      (ageNumber? rest).map unit.span = some age := by
  unfold maxAge? at read
  split at read
  · rename_i rest found
    exact ⟨.millis, rest, stripEnding?_eq_some.mp found, read⟩
  split at read
  · rename_i rest found
    exact ⟨.secs, rest, stripEnding?_eq_some.mp found, read⟩
  · exact ⟨.bare, cs, (List.append_nil cs).symm, read⟩

/-- What is written is read once the blanks around it are gone. -/
theorem maxAge?_text : maxAge? (trimBlanks s.text) = some s.age := by
  have lead : ∀ c ∈ s.lead, isBlank c := fun c member => s.blanks c (by simp [member])
  have gap : ∀ c ∈ s.gap, isBlank c := fun c member => s.blanks c (by simp [member])
  have tail : ∀ c ∈ s.tail, isBlank c := fun c member => s.blanks c (by simp [member])
  have read : ∀ gap, (∀ c ∈ gap, isBlank c) →
      maxAge? (s.number ++ gap ++ s.unit.letters) = some s.age := by
    intro gap blanks
    rw [maxAge?_append, ← List.nil_append s.number, s.ageNumber?_number (by simp) blanks,
      Option.map_some, s.unit.span_eq s.word, age]
    intro c member
    rcases List.mem_append.mp member with numeral | blank
    · exact (s.plain_number numeral).2
    · constructor <;> rintro rfl <;> exact absurd (blanks _ blank) (by decide)
  by_cases bare : s.unit.letters = []
  · have split : s.text = s.lead ++ s.number ++ (s.gap ++ s.tail) := by simp [text, bare]
    have after : ∀ c ∈ s.gap ++ s.tail, isBlank c := List.forall_mem_append.mpr ⟨gap, tail⟩
    have whole := read [] (by simp)
    rw [List.append_nil, bare, List.append_nil] at whole
    rwa [split, trimBlanks_append lead after s.number_ne_nil
      (fun c first => (s.plain_number (List.mem_of_mem_head? first)).1)
      (fun c last => (s.plain_number (List.mem_of_mem_getLast? last)).1)]
  · have split : s.text = s.lead ++ (s.number ++ s.gap ++ s.unit.letters) ++ s.tail := by
      simp [text]
    rw [split, trimBlanks_append lead tail (List.append_ne_nil_of_right_ne_nil _ bare), read _ gap]
    · intro c first
      rw [List.append_assoc, List.head?_append_of_ne_nil _ s.number_ne_nil] at first
      exact (s.plain_number (List.mem_of_mem_head? first)).1
    · intro c last
      rw [List.getLast?_append_of_ne_nil _ bare] at last
      exact s.unit.plain_letters (List.mem_of_mem_getLast? last)

/-- Whatever is read is written in the text. -/
theorem exists_of_read {cs : List Char} {age : Duration}
    (read : maxAge? (trimBlanks cs) = some age) : ∃ s : AgeSpelling, s.text = cs ∧ s.age = age := by
  obtain ⟨lead, tail, before, after, split⟩ := exists_trimBlanks cs
  obtain ⟨unit, rest, core, counted⟩ := exists_of_maxAge? read
  obtain ⟨n, number, rfl⟩ := Option.map_eq_some_iff.mp counted
  rw [core] at split
  rw [split]
  exact exists_of_ageNumber? unit before after number

end AgeSpelling

theorem parseMaxAge_eq_ok {input : String} {age : Duration} :
    parseMaxAge input = .ok age ↔ maxAge? (trimBlanks input.toList) = some age := by
  unfold parseMaxAge
  dsimp only
  cases maxAge? (trimBlanks input.toList) with
  | none => exact iff_of_false (by simp) (by simp)
  | some found => rw [Except.ok.injEq, Option.some_inj]

theorem parseMaxAge_eq_error {input : String} {problem : ConfigProblem} :
    parseMaxAge input = .error problem ↔
      maxAge? (trimBlanks input.toList) = none ∧ problem = .badMaxAge (trimText input) := by
  unfold parseMaxAge
  dsimp only
  cases maxAge? (trimBlanks input.toList) with
  | none =>
    rw [Except.error.injEq]
    exact ⟨fun same => ⟨rfl, same.symm⟩, fun same => same.2.symm⟩
  | some found => exact iff_of_false (by simp) (by simp)

/-- An age is read from exactly those texts in which one is written, and what is read is what is
written there. Every other text is refused, and named without the blanks around it. -/
theorem parseMaxAge_reads (input : String) :
    (∀ age, parseMaxAge input = .ok age ↔
      ∃ s : AgeSpelling, s.text = input.toList ∧ s.age = age) ∧
    ∀ problem, parseMaxAge input = .error problem ↔
      (∀ s : AgeSpelling, s.text ≠ input.toList) ∧ problem = .badMaxAge (trimText input) := by
  have read : ∀ s : AgeSpelling, s.text = input.toList →
      maxAge? (trimBlanks input.toList) = some s.age := fun s same => same ▸ s.maxAge?_text
  refine ⟨fun age => parseMaxAge_eq_ok.trans ⟨AgeSpelling.exists_of_read, ?_⟩, fun problem => ?_⟩
  · rintro ⟨s, same, rfl⟩
    exact read s same
  · refine parseMaxAge_eq_error.trans (and_congr_left fun _ => ⟨fun unread s same => ?_, ?_⟩)
    · cases unread.symm.trans (read s same)
    · intro never
      cases found : maxAge? (trimBlanks input.toList) with
      | none => rfl
      | some age =>
        obtain ⟨s, same, -⟩ := AgeSpelling.exists_of_read found
        exact absurd same (never s)

example : parseMaxAge " +007 ms " = .ok (.ofMillis 7) := by
  decide +kernel

end Lockspace
