import Lockspace.Json.Printer
import Lockspace.Json.Reader

namespace Lockspace

theorem isDigit_of_mem_toDigits {n : Nat} {c : Char} (member : c ∈ Nat.toDigits 10 n) :
    isDigit c = true :=
  Nat.isDigit_of_mem_toDigits (by decide) (by decide) member

theorem decimalValue_append_digit (ds : List Char) {d : Nat} (small : d < 10) :
    decimalValue (ds ++ [d.digitChar]) = decimalValue ds * 10 + d := by
  have digit : d.digitChar.toNat - '0'.toNat = d := Nat.toNat_digitChar_sub_48_of_lt_ten small
  rw [decimalValue, List.foldl_append, List.foldl_cons, List.foldl_nil, digit, decimalValue]

/-- The digits of a number denote it. -/
theorem decimalValue_toDigits (n : Nat) : decimalValue (Nat.toDigits 10 n) = n := by
  induction n using Nat.strongRecOn with
  | ind n ih =>
    rcases Nat.lt_or_ge n 10 with small | large
    · rw [Nat.toDigits_of_lt_base small, ← List.nil_append [_], decimalValue_append_digit [] small]
      exact Nat.zero_add n
    · have last : n % 10 < 10 := Nat.mod_lt n (by decide)
      rw [Nat.toDigits_of_base_le (by decide) large, decimalValue_append_digit _ last,
        ih (n / 10) (by omega)]
      omega

/-- Only zero has a leading zero. -/
theorem head_toDigits {n : Nat} (nonzero : n ≠ 0) : (Nat.toDigits 10 n).head? ≠ some '0' := by
  induction n using Nat.strongRecOn with
  | ind n ih =>
    rcases Nat.lt_or_ge n 10 with small | large
    · rw [Nat.toDigits_of_lt_base small]
      intro zero
      exact nonzero (Nat.digitChar_eq_zero.mp (Option.some.inj zero))
    · have shorter := ih (n / 10) (by omega) (by omega)
      obtain ⟨c, cs, digits⟩ :=
        List.exists_cons_of_ne_nil (Nat.toDigits_ne_nil (n := n / 10) (b := 10))
      rw [digits] at shorter
      rw [Nat.toDigits_of_base_le (by decide) large, digits]
      exact shorter

/-- The code of a character is no half of a surrogate pair. -/
theorem not_surrogate (c : Char) : ¬ (0xd800 ≤ c.toNat ∧ c.toNat < 0xe000) := by
  rcases c.valid with low | high
  · exact fun inside => Nat.not_lt.mpr inside.1 low
  · exact fun inside => Nat.not_lt.mpr (Nat.succ_le_of_lt high.1) inside.2

/-- Characters come back from their codes. -/
theorem joinSurrogates_codes (cs : List Char) : joinSurrogates (cs.map Char.toNat) = some cs := by
  induction cs with
  | nil => rfl
  | cons c cs ih =>
    cases cs with
    | nil =>
      rw [List.map_cons, List.map_nil, joinSurrogates, if_neg (not_surrogate c), Char.ofNat_toNat]
    | cons d ds =>
      have outside := not_surrogate c
      rw [List.map_cons, List.map_cons, joinSurrogates, if_neg (by omega), if_neg outside,
        Char.ofNat_toNat, ← List.map_cons, ih]
      rfl

theorem textOf_codes (s : String) : Json.textOf (s.toList.map Char.toNat).reverse = some s := by
  rw [Json.textOf, List.reverse_reverse, joinSurrogates_codes, Option.map_some, String.ofList_toList]

namespace Json

/-- One character inside a string, where a quote outside an escape would end the string. -/
def inside? (s : List Nat × EscapePart) (c : Char) : Option (List Nat × EscapePart) :=
  if s.2 = .plain ∧ c = '"' then none else readText? s.1 s.2 c

theorem inside_hexDigit {c : Char} {d : Nat} (digit : hexDigit? c = some d) (codes : List Nat)
    (left value : Nat) : inside? (codes, .hex left value) c = some (if left ≤ 1
      then ((value * 16 + d) :: codes, .plain) else (codes, .hex (left - 1) (value * 16 + d))) := by
  simp only [inside?, reduceCtorEq, false_and, if_false, readText?, digit]
  split <;> rfl

theorem inside_control {n : Nat} (control : n < 32) (codes : List Nat) :
    ('\\' :: 'u' :: '0' :: '0' :: twoHexDigits n).foldlM inside? (codes, .plain) =
      some (n :: codes, .plain) := by
  have digits : ∀ n < 32, hexDigit? (Nat.digitChar (n / 16)) = some (n / 16) ∧
      hexDigit? (Nat.digitChar (n % 16)) = some (n % 16) := by
    decide
  obtain ⟨high, low⟩ := digits n control
  have value : (0 * 16 + n / 16) * 16 + n % 16 = n := by omega
  calc ('\\' :: 'u' :: '0' :: '0' :: twoHexDigits n).foldlM inside? (codes, .plain)
    _ = (twoHexDigits n).foldlM inside? (codes, .hex 2 0) := rfl
    _ = some (n :: codes, .plain) := by
      rw [twoHexDigits, List.foldlM_cons, inside_hexDigit high, Option.bind_eq_bind, Option.bind_some,
        if_neg (by decide), List.foldlM_cons, inside_hexDigit low, if_pos (by decide), value]
      rfl

/-- Inside a string, a written character gives its code. -/
theorem inside_writeChar (c : Char) (codes : List Nat) :
    (writeChar c).foldlM inside? (codes, .plain) = some (c.toNat :: codes, .plain) := by
  unfold writeChar
  split
  · subst c
    rfl
  split
  · subst c
    rfl
  split
  · subst c
    rfl
  split
  · subst c
    rfl
  split
  · subst c
    rfl
  split
  · rename_i code
    rw [code]
    rfl
  split
  · rename_i code
    rw [code]
    rfl
  split
  · rename_i control
    exact inside_control control codes
  · rename_i quote backslash _ _ _ _ _ control
    rw [List.foldlM_cons, inside?, if_neg (fun ends => quote ends.2)]
    simp only [readText?, if_neg control, if_neg backslash]
    rfl

/-- Inside a string, a written text gives the codes of its characters. -/
theorem inside_writeText (cs : List Char) (codes : List Nat) :
    (cs.flatMap writeChar).foldlM inside? (codes, .plain) =
      some ((cs.map Char.toNat).reverse ++ codes, .plain) := by
  induction cs generalizing codes with
  | nil => rfl
  | cons c cs ih =>
    rw [List.flatMap_cons, List.foldlM_append, inside_writeChar, Option.bind_eq_bind, Option.bind_some,
      ih, List.map_cons, List.reverse_cons, List.append_assoc, List.singleton_append]

end Json

end Lockspace
