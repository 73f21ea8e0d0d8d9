import Nvscope.Lib.Memory

/-!
# Printed numbers

What `printf` prints for a number of a base up to sixteen, and that it tells the number.
-/

namespace Lib

/-- `%u` and `%x`, without a prefix. -/
def numeral (base n : Nat) : CStr :=
  (Nat.toDigits base n).map fun c => c.toNat.toUInt8

/-- `%d`. -/
def signedNumeral (n : Int) : CStr :=
  if n < 0 then 45 :: numeral 10 n.natAbs else numeral 10 n.natAbs

/-- `%p`. -/
def pointerText (address : UInt64) : CStr :=
  if address = 0 then ascii "(nil)" else ascii "0x" ++ numeral 16 address.toNat

/-- The value of a digit up to `f`. -/
def digitValue (c : UInt8) : Nat :=
  if c.toNat < 58 then c.toNat - 48 else c.toNat - 87

def numeralValue (base : Nat) (cs : CStr) : Nat :=
  cs.foldl (fun value c => value * base + digitValue c) 0

theorem digitValue_digitChar {d : Nat} (h : d < 16) : digitValue (d.digitChar.toNat.toUInt8) = d := by
  decide +revert

theorem numeral_of_lt {base n : Nat} (h : n < base) : numeral base n = [n.digitChar.toNat.toUInt8] := by
  rw [numeral, Nat.toDigits_of_lt_base h]
  rfl

theorem numeral_of_le {base n : Nat} (hbase : 1 < base) (h : base ≤ n) :
    numeral base n = numeral base (n / base) ++ [(n % base).digitChar.toNat.toUInt8] := by
  rw [numeral, Nat.toDigits_of_base_le hbase h, List.map_append]
  rfl

theorem numeralValue_numeral {base : Nat} (hbase : 1 < base) (hmax : base ≤ 16) (n : Nat) :
    numeralValue base (numeral base n) = n := by
  induction n using Nat.strongRecOn with
  | ind n ih =>
      by_cases hlt : n < base
      · rw [numeral_of_lt hlt, numeralValue]
        simp [digitValue_digitChar (Nat.lt_of_lt_of_le hlt hmax)]
      · have hle := Nat.le_of_not_lt hlt
        have hdigit : n % base < 16 := Nat.lt_of_lt_of_le (Nat.mod_lt n (by omega)) hmax
        have hquot := ih (n / base) (Nat.div_lt_self (by omega) hbase)
        rw [numeralValue] at hquot ⊢
        rw [numeral_of_le hbase hle, List.foldl_append, hquot]
        simp [digitValue_digitChar hdigit, Nat.div_add_mod']

theorem numeral_inj {base n n' : Nat} (hbase : 1 < base) (hmax : base ≤ 16) (h : numeral base n = numeral base n') :
    n = n' := by
  rw [← numeralValue_numeral hbase hmax n, h, numeralValue_numeral hbase hmax]

/-- Between `0` and `f`: none of the separators. -/
theorem digit_of_mem_numeral {base n : Nat} {c : UInt8} (hbase : 1 < base) (hmax : base ≤ 16)
    (h : c ∈ numeral base n) : 48 ≤ c.toNat ∧ c.toNat ≤ 102 := by
  have hdigit : ∀ d < 16, 48 ≤ (d.digitChar.toNat.toUInt8).toNat ∧ (d.digitChar.toNat.toUInt8).toNat ≤ 102 := by
    decide
  induction n using Nat.strongRecOn with
  | ind n ih =>
      by_cases hlt : n < base
      · rw [numeral_of_lt hlt, List.mem_singleton] at h
        exact h ▸ hdigit n (Nat.lt_of_lt_of_le hlt hmax)
      · rw [numeral_of_le hbase (Nat.le_of_not_lt hlt), List.mem_append, List.mem_singleton] at h
        cases h with
        | inl h => exact ih (n / base) (Nat.div_lt_self (by omega) hbase) h
        | inr h => exact h ▸ hdigit _ (Nat.lt_of_lt_of_le (Nat.mod_lt n (by omega)) hmax)

theorem signedNumeral_inj {n n' : Int} (h : signedNumeral n = signedNumeral n') : n = n' := by
  have hminus : ∀ m : Nat, (45 : UInt8) ∉ numeral 10 m := by
    intro m hmem
    have hbound := (digit_of_mem_numeral (by decide) (by decide) hmem).1
    exact absurd hbound (by decide)
  simp only [signedNumeral] at h
  split at h <;> split at h
  · have habs := numeral_inj (by decide) (by decide) (List.cons.inj h).2
    omega
  · exact absurd (h ▸ List.mem_cons_self) (hminus n'.natAbs)
  · exact absurd (h ▸ List.mem_cons_self) (hminus n.natAbs)
  · have habs := numeral_inj (by decide) (by decide) h
    omega

/-- A byte that is no digit and no sign. -/
theorem not_mem_signedNumeral {c : UInt8} (hc : c.toNat < 45 ∨ 102 < c.toNat) (n : Int) : c ∉ signedNumeral n := by
  have hdigits : c ∉ numeral 10 n.natAbs := by
    intro hmem
    have hbound := digit_of_mem_numeral (by decide) (by decide) hmem
    omega
  rw [signedNumeral]
  split
  · rw [List.mem_cons, not_or]
    refine ⟨?_, hdigits⟩
    rintro rfl
    exact absurd hc (by decide)
  · exact hdigits

theorem not_mem_numeral {base : Nat} {c : UInt8} (hbase : 1 < base) (hmax : base ≤ 16)
    (hc : c.toNat < 48 ∨ 102 < c.toNat) (n : Nat) : c ∉ numeral base n := by
  intro hmem
  have hbound := digit_of_mem_numeral hbase hmax hmem
  omega

theorem pointerText_inj {address address' : UInt64} (h : pointerText address = pointerText address') :
    address = address' := by
  have hnil : ∀ n : Nat, ascii "(nil)" ≠ ascii "0x" ++ numeral 16 n := by
    intro n heq
    cases heq
  simp only [pointerText] at h
  split at h <;> split at h
  · simp_all
  · exact absurd h (hnil _)
  · exact absurd h.symm (hnil _)
  · exact UInt64.toNat_inj.mp (numeral_inj (by decide) (by decide) (List.append_cancel_left h))

theorem not_mem_pointerText (address : UInt64) : (32 : UInt8) ∉ pointerText address ∧ (10 : UInt8) ∉ pointerText address := by
  have h : ∀ c : UInt8, c.toNat < 48 → c ∉ ascii "(nil)" → c ∉ ascii "0x" → c ∉ pointerText address := by
    intro c hc hnil hpre
    rw [pointerText]
    split
    · exact hnil
    · rw [List.mem_append, not_or]
      exact ⟨hpre, not_mem_numeral (by decide) (by decide) (Or.inl hc) _⟩
  exact ⟨h 32 (by decide) (by decide) (by decide), h 10 (by decide) (by decide) (by decide)⟩

end Lib
