import Nvscope.Lib.Checked
import Nvscope.Lib.Memory

/-!
# Decimal numerals with an upper bound
-/

namespace Lib

def chr (c : Char) : UInt8 :=
  c.toNat.toUInt8

def isDigit (c : UInt8) : Bool :=
  chr '0' ≤ c && c ≤ chr '9'

def digit (c : UInt8) : Nat :=
  c.toNat - (chr '0').toNat

/-- The usual loop `value = value * 10 + digit`, which gives up at a byte that is no digit and before a
value would pass `max`. -/
def parseDigits (max : Nat) : Nat → CStr → Option Nat
  | value, [] => some value
  | value, c :: cs =>
      if !isDigit c then none
      else if value > (max - digit c) / 10 then none
      else parseDigits max (value * 10 + digit c) cs

/-- The same loop in a signed type that ends at `max`; the inner result is `none` where it gives up. -/
def parseDigitsIn (max : Nat) : Nat → CStr → Option (Option Nat)
  | value, [] => some (some value)
  | value, c :: cs =>
      if !isDigit c then some none
      else if value > (max - digit c) / 10 then some none
      else
        (inType max (value * 10)).bind fun product =>
          (inType max (product + digit c)).bind fun value => parseDigitsIn max value cs

/-! ## What the loop accepts -/

/-- The value of a numeral that follows the digits of `value`. -/
def decimalFrom (value : Nat) (cs : CStr) : Nat :=
  cs.foldl (fun value c => value * 10 + digit c) value

def decimal (cs : CStr) : Nat :=
  decimalFrom 0 cs

theorem digit_le {c : UInt8} (h : isDigit c = true) : digit c ≤ 9 := by
  simp only [isDigit, Bool.and_eq_true, decide_eq_true_eq, UInt8.le_iff_toNat_le] at h
  have h0 : (chr '0').toNat = 48 := by decide
  have h9 : (chr '9').toNat = 57 := by decide
  rw [digit]
  omega

theorem le_decimalFrom (value : Nat) (cs : CStr) : value ≤ decimalFrom value cs := by
  induction cs generalizing value with
  | nil => exact Nat.le_refl _
  | cons c cs ih =>
      have h := ih (value * 10 + digit c)
      rw [decimalFrom, List.foldl_cons]
      rw [decimalFrom] at h
      omega

/-- The loop computes the value of the digits, where all bytes are digits and the value fits. -/
theorem parseDigits_eq {max value : Nat} {cs : CStr} (hmax : 9 ≤ max) (hvalue : value ≤ max) :
    parseDigits max value cs =
      if cs.all isDigit ∧ decimalFrom value cs ≤ max then some (decimalFrom value cs) else none := by
  induction cs generalizing value with
  | nil => simp [parseDigits, decimalFrom, hvalue]
  | cons c cs ih =>
      rw [parseDigits, List.all_cons]
      cases hc : isDigit c with
      | false => simp
      | true =>
          have hd := digit_le hc
          have hcons : decimalFrom value (c :: cs) = decimalFrom (value * 10 + digit c) cs := rfl
          have hle := le_decimalFrom (value * 10 + digit c) cs
          rw [Bool.not_true, if_neg Bool.false_ne_true, Bool.true_and, hcons]
          by_cases hbig : value > (max - digit c) / 10
          · rw [if_pos hbig, if_neg]
            rintro ⟨-, hfits⟩
            omega
          · rw [if_neg hbig, ih (by omega)]

/-- The test of the loop comes before every overflow. -/
theorem parseDigitsIn_eq {max : Nat} (hmax : 9 ≤ max) (value : Nat) (cs : CStr) :
    parseDigitsIn max value cs = some (parseDigits max value cs) := by
  induction cs generalizing value with
  | nil => rfl
  | cons c cs ih =>
      rw [parseDigitsIn, parseDigits]
      cases hc : isDigit c with
      | false => rfl
      | true =>
          have hd := digit_le hc
          rw [Bool.not_true, if_neg Bool.false_ne_true, if_neg Bool.false_ne_true]
          by_cases hbig : value > (max - digit c) / 10
          · rw [if_pos hbig, if_pos hbig]
          · have hproduct : value * 10 ≤ max := by omega
            have hsum : value * 10 + digit c ≤ max := by omega
            rw [if_neg hbig, if_neg hbig, inType_of_le hproduct, Option.bind_some, inType_of_le hsum,
              Option.bind_some]
            exact ih _

end Lib
