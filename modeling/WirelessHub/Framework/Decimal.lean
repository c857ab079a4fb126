import Mathlib.Algebra.Group.Nat.Defs
import Mathlib.Tactic.Common

/-!
# Decimal numbers in ASCII

A number as its digits, and a scanner that reads digits up to the first byte that is none. The
scanner reads back what was written.
-/

namespace WirelessHub.Framework

def digitByte (d : Nat) : UInt8 := UInt8.ofNat (48 + d)

/-- The digits of `n` with recursion depth at most `fuel`. -/
def decimalFrom : Nat → Nat → List UInt8
  | 0, _ => []
  | fuel + 1, n => (if n < 10 then [] else decimalFrom fuel (n / 10)) ++ [digitByte (n % 10)]

def decimal (n : Nat) : List UInt8 := decimalFrom (n + 1) n

def isDigit (b : UInt8) : Bool := 48 ≤ b.toNat && b.toNat ≤ 57

/-- The digits in front and what is behind them. -/
def scanDigits (acc : Nat) : List UInt8 → Nat × List UInt8
  | [] => (acc, [])
  | b :: s => if isDigit b then scanDigits (10 * acc + (b.toNat - 48)) s else (acc, b :: s)

/-- `%u` of `scanf`: spaces, and at least one digit. -/
def scanUnsigned (s : List UInt8) : Option (Nat × List UInt8) :=
  match s.dropWhile (· = 32) with
  | [] => none
  | b :: s => if isDigit b then some (scanDigits 0 (b :: s)) else none

section Digits

variable {n d fuel : Nat}

theorem toNat_digitByte (h : d < 10) : (digitByte d).toNat = 48 + d := by
  rw [digitByte, UInt8.toNat_ofNat', Nat.mod_eq_of_lt (by omega)]

theorem isDigit_digitByte (h : d < 10) : isDigit (digitByte d) = true := by
  simp only [isDigit, toNat_digitByte h, Bool.and_eq_true, decide_eq_true_eq]
  omega

theorem length_decimalFrom_le {k : Nat} (hk : 0 < k) (hn : n < 10 ^ k) :
    (decimalFrom fuel n).length ≤ k := by
  induction fuel generalizing n k with
  | zero => exact Nat.zero_le k
  | succ fuel ih =>
    simp only [decimalFrom, List.length_append, List.length_singleton]
    split
    · exact hk
    · obtain ⟨j, rfl⟩ : ∃ j, k = j + 1 := ⟨k - 1, by omega⟩
      have hdiv : n / 10 < 10 ^ j := by
        rw [Nat.pow_succ] at hn
        omega
      have hj : 0 < j := by
        cases j with
        | zero =>
          rw [Nat.pow_zero] at hdiv
          omega
        | succ j => exact Nat.succ_pos j
      exact Nat.succ_le_succ (ih hj hdiv)

theorem length_decimal_le {k : Nat} (hk : 0 < k) (hn : n < 10 ^ k) : (decimal n).length ≤ k :=
  length_decimalFrom_le hk hn

theorem scanDigits_decimalFrom (hfuel : n < fuel) (acc : Nat) (rest : List UInt8) :
    scanDigits acc (decimalFrom fuel n ++ rest) =
      scanDigits (acc * 10 ^ (decimalFrom fuel n).length + n) rest := by
  induction fuel generalizing n acc rest with
  | zero => omega
  | succ fuel ih =>
    have hmod : n % 10 < 10 := Nat.mod_lt n (by omega)
    have hlast : ∀ acc, scanDigits acc (digitByte (n % 10) :: rest) =
        scanDigits (10 * acc + n % 10) rest := by
      intro acc
      rw [scanDigits, if_pos (isDigit_digitByte hmod), toNat_digitByte hmod, Nat.add_sub_cancel_left]
    simp only [decimalFrom, List.length_append, List.length_singleton]
    split
    · rename_i hlt
      rw [List.nil_append, List.singleton_append, hlast, Nat.mod_eq_of_lt hlt]
      simp [Nat.mul_comm]
    · rename_i hge
      rw [List.append_assoc, List.singleton_append, ih (by omega), hlast]
      congr 1
      rw [Nat.pow_succ, Nat.mul_add, Nat.add_assoc, Nat.div_add_mod, Nat.mul_left_comm,
        Nat.mul_comm 10 (10 ^ _)]

theorem decimalFrom_cons (fuel n : Nat) :
    ∃ d s, d < 10 ∧ decimalFrom (fuel + 1) n = digitByte d :: s := by
  induction fuel generalizing n with
  | zero =>
    refine ⟨n % 10, [], Nat.mod_lt n (by omega), ?_⟩
    simp only [decimalFrom]
    split <;> rfl
  | succ fuel ih =>
    rw [decimalFrom]
    split
    · exact ⟨n % 10, [], Nat.mod_lt n (by omega), rfl⟩
    · obtain ⟨d, s, hd, hs⟩ := ih (n / 10)
      exact ⟨d, s ++ [digitByte (n % 10)], hd, by rw [hs, List.cons_append]⟩

end Digits

/-- What is behind a number does not go on with a digit. -/
def Ends (rest : List UInt8) : Prop := ∀ b s, rest = b :: s → isDigit b = false

theorem scanDigits_of_ends {rest : List UInt8} (h : Ends rest) (acc : Nat) :
    scanDigits acc rest = (acc, rest) := by
  cases rest with
  | nil => rfl
  | cons b s => rw [scanDigits, h b s rfl, if_neg Bool.false_ne_true]

theorem scanUnsigned_decimal {n : Nat} {rest : List UInt8} (h : Ends rest) :
    scanUnsigned (decimal n ++ rest) = some (n, rest) := by
  obtain ⟨d, s, hd, hs⟩ := decimalFrom_cons n n
  have hcons : decimal n ++ rest = digitByte d :: (s ++ rest) := by
    rw [decimal, hs, List.cons_append]
  have hspace : digitByte d ≠ 32 := by
    intro he
    have := toNat_digitByte hd
    rw [he] at this
    have h32 : (32 : UInt8).toNat = 32 := rfl
    omega
  have hscan : scanDigits 0 (decimal n ++ rest) = (n, rest) := by
    rw [decimal, scanDigits_decimalFrom (Nat.lt_succ_self n), Nat.zero_mul, Nat.zero_add,
      scanDigits_of_ends h]
  rw [hcons] at hscan ⊢
  rw [scanUnsigned, List.dropWhile_cons_of_neg (by simpa using hspace)]
  simp only [isDigit_digitByte hd, if_true, hscan]

theorem scanUnsigned_space (s : List UInt8) : scanUnsigned (32 :: s) = scanUnsigned s := by
  rw [scanUnsigned, List.dropWhile_cons_of_pos (by decide)]
  rfl

end WirelessHub.Framework
