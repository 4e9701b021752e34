import Mathlib.Algebra.GroupWithZero.Nat
import Mathlib.Data.Nat.Basic
import Mathlib.Logic.Equiv.Defs

set_option autoImplicit false

/-!
# Bijective numeration

In bijective base `b` the digits stand for `1, .., b`, so no numeral has a
leading zero and every natural number has exactly one. Digits are given as
`Fin b`, least significant first.
-/
namespace Shapeflow.BijectiveBase
variable (b : ℕ)

def value : List (Fin b) → ℕ
  | [] => 0
  | d :: ds => d + 1 + b * value ds

theorem value_pos {ds : List (Fin b)} (h : ds ≠ []) : 0 < value b ds := by
  cases ds with
  | nil => exact absurd rfl h
  | cons d ds =>
    rw [value]
    omega

/-- Reading a numeral most significant digit first, as a running value. -/
theorem foldl_reverse (ds : List (Fin b)) :
    ds.reverse.foldl (fun (v : ℕ) (d : Fin b) => v * b + (d + 1)) 0 = value b ds := by
  rw [List.foldl_reverse]
  induction ds with
  | nil => rfl
  | cons d ds ih =>
    rw [List.foldr_cons, ih, value, Nat.mul_comm]
    omega

variable [NeZero b]

def digits (n : ℕ) : List (Fin b) :=
  if n = 0 then [] else Fin.ofNat b (n - 1) :: digits ((n - 1) / b)
termination_by n
decreasing_by
  have hle := Nat.div_le_self (n - 1) b
  omega

@[simp] theorem digits_zero : digits b 0 = [] := by
  rw [digits, if_pos rfl]

theorem digits_succ (n : ℕ) : digits b (n + 1) = Fin.ofNat b n :: digits b (n / b) := by
  rw [digits, if_neg (Nat.succ_ne_zero n)]
  rfl

theorem value_digits (n : ℕ) : value b (digits b n) = n := by
  induction n using Nat.strong_induction_on with
  | _ n ih =>
    cases n with
    | zero => rw [digits_zero, value]
    | succ n =>
      have hlt : n / b < n + 1 := by
        have hle := Nat.div_le_self n b
        omega
      have hdiv := Nat.mod_add_div n b
      rw [digits_succ, value, ih _ hlt]
      change n % b + 1 + b * (n / b) = n + 1
      omega

theorem digits_value (ds : List (Fin b)) : digits b (value b ds) = ds := by
  induction ds with
  | nil => exact digits_zero b
  | cons d ds ih =>
    have hb : 0 < b := Nat.pos_of_ne_zero (NeZero.ne b)
    have hval : value b (d :: ds) = (d + b * value b ds) + 1 := by
      rw [value]
      omega
    have hmod : Fin.ofNat b (d + b * value b ds) = d := by
      apply Fin.ext
      change (d + b * value b ds) % b = d
      rw [Nat.add_mul_mod_self_left, Nat.mod_eq_of_lt d.isLt]
    have hdiv : (d + b * value b ds) / b = value b ds := by
      rw [Nat.add_mul_div_left _ _ hb, Nat.div_eq_of_lt d.isLt, Nat.zero_add]
    rw [hval, digits_succ, hmod, hdiv, ih]

/-- Every natural number has exactly one numeral. -/
def numerals : ℕ ≃ List (Fin b) where
  toFun := digits b
  invFun := value b
  left_inv := value_digits b
  right_inv := digits_value b

theorem digits_injective : Function.Injective (digits b) := (numerals b).injective

/-- A larger number has no shorter numeral. -/
theorem length_digits_mono {m n : ℕ} (h : m ≤ n) : (digits b m).length ≤ (digits b n).length := by
  induction n using Nat.strong_induction_on generalizing m with
  | _ n ih =>
    cases m with
    | zero => simp
    | succ m =>
      cases n with
      | zero => omega
      | succ n =>
        have hlt : n / b < n + 1 := by
          have hle := Nat.div_le_self n b
          omega
        have hmn : m / b ≤ n / b := Nat.div_le_div_right (by omega)
        have hrest := ih (n / b) hlt hmn
        rw [digits_succ, digits_succ, List.length_cons, List.length_cons]
        omega

end Shapeflow.BijectiveBase
