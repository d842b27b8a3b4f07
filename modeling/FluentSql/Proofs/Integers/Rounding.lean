import FluentSql.Value
import Mathlib.Tactic.Ring

namespace FluentSql

namespace Floating

def integer? (x : Floating) : Option Int := if x.isWhole then x.truncate? else none

variable {x : Floating} {i : Int} {n d k : Nat}

theorem isWhole_of_integer? (h : x.integer? = some i) : x.isWhole = true := by
  unfold integer? at h
  split at h
  · assumption
  · cases h

theorem clampTo_of_integer? (low high : Int) (h : x.integer? = some i) :
    x.clampTo low high = max low (min high i) := by
  have hw := isWhole_of_integer? h
  rw [integer?, if_pos hw] at h
  cases x with
  | finite negative m e =>
    show max low (min high ((finite negative m e).truncate?.getD 0)) = _
    rw [h, Option.getD_some]
  | nan => cases hw
  | infinite negative => cases hw

theorem integer?_reduce (steps m e : Nat) :
    (reduce false steps m e).integer? = some (m * 2 ^ e : Nat) := by
  have hfinite (m e : Nat) : (finite false m e).integer? = some (m * 2 ^ e : Nat) := by
    simp [integer?, isWhole, truncate?, Nat.shiftLeft_eq]
  induction steps generalizing m e with
  | zero => exact hfinite m e
  | succ steps ih =>
    unfold reduce
    split
    · rename_i hm
      rw [hm, Nat.zero_mul]
      rfl
    · split
      · rename_i hm
        have he : (e : Int) + 1 = (e + 1 : Nat) := rfl
        have hhalf : m / 2 * 2 ^ (e + 1) = m * 2 ^ e := by
          rw [Nat.pow_succ', ← Nat.mul_assoc, Nat.div_mul_cancel (Nat.dvd_of_mod_eq_zero hm)]
        rw [he, ih, hhalf]
      · exact hfinite m e

theorem integer?_ofMantissa (m e : Nat) :
    (ofMantissa false m e).integer? = some (m * 2 ^ e : Nat) :=
  integer?_reduce _ m e

/-- A quotient is cut off at its remainder or rounded up over it, whichever is nearer. -/
theorem roundHalfEven_cases (n d : Nat) :
    roundHalfEven n d = n / d ∧ 2 * (n % d) ≤ d ∨
      roundHalfEven n d = n / d + 1 ∧ d ≤ 2 * (n % d) := by
  unfold roundHalfEven
  dsimp only
  split
  · exact .inl ⟨rfl, by omega⟩
  · split
    · exact .inr ⟨rfl, by omega⟩
    · split
      · exact .inl ⟨rfl, by omega⟩
      · exact .inr ⟨rfl, by omega⟩

theorem le_roundHalfEven : n / d ≤ roundHalfEven n d := by
  rcases roundHalfEven_cases n d with ⟨h, -⟩ | ⟨h, -⟩ <;> omega

theorem roundHalfEven_le : roundHalfEven n d ≤ n / d + 1 := by
  rcases roundHalfEven_cases n d with ⟨h, -⟩ | ⟨h, -⟩ <;> omega

/-- Rounding moves by half of a unit at most, and not at all only from what is whole. -/
theorem roundHalfEven_mul (hd : 0 < d) :
    2 * (roundHalfEven n d * d) ≤ 2 * n + d ∧ 2 * n ≤ 2 * (roundHalfEven n d * d) + d ∧
      (roundHalfEven n d * d = n ↔ d ∣ n) := by
  have hn : n / d * d + n % d = n := Nat.div_add_mod' n d
  have hr : n % d < d := Nat.mod_lt n hd
  have hup : (n / d + 1) * d = n / d * d + d := Nat.succ_mul _ _
  rw [Nat.dvd_iff_mod_eq_zero]
  rcases roundHalfEven_cases n d with ⟨h, hdown⟩ | ⟨h, hover⟩
  · rw [h]
    omega
  · rw [h]
    omega

theorem log2Ratio_one (hn : n ≠ 0) : log2Ratio n 1 = n.log2 := by
  have hone : Nat.log2 1 = 0 := by decide
  have hpow : 2 ^ n.log2 ≤ n := Nat.log2_self_le hn
  simp [log2Ratio, hone, Nat.shiftLeft_eq, hpow]

/-- A double keeps the upper 53 bits of an integer, rounded by the bits below. -/
theorem integer?_ofInt_double (hk : k ≤ 960) (hlow : 2 ^ (52 + k) ≤ n)
    (hhigh : n < 2 ^ (53 + k)) :
    (ofInt .double n).integer? = some (roundHalfEven n (2 ^ k) * 2 ^ k : Nat) := by
  have hn : n ≠ 0 := by
    rintro rfl
    exact absurd hlow (by simp)
  have hlog : n.log2 = 52 + k := (Nat.log2_eq_iff hn).2 ⟨hlow, by rwa [Nat.add_right_comm]⟩
  have hexponent : max Format.double.lowest ((n.log2 : Int) - (Format.double.precision - 1)) =
      (k : Int) := by
    rw [hlog]
    simp only [Format.double]
    omega
  have hmantissa : roundHalfEven n (2 ^ k) ≤ 2 ^ 53 := by
    have hquotient : n / 2 ^ k < 2 ^ 53 := by
      rw [Nat.div_lt_iff_lt_mul (Nat.two_pow_pos k), ← Nat.pow_add]
      exact hhigh
    exact roundHalfEven_le.trans hquotient
  have htop : ¬ Format.double.top ≤ (k : Int) + (roundHalfEven n (2 ^ k)).log2 := by
    have hbits : (roundHalfEven n (2 ^ k)).log2 ≤ 53 := by
      by_cases h : roundHalfEven n (2 ^ k) = 0
      · rw [h]
        decide
      · exact Nat.lt_succ_iff.1 ((Nat.log2_lt h).2 (Nat.lt_of_le_of_lt hmantissa (by decide)))
    simp only [Format.double]
    omega
  have hnumber : ofInt .double n = ofMantissa false (roundHalfEven n (2 ^ k)) k := by
    have hsign : decide ((n : Int) < 0) = false := decide_eq_false (by omega)
    rw [ofInt, hsign, Int.natAbs_natCast, ofRatio, if_neg (by simp [hn])]
    simp only [log2Ratio_one hn, hexponent]
    have hzero : (-(k : Int)).toNat = 0 := by omega
    rw [hzero, Int.toNat_natCast, Nat.shiftLeft_zero, Nat.one_shiftLeft, if_neg htop]
  rw [hnumber, integer?_ofMantissa]

end Floating

end FluentSql
