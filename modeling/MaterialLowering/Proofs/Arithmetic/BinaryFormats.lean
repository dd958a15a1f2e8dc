import Mathlib.Tactic.Ring
import MaterialLowering.Numeric.Single

/-!
# Numbers of a binary format

What rounding and encoding do to numbers of units. Rounding to nearest is bounded from both sides, and
it leaves alone what the format holds: a number with no more significant bits than the precision that is
not past the greatest one. The bits of a finite number denote it up to the places that its encoding
drops, so those of a number that the format holds denote just that; and a sum or product that the format
holds is exact.

Main definitions:
* `Format.Proper`: there are bits for a number and for its exponent.
* `Format.Holds`: a number of units that the format has.
* `Datum.value?`: a finite number as an integer of units.

Results:
* `Format.round_le`, `Format.le_two_mul_round`: rounding to nearest, bounded from both sides.
* `Format.Proper.decode_encode`: what the bits of a finite number denote.
* `Format.value?_add`, `Format.value?_mul`: sums and products that are not rounded.
* `Single.value?_mul_one`, `Single.value?_mul_zero`, `Single.add_congr`: zero and one among numbers of 32
  bits.
-/

namespace MaterialLowering.Numeric

theorem power_eq (n : Nat) : power n = 2 ^ n := rfl

theorem power_pos (n : Nat) : 0 < power n := Nat.two_pow_pos n

theorem power_add (m n : Nat) : power (m + n) = power m * power n := Nat.pow_add 2 m n

theorem power_le_power {m n : Nat} (h : m ≤ n) : power m ≤ power n :=
  Nat.pow_le_pow_right (by decide) h

theorem power_mul_le {a b c d : Nat} (some : 0 < c) (h : a + b ≤ d) :
    2 ^ a * power b ≤ c * power d := by
  rw [power_eq b, ← Nat.pow_add]
  exact (power_le_power h).trans (Nat.le_mul_of_pos_left _ some)

/-! ## Rounding -/

theorem nearest_le (n d : Nat) : nearest n d ≤ n / d + 1 := by
  unfold nearest
  grind

theorem le_nearest (n d : Nat) : n / d ≤ nearest n d := by
  unfold nearest
  grind

/-- A whole quotient is its own nearest integer. -/
theorem nearest_of_dvd {n d : Nat} (some : 0 < d) (h : d ∣ n) : nearest n d = n / d := by
  unfold nearest
  dsimp only
  rw [Nat.mod_eq_zero_of_dvd h, if_pos (.inl some)]

namespace Format

variable (f : Format)

/-- Dropping the places in excess leaves something. -/
theorem power_excess_le {units : Nat} (precise : 0 < f.precision) (some : 0 < units) :
    power (f.excess units) ≤ units := by
  refine le_trans ?_ (Nat.log2_self_le (Nat.ne_of_gt some))
  exact Nat.pow_le_pow_right (by decide) (by unfold excess; omega)

theorem largest_eq : f.largest = (power f.precision - 1) * power (power f.exponentBits - 3) := rfl

theorem one_eq : f.one = power (power (f.exponentBits - 1) + f.precision - 3) := rfl

theorem one_pos : 0 < f.one := power_pos _

theorem largest_lt : f.largest < 2 ^ (f.precision + (power f.exponentBits - 3)) := by
  rw [Nat.pow_add, largest_eq, power_eq f.precision, power_eq (power f.exponentBits - 3)]
  exact Nat.mul_lt_mul_of_pos_right (Nat.sub_lt (Nat.two_pow_pos _) (by decide)) (Nat.two_pow_pos _)

/-- What is left without the places in excess is more than half. -/
theorem le_two_mul_dropped (precise : 0 < f.precision) (units : Nat) :
    units ≤ 2 * (units / power (f.excess units) * power (f.excess units)) := by
  rcases Nat.eq_zero_or_pos units with rfl | some
  · exact Nat.zero_le _
  · have unit := power_pos (f.excess units)
    have whole := Nat.le_mul_of_pos_left (power (f.excess units))
      (Nat.div_pos (f.power_excess_le precise some) unit)
    have below := Nat.lt_div_mul_add (a := units) unit
    omega

theorem round_eq (n d : Nat) : f.round n d =
    nearest n (d * power (f.excess (n / d))) * power (f.excess (n / d)) := rfl

theorem round_le (precise : 0 < f.precision) (n d : Nat) : f.round n d ≤ 2 * (n / d) + 1 := by
  have step := Nat.mul_le_mul_right (power (f.excess (n / d)))
    (nearest_le n (d * power (f.excess (n / d))))
  have down := Nat.div_mul_le_self (n / d) (power (f.excess (n / d)))
  rw [← Nat.div_div_eq_div_mul, Nat.add_mul, Nat.one_mul, ← round_eq] at step
  have small : power (f.excess (n / d)) ≤ n / d + 1 := by
    rcases Nat.eq_zero_or_pos (n / d) with zero | some
    · rw [zero, power_eq, excess, Nat.log2_zero, Nat.sub_eq_zero_of_le (by omega), pow_zero]
      exact Nat.le_add_left 1 0
    · exact Nat.le_succ_of_le (f.power_excess_le precise some)
  omega

theorem le_two_mul_round (precise : 0 < f.precision) (n d : Nat) : n / d ≤ 2 * f.round n d := by
  have step := Nat.mul_le_mul_right (power (f.excess (n / d)))
    (le_nearest n (d * power (f.excess (n / d))))
  rw [← Nat.div_div_eq_div_mul, ← round_eq] at step
  have half := f.le_two_mul_dropped precise (n / d)
  omega

/-! ## Encoding -/

/-- There are bits for a number and for its exponent. -/
structure Proper (f : Format) : Prop where
  precise : 0 < f.precision
  wide : 2 ≤ f.exponentBits

theorem proper_binary32 : binary32.Proper := ⟨by decide, by decide⟩

theorem proper_binary64 : binary64.Proper := ⟨by decide, by decide⟩

variable {f}

/-- The least number of full precision, by the number of them all. -/
theorem Proper.power_precision (proper : f.Proper) :
    power f.precision = 2 * power (f.precision - 1) := by
  have precise := proper.precise
  rw [power_eq, power_eq, ← Nat.pow_succ']
  congr 1
  omega

theorem Proper.signBit_eq (proper : f.Proper) :
    f.signBit = power f.exponentBits * power (f.precision - 1) := by
  have precise := proper.precise
  rw [← power_add, signBit]
  congr 1
  omega

theorem Proper.four_le (proper : f.Proper) : 4 ≤ power f.exponentBits :=
  power_le_power (m := 2) proper.wide

/-- The bits of a number stay below those of an infinity. -/
theorem Proper.bits_lt (proper : f.Proper) {drop m : Nat} (place : drop ≤ power f.exponentBits - 3)
    (size : m < power f.precision) : drop * power (f.precision - 1) + m < f.infinityBits := by
  have four := proper.four_le
  rw [proper.power_precision] at size
  calc drop * power (f.precision - 1) + m < (drop + 2) * power (f.precision - 1) := by
        rw [Nat.add_mul]
        omega
    _ ≤ f.infinityBits := Nat.mul_le_mul_right _ (by omega)

/-- The bits of an infinity stay below the sign. -/
theorem Proper.infinityBits_lt (proper : f.Proper) : f.infinityBits < f.signBit := by
  have four := proper.four_le
  rw [proper.signBit_eq]
  exact Nat.mul_lt_mul_of_pos_right (by omega) (power_pos _)

/-- The parts of a finite number: the places in excess and what is left without them. -/
theorem Proper.parts_of_le_largest (proper : f.Proper) {units : Nat} (h : units ≤ f.largest) :
    f.excess units ≤ power f.exponentBits - 3 ∧
      units / power (f.excess units) < power f.precision ∧
      (f.excess units = 0 ∨ power (f.precision - 1) ≤ units / power (f.excess units)) := by
  have precise := proper.precise
  have log : units.log2 < f.precision + (power f.exponentBits - 3) := by
    rcases Nat.eq_zero_or_pos units with rfl | some
    · rw [Nat.log2_zero]
      omega
    · exact (Nat.log2_lt (Nat.ne_of_gt some)).2 (Nat.lt_of_le_of_lt h f.largest_lt)
  have excess : f.excess units = units.log2 + 1 - f.precision := rfl
  have unit := power_pos (f.excess units)
  refine ⟨by omega, ?_, ?_⟩
  · rw [Nat.div_lt_iff_lt_mul unit, ← power_add]
    exact Nat.lt_of_lt_of_le Nat.lt_log2_self (power_le_power (by omega))
  · rcases Nat.eq_zero_or_pos (f.excess units) with zero | dropped
    · exact .inl zero
    · right
      rw [Nat.le_div_iff_mul_le unit, ← power_add]
      have some : units ≠ 0 := by
        rintro rfl
        rw [Nat.log2_zero] at excess
        omega
      exact (power_le_power (by omega)).trans (Nat.log2_self_le some)

/-- What the parts of a number denote. -/
theorem Proper.decode_parts (proper : f.Proper) {negative : Bool} {drop m : Nat}
    (place : drop ≤ power f.exponentBits - 3) (size : m < power f.precision)
    (leading : drop = 0 ∨ power (f.precision - 1) ≤ m) :
    f.decode (drop * power (f.precision - 1) + m + if negative then f.signBit else 0) =
      .finite negative (m * power drop) := by
  have below := proper.bits_lt place size
  have top := proper.infinityBits_lt
  have lead := power_pos (f.precision - 1)
  rw [proper.power_precision] at size
  have magnitude : ((drop * power (f.precision - 1) + m) + if negative then f.signBit else 0) %
      f.signBit = drop * power (f.precision - 1) + m := by
    cases negative
    · exact Nat.mod_eq_of_lt (by simpa using below.trans top)
    · rw [if_pos rfl, Nat.add_mod_right]
      exact Nat.mod_eq_of_lt (below.trans top)
  have signed : decide (f.signBit ≤ (drop * power (f.precision - 1) + m) +
      if negative then f.signBit else 0) = negative := by
    cases negative
    · simpa using below.trans top
    · simp
  unfold decode
  dsimp only
  rw [magnitude, signed, if_neg (Nat.ne_of_lt below), if_neg (Nat.lt_asymm below)]
  by_cases small : m < power (f.precision - 1)
  · have zero : drop = 0 := leading.resolve_right (by omega)
    rw [zero, Nat.zero_mul, Nat.zero_add, if_pos (Nat.div_eq_of_lt small), Nat.mod_eq_of_lt small]
    exact congrArg _ (Nat.mul_one m).symm
  · have split : drop * power (f.precision - 1) + m =
        (m - power (f.precision - 1)) + (drop + 1) * power (f.precision - 1) := by
      rw [Nat.add_mul]
      omega
    have fraction : m - power (f.precision - 1) < power (f.precision - 1) := by omega
    rw [split, Nat.add_mul_div_right _ _ lead, Nat.div_eq_of_lt fraction, Nat.add_mul_mod_self_right,
      Nat.mod_eq_of_lt fraction, if_neg (by omega), Nat.add_sub_cancel' (by omega), Nat.zero_add,
      Nat.add_sub_cancel]

/-- A finite number has bits of the format's width. -/
theorem Proper.encode_lt (proper : f.Proper) {negative : Bool} {units : Nat}
    (h : units ≤ f.largest) :
    f.encode (.finite negative units) < power (f.exponentBits + f.precision) := by
  obtain ⟨place, size, -⟩ := proper.parts_of_le_largest h
  have below := (proper.bits_lt place size).trans proper.infinityBits_lt
  have width : power (f.exponentBits + f.precision) = 2 * f.signBit := by
    rw [power_add, proper.power_precision, proper.signBit_eq]
    ring
  have bits : f.encode (.finite negative units) =
      f.excess units * power (f.precision - 1) + units / power (f.excess units) +
        if negative then f.signBit else 0 := rfl
  rw [width, bits]
  split <;> omega

/-- What the bits of a finite number denote: the places in excess are dropped. -/
theorem Proper.decode_encode (proper : f.Proper) {negative : Bool} {units : Nat}
    (h : units ≤ f.largest) : f.decode (f.encode (.finite negative units)) =
      .finite negative (units / power (f.excess units) * power (f.excess units)) := by
  obtain ⟨place, size, leading⟩ := proper.parts_of_le_largest h
  exact proper.decode_parts place size leading

/-! ## Numbers of the format -/

/-- The number of units is one of the format's: it has no more significant bits than the precision, and
    it is not past the greatest. -/
structure Holds (f : Format) (units : Nat) : Prop where
  le_largest : units ≤ f.largest
  exact : power (f.excess units) ∣ units

theorem holds_zero (f : Format) : f.Holds 0 := ⟨Nat.zero_le _, dvd_zero _⟩

/-- A number that is put together from parts of the format. -/
theorem holds_of_parts {drop m : Nat} (place : drop ≤ power f.exponentBits - 3)
    (size : m < power f.precision) : f.Holds (m * power drop) := by
  refine ⟨Nat.mul_le_mul (Nat.le_pred_of_lt size) (power_le_power place), ?_⟩
  rcases Nat.eq_zero_or_pos m with rfl | some
  · rw [Nat.zero_mul]
    exact dvd_zero _
  · have whole : m * power drop ≠ 0 := Nat.ne_of_gt (Nat.mul_pos some (power_pos drop))
    have bits : m * power drop < 2 ^ (f.precision + drop) := by
      rw [Nat.pow_add]
      exact Nat.mul_lt_mul_of_pos_right size (power_pos drop)
    have log := (Nat.log2_lt whole).2 bits
    have within : f.excess (m * power drop) ≤ drop := by
      unfold excess
      omega
    exact (Nat.pow_dvd_pow 2 within).trans (Nat.dvd_mul_left _ m)

/-- What bits denote is a number of the format. -/
theorem Proper.holds_of_decode (proper : f.Proper) {bits : Nat} {negative : Bool} {units : Nat}
    (h : f.decode bits = .finite negative units) : f.Holds units := by
  have four := proper.four_le
  have lead := power_pos (f.precision - 1)
  have fraction := Nat.mod_lt (bits % f.signBit) lead
  unfold decode at h
  dsimp only at h
  by_cases infinite : bits % f.signBit = f.infinityBits
  · rw [if_pos infinite] at h
    cases h
  by_cases past : f.infinityBits < bits % f.signBit
  · rw [if_neg infinite, if_pos past] at h
    cases h
  rw [if_neg infinite, if_neg past] at h
  split at h
  · cases h
    have size : bits % f.signBit % power (f.precision - 1) < power f.precision := by
      rw [proper.power_precision]
      omega
    have held := holds_of_parts (Nat.zero_le _) size
    rwa [show power 0 = 1 from rfl, Nat.mul_one] at held
  · cases h
    have field : bits % f.signBit / power (f.precision - 1) < power f.exponentBits - 1 := by
      rw [Nat.div_lt_iff_lt_mul lead]
      exact Nat.lt_of_le_of_ne (Nat.le_of_not_lt past) infinite
    refine holds_of_parts (by omega) ?_
    rw [proper.power_precision]
    omega

namespace Holds

variable {units : Nat} (h : f.Holds units)

include h

theorem decode_encode (proper : f.Proper) (negative : Bool) :
    f.decode (f.encode (.finite negative units)) = .finite negative units := by
  rw [proper.decode_encode h.le_largest, Nat.div_mul_cancel h.exact]

/-- Rounding leaves a number of the format alone. -/
theorem datum_eq {d : Nat} (some : 0 < d) (negative : Bool) :
    f.datum negative (units * d) d = .finite negative units := by
  have quotient : units * d / d = units := Nat.mul_div_cancel units some
  have unit := power_pos (f.excess units)
  have whole : d * power (f.excess units) ∣ units * d := by
    rw [Nat.mul_comm d]
    exact Nat.mul_dvd_mul_right h.exact d
  have round : f.round (units * d) d = units := by
    rw [round_eq, quotient, nearest_of_dvd (Nat.mul_pos some unit) whole, ← Nat.div_div_eq_div_mul,
      quotient, Nat.div_mul_cancel h.exact]
  rw [datum, round, if_pos h.le_largest]

end Holds

end Format

/-! ## Exact arithmetic -/

namespace Datum

/-- A finite number as an integer of units. -/
def value? : Datum → Option Int
  | .finite negative units => some (signed negative units)
  | _ => none

variable {a b : Datum} {v w : Int}

theorem value?_eq_some : a.value? = some v ↔
    ∃ negative units, a = .finite negative units ∧ signed negative units = v := by
  cases a <;> simp [value?]

theorem natAbs_signed (negative : Bool) (units : Nat) : (signed negative units).natAbs = units := by
  cases negative <;> simp [signed]

theorem signed_mul (s t : Bool) (m n : Nat) :
    signed s m * signed t n = signed (s != t) (m * n) := by
  cases s <;> cases t <;> simp [signed]

/-- A number has the sign of its value, unless it is zero. -/
theorem signed_natAbs (v : Int) : signed (decide (v < 0)) v.natAbs = v := by
  by_cases negative : v < 0
  · simp only [signed, negative, decide_true, if_true]
    omega
  · simp only [signed, negative, decide_false]
    simp only [Bool.false_eq_true, if_false]
    omega

/-- Finite numbers are numerically equal when their values are. -/
theorem eq_of_value? (ha : a.value? = some v) (hb : b.value? = some w) :
    a.eq b = decide (v = w) := by
  obtain ⟨s, m, rfl, rfl⟩ := value?_eq_some.1 ha
  obtain ⟨t, n, rfl, rfl⟩ := value?_eq_some.1 hb
  rfl

end Datum

namespace Format

variable {f : Format} {a b : Datum} {u v w : Int}

/-- A sum that the format holds is not rounded. -/
theorem value?_add (ha : a.value? = some v) (hb : b.value? = some w)
    (held : f.Holds (v + w).natAbs) : (f.add a b).value? = some (v + w) := by
  obtain ⟨s, m, rfl, rfl⟩ := Datum.value?_eq_some.1 ha
  obtain ⟨t, n, rfl, rfl⟩ := Datum.value?_eq_some.1 hb
  generalize hv : Datum.signed s m + Datum.signed t n = total at held ⊢
  unfold add
  dsimp only
  rw [hv]
  by_cases zero : total = 0
  · rw [if_pos zero, zero]
    cases s && t <;> rfl
  · have exact := held.datum_eq Nat.one_pos (decide (total < 0))
    rw [Nat.mul_one] at exact
    rw [if_neg zero, exact]
    exact congrArg some (Datum.signed_natAbs total)

/-- A product that the format holds is not rounded. -/
theorem value?_mul (ha : a.value? = some v) (hb : b.value? = some w) (product : v * w = u * f.one)
    (held : f.Holds u.natAbs) : (f.mul a b).value? = some u := by
  obtain ⟨s, m, rfl, rfl⟩ := Datum.value?_eq_some.1 ha
  obtain ⟨t, n, rfl, rfl⟩ := Datum.value?_eq_some.1 hb
  rw [Datum.signed_mul] at product
  have units : m * n = u.natAbs * f.one := by
    rw [← Datum.natAbs_signed (s != t) (m * n), product, Int.natAbs_mul, Int.natAbs_natCast]
  have sign : Datum.signed (s != t) u.natAbs = u := by
    have one : (f.one : Int) ≠ 0 := by
      have := f.one_pos
      omega
    refine Int.eq_of_mul_eq_mul_right one ?_
    rw [← product, units]
    cases s != t <;> simp [Datum.signed]
  unfold mul
  dsimp only
  rw [units, held.datum_eq f.one_pos]
  exact congrArg some sign

end Format

/-! ## Single precision -/

namespace Single

/-- A finite number as an integer of units. -/
def value? (x : Single) : Option Int := x.toDatum.value?

variable {x y : Single} {v w : Int}

/-- A finite number has a value, which the format holds. -/
theorem exists_value (h : x.isFinite) : ∃ v, x.value? = some v ∧ binary32.Holds v.natAbs := by
  unfold isFinite at h
  split at h
  · rename_i negative units hx
    refine ⟨Datum.signed negative units, by rw [value?, hx]; rfl, ?_⟩
    rw [Datum.natAbs_signed]
    exact Format.proper_binary32.holds_of_decode hx
  · cases h

theorem value?_zero : zero.value? = some 0 := by decide +kernel

theorem value?_one : one.value? = some (binary32.one : Int) := by decide +kernel

/-- The bits of a number that the format holds have its value. -/
theorem value?_ofDatum {d : Datum} (h : d.value? = some v) (held : binary32.Holds v.natAbs) :
    (ofDatum d).value? = some v := by
  obtain ⟨negative, units, rfl, rfl⟩ := Datum.value?_eq_some.1 h
  rw [Datum.natAbs_signed] at held
  have fits : binary32.encode (.finite negative units) < 2 ^ 32 :=
    Format.proper_binary32.encode_lt held.le_largest
  rw [value?, toDatum, ofDatum, Nat.toUInt32_eq, UInt32.toNat_ofNat', Nat.mod_eq_of_lt fits,
    held.decode_encode Format.proper_binary32]
  rfl

theorem value?_add (hx : x.value? = some v) (hy : y.value? = some w)
    (held : binary32.Holds (v + w).natAbs) : (x + y).value? = some (v + w) :=
  value?_ofDatum (Format.value?_add hx hy held) held

/-- Nothing is lost of a number that is multiplied by one. -/
theorem value?_mul_one (hx : x.value? = some v) (held : binary32.Holds v.natAbs) :
    (x * one).value? = some v :=
  value?_ofDatum (Format.value?_mul hx value?_one rfl held) held

theorem value?_mul_zero (hx : x.value? = some v) : (x * zero).value? = some 0 := by
  have product : v * 0 = 0 * (binary32.one : Int) := by rw [Int.mul_zero, Int.zero_mul]
  exact value?_ofDatum (Format.value?_mul hx value?_zero product (Format.holds_zero _))
    (Format.holds_zero _)

/-- A sum with a number that has no minus sign does not show the sign of a zero. -/
theorem add_congr {n : Nat} (hx : x.value? = some v) (hy : y.value? = some v) {z : Single}
    (hz : z.toDatum = .finite false n) : x + z = y + z := by
  obtain ⟨s, k, atX, rfl⟩ := Datum.value?_eq_some.1 hx
  obtain ⟨t, m, atY, same⟩ := Datum.value?_eq_some.1 hy
  have sum : binary32.add x.toDatum z.toDatum = binary32.add y.toDatum z.toDatum := by
    rw [atX, atY, hz]
    unfold Format.add
    dsimp only
    rw [same, Bool.and_false, Bool.and_false]
  exact congrArg ofDatum sum

/-- Finite numbers are numerically equal when their values are. -/
theorem eq_of_value? (hx : x.value? = some v) (hy : y.value? = some w) : x.eq y = decide (v = w) :=
  Datum.eq_of_value? hx hy

end Single

end MaterialLowering.Numeric
