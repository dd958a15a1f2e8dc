import Mathlib.Tactic.Ring
import MaterialLowering.Proofs.Arithmetic.BinaryFormats
import MaterialLowering.Proofs.Texts.JsonText

/-!
# Finite numbers of 64 bits

When a number of 64 bits is finite. The bounds are coarse on purpose: rounding and encoding together
keep a number between its half and its double, which is all that is needed of numbers that stay far
below the greatest one.

Results:
* `Double.toDatum_ofDatum`: what the bits of a finite number denote.
* `Double.within_datum`, `isFinite_neg`, `within_div`: what operations keep finite.
* `Json.finite_read`: the numbers of a text are finite.
-/

namespace MaterialLowering.Numeric

namespace Double

/-- What the bits of a finite number denote: the places in excess are dropped. -/
theorem toDatum_ofDatum {negative : Bool} {units : Nat} (h : units ≤ binary64.largest) :
    (ofDatum (.finite negative units)).toDatum = .finite negative
      (units / power (binary64.excess units) * power (binary64.excess units)) := by
  have fits : binary64.encode (.finite negative units) < 2 ^ 64 :=
    Format.proper_binary64.encode_lt h
  rw [toDatum, ofDatum, Nat.toUInt64_eq, UInt64.toNat_ofNat', Nat.mod_eq_of_lt fits]
  exact Format.proper_binary64.decode_encode h

theorem toDatum_infinite (negative : Bool) :
    (ofDatum (.infinite negative)).toDatum = .infinite negative := by
  cases negative <;> decide +kernel

/-! ## Bounds -/

/-- The number is finite and has at most so many units. -/
def Within (x : Double) (bound : Nat) : Prop :=
  ∃ negative units, x.toDatum = .finite negative units ∧ units ≤ bound

variable {x : Double} {bound : Nat}

theorem Within.isFinite (h : x.Within bound) : x.isFinite := by
  obtain ⟨negative, units, hx, -⟩ := h
  rw [Double.isFinite, hx]

/-- No finite number has more units than the greatest. -/
theorem within_largest (h : x.isFinite) : x.Within binary64.largest := by
  unfold Double.isFinite at h
  split at h
  · rename_i negative units hx
    exact ⟨negative, units, hx, (Format.proper_binary64.holds_of_decode hx).le_largest⟩
  · cases h

theorem within_ofDatum {negative : Bool} {units : Nat} (h : units ≤ bound)
    (below : bound ≤ binary64.largest) : (ofDatum (.finite negative units)).Within bound :=
  ⟨_, _, toDatum_ofDatum (h.trans below), (Nat.div_mul_le_self _ _).trans h⟩

/-- A rounded quotient is finite when its double is. -/
theorem within_datum {negative : Bool} {n d : Nat} (h : 2 * (n / d) + 1 ≤ bound)
    (below : bound ≤ binary64.largest) : (ofDatum (binary64.datum negative n d)).Within bound := by
  have rounded := (binary64.round_le (by decide) n d).trans h
  rw [Format.datum, if_pos (rounded.trans below)]
  exact within_ofDatum rounded below

theorem isFinite_neg (h : x.isFinite) : x.neg.isFinite := by
  obtain ⟨negative, units, hx, small⟩ := within_largest h
  rw [neg, hx]
  exact (within_ofDatum small le_rfl).isFinite

/-- A whole number is infinite, or has at least a quarter of its units. -/
theorem toDatum_ofNat (n : Nat) : (ofNat n).toDatum = .infinite false ∨
    ∃ units, (ofNat n).toDatum = .finite false units ∧ n * binary64.one ≤ 4 * units := by
  rw [ofNat, Format.ofNat, Format.datum]
  split
  · rename_i small
    have rounded := binary64.le_two_mul_round (by decide) (n * binary64.one) 1
    have dropped := binary64.le_two_mul_dropped (by decide) (binary64.round (n * binary64.one) 1)
    rw [Nat.div_one] at rounded
    exact .inr ⟨_, toDatum_ofDatum small, by omega⟩
  · exact .inl (toDatum_infinite false)

/-- A quotient by a positive whole number. -/
theorem within_div {n : Nat} (h : x.Within bound) (some : 0 < n)
    (below : 8 * bound + 1 ≤ binary64.largest) : (x.div (ofNat n)).Within (8 * bound + 1) := by
  obtain ⟨negative, units, hx, small⟩ := h
  rw [div, hx]
  rcases toDatum_ofNat n with hy | ⟨divisor, hy, quarter⟩
  · rw [hy]
    exact within_ofDatum (Nat.zero_le _) below
  · have one := binary64.one_pos
    have whole := Nat.le_mul_of_pos_left binary64.one some
    rw [hy, Format.div, if_neg (by omega)]
    refine within_datum ?_ below
    have quotient : units * binary64.one / divisor ≤ 4 * units := by
      refine Nat.div_le_of_le_mul ?_
      calc units * binary64.one ≤ units * (4 * divisor) := Nat.mul_le_mul_left _ (by omega)
        _ = divisor * (4 * units) := by ring
    omega

end Double

end MaterialLowering.Numeric

namespace MaterialLowering.Json

open Numeric (Double Format binary64 power_mul_le)

/-! ## Numerals -/

/-- Integers of 64 bits have a bound that leaves room for four divisions. -/
theorem exists_bound : ∃ bound, (∀ n ≤ naturalLimit, 2 * (n * binary64.one / 1) + 1 ≤ bound) ∧
    16 ^ 4 * (bound + 1) ≤ binary64.largest := by
  have one := binary64.one_pos
  have room : 2 ^ 81 * binary64.one ≤ binary64.largest := by
    rw [Format.one_eq, Format.largest_eq]
    exact power_mul_le (by decide) (by decide)
  generalize binary64.one = unit at *
  generalize binary64.largest = top at *
  refine ⟨2 * (naturalLimit * unit) + 1, fun n hn => ?_, le_trans ?_ room⟩
  · rw [Nat.div_one]
    exact Nat.succ_le_succ (Nat.mul_le_mul_left _ (Nat.mul_le_mul_right _ hn))
  · rw [show naturalLimit = 2 ^ 64 - 1 from rfl]
    omega

theorem powerOfTen_pos (n : Nat) : 0 < Nat.pow 10 n := Nat.pow_pos (by decide)

/-- Divisions by powers of ten keep a number finite, each by a bound that is eight times as great. -/
theorem isFinite_scaleDown {fuel : Nat} {x : Double} {bound : Nat} (h : x.Within bound)
    (room : 16 ^ fuel * (bound + 1) ≤ binary64.largest) (power : Nat) :
    (scaleDown fuel x power).isFinite := by
  induction fuel generalizing x bound power with
  | zero => exact h.isFinite
  | succ fuel ih =>
    have shrink : 16 ^ fuel * (16 * (bound + 1)) ≤ binary64.largest := by
      rwa [pow_succ, mul_assoc] at room
    have below : 8 * bound + 1 ≤ binary64.largest :=
      le_trans (by omega) ((Nat.le_mul_of_pos_left _ (Nat.pow_pos (by decide))).trans shrink)
    unfold scaleDown
    split
    · exact (Double.within_div h (powerOfTen_pos _) below).isFinite
    · split
      · exact h.isFinite
      · exact ih (Double.within_div h (powerOfTen_pos _) below)
          ((Nat.mul_le_mul_left _ (by omega)).trans shrink) _

/-- What a numeral denotes is finite. -/
def Numeral.Finite (value : Numeral) : Prop := ∀ n, value = .number n → n.toDouble.isFinite

theorem Numeral.finite_number {n : Json.Number} (h : n.toDouble.isFinite) : (number n).Finite := by
  rintro _ ⟨⟩
  exact h

theorem Numeral.finite_outOfRange : outOfRange.Finite := by
  rintro _ ⟨⟩

section

variable {negative : Bool} {significand : Nat} (h : significand ≤ naturalLimit)
include h

theorem exists_within : ∃ bound, 16 ^ 4 * (bound + 1) ≤ binary64.largest ∧
    (Double.ofDatum (binary64.ofNat negative significand)).Within bound := by
  obtain ⟨bound, covers, room⟩ := exists_bound
  exact ⟨bound, room, Double.within_datum (covers _ h)
    ((Nat.le_succ _).trans ((Nat.le_mul_of_pos_left _ (by decide)).trans room))⟩

theorem isFinite_significand :
    (Double.ofDatum (binary64.ofNat negative significand)).isFinite := by
  obtain ⟨bound, -, within⟩ := exists_within h
  exact within.isFinite

theorem finite_scaled (power : Int) : (scaled negative significand power).Finite := by
  obtain ⟨bound, room, start⟩ := @exists_within false _ h
  have signed : ∀ x : Double, x.isFinite →
      (Numeral.number (.double (if negative then x.neg else x))).Finite := by
    intro x hx
    refine Numeral.finite_number ?_
    show (if negative then x.neg else x).isFinite
    split
    · exact Double.isFinite_neg hx
    · exact hx
  unfold scaled
  dsimp only
  split
  · exact signed _ (isFinite_scaleDown start room _)
  · split
    · split
      · rename_i product
        exact signed _ product
      · exact Numeral.finite_outOfRange
    · split
      · exact signed _ start.isFinite
      · exact Numeral.finite_outOfRange

theorem finite_integral : (Numeral.number (integral negative significand)).Finite := by
  refine Numeral.finite_number ?_
  unfold integral
  split
  · exact (isFinite_significand h)
  · split
    · exact (isFinite_significand h)
    · exact Double.isFinite_neg (isFinite_significand h)

variable {power : Int} {text after : List Char} {value : Numeral}

theorem takeDigits_le (count : Nat) (text : List Char) :
    (takeDigits significand count text).1 ≤ naturalLimit := by
  induction text generalizing significand count with
  | nil => exact h
  | cons c rest ih =>
    unfold takeDigits
    split
    · split
      · exact h
      · exact ih (by omega) _
    · exact h

theorem finite_exponentDigits {down : Bool}
    (read : exponentDigits negative significand power down text = .ok (value, after)) :
    value.Finite := by
  cases text with
  | nil => cases read
  | cons c rest =>
    simp only [exponentDigits] at read
    split at read
    · cases read
    · split at read
      · cases read
        exact finite_scaled h _
      · split at read
        · have zero : (scaled negative 0 0).Finite := finite_scaled (Nat.zero_le _) 0
          generalize scaled negative 0 0 = result at zero read
          cases read
          exact zero
        · cases read
          exact Numeral.finite_outOfRange

theorem finite_exponentPart (read : exponentPart negative significand power text = .ok (value, after)) :
    value.Finite := by
  unfold exponentPart at read
  split at read <;> exact finite_exponentDigits h read

theorem finite_scaledPart (read : scaledPart negative significand power text = .ok (value, after)) :
    value.Finite := by
  unfold scaledPart at read
  split at read
  · exact finite_exponentPart h read
  · exact finite_exponentPart h read
  · cases read
    exact finite_scaled h _

theorem finite_fractionPart (read : fractionPart negative significand power text = .ok (value, after)) :
    value.Finite := by
  simp only [fractionPart] at read
  split at read
  · cases read
  · exact finite_scaledPart (takeDigits_le h _ _) read

theorem finite_afterWhole {dropped : Nat}
    (read : afterWhole negative significand dropped text = .ok (value, after)) : value.Finite := by
  unfold afterWhole at read
  split at read
  · exact finite_fractionPart h read
  · split at read
    · exact finite_scaledPart h read
    · exact finite_scaledPart h read
    · split at read
      · cases read
        exact finite_integral h
      · cases read
        exact finite_scaled h _

end

theorem finite_numeral {negative : Bool} {text after : List Char} {value : Numeral}
    (read : numeral negative text = .ok (value, after)) : value.Finite := by
  unfold numeral at read
  split at read
  · cases read
  · split at read
    · split at read
      · cases read
      · exact finite_afterWhole (Nat.zero_le _) read
    · exact finite_afterWhole (Nat.zero_le _) read
  · rename_i c rest _
    split at read
    · cases read
    · exact finite_afterWhole (takeDigits_le (Nat.zero_le _) 0 (c :: rest)) read

/-! ## Texts -/

/-- All numbers of the tree are finite. -/
def Finite (t : Json) : Prop := ∀ n ∈ t.numbers, n.toDouble.isFinite

theorem finite_word {value : Json} (h : value.Finite) (spelling : String) (text : List Char) :
    (word value spelling text).1.Finite := by
  unfold word
  split
  · exact h
  · simp [Finite, stop, numbers]

theorem finite_numeralValue (negative : Bool) (text : List Char) :
    (numeralValue negative text).1.Finite := by
  unfold numeralValue
  split
  · rename_i n rest read
    simpa [Finite, numbers] using finite_numeral read n rfl
  · simp [Finite, numbers]
  · simp [Finite, stop, numbers]

theorem finite_stringValue (text : List Char) : (stringValue text).1.Finite := by
  unfold stringValue
  dsimp only
  split
  · split <;> simp [Finite, numbers]
  · simp [Finite, numbers]

theorem finite_member (name : Json) {value : Json} (h : value.Finite) :
    (member name value).2.Finite := by
  unfold member
  split
  · exact h
  · simp [Finite, numbers]
  · simp [Finite, numbers]

mutual

theorem finite_valueFrom (fuel : Nat) (text : List Char) : (valueFrom fuel text).1.Finite := by
  cases fuel with
  | zero => simp [valueFrom, Finite, stop, numbers]
  | succ fuel =>
    unfold valueFrom
    split
    · simp [Finite, stop, numbers]
    · exact finite_word (by simp [Finite, numbers]) _ _
    · exact finite_word (by simp [Finite, numbers]) _ _
    · exact finite_word (by simp [Finite, numbers]) _ _
    · exact finite_stringValue _
    · exact finite_numeralValue _ _
    · exact finite_itemsFrom fuel true _
    · exact finite_membersFrom fuel true _
    · split
      · exact finite_numeralValue _ _
      · simp [Finite, stop, numbers]

theorem finite_itemsFrom (fuel : Nat) (first : Bool) (text : List Char) :
    ∀ n ∈ numbersOfItems (itemsFrom fuel first text).1, n.toDouble.isFinite := by
  cases fuel with
  | zero => simp [itemsFrom, stop, numbersOfItems, numbers]
  | succ fuel =>
    unfold itemsFrom
    split
    · simp [stop, numbersOfItems, numbers]
    · simp [numbersOfItems]
    · split
      · simp [stop, numbersOfItems, numbers]
      · split
        · simp [stop, numbersOfItems, numbers]
        · exact finite_itemFrom fuel _
    · split
      · exact finite_itemFrom fuel _
      · simp [stop, numbersOfItems, numbers]

theorem finite_itemFrom (fuel : Nat) (text : List Char) :
    ∀ n ∈ numbersOfItems (itemFrom fuel text).1, n.toDouble.isFinite := by
  cases fuel with
  | zero => simp [itemFrom, stop, numbersOfItems, numbers]
  | succ fuel =>
    have value := finite_valueFrom fuel text
    unfold itemFrom
    split <;> rename_i heq <;> rw [heq] at value
    · simpa [numbersOfItems, Finite] using value
    · rename_i rest
      have rest := finite_itemsFrom fuel false rest
      simp only [numbersOfItems, List.forall_mem_append]
      exact ⟨value, rest⟩

theorem finite_membersFrom (fuel : Nat) (first : Bool) (text : List Char) :
    ∀ n ∈ numbersOfMembers (membersFrom fuel first text).1, n.toDouble.isFinite := by
  cases fuel with
  | zero => simp [membersFrom, stopMember, numbersOfMembers, numbers]
  | succ fuel =>
    unfold membersFrom
    split
    · simp [stopMember, numbersOfMembers, numbers]
    · simp [numbersOfMembers]
    · split
      · simp [stopMember, numbersOfMembers, numbers]
      · split
        · simp [stopMember, numbersOfMembers, numbers]
        · exact finite_memberFrom fuel _
        · simp [stopMember, numbersOfMembers, numbers]
    · split
      · exact finite_memberFrom fuel _
      · simp [stopMember, numbersOfMembers, numbers]
    · simp [stopMember, numbersOfMembers, numbers]

theorem finite_memberFrom (fuel : Nat) (text : List Char) :
    ∀ n ∈ numbersOfMembers (memberFrom fuel text).1, n.toDouble.isFinite := by
  cases fuel with
  | zero => simp [memberFrom, stopMember, numbersOfMembers, numbers]
  | succ fuel =>
    have single : ∀ name value, Finite value →
        ∀ n ∈ numbersOfMembers [member name value], n.toDouble.isFinite := fun name value h => by
      simpa [numbersOfMembers, Finite] using finite_member name h
    have none : ∀ fault, (stop fault).Finite := fun fault => by simp [Finite, stop, numbers]
    have name := finite_stringValue text
    unfold memberFrom
    split <;> rename_i heq <;> rw [heq] at name
    · exact single _ _ name
    · split
      · exact single _ _ (none _)
      · rename_i rest _
        have value := finite_valueFrom fuel rest
        split <;> rename_i heq <;> rw [heq] at value
        · exact single _ _ value
        · rename_i rest
          have rest := finite_membersFrom fuel false rest
          simp only [numbersOfMembers, List.forall_mem_append]
          exact ⟨finite_member _ value, rest⟩
      · exact single _ _ (none _)

end

/-- The numbers of a text are finite. -/
theorem finite_read (text : String) : (read text).value.Finite := by
  have value := finite_valueFrom (3 * text.toList.length + 3) text.toList
  unfold read
  dsimp only
  split <;> rename_i heq <;> rwa [heq] at value

end MaterialLowering.Json
