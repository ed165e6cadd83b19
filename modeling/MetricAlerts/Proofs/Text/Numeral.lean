import Mathlib.Algebra.Group.Nat.Defs
import MetricAlerts.Text.Numeral

/-!
# Reading numerals

A number is read back from its numeral, also when zeros were put in front of
it, as far as the digits go and no further.
-/

namespace MetricAlerts.Text

theorem digit_cases (n : Nat) :
    isDigit (digitChar n) = true ∧ digitValue (digitChar n) = n % 10 := by
  have hall : ∀ digit < 10, isDigit (Char.ofNat (48 + digit)) = true ∧
      digitValue (Char.ofNat (48 + digit)) = digit := by decide
  exact hall (n % 10) (Nat.mod_lt n (by decide))

theorem digitsValue_concat (cs : List Char) (c : Char) :
    digitsValue (cs ++ [c]) = 10 * digitsValue cs + digitValue c := by
  rw [digitsValue, List.foldl_append, ← digitsValue, List.foldl_cons, List.foldl_nil]

theorem digitsValue_digitsOf {fuel n : Nat} (hn : n < fuel) :
    digitsValue (digitsOf fuel n) = n := by
  induction fuel generalizing n with
  | zero => cases hn
  | succ fuel ih =>
      rw [digitsOf]
      split
      · next hsmall =>
          rw [← List.nil_append [_], digitsValue_concat, (digit_cases n).2]
          exact (Nat.zero_add (n % 10)).trans (Nat.mod_eq_of_lt hsmall)
      · next hlarge =>
          rw [digitsValue_concat, ih (by omega), (digit_cases n).2]
          exact Nat.div_add_mod n 10

theorem isDigit_of_mem_digitsOf {fuel n : Nat} {c : Char} (hc : c ∈ digitsOf fuel n) :
    isDigit c = true := by
  induction fuel generalizing n with
  | zero => cases hc
  | succ fuel ih =>
      rw [digitsOf] at hc
      split at hc
      · rw [List.mem_singleton.1 hc]
        exact (digit_cases n).1
      · rcases List.mem_append.1 hc with hc | hc
        · exact ih hc
        · rw [List.mem_singleton.1 hc]
          exact (digit_cases n).1

theorem length_digitsOf_le {fuel n : Nat} {width : Nat} (hn : n < 10 ^ (width + 1)) :
    (digitsOf fuel n).length ≤ width + 1 := by
  induction fuel generalizing n width with
  | zero => exact Nat.zero_le _
  | succ fuel ih =>
      rw [digitsOf]
      split
      · exact Nat.le_add_left 1 width
      · next hlarge =>
          cases width with
          | zero => exact absurd hn hlarge
          | succ width =>
              rw [Nat.pow_succ] at hn
              rw [List.length_append, List.length_singleton]
              exact Nat.succ_le_succ (ih (Nat.div_lt_of_lt_mul (by rwa [Nat.mul_comm])))

theorem numeral_ne_nil (n : Nat) : numeral n ≠ [] := by
  rw [numeral, digitsOf]
  split
  · exact List.cons_ne_nil _ _
  · simp

variable {width n : Nat}

theorem isDigit_of_mem_padZeros {c : Char} (hc : c ∈ padZeros width (numeral n)) :
    isDigit c = true := by
  rcases List.mem_append.1 hc with hc | hc
  · rw [(List.mem_replicate.1 hc).2]
    rfl
  · exact isDigit_of_mem_digitsOf hc

theorem padZeros_ne_nil (width n : Nat) : padZeros width (numeral n) ≠ [] :=
  List.append_ne_nil_of_right_ne_nil _ (numeral_ne_nil n)

theorem digitsValue_padZeros (width n : Nat) : digitsValue (padZeros width (numeral n)) = n := by
  have hzeros : ∀ count, (List.replicate count '0').foldl
      (fun value c => 10 * value + digitValue c) 0 = 0 := by
    intro count
    induction count with
    | zero => rfl
    | succ count ih => exact ih
  rw [padZeros, digitsValue, List.foldl_append, hzeros]
  exact digitsValue_digitsOf (Nat.lt_succ_self n)

/-- As wide as it should be, and no wider. -/
theorem length_padZeros (hn : n < 10 ^ (width + 1)) :
    (padZeros (width + 1) (numeral n)).length = width + 1 := by
  have hlength : (numeral n).length ≤ width + 1 := length_digitsOf_le hn
  rw [padZeros, List.length_append, List.length_replicate]
  exact Nat.sub_add_cancel hlength

theorem spanDigits_append {digits rest : List Char} {limit : Nat}
    (hdigits : ∀ c ∈ digits, isDigit c = true) (hlimit : digits.length ≤ limit)
    (hrest : ∀ c ∈ rest.head?, isDigit c = false) :
    spanDigits limit (digits ++ rest) = (digits, rest) := by
  induction digits generalizing limit with
  | nil =>
      cases limit with
      | zero => rfl
      | succ limit =>
          cases rest with
          | nil => rfl
          | cons c rest =>
              rw [List.nil_append, spanDigits, hrest c rfl]
              rfl
  | cons c digits ih =>
      obtain ⟨hc, hothers⟩ := List.forall_mem_cons.1 hdigits
      cases limit with
      | zero => cases hlimit
      | succ limit =>
          rw [List.cons_append, spanDigits, hc, ih hothers (Nat.le_of_succ_le_succ hlimit)]
          rfl

/-- A number is read up to where its digits end. -/
theorem takeNumber_padZeros {limit : Nat} {rest : List Char}
    (hlimit : (padZeros width (numeral n)).length ≤ limit)
    (hrest : ∀ c ∈ rest.head?, isDigit c = false) :
    takeNumber limit (padZeros width (numeral n) ++ rest) = some (n, rest) := by
  rw [takeNumber, spanDigits_append (fun _ => isDigit_of_mem_padZeros) hlimit hrest]
  split
  · next hnone =>
      exact absurd (congrArg Prod.fst hnone) (padZeros_ne_nil width n)
  · next hsome =>
      cases hsome
      rw [digitsValue_padZeros]

end MetricAlerts.Text
