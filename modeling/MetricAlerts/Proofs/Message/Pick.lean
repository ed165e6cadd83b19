import Mathlib.Algebra.BigOperators.Ring.List
import MetricAlerts.Message.Pick
import MetricAlerts.Proofs.Decimal.Order
import MetricAlerts.Proofs.Rule.Validity

/-!
# Shares of a total

In exact arithmetic a draw picks the message into whose share of the total it
falls.  The running total and the target are both divided by the greatest
weight, which therefore has no influence, and the running total ends beyond the
target, so that one of the messages is always found.
-/

namespace MetricAlerts

namespace Pick

variable {weights shares : List ℚ} {target total draw factor : ℚ} {place : Nat}

theorem sum_take_nonneg (hshares : ∀ share ∈ shares, 0 ≤ share) (place : Nat) :
    0 ≤ (shares.take place).sum :=
  List.sum_nonneg fun share hshare => hshares share (List.mem_of_mem_take hshare)

/-- The first place beyond a target is the one within which the running total
goes past it. -/
theorem firstBeyond?_eq_some_iff (hshares : ∀ share ∈ shares, 0 ≤ share) (htotal : total ≤ target)
    (place : Nat) :
    firstBeyond? target total shares = some place ↔
      place < shares.length ∧ total + (shares.take place).sum ≤ target ∧
        target < total + (shares.take (place + 1)).sum := by
  induction shares generalizing total place with
  | nil => simp [firstBeyond?]
  | cons share shares ih =>
      have hrest : ∀ share ∈ shares, 0 ≤ share := fun other hother =>
        hshares other (List.mem_cons_of_mem share hother)
      rw [firstBeyond?]
      split
      · next hbeyond =>
          cases place with
          | zero => simpa using ⟨htotal, hbeyond⟩
          | succ place =>
              have hnonneg := sum_take_nonneg hrest place
              have hpast : ¬total + (share + (shares.take place).sum) ≤ target := by linarith
              simp [hpast]
      · next hbelow =>
          cases place with
          | zero => simp [hbelow]
          | succ place =>
              simpa [add_assoc] using ih hrest (not_lt.1 hbelow) place

/-- Some place is found if the last total is beyond the target. -/
theorem exists_firstBeyond? (htarget : target < total + shares.sum) (htotal : total ≤ target) :
    ∃ place, firstBeyond? target total shares = some place := by
  induction shares generalizing total with
  | nil =>
      rw [List.sum_nil, add_zero] at htarget
      exact absurd htarget (not_lt.2 htotal)
  | cons share shares ih =>
      rw [firstBeyond?]
      split
      · exact ⟨0, rfl⟩
      · next hbelow =>
          rw [List.sum_cons, ← add_assoc] at htarget
          obtain ⟨place, hplace⟩ := ih htarget (not_lt.1 hbelow)
          exact ⟨place + 1, by rw [hplace, Option.map_some]⟩

theorem le_foldl_max (weights : List ℚ) (start : ℚ) : start ≤ weights.foldl max start := by
  induction weights generalizing start with
  | nil => exact le_refl start
  | cons weight weights ih => exact (le_max_left start weight).trans (ih _)

theorem greatest_pos (hne : weights ≠ []) (hpos : ∀ weight ∈ weights, 0 < weight) :
    0 < weights.foldl max 0 := by
  obtain ⟨weight, rest, rfl⟩ := List.exists_cons_of_ne_nil hne
  have hweight : 0 < max 0 weight := lt_max_of_lt_right (hpos weight List.mem_cons_self)
  exact hweight.trans_le (le_foldl_max rest _)

theorem sum_take_shares (weights : List ℚ) (place : Nat) :
    ((Pick.shares weights).take place).sum = (weights.take place).sum / weights.foldl max 0 := by
  simp only [Pick.shares, ← List.map_take, div_eq_mul_inv]
  rw [List.sum_map_mul_right, List.map_id']

theorem total_shares (weights : List ℚ) :
    (Pick.shares weights).foldl (· + ·) (-0) = weights.sum / weights.foldl max 0 := by
  have hsum := sum_take_shares weights weights.length
  rw [List.take_of_length_le (by simp [Pick.shares]), List.take_length] at hsum
  rw [neg_zero, ← hsum, List.sum_eq_foldl]

/-- The part of the total weight that comes before a place. -/
def partBefore (weights : List ℚ) (place : Nat) : ℚ :=
  (weights.take place).sum / weights.sum

theorem partBefore_map_mul (weights : List ℚ) (hfactor : factor ≠ 0) (place : Nat) :
    partBefore (weights.map (factor * ·)) place = partBefore weights place := by
  rw [partBefore, ← List.map_take, List.sum_map_mul_left, List.sum_map_mul_left, List.map_id',
    List.map_id']
  exact mul_div_mul_left _ _ hfactor

section Positive

variable (hne : weights ≠ []) (hpos : ∀ weight ∈ weights, 0 < weight)

include hne hpos

theorem shares_nonneg : ∀ share ∈ Pick.shares weights, 0 ≤ share := by
  intro share hshare
  obtain ⟨weight, hweight, rfl⟩ := List.mem_map.1 hshare
  exact (div_pos (hpos weight hweight) (greatest_pos hne hpos)).le

/-- What is found is the place at whose end the weights go beyond the draw. -/
theorem found?_eq_some_iff (hdraw : 0 ≤ draw) (place : Nat) :
    found? weights draw = some place ↔
      place < weights.length ∧ partBefore weights place ≤ draw ∧
        draw < partBefore weights (place + 1) := by
  have hgreatest := greatest_pos hne hpos
  have htotal := List.sum_pos weights hpos hne
  have htarget : 0 ≤ draw * (weights.sum / weights.foldl max 0) :=
    mul_nonneg hdraw (div_pos htotal hgreatest).le
  have hlength : (Pick.shares weights).length = weights.length := List.length_map _
  rw [found?, total_shares, firstBeyond?_eq_some_iff (shares_nonneg hne hpos) htarget, hlength,
    zero_add, zero_add, sum_take_shares, sum_take_shares, ← mul_div_assoc,
    div_le_div_iff_of_pos_right hgreatest, div_lt_div_iff_of_pos_right hgreatest, partBefore,
    partBefore, div_le_iff₀ htotal, lt_div_iff₀ htotal]

/-- A draw below one always falls on some weight. -/
theorem exists_found? (hdraw : 0 ≤ draw) (hless : draw < 1) :
    ∃ place, found? weights draw = some place := by
  have hwhole : 0 < weights.sum / weights.foldl max 0 :=
    div_pos (List.sum_pos weights hpos hne) (greatest_pos hne hpos)
  have hsum := sum_take_shares weights (Pick.shares weights).length
  rw [List.take_length, Pick.shares, List.length_map, List.take_length] at hsum
  rw [found?, total_shares]
  apply exists_firstBeyond?
  · rw [zero_add, Pick.shares, hsum]
    exact mul_lt_of_lt_one_left hwhole hless
  · exact mul_nonneg hdraw hwhole.le

/-- The same factor for all weights changes nothing. -/
theorem found?_map_mul (hfactor : 0 < factor) (hdraw : 0 ≤ draw) :
    found? (weights.map (factor * ·)) draw = found? weights draw := by
  have hscaled : ∀ weight ∈ weights.map (factor * ·), 0 < weight := by
    intro scaled hmem
    obtain ⟨weight, hweight, rfl⟩ := List.mem_map.1 hmem
    exact mul_pos hfactor (hpos weight hweight)
  have hsome : weights.map (factor * ·) ≠ [] := List.map_eq_nil_iff.not.2 hne
  apply Option.ext
  intro place
  rw [found?_eq_some_iff hsome hscaled hdraw, found?_eq_some_iff hne hpos hdraw, List.length_map,
    partBefore_map_mul weights hfactor.ne', partBefore_map_mul weights hfactor.ne']

end Positive

end Pick

namespace Draw

theorem bigEndianValue_lt (bytes : List UInt8) : bigEndianValue bytes < 256 ^ bytes.length := by
  induction bytes using List.reverseRecOn with
  | nil => decide
  | append_singleton bytes byte ih =>
      have hbyte := byte.toNat_lt
      have hvalue : bigEndianValue (bytes ++ [byte]) = 256 * bigEndianValue bytes + byte.toNat := by
        simp [bigEndianValue]
      rw [hvalue, List.length_append, List.length_singleton, Nat.pow_succ]
      omega

theorem leadingBits_lt (digest : List UInt8) : leadingBits digest < 2 ^ 53 := by
  have hvalue := bigEndianValue_lt (digest.take 8)
  have hbytes : 256 ^ (digest.take 8).length ≤ 256 ^ 8 :=
    Nat.pow_le_pow_right (by decide) (List.length_take_le 8 digest)
  have hbits : 256 ^ 8 = 2 ^ 11 * 2 ^ 53 := by decide
  exact Nat.div_lt_of_lt_mul (hvalue.trans_le (hbytes.trans_eq hbits))

/-- A draw is the fraction of its bits exactly, and it lies between zero and
one. -/
theorem value_ofDigest (digest : List UInt8) :
    (ofDigest digest).isFinite = true ∧
      Decimal.value (ofDigest digest) = leadingBits digest / steps ∧
      0 ≤ Decimal.value (ofDigest digest) ∧ Decimal.value (ofDigest digest) < 1 := by
  obtain ⟨hfinite, hvalue⟩ := Decimal.value_div_two_pow (leadingBits_lt digest)
  have hsteps : (0 : ℚ) < 2 ^ 53 := by norm_num
  have hdraw : Decimal.value (ofDigest digest) = leadingBits digest / 2 ^ 53 := hvalue
  refine ⟨hfinite, ?_, ?_, ?_⟩
  · rw [hdraw, steps]
    norm_num
  · rw [hdraw]
    exact div_nonneg (Nat.cast_nonneg _) hsteps.le
  · rw [hdraw, div_lt_one hsteps]
    exact_mod_cast leadingBits_lt digest

end Draw

namespace MessageSet

variable {messages : MessageSet} {ruleId : String} {draw : ℚ}

theorem exact_weights_pos (haccepted : messages.fault? ruleId = none) :
    ∀ weight ∈ messages.candidates.map (Decimal.value ·.weight), 0 < weight := by
  intro weight hweight
  obtain ⟨candidate, hcandidate, rfl⟩ := List.mem_map.1 hweight
  have husable := (fault?_eq_none_iff.1 haccepted).2 candidate hcandidate
  rw [isUsableWeight, Bool.and_eq_true, decide_eq_true_iff] at husable
  exact Decimal.value_pos_of_pos husable.1 husable.2

theorem pickBy_of_accepted (number : Float → ℚ) (haccepted : messages.fault? ruleId = none)
    (draw : ℚ) :
    messages.pickBy number ruleId draw =
      .ok (messages.pickAt (Pick.index (messages.candidates.map (number ·.weight)) draw)) := by
  rw [pickBy, haccepted]

/-- In exact arithmetic, a draw picks the one candidate into whose part of the
total weight it falls.  It is always found within the list, and weights that are
all multiplied by the same factor lead to the same pick.  The draws of digests
are fractions of their leading bits, without rounding, and they are among those
for which this holds. -/
theorem pickBy_falls_into_part (haccepted : messages.fault? ruleId = none) (hdraw : 0 ≤ draw)
    (hless : draw < 1) :
    let weights := messages.candidates.map (Decimal.value ·.weight)
    (∃ place candidate,
      messages.candidates[place]? = some candidate ∧
      messages.pickBy Decimal.value ruleId draw =
        .ok ⟨place, candidate.id.getD (toString place), candidate.text⟩ ∧
      Pick.found? weights draw = some place ∧
      ∀ other, other = place ↔ other < weights.length ∧
        (weights.take other).sum / weights.sum ≤ draw ∧
        draw < (weights.take (other + 1)).sum / weights.sum) ∧
    (∀ factor : ℚ, 0 < factor →
      messages.pickBy (fun weight => factor * Decimal.value weight) ruleId draw =
        messages.pickBy Decimal.value ruleId draw) ∧
    ∀ digest, (Draw.ofDigest digest).isFinite = true ∧
      Decimal.value (Draw.ofDigest digest) = Draw.leadingBits digest / Draw.steps ∧
      0 ≤ Decimal.value (Draw.ofDigest digest) ∧ Decimal.value (Draw.ofDigest digest) < 1 := by
  intro weights
  have hpos : ∀ weight ∈ weights, 0 < weight := exact_weights_pos haccepted
  have hne : weights ≠ [] := List.map_eq_nil_iff.not.2 (fault?_eq_none_iff.1 haccepted).1
  obtain ⟨place, hfound⟩ := Pick.exists_found? hne hpos hdraw hless
  have hindex : Pick.index weights draw = place := by
    rw [Pick.index, hfound, Option.getD_some]
  refine ⟨?_, ?_, Draw.value_ofDigest⟩
  · have hplace : place < messages.candidates.length := by
      have hwithin := ((Pick.found?_eq_some_iff hne hpos hdraw place).1 hfound).1
      rwa [List.length_map] at hwithin
    have hcandidate := List.getElem?_eq_getElem hplace
    refine ⟨place, messages.candidates[place], hcandidate, ?_, hfound, ?_⟩
    · rw [pickBy_of_accepted _ haccepted, hindex, pickAt, hcandidate]
    · intro other
      have hother := Pick.found?_eq_some_iff hne hpos hdraw other
      rw [hfound, Option.some_inj] at hother
      exact eq_comm.trans hother
  · intro factor hfactor
    have hscaled := Pick.found?_map_mul hne hpos hfactor hdraw
    have hweights : messages.candidates.map (factor * Decimal.value ·.weight) =
        weights.map (factor * ·) := (List.map_map ..).symm
    rw [pickBy_of_accepted _ haccepted, pickBy_of_accepted _ haccepted, hweights, Pick.index,
      Pick.index, hscaled, List.length_map]

/-- One part of four goes to the first candidate, three go to the second. -/
def threeToOne : MessageSet := ⟨"en", [⟨none, "low", 1⟩, ⟨some "high", "high", 3⟩]⟩

/-- The first candidate's part is over where the second one's begins. -/
theorem pickBy_falls_into_part_threeToOne :
    threeToOne.fault? "pace" = none ∧ (0 : ℚ) ≤ 1 / 4 ∧ (1 / 4 : ℚ) < 1 ∧
    threeToOne.pickBy Decimal.value "pace" (1 / 4) = .ok ⟨1, "high", "high"⟩ := by
  have haccepted : threeToOne.fault? "pace" = none := by decide +kernel
  obtain ⟨⟨place, candidate, hcandidate, hpick, hfound, hpart⟩, -, -⟩ :=
    pickBy_falls_into_part haccepted (by norm_num : (0 : ℚ) ≤ 1 / 4) (by norm_num)
  refine ⟨haccepted, by norm_num, by norm_num, ?_⟩
  have hplace : 1 = place := (hpart 1).2 (by decide +kernel)
  subst hplace
  cases hcandidate
  exact hpick

end MessageSet

end MetricAlerts
