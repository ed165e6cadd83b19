import MetricAlerts.Message.Draw
import MetricAlerts.Proofs.Calendar.DayText
import MetricAlerts.Proofs.Text.Slug

/-!
# What is hashed for a draw

The user, the rule and the day can be told from what is hashed.  A user may have
separators in his name, and even something that looks like a rule and a day, so
the parts are found from the right: neither the text of a day nor a slug has a
separator in it, and whatever comes before these two is the user.
-/

namespace MetricAlerts.Draw

theorem toList_loop (bytes : ByteArray) (place : Nat) (front : List UInt8) :
    ByteArray.toList.loop bytes place front = front.reverse ++ bytes.data.toList.drop place := by
  fun_induction ByteArray.toList.loop bytes place front with
  | case1 place front hplace ih =>
      have hlength : place < bytes.data.toList.length := hplace
      rw [ih, List.drop_eq_getElem_cons hlength]
      simp [ByteArray.get!, hplace]
  | case2 place front hend =>
      rw [List.drop_eq_nil_of_le (Nat.not_lt.1 hend), List.append_nil]

theorem toList_eq_toList_data (bytes : ByteArray) : bytes.toList = bytes.data.toList :=
  toList_loop bytes 0 []

theorem injective_utf8Bytes : Function.Injective utf8Bytes := by
  intro s other hbytes
  simp only [utf8Bytes, toList_eq_toList_data] at hbytes
  exact String.toByteArray_inj.1 (ByteArray.ext (Array.toList_inj.1 hbytes))

theorem utf8Bytes_eq_flatMap (s : String) :
    utf8Bytes s = s.toList.flatMap String.utf8EncodeChar := by
  rw [utf8Bytes, toList_eq_toList_data, ← String.ofList_toList (s := s),
    String.toByteArray_ofList, List.utf8Encode, List.toList_data_toByteArray,
    String.toList_ofList]

/-- The bytes of a character that takes more than one are all at least 128. -/
theorem le_toNat_of_mem_utf8EncodeChar {c : Char} (hc : 128 ≤ c.toNat) :
    ∀ byte ∈ String.utf8EncodeChar c, 128 ≤ byte.toNat := by
  have hlarge {n : Nat} (hn : 128 ≤ n ∧ n < 256) : 128 ≤ (UInt8.ofNat n).toNat := by
    rw [UInt8.toNat_ofNat_of_lt' hn.2]
    exact hn.1
  have hnone := List.forall_mem_nil fun byte : UInt8 => 128 ≤ byte.toNat
  rw [String.utf8EncodeChar]
  split
  · next hone => exact absurd hone (Nat.not_le.2 hc)
  · split
    · simp only [List.forall_mem_cons]
      exact ⟨hlarge (by omega), hlarge (by omega), hnone⟩
    · split
      · simp only [List.forall_mem_cons]
        exact ⟨hlarge (by omega), hlarge (by omega), hlarge (by omega), hnone⟩
      · simp only [List.forall_mem_cons]
        exact ⟨hlarge (by omega), hlarge (by omega), hlarge (by omega), hlarge (by omega), hnone⟩

/-- A byte below 128 is a character of its own, and never part of another one. -/
theorem toNat_of_mem_utf8EncodeChar {c : Char} {byte : UInt8}
    (hbyte : byte ∈ String.utf8EncodeChar c) (hsmall : byte.toNat < 128) :
    c.toNat = byte.toNat := by
  by_cases hc : c.toNat ≤ 127
  · have hone : String.utf8EncodeChar c = [UInt8.ofNat c.toNat] := if_pos hc
    rw [hone, List.mem_singleton] at hbyte
    rw [hbyte, UInt8.toNat_ofNat_of_lt' (Nat.lt_of_le_of_lt hc (by decide))]
  · have hlarge := le_toNat_of_mem_utf8EncodeChar (Nat.lt_of_not_le hc) byte hbyte
    exact absurd hsmall (Nat.not_lt.2 hlarge)

theorem separator_notMem_utf8Bytes {s : String} (hs : ∀ c ∈ s.toList, c.toNat ≠ 31) :
    separator ∉ utf8Bytes s := by
  intro hmem
  rw [utf8Bytes_eq_flatMap] at hmem
  obtain ⟨c, hc, hbyte⟩ := List.mem_flatMap.1 hmem
  exact hs c hc (toNat_of_mem_utf8EncodeChar hbyte (by decide))

variable {front otherFront back otherBack : List UInt8}

theorem eq_nil_of_separator_cons {between rest : List UInt8} (hback : separator ∉ back)
    (hcut : separator :: back = between ++ separator :: rest) : between = [] := by
  cases between with
  | nil => rfl
  | cons byte between =>
      obtain ⟨-, rfl⟩ := List.cons.inj hcut
      simp at hback

/-- Bytes are cut at the last separator among them in one way only. -/
theorem append_separator_inj (hback : separator ∉ back) (hother : separator ∉ otherBack) :
    front ++ separator :: back = otherFront ++ separator :: otherBack ↔
      front = otherFront ∧ back = otherBack := by
  constructor
  · intro hwhole
    obtain ⟨between, rfl, hcut⟩ | ⟨between, rfl, hcut⟩ := List.append_eq_append_iff.1 hwhole
    · obtain rfl := eq_nil_of_separator_cons hback hcut
      exact ⟨(List.append_nil _).symm, (List.cons.inj hcut).2⟩
    · obtain rfl := eq_nil_of_separator_cons hother hcut
      exact ⟨List.append_nil _, (List.cons.inj hcut).2.symm⟩
  · rintro ⟨rfl, rfl⟩
    rfl

theorem separator_notMem_day (day : Day) : separator ∉ utf8Bytes day.text := by
  apply separator_notMem_utf8Bytes
  intro c hc
  rw [Day.text, String.toList_ofList] at hc
  have hcode := Day.toNat_of_mem_chars hc
  omega

theorem separator_notMem_slug {rule : String} (hrule : Text.slug rule = rule) :
    separator ∉ utf8Bytes rule := by
  apply separator_notMem_utf8Bytes
  intro c hc
  have hcode := Text.toNat_of_slugLetter ((Text.slug_eq_self_iff.1 hrule).letters c hc)
  omega

/-- The day stands behind the last separator, the rule behind the one before. -/
theorem seed_eq (user rule : String) (day : Day) :
    seed user rule day =
      (utf8Bytes user ++ separator :: utf8Bytes rule) ++ separator :: utf8Bytes day.text := by
  simp [seed]

/-- The same is hashed for two users, two rules and two days just if all of them
are the same, whatever characters the users are written in. -/
theorem seed_eq_seed_iff {user otherUser rule otherRule : String} {day otherDay : Day}
    (hrule : Text.slug rule = rule) (hother : Text.slug otherRule = otherRule) :
    seed user rule day = seed otherUser otherRule otherDay ↔
      user = otherUser ∧ rule = otherRule ∧ day = otherDay := by
  calc
    seed user rule day = seed otherUser otherRule otherDay
      ↔ utf8Bytes user ++ separator :: utf8Bytes rule =
            utf8Bytes otherUser ++ separator :: utf8Bytes otherRule ∧
          utf8Bytes day.text = utf8Bytes otherDay.text := by
        rw [seed_eq, seed_eq]
        exact append_separator_inj (separator_notMem_day day) (separator_notMem_day otherDay)
    _ ↔ (utf8Bytes user = utf8Bytes otherUser ∧ utf8Bytes rule = utf8Bytes otherRule) ∧
          utf8Bytes day.text = utf8Bytes otherDay.text :=
        and_congr_left' (append_separator_inj (separator_notMem_slug hrule)
          (separator_notMem_slug hother))
    _ ↔ user = otherUser ∧ rule = otherRule ∧ day = otherDay := by
        rw [injective_utf8Bytes.eq_iff, injective_utf8Bytes.eq_iff, injective_utf8Bytes.eq_iff,
          Day.injective_text.eq_iff, and_assoc]

/-- Users whose names go on as another user's with a rule, or with a rule and a day. -/
theorem seed_eq_seed_iff_imitated :
    Text.slug "daily" = "daily" ∧ Text.slug "weekly" = "weekly" ∧
      seed "ada" "daily" Day.first ≠ seed "ada\x1fdaily" "daily" Day.first ∧
      seed "ada" "daily" Day.first ≠ seed "ada\x1fdaily\x1f-262143-01-01" "weekly" Day.last := by
  have hdaily : Text.slug "daily" = "daily" := by decide +kernel
  have hweekly : Text.slug "weekly" = "weekly" := by decide +kernel
  refine ⟨hdaily, hweekly, ?_, ?_⟩
  · intro hseed
    exact absurd ((seed_eq_seed_iff hdaily hdaily).1 hseed).1 (by decide)
  · intro hseed
    exact absurd ((seed_eq_seed_iff hdaily hweekly).1 hseed).1 (by decide)

-- Ids that are no slugs could be taken for part of the user.
example : seed "ada" "weekly\x1fdaily" Day.first = seed "ada\x1fweekly" "daily" Day.first := by
  decide +kernel

end MetricAlerts.Draw
