import StoreForward.Timestamp

/-!
# Timestamps and the instants they stand for

A clock may hand over the same instant in many ways, for it may leave any number of
whole seconds in the microseconds. `Timestamp.ofParts` brings them all into one
form, with the microseconds below a million, and in that form to compare two
timestamps, seconds first, is to compare the instants as counts of microseconds
(`compare_eq_of_isNormal`). So all that matters is which instant `ofParts` makes of
its two parts (`totalMicros_ofParts`).

As long as the seconds fit into 64 bits it is the instant that was handed over. Where
they do not fit, only the seconds stop. The microseconds go on running through the
last second again and again, and of two instants that end up there the later one may
come out earlier.

## Main definitions

* `instant` — what two parts stand for, however they are split.
* `Fits` — the seconds fit when all of them have been carried.
* `Timestamp.IsNormal` — the microseconds are less than a second.

## Main results

* `Timestamp.compare_eq_of_isNormal` — comparing field by field is comparing instants.
* `Timestamp.ofParts_exact` — where the seconds fit, timestamps are exact and ordered
  as their instants are.
* `Timestamp.ofParts_le_iff` — when they are ordered so elsewhere.
-/

namespace StoreForward

/-! ## Comparing words and pairs -/

theorem compare_toNat_uint64 (a b : UInt64) : compare a b = compare a.toNat b.toNat := by
  show compareOfLessAndEq a b = compareOfLessAndEq a.toNat b.toNat
  simp only [compareOfLessAndEq, UInt64.lt_iff_toNat_lt, ← UInt64.toNat_inj]

theorem compare_toNat_uint32 (a b : UInt32) : compare a b = compare a.toNat b.toNat := by
  show compareOfLessAndEq a b = compareOfLessAndEq a.toNat b.toNat
  simp only [compareOfLessAndEq, UInt32.lt_iff_toNat_lt, ← UInt32.toNat_inj]

/-- To compare whole units, and then what there is beside them, is to compare the
sums. -/
theorem compare_then_eq {unit m n : Nat} (first : m < unit) (second : n < unit) (a b : Nat) :
    (compare a b).then (compare m n) = compare (a * unit + m) (b * unit + n) := by
  rcases Nat.lt_trichotomy a b with less | rfl | more
  · have sums : a * unit + m < b * unit + n := calc
      a * unit + m < (a + 1) * unit := by rw [Nat.succ_mul]; omega
      _ ≤ b * unit := Nat.mul_le_mul_right unit less
      _ ≤ b * unit + n := Nat.le_add_right _ _
    rw [Nat.compare_eq_lt.mpr less, Nat.compare_eq_lt.mpr sums]
    rfl
  · rw [Nat.compare_eq_eq.mpr rfl]
    show compareOfLessAndEq m n = compareOfLessAndEq _ _
    simp only [compareOfLessAndEq, Nat.add_lt_add_iff_left, Nat.add_left_cancel_iff]
  · have sums : b * unit + n < a * unit + m := calc
      b * unit + n < (b + 1) * unit := by rw [Nat.succ_mul]; omega
      _ ≤ a * unit := Nat.mul_le_mul_right unit more
      _ ≤ a * unit + m := Nat.le_add_right _ _
    rw [Nat.compare_eq_gt.mpr more, Nat.compare_eq_gt.mpr sums]
    rfl

/-! ## The two parts -/

/-- The last second that 64 bits can express. -/
def lastSecond : Nat := 18446744073709551615

/-- The instant that seconds and microseconds stand for, in microseconds since the
epoch. -/
def instant (secs : UInt64) (micros : UInt32) : Nat := secs.toNat * 1000000 + micros.toNat

/-- The seconds still fit when those in the microseconds have been carried. -/
def Fits (secs : UInt64) (micros : UInt32) : Prop :=
  secs.toNat + micros.toNat / 1000000 ≤ lastSecond

instance (secs : UInt64) (micros : UInt32) : Decidable (Fits secs micros) :=
  inferInstanceAs (Decidable (_ ≤ lastSecond))

namespace Timestamp

/-- Seconds are added up to the last one. -/
theorem toNat_addSecs (secs extra : UInt64) :
    (addSecs secs extra).toNat = min (secs.toNat + extra.toNat) lastSecond := by
  have size : UInt64.size = 18446744073709551616 := rfl
  unfold addSecs lastSecond
  split
  case isTrue room =>
    rw [UInt64.toNat_add, Nat.mod_eq_of_lt room]
    omega
  case isFalse full =>
    rw [UInt64.toNat_ofNat_of_lt' (Nat.sub_lt (by omega) Nat.one_pos)]
    omega

theorem toNat_secs_ofParts (secs : UInt64) (micros : UInt32) :
    (ofParts secs micros).secs.toNat =
      min (secs.toNat + micros.toNat / 1000000) lastSecond := by
  show (addSecs secs (micros / microsPerSecond).toUInt64).toNat = _
  rw [toNat_addSecs, UInt32.toNat_toUInt64, UInt32.toNat_div]
  rfl

theorem toNat_micros_ofParts (secs : UInt64) (micros : UInt32) :
    (ofParts secs micros).micros.toNat = micros.toNat % 1000000 :=
  UInt32.toNat_mod micros microsPerSecond

/-- The microseconds are less than a second. -/
def IsNormal (t : Timestamp) : Prop := t.micros.toNat < 1000000

theorem isNormal_ofParts (secs : UInt64) (micros : UInt32) : (ofParts secs micros).IsNormal := by
  unfold IsNormal
  rw [toNat_micros_ofParts]
  exact Nat.mod_lt _ (by decide)

/-- The seconds stop at the last one, the microseconds do not. -/
theorem totalMicros_ofParts (secs : UInt64) (micros : UInt32) :
    (ofParts secs micros).totalMicros =
      min (secs.toNat + micros.toNat / 1000000) lastSecond * 1000000 +
        micros.toNat % 1000000 := by
  rw [totalMicros, toNat_secs_ofParts, toNat_micros_ofParts]

/-- To carry seconds out of the microseconds does not change the instant. -/
theorem instant_eq_carried (secs : UInt64) (micros : UInt32) :
    instant secs micros =
      (secs.toNat + micros.toNat / 1000000) * 1000000 + micros.toNat % 1000000 := by
  have whole := Nat.div_add_mod micros.toNat 1000000
  unfold instant
  omega

/-- Nothing is lost where the seconds fit. -/
theorem totalMicros_of_fits {secs : UInt64} {micros : UInt32} (fits : Fits secs micros) :
    (ofParts secs micros).totalMicros = instant secs micros := by
  rw [totalMicros_ofParts, Nat.min_eq_left fits, instant_eq_carried]

/-! ## Order -/

section Order

variable {a b : Timestamp}

/-- To compare timestamps field by field is to compare instants, if the microseconds
are less than a second. -/
theorem compare_eq_of_isNormal (first : a.IsNormal) (second : b.IsNormal) :
    compare a b = compare a.totalMicros b.totalMicros := by
  show (compare a.secs b.secs).then (compare a.micros b.micros) = _
  rw [compare_toNat_uint64, compare_toNat_uint32, compare_then_eq first second]
  rfl

theorem le_iff_of_isNormal (first : a.IsNormal) (second : b.IsNormal) :
    a ≤ b ↔ a.totalMicros ≤ b.totalMicros := by
  show (compare a b).isLE = true ↔ _
  rw [compare_eq_of_isNormal first second]
  exact Nat.isLE_compare

/-- An instant has one timestamp with the microseconds less than a second. -/
theorem eq_iff_of_isNormal (first : a.IsNormal) (second : b.IsNormal) :
    a = b ↔ a.totalMicros = b.totalMicros := by
  refine ⟨congrArg totalMicros, fun same => ?_⟩
  unfold IsNormal at first second
  unfold totalMicros at same
  obtain ⟨secs, micros⟩ := a
  obtain ⟨secs', micros'⟩ := b
  have whole : secs.toNat = secs'.toNat := by
    dsimp only at *
    omega
  have rest : micros.toNat = micros'.toNat := by
    dsimp only at *
    omega
  rw [UInt64.toNat_inj.mp whole, UInt32.toNat_inj.mp rest]

end Order

/-- **Timestamps are exact.** Wherever the seconds fit, a timestamp has its
microseconds below a million and stands for the instant that was handed over; and two
of them compare as their instants do and are equal only if these are, however seconds
and microseconds were split. -/
theorem ofParts_exact {secs secs' : UInt64} {micros micros' : UInt32}
    (fits : Fits secs micros) (fits' : Fits secs' micros') :
    let t := ofParts secs micros
    let t' := ofParts secs' micros'
    (t.micros.toNat < 1000000 ∧
      t.totalMicros = secs.toNat * 1000000 + micros.toNat) ∧
    compare t t' = compare (instant secs micros) (instant secs' micros') ∧
    (t = t' ↔ instant secs micros = instant secs' micros') := by
  intro t t'
  have normal : t.IsNormal := isNormal_ofParts secs micros
  have normal' : t'.IsNormal := isNormal_ofParts secs' micros'
  rw [compare_eq_of_isNormal normal normal', eq_iff_of_isNormal normal normal',
    totalMicros_of_fits fits, totalMicros_of_fits fits']
  exact ⟨⟨normal, rfl⟩, rfl, Iff.rfl⟩

/-- The microseconds carry into the very last second, and the same instant is handed
over in another way. -/
theorem ofParts_exact_last_second :
    Fits 18446744073709551613 2500000 ∧ Fits 18446744073709551615 500000 ∧
      ofParts 18446744073709551613 2500000 = ofParts 18446744073709551615 500000 := by
  have fits : Fits 18446744073709551613 2500000 := by
    decide
  have fits' : Fits 18446744073709551615 500000 := by
    decide
  obtain ⟨_, _, same⟩ := ofParts_exact fits fits'
  exact ⟨fits, fits', same.mpr (by decide)⟩

/-- **When order is kept.** Of two instants the one that is not later never comes out in
a later second. It does not come out later at all unless the other's seconds do not fit,
both come out in the last second, and there the microseconds of the other, with the
seconds carried out of them, are fewer. -/
theorem ofParts_le_iff {secs secs' : UInt64} {micros micros' : UInt32}
    (earlier : instant secs micros ≤ instant secs' micros') :
    let t := ofParts secs micros
    let t' := ofParts secs' micros'
    t.secs.toNat ≤ t'.secs.toNat ∧
      (t ≤ t' ↔ Fits secs' micros' ∨ t.secs.toNat < lastSecond ∨
        micros.toNat % 1000000 ≤ micros'.toNat % 1000000) := by
  intro t t'
  have order : t ≤ t' ↔ t.totalMicros ≤ t'.totalMicros :=
    le_iff_of_isNormal (isNormal_ofParts secs micros) (isNormal_ofParts secs' micros')
  have part : micros.toNat % 1000000 < 1000000 := Nat.mod_lt _ (by decide)
  have part' : micros'.toNat % 1000000 < 1000000 := Nat.mod_lt _ (by decide)
  rw [instant_eq_carried, instant_eq_carried] at earlier
  rw [order, totalMicros_ofParts, totalMicros_ofParts, toNat_secs_ofParts, toNat_secs_ofParts, Fits]
  -- what remains is about the carried seconds and what there is beside them
  generalize secs.toNat + micros.toNat / 1000000 = carried at earlier ⊢
  generalize secs'.toNat + micros'.toNat / 1000000 = carried' at earlier ⊢
  omega

/-- Two instants whose seconds do not fit. -/
theorem ofParts_le_iff_saturated :
    instant 18446744073709551615 1500000 ≤ instant 18446744073709551615 2700000 ∧
      ofParts 18446744073709551615 1500000 ≤ ofParts 18446744073709551615 2700000 := by
  have earlier : instant 18446744073709551615 1500000 ≤ instant 18446744073709551615 2700000 := by
    decide
  exact ⟨earlier, (ofParts_le_iff earlier).2.mpr (.inr (.inr (by decide)))⟩

/-- One microsecond later time has gone back by almost a second. -/
theorem ofParts_inverts_order :
    let t := ofParts 18446744073709551615 999999
    let t' := ofParts 18446744073709551615 1000000
    instant 18446744073709551615 999999 ≤ instant 18446744073709551615 1000000 ∧
      ¬ t ≤ t' ∧ t.totalMicros = t'.totalMicros + 999999 := by
  decide

end Timestamp

end StoreForward
