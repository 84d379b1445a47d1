import SmartParking.Backend.Domain

namespace SmartParking.Payments

-- What one session has paid: the amount on record, whether it is on record as
-- approved, and what the payment method really collected.
@[ext] structure Account where
  recorded : Option (Soles × Bool)
  collected : Soles
  deriving DecidableEq

namespace Account

variable {account : Account} {amount required : Soles} {approved : Bool}

def cent : Soles := ⟨1⟩

theorem value_le_cent (amount : Soles) : amount.value ≤ 1 / 100 ↔ amount ≤ cent := by
  rw [Decimal.le_def, ← Decimal.value_le_div]
  norm_num [cent]

-- A request to pay up to the required amount. The first one records it in any
-- case, a later one collects what is missing by more than a cent.
def pay (account : Account) (required : Soles) (approved : Bool) : Account :=
  match account.recorded with
  | none => {
      recorded := some (required, approved)
      collected := if approved then account.collected + required else account.collected }
  | some (amount, _) =>
      if required - amount ≤ cent ∨ approved = false then account
      else {
        recorded := some (amount + (required - amount), true)
        collected := account.collected + (required - amount) }

-- An approved record tells what was collected.
def Honest (account : Account) : Prop :=
  ∀ amount, account.recorded = some (amount, true) → amount = account.collected

-- Besides, nothing was collected without one.
def Balanced (account : Account) : Prop :=
  match account.recorded with
  | some (amount, true) => amount = account.collected
  | some (_, false) => account.collected = 0
  | none => account.collected = 0

-- The record is of a rejected charge, and the payment tops it up.
def TopsUpRejected (account : Account) (required : Soles) (approved : Bool) : Prop :=
  ∃ amount, account.recorded = some (amount, false) ∧ amount ≠ 0 ∧ ¬required - amount ≤ cent ∧
    approved = true

-- All that is on record is approved, and not more than the bound.
def Below (account : Account) (bound : Soles) : Prop :=
  ∀ amount status, account.recorded = some (amount, status) → status = true ∧ amount ≤ bound

-- What is on record covers the required amount, to the cent.
def Covers (account : Account) (required : Soles) : Prop :=
  ∃ amount status, account.recorded = some (amount, status) ∧ required - amount ≤ cent

-- What is on record is approved and covers the required amount, to the cent.
def Cleared (account : Account) (required : Soles) : Prop :=
  ∃ amount, account.recorded = some (amount, true) ∧ required - amount ≤ cent

theorem Below.mono {bound more : Soles} (h : account.Below bound) (hle : bound ≤ more) :
    account.Below more := by
  intro amount status hr
  obtain ⟨hs, ha⟩ := h amount status hr
  exact ⟨hs, Int.le_trans ha hle⟩

theorem Balanced.honest (h : account.Balanced) : account.Honest := by
  intro amount hr
  unfold Balanced at h
  rw [hr] at h
  exact h

section Pay

variable {collected : Soles}

theorem pay_none : (Account.mk none collected).pay required approved =
    ⟨some (required, approved), if approved then collected + required else collected⟩ := rfl

-- What is recorded covers the required amount, to the cent.
theorem pay_covered {status : Bool} (h : required - amount ≤ cent) :
    (Account.mk (some (amount, status)) collected).pay required approved =
      ⟨some (amount, status), collected⟩ :=
  if_pos (.inl h)

theorem pay_declined {status : Bool} :
    (Account.mk (some (amount, status)) collected).pay required false =
      ⟨some (amount, status), collected⟩ :=
  if_pos (.inr rfl)

theorem pay_missing {status : Bool} (h : ¬required - amount ≤ cent) :
    (Account.mk (some (amount, status)) collected).pay required true =
      ⟨some (required, true), collected + (required - amount)⟩ := by
  have hpay : ¬(required - amount ≤ cent ∨ true = false) := by simpa using h
  exact (if_neg hpay).trans (by rw [add_sub_cancel])

theorem pay_recorded {status : Bool}
    (h : ¬(Account.mk (some (amount, status)) collected).TopsUpRejected required approved) :
    (Account.mk (some (amount, status)) collected).pay required approved =
        ⟨some (amount, status), collected⟩ ∨
      (status = true ∨ amount = 0) ∧
        (Account.mk (some (amount, status)) collected).pay required approved =
          ⟨some (required, true), collected + (required - amount)⟩ := by
  by_cases hle : required - amount ≤ cent
  · exact .inl (pay_covered hle)
  cases approved with
  | false => exact .inl pay_declined
  | true =>
      refine .inr ⟨?_, pay_missing hle⟩
      by_contra hstatus
      push Not at hstatus
      exact h ⟨amount, by simp [hstatus.1], hstatus.2, hle, rfl⟩

-- A rejected record that covers the amount stays as it is.
theorem cleared_pay_iff : (account.pay required true).Cleared required ↔
    ∀ amount status, account.recorded = some (amount, status) →
      status = true ∨ ¬required - amount ≤ cent := by
  obtain ⟨recorded, collected⟩ := account
  rcases recorded with _ | ⟨amount, status⟩
  · rw [pay_none]
    refine iff_of_true ⟨required, rfl, ?_⟩ nofun
    rw [sub_self]
    exact Int.le_of_lt (by decide : (0 : ℤ) < 1)
  · by_cases hle : required - amount ≤ cent
    · rw [pay_covered hle]
      constructor
      · rintro ⟨other, he, -⟩ amount' status' he'
        obtain ⟨-, hs⟩ := Prod.ext_iff.mp (Option.some.inj (he'.symm.trans he))
        exact .inl hs
      · intro h
        have hstatus := (h amount status rfl).resolve_right (not_not.mpr hle)
        exact ⟨amount, by rw [hstatus], hle⟩
    · rw [pay_missing hle]
      refine iff_of_true ⟨required, rfl, ?_⟩ ?_
      · rw [sub_self]
        exact Int.le_of_lt (by decide : (0 : ℤ) < 1)
      · rintro amount' status' he
        cases he
        exact .inr hle

theorem Balanced.pay (h : account.Balanced)
    (hrejected : ¬account.TopsUpRejected required approved) :
    (account.pay required approved).Balanced := by
  obtain ⟨recorded, collected⟩ := account
  rcases recorded with _ | ⟨amount, status⟩
  · have hzero : collected = 0 := h
    rw [pay_none]
    cases approved with
    | false => exact hzero
    | true =>
        change required = collected + required
        ext
        simp only [hzero, Decimal.units_add, Decimal.units_zero]
        omega
  · rcases pay_recorded hrejected with hsame | ⟨hstatus, hpay⟩
    · rwa [hsame]
    · have hamount : amount = collected := by
        cases status with
        | true => exact h
        | false =>
            have hzero : collected = 0 := h
            rw [hzero]
            exact hstatus.resolve_left (by simp)
      rw [hpay]
      change required = collected + (required - amount)
      ext
      simp only [hamount, Decimal.units_add, Decimal.units_sub]
      omega

-- Otherwise the record shows money that was never collected.
theorem not_honest_pay (h : account.Balanced) (hrejected : account.TopsUpRejected required approved) :
    ¬(account.pay required approved).Honest := by
  obtain ⟨recorded, collected⟩ := account
  obtain ⟨amount, hr, hne, hle, rfl⟩ := hrejected
  obtain rfl : recorded = some (amount, false) := hr
  have hzero : collected = 0 := h
  rw [pay_missing hle]
  intro hhonest
  have hsame : required = collected + (required - amount) := hhonest required rfl
  apply hne
  ext
  have hunits := congrArg Decimal.units hsame
  simp only [hzero, Decimal.units_add, Decimal.units_sub, Decimal.units_zero] at hunits ⊢
  omega

-- A payment does not go above the required amount, and covers it.
theorem Below.pay (h : account.Below required) :
    (account.pay required true).Below required ∧ (account.pay required true).Covers required := by
  obtain ⟨recorded, collected⟩ := account
  have hself : required - required ≤ cent := by
    rw [sub_self]
    exact Int.zero_le_ofNat 1
  rcases recorded with _ | ⟨amount, status⟩
  · rw [pay_none]
    refine ⟨fun amount status hr => ?_, required, true, rfl, hself⟩
    cases hr
    exact ⟨rfl, Int.le_refl _⟩
  · by_cases hle : required - amount ≤ cent
    · rw [pay_covered hle]
      exact ⟨h, amount, status, rfl, hle⟩
    · rw [pay_missing hle]
      refine ⟨fun amount status hr => ?_, required, true, rfl, hself⟩
      cases hr
      exact ⟨rfl, Int.le_refl _⟩

theorem Covers.pay (h : account.Covers required) : account.pay required approved = account := by
  obtain ⟨recorded, collected⟩ := account
  obtain ⟨amount, status, rfl, hle⟩ := h
  exact pay_covered hle

end Pay

end Account

end SmartParking.Payments
