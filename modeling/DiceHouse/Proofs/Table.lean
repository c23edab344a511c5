import DiceHouse.Proofs.Checks
import DiceHouse.Table

/-!
# What the table books

The bankroll and the part of it that is reserved change by what an operation says and by nothing
else; rolls leave both alone. A table is solvent if its bankroll covers what is reserved. Each way
of booking keeps it so: a reservation takes no more than what is available, and a settlement
releases no less than the profit that it pays.
-/

namespace DiceHouse.Table

variable {t t' : Table}

/-- The bankroll covers what is reserved. -/
def Solvent (t : Table) : Prop := t.reserved ≤ t.bankroll

theorem reserve_ok {stake worst : Nat} (h : t.reserve stake worst = .ok t') :
    worst ≤ t.bankroll - t.reserved ∧ t'.bankroll = t.bankroll ∧
      t'.reserved = t.reserved + worst := by
  unfold reserve at h
  simp only [bind_eq_ok_iff, require_eq_ok_iff, exists_const, Amount.add_eq_ok_iff,
    pure_eq_ok_iff] at h
  obtain ⟨hle, -, ⟨-, rfl⟩, -, -, rfl⟩ := h
  exact ⟨hle, rfl, rfl⟩

theorem solvent_reserve {stake worst : Nat} (h : t.reserve stake worst = .ok t')
    (hs : t.Solvent) : t'.Solvent := by
  obtain ⟨hle, hb, hr⟩ := reserve_ok h
  unfold Solvent at hs ⊢
  omega

theorem book_ok {profit collected released : Nat}
    (h : t.book profit collected released = .ok t') :
    t'.bankroll + profit = t.bankroll + collected ∧ t'.reserved + released = t.reserved := by
  unfold book at h
  simp only [bind_eq_ok_iff, require_eq_ok_iff, exists_const, Amount.add_eq_ok_iff,
    Amount.sub_eq_ok_iff, pure_eq_ok_iff] at h
  obtain ⟨-, ⟨-, rfl⟩, hprofit, -, ⟨hreleased, rfl⟩, -, -, -, -, rfl⟩ := h
  exact ⟨Nat.sub_add_cancel hprofit, Nat.sub_add_cancel hreleased⟩

theorem solvent_book {profit collected released : Nat}
    (h : t.book profit collected released = .ok t') (hle : profit ≤ released) (hs : t.Solvent) :
    t'.Solvent := by
  obtain ⟨hb, hr⟩ := book_ok h
  unfold Solvent at hs ⊢
  omega

theorem fund_ok {amount : Nat} (h : t.fund amount = .ok t') :
    t'.bankroll = t.bankroll + amount ∧ t'.reserved = t.reserved := by
  unfold fund at h
  simp only [bind_eq_ok_iff, Amount.add_eq_ok_iff, pure_eq_ok_iff] at h
  obtain ⟨-, ⟨-, rfl⟩, rfl⟩ := h
  exact ⟨rfl, rfl⟩

/-- A roll moves the line and no money. -/
theorem catchUp_ok {round : Nat} {roll : Roll} {rolled : Table × Option Call}
    (h : t.catchUp round roll = .ok rolled) :
    rolled.1.bankroll = t.bankroll ∧ rolled.1.reserved = t.reserved ∧
      rolled.1.totalCollected = t.totalCollected ∧ rolled.1.totalPayouts = t.totalPayouts := by
  unfold catchUp at h
  split at h
  · rw [pure_eq_ok_iff] at h
    subst h
    exact ⟨rfl, rfl, rfl, rfl⟩
  · simp only [applyRoll, bind_eq_ok_iff, pure_eq_ok_iff] at h
    obtain ⟨q, ⟨next, -, -, -, before, -, rfl⟩, rfl⟩ := h
    exact ⟨rfl, rfl, rfl, rfl⟩

/-! What is counted over the life of the table -/

theorem totals_reserve {stake worst : Nat} (h : t.reserve stake worst = .ok t') :
    t'.totalWagered = t.totalWagered + stake ∧ t'.totalCollected = t.totalCollected ∧
      t'.totalPayouts = t.totalPayouts := by
  unfold reserve at h
  simp only [bind_eq_ok_iff, require_eq_ok_iff, exists_const, Amount.add_eq_ok_iff,
    pure_eq_ok_iff] at h
  obtain ⟨-, -, -, -, ⟨-, rfl⟩, rfl⟩ := h
  exact ⟨rfl, rfl, rfl⟩

theorem totals_fund {amount : Nat} (h : t.fund amount = .ok t') :
    t'.totalWagered = t.totalWagered ∧ t'.totalCollected = t.totalCollected ∧
      t'.totalPayouts = t.totalPayouts := by
  unfold fund at h
  simp only [bind_eq_ok_iff, pure_eq_ok_iff] at h
  obtain ⟨-, -, rfl⟩ := h
  exact ⟨rfl, rfl, rfl⟩

theorem totalWagered_catchUp {round : Nat} {roll : Roll} {rolled : Table × Option Call}
    (h : t.catchUp round roll = .ok rolled) : rolled.1.totalWagered = t.totalWagered := by
  unfold catchUp at h
  split at h
  · rw [pure_eq_ok_iff] at h
    rw [← h]
  · simp only [applyRoll, bind_eq_ok_iff, pure_eq_ok_iff] at h
    obtain ⟨q, ⟨next, -, -, -, before, -, rfl⟩, rfl⟩ := h
    rfl

/-- A table that took no roll is as it was. -/
theorem catchUp_none {round : Nat} {roll : Roll} (h : t.catchUp round roll = .ok (t', none)) :
    t' = t := by
  unfold catchUp at h
  split at h
  · rw [pure_eq_ok_iff] at h
    exact (congrArg Prod.fst h).symm
  · simp only [bind_eq_ok_iff, pure_eq_ok_iff, Prod.mk.injEq, reduceCtorEq, and_false,
      exists_false] at h

end DiceHouse.Table
