import DiceHouse.Proofs.Checks
import DiceHouse.Proofs.Sums
import DiceHouse.Round.Stake

/-!
# A round and its tickets

A round keeps the stake on every square, the part of it that predicted the square's sum and the sum
of all; each is a sum over the tickets that were sold. And the tickets cut the stake on a square
into intervals: every unit of it belongs to exactly one. `Round.Sold` says so, and every stake keeps
it, whoever makes it and whether or not it is on a new ticket.

A ticket's prediction may change as long as nothing is staked on it, for then nothing was counted as
predicted.
-/

namespace DiceHouse

namespace Ticket

variable {ν : Type}

/-- The stake on a square, if the ticket predicts its sum. -/
def rightStake (t : Ticket ν) (square : Square) : Nat :=
  if t.prediction = (Roll.ofSquare square).sum then t.staked.get square else 0

/-- Whether a unit of a square's stake is the ticket's. -/
def covers (t : Ticket ν) (square : Square) (unit : Nat) : Prop :=
  t.before.get square ≤ unit ∧ unit < t.before.get square + t.staked.get square

instance (t : Ticket ν) (square : Square) : DecidablePred (t.covers square) := fun _ =>
  inferInstanceAs (Decidable (_ ∧ _))

theorem not_covers_of_zero {t : Ticket ν} {square : Square} (h : t.staked.get square = 0)
    (unit : Nat) : ¬t.covers square unit := by
  unfold covers
  omega

/-- A prediction stays once anything is staked. -/
theorem fixPrediction_ok {t : Ticket ν} {prediction p : Nat}
    (h : t.fixPrediction prediction = .ok p) : t.total = 0 ∨ p = t.prediction := by
  unfold fixPrediction at h
  simp only [bind_eq_ok_iff, require_eq_ok_iff, exists_const] at h
  obtain ⟨-, h⟩ := h
  split at h
  · next hzero => exact .inl hzero
  · simp only [bind_eq_ok_iff, require_eq_ok_iff, exists_const, pure_eq_ok_iff] at h
    exact .inr h.2.symm

end Ticket

namespace Round

variable {κ ν : Type} {r : Round κ} {t : Ticket ν} {rest : Multiset (Ticket ν)}

/-- What a round keeps about its stakes is what its tickets say. -/
structure Sold (r : Round κ) (tickets : Multiset (Ticket ν)) : Prop where
  staked : ∀ square : Square, r.staked.get square = (tickets.map fun t => t.staked.get square).sum
  predicted : ∀ square : Square,
    r.predicted.get square = (tickets.map fun t => t.rightStake square).sum
  /-- A unit of stake is one ticket's. -/
  covered : ∀ (square : Square) (unit : Nat),
    tickets.countP (fun t => t.covers square unit) = if unit < r.staked.get square then 1 else 0
  total : r.totalStaked = ∑ square : Square, r.staked.get square
  totals : ∀ t ∈ tickets, t.total = ∑ square : Square, t.staked.get square

/-- A round that just started sold nothing. -/
theorem sold_start (nobody : κ) (id carryIn expiresAt : Nat) (rentPayer : κ) :
    Sold (start nobody id carryIn expiresAt rentPayer) (0 : Multiset (Ticket ν)) := by
  have hstaked : ∀ square : Square,
      (start nobody id carryIn expiresAt rentPayer).staked.get square = 0 := by
    intro square
    simp [start, blank]
  constructor
  case staked =>
    intro square
    rw [hstaked, Multiset.map_zero, Multiset.sum_zero]
  case predicted =>
    intro square
    simp [start, blank]
  case covered =>
    intro square unit
    rw [hstaked, Multiset.countP_zero, if_neg (Nat.not_lt_zero unit)]
  case total =>
    rw [Finset.sum_eq_zero fun square _ => hstaked square]
    rfl
  case totals =>
    intro t ht
    exact absurd ht (Multiset.notMem_zero t)

/-- A ticket without stakes says nothing. -/
theorem Sold.addIdle (h : Sold r rest) (hstaked : ∀ square : Square, t.staked.get square = 0)
    (htotal : t.total = 0) : Sold r (t ::ₘ rest) := by
  constructor
  case staked =>
    intro square
    rw [Multiset.map_cons, Multiset.sum_cons, hstaked, Nat.zero_add, h.staked]
  case predicted =>
    intro square
    rw [Multiset.map_cons, Multiset.sum_cons, Ticket.rightStake, hstaked, ite_self, Nat.zero_add,
      h.predicted]
  case covered =>
    intro square unit
    rw [Multiset.countP_cons, if_neg (Ticket.not_covers_of_zero (hstaked square) unit), h.covered,
      Nat.add_zero]
  case total => exact h.total
  case totals =>
    intro t' ht'
    rcases Multiset.mem_cons.mp ht' with rfl | hmem
    · rw [htotal, Finset.sum_eq_zero fun square _ => hstaked square]
    · exact h.totals t' hmem

theorem Sold.addBlank (h : Sold r rest) (owner : ν) (id : Nat) :
    Sold r ({ Ticket.blank owner with round := id } ::ₘ rest) :=
  h.addIdle (fun square => by simp [Ticket.blank]) rfl

/-! ## Staking -/

/-- The same stake on copies of the round and the ticket, which are given back when all checks are
passed. -/
def stakeOnCopy (r : Round κ) (ticket : Ticket κ) (square amount prediction : Nat) :
    Except Fault (Round κ × Ticket κ) := do
  require (¬r.isResolved) .alreadyResolved
  let s ← Square.ofNumber square
  require (0 < amount) .invalidAmount
  require (ticket.staked.get s = 0) .alreadyStaked
  let prediction ← ticket.fixPrediction prediction
  let before := r.staked.get s
  let staked ← Amount.add before amount
  let totalStaked ← Amount.add r.totalStaked amount
  let predicted ←
    Amount.add (r.predicted.get s) (if prediction = (Roll.ofSquare s).sum then amount else 0)
  let total ← Amount.add ticket.total amount
  let round : Round κ := { r with
    staked := r.staked.set s staked s.isLt
    predicted := r.predicted.set s predicted s.isLt
    tickets := r.tickets.set s (Amount.addSaturating (r.tickets.get s) 1) s.isLt
    totalStaked }
  let ticket : Ticket κ := { ticket with
    staked := ticket.staked.set s amount s.isLt
    before := ticket.before.set s before s.isLt
    total
    prediction }
  return (round, ticket)

section Copy

variable {square amount prediction : Nat} {t : Ticket κ} {staked : Round κ × Ticket κ}
  {fault : Fault}

/-- Nothing is written in place that is not written on the copies. -/
theorem performs_stakeInPlace (r : Round κ) (t : Ticket κ) (square amount prediction : Nat) :
    Performs (stakeInPlace square amount prediction) (r, t)
      (r.stakeOnCopy t square amount prediction) := by
  unfold stakeInPlace stakeOnCopy
  refine Performs.get ?_
  dsimp only
  -- nine checks come first, and then both records are written
  iterate 9 refine Performs.bind fun _ => ?_
  rfl

theorem stake_eq_onCopy (r : Round κ) (t : Ticket κ) (square amount prediction : Nat) :
    r.stake t square amount prediction = r.stakeOnCopy t square amount prediction := by
  have hperforms := performs_stakeInPlace r t square amount prediction
  unfold Performs at hperforms
  unfold stake stakeOutcome
  rw [hperforms]
  cases r.stakeOnCopy t square amount prediction with
  | error fault => rfl
  | ok staked => rfl

theorem stakeOutcome_of_ok (h : r.stake t square amount prediction = .ok staked) :
    r.stakeOutcome t square amount prediction = (.ok (), staked) := by
  have hperforms := performs_stakeInPlace r t square amount prediction
  rw [← stake_eq_onCopy, h] at hperforms
  exact hperforms

/-- A stake that is refused leaves the round and the ticket as they were. -/
theorem stakeOutcome_of_error (h : r.stake t square amount prediction = .error fault) :
    r.stakeOutcome t square amount prediction = (.error fault, r, t) := by
  have hperforms := performs_stakeInPlace r t square amount prediction
  rw [← stake_eq_onCopy, h] at hperforms
  exact hperforms

end Copy

/-- What a granted stake is. -/
theorem stake_ok {square amount prediction : Nat} {staked : Round κ × Ticket κ} {t : Ticket κ}
    (h : r.stake t square amount prediction = .ok staked) :
    ∃ (s : Square) (p : Nat), square = s.val ∧ r.winner = none ∧ 0 < amount ∧
      t.staked.get s = 0 ∧ t.fixPrediction prediction = .ok p ∧
      r.staked.get s + amount < Amount.limit ∧ r.totalStaked + amount < Amount.limit ∧
      staked.1 = { r with
        staked := r.staked.set s (r.staked.get s + amount) s.isLt
        predicted := r.predicted.set s
          (r.predicted.get s + if p = (Roll.ofSquare s).sum then amount else 0) s.isLt
        tickets := r.tickets.set s (Amount.addSaturating (r.tickets.get s) 1) s.isLt
        totalStaked := r.totalStaked + amount } ∧
      staked.2 = { t with
        staked := t.staked.set s amount s.isLt
        before := t.before.set s (r.staked.get s) s.isLt
        total := t.total + amount
        prediction := p } := by
  rw [stake_eq_onCopy] at h
  unfold stakeOnCopy at h
  simp only [bind_eq_ok_iff, require_eq_ok_iff, exists_const, Amount.add_eq_ok_iff,
    pure_eq_ok_iff] at h
  obtain ⟨hopen, s, hs, hpos, hfresh, p, hp, -, ⟨hlt, rfl⟩, -, ⟨htotal, rfl⟩, -, ⟨-, rfl⟩, -,
    ⟨-, rfl⟩, rfl⟩ := h
  refine ⟨s, p, ?_, ?_, hpos, hfresh, hp, hlt, htotal, rfl, rfl⟩
  · unfold Square.ofNumber at hs
    split at hs
    · cases hs
      rfl
    · cases hs
  · simpa [isResolved] using hopen

/-- A prediction that changes was one of nothing. -/
theorem rightStake_of_fix {t : Ticket ν} {prediction p : Nat}
    (htotal : t.total = ∑ square : Square, t.staked.get square)
    (h : t.fixPrediction prediction = .ok p) (square : Square) :
    (if p = (Roll.ofSquare square).sum then t.staked.get square else 0) = t.rightStake square := by
  unfold Ticket.rightStake
  rcases Ticket.fixPrediction_ok h with hzero | rfl
  · have hnone : t.staked.get square = 0 :=
      Finset.sum_eq_zero_iff.mp (htotal.symm.trans hzero) square (Finset.mem_univ square)
    rw [hnone, ite_self, ite_self]
  · rfl

/-- Every stake keeps the books of its round. -/
theorem Sold.stake {square amount prediction : Nat} {t : Ticket κ} {rest : Multiset (Ticket κ)}
    {staked : Round κ × Ticket κ} (h : Sold r (t ::ₘ rest))
    (hs : r.stake t square amount prediction = .ok staked) : Sold staked.1 (staked.2 ::ₘ rest) := by
  obtain ⟨s, p, -, -, hpos, hfresh, hp, -, -, hround, hticket⟩ := stake_ok hs
  have htotal := h.totals t (Multiset.mem_cons_self t rest)
  rw [hround, hticket]
  constructor
  case staked =>
    intro k
    have hold := h.staked k
    rw [Multiset.map_cons, Multiset.sum_cons] at hold ⊢
    rw [get_set, get_set]
    by_cases hk : k = s
    · subst hk
      rw [if_pos rfl, if_pos rfl, hold, hfresh]
      omega
    · rw [if_neg hk, if_neg hk]
      exact hold
  case predicted =>
    intro k
    have hold := h.predicted k
    have hfix := rightStake_of_fix htotal hp k
    rw [Multiset.map_cons, Multiset.sum_cons] at hold ⊢
    rw [Ticket.rightStake]
    dsimp only
    rw [get_set, get_set]
    by_cases hk : k = s
    · subst hk
      -- nothing was staked on the square, so nothing of it was counted as predicted
      rw [hfresh, ite_self] at hfix
      rw [if_pos rfl, if_pos rfl, hold, ← hfix]
      omega
    · rw [if_neg hk, if_neg hk, hfix]
      exact hold
  case covered =>
    intro k unit
    have hold := h.covered k unit
    rw [Multiset.countP_cons] at hold ⊢
    by_cases hk : k = s
    · -- the new stake lies just above all that was there
      subst hk
      rw [if_neg (Ticket.not_covers_of_zero hfresh unit), Nat.add_zero] at hold
      rw [hold]
      simp only [Ticket.covers, get_set, if_true]
      split_ifs <;> omega
    · simp only [Ticket.covers, get_set, if_neg hk] at hold ⊢
      exact hold
  case total =>
    have hset : (∑ k : Square, (r.staked.set s (r.staked.get s + amount) s.isLt).get k)
        + r.staked.get s = (∑ k : Square, r.staked.get k) + (r.staked.get s + amount) :=
      sum_set (fun _ n => n) _ s _
    dsimp only
    rw [h.total]
    omega
  case totals =>
    intro t' ht'
    rcases Multiset.mem_cons.mp ht' with rfl | hmem
    · have hset : (∑ k : Square, (t.staked.set s amount s.isLt).get k) + t.staked.get s =
          (∑ k : Square, t.staked.get k) + amount := sum_set (fun _ n => n) _ s _
      rw [hfresh] at hset
      dsimp only
      omega
    · exact h.totals t' (Multiset.mem_cons_of_mem hmem)

end Round

end DiceHouse
