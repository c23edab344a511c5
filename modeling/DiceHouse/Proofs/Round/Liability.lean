import DiceHouse.Proofs.Round.Payout

/-!
# What a round owes

A round owes its whole pool until it is resolved, then what winners have not fetched yet, or nothing
if nobody won. `Round.Standing` says how a round stands with the tickets that have not been cashed
in: what it owes covers them. Each thing that happens to a round moves what it owes by what is paid
in or out.
-/

namespace DiceHouse.Round

variable {κ ν : Type} {r : Round κ} {square : Square}

/-- What a round owes. -/
def liability (r : Round κ) : Nat :=
  match r.winningSquare with
  | .error _ => r.totalStaked + r.carryIn
  | .ok square =>
    if r.staked.get square = 0 then 0
    else r.totalStaked + r.carryIn - r.totalVaulted - r.totalClaimed

theorem liability_open (h : r.winner = none) : r.liability = r.totalStaked + r.carryIn := by
  unfold liability winningSquare
  rw [h]

theorem liability_empty (hw : r.winner = some square.val) (hstaked : r.staked.get square = 0) :
    r.liability = 0 := by
  unfold liability
  rw [winningSquare_eq hw]
  dsimp only
  rw [if_pos hstaked]

theorem liability_won (hw : r.winner = some square.val) (hstaked : r.staked.get square ≠ 0) :
    r.liability = r.totalStaked + r.carryIn - r.totalVaulted - r.totalClaimed := by
  unfold liability
  rw [winningSquare_eq hw]
  dsimp only
  rw [if_neg hstaked]

theorem liability_start (nobody : κ) (id carryIn expiresAt : Nat) (rentPayer : κ) :
    (start nobody id carryIn expiresAt rentPayer).liability = carryIn := by
  rw [liability_open rfl]
  exact Nat.zero_add carryIn

/-- All that the tickets are owed if this square wins. -/
def owed (r : Round κ) (square : Square) (tickets : Multiset (Ticket ν)) : Nat :=
  (tickets.map fun t => (r.due square t).sum).sum

theorem owed_cons (r : Round κ) (square : Square) (t : Ticket ν) (rest : Multiset (Ticket ν)) :
    r.owed square (t ::ₘ rest) = (r.due square t).sum + r.owed square rest := by
  unfold owed
  rw [Multiset.map_cons, Multiset.sum_cons]

/-- How a round stands with the tickets that have not been cashed in. -/
inductive Standing (r : Round κ) (tickets : Multiset (Ticket ν)) : Prop where
  | selling (hopen : r.winner = none) (hsold : r.Sold tickets) (hclaimed : r.totalClaimed = 0)
    (hvaulted : r.totalVaulted = 0)
  | empty (square : Square) (hwinner : r.winner = some square.val)
    (hstaked : r.staked.get square = 0) (hclaimed : r.totalClaimed = 0)
    (hvaulted : r.totalVaulted ≤ r.totalStaked + r.carryIn)
  | paying (square : Square) (hwinner : r.winner = some square.val)
    (hstaked : r.staked.get square ≠ 0)
    (howed : r.totalClaimed + r.owed square tickets + r.totalVaulted
      ≤ r.totalStaked + r.carryIn)

namespace Standing

variable {tickets rest : Multiset (Ticket ν)}

/-- What was fetched and what was taken out never exceed the pool. -/
theorem claimed_le (h : r.Standing tickets) :
    r.totalClaimed + r.totalVaulted ≤ r.totalStaked + r.carryIn := by
  cases h with
  | selling _ _ hclaimed hvaulted => omega
  | empty _ _ _ hclaimed hvaulted => omega
  | paying _ _ _ howed => omega

theorem start (nobody : κ) (id carryIn expiresAt : Nat) (rentPayer : κ) :
    (Round.start nobody id carryIn expiresAt rentPayer).Standing (0 : Multiset (Ticket ν)) :=
  .selling rfl (sold_start nobody id carryIn expiresAt rentPayer) rfl rfl

/-- Whoever stakes may do so on a new ticket. -/
theorem addBlank (h : r.Standing tickets) (hopen : r.winner = none) (owner : ν) (id : Nat) :
    r.Standing ({ Ticket.blank owner with round := id } ::ₘ tickets) := by
  cases h with
  | selling _ hsold hclaimed hvaulted =>
    exact .selling hopen (hsold.addBlank owner id) hclaimed hvaulted
  | empty _ hwinner => cases hopen.symm.trans hwinner
  | paying _ hwinner => cases hopen.symm.trans hwinner

/-- A stake adds to what is owed. -/
theorem stake {t : Ticket κ} {rest : Multiset (Ticket κ)} {s amount prediction : Nat}
    {staked : Round κ × Ticket κ} (h : r.Standing (t ::ₘ rest))
    (hs : r.stake t s amount prediction = .ok staked) :
    staked.1.id = r.id ∧ staked.1.Standing (staked.2 ::ₘ rest) ∧
      staked.1.liability = r.liability + amount := by
  obtain ⟨k, p, -, hopen, -, -, -, -, -, hround, -⟩ := stake_ok hs
  cases h with
  | selling _ hsold hclaimed hvaulted =>
    have hopen' : staked.1.winner = none := by rw [hround, hopen]
    refine ⟨by rw [hround], .selling hopen' (hsold.stake hs) ?_ ?_, ?_⟩
    · rw [hround, hclaimed]
    · rw [hround, hvaulted]
    · rw [liability_open hopen, liability_open hopen', hround]
      exact Nat.add_right_comm _ _ _
  | empty _ hwinner => cases hopen.symm.trans hwinner
  | paying _ hwinner => cases hopen.symm.trans hwinner

/-- A resolution takes out of what is owed what it pays, burns and hands on. -/
theorem resolve {seed : Bytes32} {settings : Settings ν} {resolved : Round κ × Split}
    (h : r.Standing tickets) (hr : r.resolve seed settings = .ok resolved) :
    resolved.1.id = r.id ∧ resolved.1.Standing tickets ∧
      resolved.1.liability + resolved.2.fee + resolved.2.burned + resolved.2.carried
        = r.liability := by
  obtain ⟨square, hdrawn⟩ := resolve_ok hr
  have hopen := hdrawn.open_before
  have hvaulted := hdrawn.vaulted
  refine ⟨hdrawn.id, ?_⟩
  rw [liability_open hopen]
  cases h with
  | selling _ hsold hclaimed _ =>
    rw [← hdrawn.totalClaimed] at hclaimed
    by_cases hstaked : r.staked.get square = 0
    · obtain ⟨hfee, hpool⟩ := hdrawn.empty hstaked
      rw [← hdrawn.staked] at hstaked
      refine ⟨.empty square hdrawn.winner hstaked hclaimed ?_, ?_⟩
      · rw [hdrawn.totalStaked, hdrawn.carryIn]
        omega
      · rw [liability_empty hdrawn.winner hstaked]
        omega
    · obtain ⟨hburned, hcarried, hunit, hpool⟩ := hdrawn.won hstaked
      rw [← hdrawn.staked] at hstaked hunit hpool
      have hle := (hsold.congr hdrawn.staked hdrawn.predicted hdrawn.totalStaked).sum_due_le hunit
      refine ⟨.paying square hdrawn.winner hstaked ?_, ?_⟩
      · rw [hdrawn.totalStaked, hdrawn.carryIn, owed]
        omega
      · rw [liability_won hdrawn.winner hstaked, hdrawn.totalStaked, hdrawn.carryIn]
        omega
  | empty _ hwinner => cases hopen.symm.trans hwinner
  | paying _ hwinner => cases hopen.symm.trans hwinner

/-- What a ticket is paid is taken out of what is owed. -/
theorem claim {r' : Round κ} {t : Ticket ν} {payout : Payout} {amount : Nat} {jackpotWinner : κ}
    (h : r.Standing (t ::ₘ rest)) (hp : r.payout t = .ok payout) (ht : payout.total = .ok amount)
    (hr' : r' = { r with jackpotWinner, totalClaimed := r.totalClaimed + amount }) :
    r'.id = r.id ∧ r'.Standing rest ∧ r'.liability + amount = r.liability := by
  have hamount := Payout.total_eq_ok ht
  have hwinner' : r'.winner = r.winner := by rw [hr']
  have hclaimed' : r'.totalClaimed = r.totalClaimed + amount := by rw [hr']
  have hpool : r'.totalStaked + r'.carryIn = r.totalStaked + r.carryIn := by rw [hr']
  have hvaulted' : r'.totalVaulted = r.totalVaulted := by rw [hr']
  refine ⟨by rw [hr'], ?_⟩
  cases h with
  | selling hopen =>
    -- nothing is paid before a square has won
    unfold Round.payout winningSquare at hp
    rw [hopen] at hp
    cases hp
  | empty square hwinner hstaked hclaimed hvaulted =>
    rw [payout_empty hwinner hstaked hp] at hamount
    have hzero : amount = 0 := hamount
    have hstaked' : r'.staked.get square = 0 := by rw [hr', hstaked]
    refine ⟨.empty square (hwinner'.trans hwinner) hstaked' (by omega) (by omega), ?_⟩
    rw [liability_empty hwinner hstaked, liability_empty (hwinner'.trans hwinner) hstaked', hzero]
  | paying square hwinner hstaked howed =>
    have hstaked' : r'.staked.get square ≠ 0 := by
      rw [hr']
      exact hstaked
    have hsame : r'.owed square rest = r.owed square rest := by
      rw [hr']
      rfl
    rw [payout_ok hwinner hstaked hp] at hamount
    rw [owed_cons, ← hamount] at howed
    refine ⟨.paying square (hwinner'.trans hwinner) hstaked' (by omega), ?_⟩
    rw [liability_won hwinner hstaked, liability_won (hwinner'.trans hwinner) hstaked']
    omega

end Standing

end DiceHouse.Round
