/-!
# Faults of the game

A `Fault` is a reason for which the game refuses a request. Each has a number and a sentence;
`Fault.all` lists them in the order of their numbers' families: rounds and settlement from 1000,
invalid requests from 2000, arithmetic from 3000.
-/

namespace DiceHouse

/-- Why the game refuses a request. -/
inductive Fault where
  | windowClosed
  | windowOpen
  | alreadyResolved
  | notResolved
  | staleEpoch
  | alreadySettled
  | bankrollShort
  | roundExpired
  | nothingToClaim
  | seedUnavailable
  | drawExhausted
  | alreadyStaked
  | stillSettleable
  | invalidBet
  | invalidAmount
  | invalidPoint
  | invalidSquare
  | invalidAuthority
  | invalidPrediction
  | invalidSettings
  | overflow
  deriving DecidableEq, Repr

namespace Fault

/-- Every fault once, by family. -/
def all : List Fault :=
  [windowClosed, windowOpen, alreadyResolved, notResolved, staleEpoch, alreadySettled,
    bankrollShort, roundExpired, nothingToClaim, seedUnavailable, drawExhausted, alreadyStaked,
    stillSettleable, invalidBet, invalidAmount, invalidPoint, invalidSquare, invalidAuthority,
    invalidPrediction, invalidSettings, overflow]

/-- The number by which a caller of the program recognises the fault. -/
def code : Fault → Nat
  | windowClosed => 1000
  | windowOpen => 1001
  | alreadyResolved => 1002
  | notResolved => 1003
  | staleEpoch => 1004
  | alreadySettled => 1005
  | bankrollShort => 1006
  | roundExpired => 1007
  | nothingToClaim => 1008
  | seedUnavailable => 1009
  | drawExhausted => 1010
  | alreadyStaked => 1011
  | stillSettleable => 1012
  | invalidBet => 2001
  | invalidAmount => 2002
  | invalidPoint => 2003
  | invalidSquare => 2004
  | invalidAuthority => 2005
  | invalidPrediction => 2006
  | invalidSettings => 2007
  | overflow => 3001

/-- The sentence that tells a person what went wrong. -/
def message : Fault → String
  | windowClosed => "Staking window is closed"
  | windowOpen => "Staking window is still open"
  | alreadyResolved => "Round has already been resolved"
  | notResolved => "Round has not been resolved"
  | staleEpoch => "Round does not follow the last settled epoch"
  | alreadySettled => "Position has already been settled for this round"
  | bankrollShort => "House bankroll insufficient for bet"
  | roundExpired => "Round has expired"
  | nothingToClaim => "No pending winnings to claim"
  | seedUnavailable => "Slot hash for the round is not available"
  | drawExhausted => "Entropy sampler ran out of retries"
  | alreadyStaked => "Miner already staked this square"
  | stillSettleable => "Position can still be settled normally"
  | invalidBet => "Invalid bet type specified"
  | invalidAmount => "Invalid bet amount"
  | invalidPoint => "Invalid point value"
  | invalidSquare => "Invalid board square"
  | invalidAuthority => "Signer is not the position authority"
  | invalidPrediction => "Invalid dice prediction"
  | invalidSettings => "Invalid configuration value"
  | overflow => "Arithmetic operation overflowed"

end Fault

/-- `require c f` goes on when `c` holds and refuses with `f` otherwise. -/
def require (c : Prop) [Decidable c] (f : Fault) : Except Fault Unit :=
  if c then .ok () else .error f

theorem require_eq_ok_iff {c : Prop} [Decidable c] {f : Fault} {u : Unit} :
    require c f = .ok u ↔ c := by
  unfold require
  split <;> simp_all

theorem require_of_true {c : Prop} [Decidable c] (h : c) (f : Fault) : require c f = .ok () :=
  if_pos h

end DiceHouse
