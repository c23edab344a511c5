import DiceHouse.Operation.Administration
import DiceHouse.Operation.Cage
import DiceHouse.Operation.Play
import DiceHouse.Operation.Staking
import DiceHouse.Request

/-!
# The house

`House.process` is the whole program: it takes an instruction, finds the request in it and hands
the accounts to the operation for it. `House.step` is what an instruction does to the ledger: a
refused one does nothing. `House.run` does many, each in its slot.
-/

namespace DiceHouse.House

/-- The spot that a bet is asked on. -/
def spotOf (kindCode number : Nat) : Except Fault Spot :=
  match Spot.Kind.ofCode? kindCode with
  | some kind => Spot.ofRequest kind number
  | none => .error .invalidBet

/-- Grants or refuses a request. -/
def serve (slot : Nat) (request : Request) (accounts : List Access) (ledger : Ledger) :
    Except Refusal Session :=
  match request with
  | .openHouse => Operation.openHouse slot accounts ledger
  | .configure settings => Operation.configure (settings.mapNames ledger.nameOf) accounts ledger
  | .stake amount square prediction =>
    Operation.stake slot amount square prediction accounts ledger
  | .resolve => Operation.resolve slot accounts ledger
  | .claim => Operation.claim slot accounts ledger
  | .bet amount kindCode number => do
    let spot ← spotOf kindCode number
    Operation.bet slot spot amount accounts ledger
  | .settle => Operation.settle accounts ledger
  | .advance => Operation.advance accounts ledger
  | .collect => Operation.collect accounts ledger
  | .fund amount => Operation.fund amount accounts ledger
  | .forfeit => Operation.forfeit accounts ledger

/-- Carries out an instruction in a slot, or refuses it. -/
def process (slot : Nat) (i : Instruction) (ledger : Ledger) : Except Refusal Session := do
  demand (i.program = .program) .wrongProgram
  match Request.decode i.data with
  | some request => serve slot request (Access.unify i.accounts) ledger
  | none => .error .invalidRequest

/-- The ledger after an instruction; a refused one leaves it as it is. -/
def step (ledger : Ledger) (call : Nat × Instruction) : Ledger :=
  match process call.1 call.2 ledger with
  | .ok s => s.ledger
  | .error _ => ledger

/-- The ledger after instructions, each in its slot. -/
def run (ledger : Ledger) (calls : List (Nat × Instruction)) : Ledger := calls.foldl step ledger

theorem run_append (ledger : Ledger) (before after : List (Nat × Instruction)) :
    run ledger (before ++ after) = run (run ledger before) after :=
  List.foldl_append ..

/-- A refused instruction changes nothing. -/
theorem step_of_refused {ledger : Ledger} {call : Nat × Instruction} {r : Refusal}
    (h : process call.1 call.2 ledger = .error r) : step ledger call = ledger := by
  simp [step, h]

end DiceHouse.House
