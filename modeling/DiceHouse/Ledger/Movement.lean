import DiceHouse.Ledger

/-!
# Movements

A movement is what another program does to the ledger for an instruction: the system program opens
an account, the wallet program opens a wallet, the token program transfers or burns. Each happens
as a whole or is refused. `signed` names the house's own accounts that signed; a house account has
no secret key, so only the program can sign for it.
-/

namespace DiceHouse

/-- What another program does to the ledger. -/
inductive Movement where
  /-- Opens an account of so many zero bytes. -/
  | createAccount (payer account owner : Address) (space : Nat) (signed : List Address)
  /-- Opens the wallet of an owner for a token. -/
  | openWallet (payer account owner : Address) (token : Token)
  | transfer (source target authority : Address) (amount : Nat) (signed : List Address)
  | burn (source mint authority : Address) (amount : Nat) (signed : List Address)
  deriving DecidableEq, Repr

namespace Ledger

/-- Opens an account of so many zero bytes. -/
def createAccount (l : Ledger) (payer account owner : Address) (space : Nat) :
    Except Refusal Ledger := do
  let paid ← l.pay payer account (rent space)
  return paid.put account
    { paid account with owner, contents := .bytes (List.replicate space 0) }

/-- Opens the wallet of an owner for a token. It has to be one of the two accounts handed over, and
that is judged before the payer is charged. -/
def openWallet (l : Ledger) (payer account owner : Address) (token : Token) :
    Except Refusal Ledger := do
  let a : Address := .wallet owner token
  demand (a = account ∨ a = payer) .wrongAccounts
  let paid ← l.pay payer a (rent Wallet.length)
  return paid.put a
    { paid a with
      owner := .tokenProgram
      contents := .wallet { mint := .mint token, owner, amount := 0 } }

/-- Moves an amount from one wallet to another of the same token. -/
def transfer (l : Ledger) (source target authority : Address) (amount : Nat) :
    Except Refusal Ledger := do
  let giver ← l.wallet source
  let taker ← l.wallet target
  demand (amount ≤ giver.amount) .insufficient
  demand (giver.mint = taker.mint) .mintMismatch
  demand (giver.owner = authority) .ownerMismatch
  let debited := l.setWallet source { giver with amount := giver.amount - amount }
  let taker ← debited.wallet target
  demand (taker.amount + amount < Amount.limit) .balanceOverflow
  return debited.setWallet target { taker with amount := taker.amount + amount }

/-- Destroys an amount in a wallet. -/
def burn (l : Ledger) (source mint : Address) (amount : Nat) : Except Refusal Ledger := do
  let giver ← l.wallet source
  let supply ← l.supply mint
  demand (amount ≤ giver.amount) .insufficient
  demand (amount ≤ supply) .balanceOverflow
  let debited := l.setWallet source { giver with amount := giver.amount - amount }
  return debited.setSupply mint (supply - amount)

end Ledger

/-- The ledger after a movement. -/
def Movement.apply (l : Ledger) : Movement → Except Refusal Ledger
  | createAccount payer account owner space _ => l.createAccount payer account owner space
  | openWallet payer account owner token => l.openWallet payer account owner token
  | transfer source target authority amount _ => l.transfer source target authority amount
  | burn source mint _ amount _ => l.burn source mint amount

end DiceHouse
