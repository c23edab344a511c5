import DiceHouse.Ledger.Session
import DiceHouse.Operation.Guard

/-!
# The cage

Chips go over the counter in two more ways than by betting: anyone may add to the bankroll, and the
owner of a seat collects what the seat has won. The winnings were booked when they were won, so
collecting touches no table.
-/

namespace DiceHouse.Operation

/-- Adds to the bankroll. -/
def fund (amount : Nat) (accounts : List Access) (ledger : Ledger) : Except Refusal Session := do
  let [signer, table, vault, source, chips, mint, system, tokenProgram, walletProgram] := accounts
    | .error .wrongAccounts
  signer.requireSigned
  table.requireOwn .table
  let t : Table ← ledger.load .table table.address
  vault.requireDerived .vault
  source.requireWritable
  chips.requireWritable
  mint.requireNamed (.mint .crap)
  system.requireProgram ledger .system
  tokenProgram.requireProgram ledger .tokenProgram
  walletProgram.requireProgram ledger .walletProgram
  require (amount ≠ 0) .invalidAmount
  let s : Session := { ledger }
  let s ← s.ensureWallet signer.address chips.address vault.address .crap
  let funded ← t.fund amount
  let s := s.store .table table.address funded
  let s ← s.transfer source.address chips.address signer.address amount
  return s.note
    s!"FundHouse: +{amount} bankroll={funded.bankroll} reserved={funded.reserved}"

/-- Collects what the signer's seat has won. -/
def collect (accounts : List Access) (ledger : Ledger) : Except Refusal Session := do
  let [signer, seat, vault, chips, target, mint, tokenProgram] := accounts
    | .error .wrongAccounts
  signer.requireSigned
  seat.requireOwn (.seat signer.address)
  let taken : Seat Address ← ledger.load .seat seat.address
  require (taken.owner = signer.address) .invalidAuthority
  vault.requireDerived .vault
  chips.requireWallet ledger .vault .crap
  target.requireWallet ledger signer.address .crap
  mint.requireNamed (.mint .crap)
  tokenProgram.requireProgram ledger .tokenProgram
  let amount := taken.pending
  require (amount ≠ 0) .nothingToClaim
  let s : Session := { ledger }
  let s := s.store .seat seat.address { taken with pending := 0 }
  let s ← s.payOut chips.address target.address .vault amount
  return s.note s!"ClaimWinnings: {amount} CRAP"

end DiceHouse.Operation
