import DiceHouse.Ledger.Session
import DiceHouse.Operation.Guard

/-!
# Opening and configuring the house

The admin opens the house once: round 1 takes stakes at once, the settings are the initial ones and
the line is coming out. Later the admin named in the settings may put others into force.
-/

namespace DiceHouse.Operation

/-- The board of a house that opens in a slot. -/
def firstBoard (slot : Nat) : Except Fault Board := do
  let finish ← Amount.add slot Settings.defaultDuration
  return { round := 1, start := slot, finish, seedSlot := finish, carryover := 0 }

/-- Sets up all records of the house. -/
def openHouse (slot : Nat) (accounts : List Access) (ledger : Ledger) :
    Except Refusal Session := do
  let [signer, board, settings, treasury, round, table, system] := accounts
    | .error .wrongAccounts
  signer.requireSigned
  signer.requireNamed .admin
  board.requireFresh ledger .board
  settings.requireFresh ledger .settings
  treasury.requireFresh ledger .treasury
  round.requireFresh ledger (.round 1)
  table.requireFresh ledger .table
  system.requireProgram ledger .system
  let payer := signer.address
  let s : Session := { ledger }
  let s ← s.create .board payer board.address .board Board.blank
  let first ← firstBoard slot
  let s := s.store .board board.address first
  let s ← s.create .settings payer settings.address .settings (Settings.initial payer)
  let s ← s.create .treasury payer treasury.address .treasury Treasury.blank
  let s ← s.create .round payer round.address (.round 1) (Round.blank .system)
  let expiresAt ← Amount.add first.finish Board.claimPeriod
  let s := s.store .round round.address (Round.start .system 1 0 expiresAt payer)
  let s ← s.create .table payer table.address .table (Table.blank.setPhase .comeOut)
  return s.note s!"Initialized: round 1 window [{first.start}, {first.finish})"

/-- Puts other settings into force. -/
def configure (new : Settings Address) (accounts : List Access) (ledger : Ledger) :
    Except Refusal Session := do
  let [signer, settings] := accounts | .error .wrongAccounts
  signer.requireSigned
  settings.requireOwn .settings
  let current : Settings Address ← ledger.load .settings settings.address
  require (current.admin = signer.address) .invalidAuthority
  let valid ← new.validate
  let s : Session := { ledger }
  let s := s.store .settings settings.address valid
  return s.note <| s!"Configured: fee={valid.feeBps}bps top={valid.jackpotBps}bps "
    ++ s!"bonus={valid.bonusBps}bps duration={valid.roundDuration} "
    ++ s!"policy={valid.emptyPoolCode} triple={valid.fieldTripleFlag}"

end DiceHouse.Operation
