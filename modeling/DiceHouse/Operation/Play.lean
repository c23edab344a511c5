import DiceHouse.Ledger.Session
import DiceHouse.Operation.Guard
import DiceHouse.Seat.Place
import DiceHouse.Seat.Settle
import DiceHouse.Table

/-!
# Playing at the table

Bets ride on the open round, so the table has to have seen every earlier roll. Anyone may settle
any seat against a round, or only bring the table up to it. A seat that stayed away until the
table's log forgot its round can only be cleared, which anyone may do.
-/

namespace DiceHouse.Operation

/-- The seat of a player at a table that has seen the rolls up to `epoch`; the first bet opens it.
A seat whose wagers wait for an earlier roll has to be settled first. -/
def takeSeat (s : Session) (signer seat : Address) (epoch : Nat) :
    Except Refusal (Session × Seat Address) := do
  if (s.ledger seat).contents.isEmpty then
    let fresh : Seat Address := { Seat.blank signer with epoch }
    let s ← s.create .seat signer seat (.seat signer) fresh
    return (s, fresh)
  else
    let taken : Seat Address ← s.ledger.load .seat seat
    require (taken.owner = signer) .invalidAuthority
    require (taken.epoch = epoch ∨ ¬taken.hasRiding) .staleEpoch
    return (s, { taken with epoch })

/-- Bets at the table during the open window. -/
def bet (slot : Nat) (spot : Spot) (amount : Nat) (accounts : List Access) (ledger : Ledger) :
    Except Refusal Session := do
  let [signer, board, table, seat, vault, source, chips, mint, system, tokenProgram,
    walletProgram] := accounts | .error .wrongAccounts
  signer.requireSigned
  board.requireDerived .board
  let b : Board ← ledger.load .board board.address
  b.requireOpen slot
  table.requireOwn .table
  let t : Table ← ledger.load .table table.address
  seat.requireOwn (.seat signer.address)
  vault.requireDerived .vault
  source.requireWritable
  chips.requireWritable
  mint.requireNamed (.mint .crap)
  system.requireProgram ledger .system
  tokenProgram.requireProgram ledger .tokenProgram
  walletProgram.requireProgram ledger .walletProgram
  require (1 ≤ b.round ∧ t.epoch = b.round - 1) .staleEpoch
  let taken ← takeSeat { ledger } signer.address seat.address t.epoch
  let phase ← t.phase
  let placed ← taken.2.place spot amount phase
  let reserved ← t.reserve amount placed.2
  let s := taken.1.store .seat seat.address placed.1
  let s := s.store .table table.address reserved
  let s ← s.ensureWallet signer.address chips.address vault.address .crap
  let s ← s.transfer source.address chips.address signer.address amount
  return s.note <| s!"PlaceBet: {spot.text} amount={amount} reserved={placed.2} "
    ++ s!"round={b.round}"

/-- What the log says about a roll that the table took. -/
def rollLine (who : String) (round : Nat) (roll : Roll) (call : Call) (t : Table) : String :=
  s!"{who}: round={round} dice=({roll.die1}, {roll.die2}) event={call.text} point={t.point}"

/-- A seat settled in its turn, with the table that booked it and a line for the log. -/
def playTurn (t : Table) (seat : Seat Address) (round : Nat) (roll : Roll) (fieldTriple : Bool) :
    Except Fault (Table × Seat Address × String) := do
  match ← t.turn seat.epoch seat.hasRiding round with
  | .sync => return (t, { seat with epoch := round }, "SettleCraps: empty position synced")
  | .settle phase =>
    let settled ← seat.settle phase roll fieldTriple
    let tally := settled.2
    let booked ← t.book tally.profit tally.lost tally.released
    return (booked, { settled.1 with epoch := round },
      s!"SettleCraps: round={round} resolved={tally.resolved} credited={tally.credited} "
        ++ s!"profit={tally.profit} lost={tally.lost} pushed={tally.pushed}")

/-- Settles a seat against the roll of a resolved round, after the table took that roll. -/
def settle (accounts : List Access) (ledger : Ledger) : Except Refusal Session := do
  let [signer, settings, table, seat, round] := accounts | .error .wrongAccounts
  signer.requireSigned
  settings.requireDerived .settings
  let config : Settings Address ← ledger.load .settings settings.address
  table.requireOwn .table
  let t : Table ← ledger.load .table table.address
  seat.requireWritable
  let taken : Seat Address ← ledger.load .seat seat.address
  seat.requireDerived (.seat taken.owner)
  let r : Round Address ← ledger.load .round round.address
  round.requireDerived (.round r.id)
  let roll ← r.roll
  let rolled ← t.catchUp r.id roll
  let s : Session := { ledger }
  let s :=
    match rolled.2 with
    | some call => s.note (rollLine "Table" r.id roll call rolled.1)
    | none => s
  let turn ← playTurn rolled.1 taken r.id roll config.fieldTriple
  let s := s.store .table table.address turn.1
  let s := s.store .seat seat.address turn.2.1
  return s.note turn.2.2

/-- Brings the table up to the roll of a resolved round. -/
def advance (accounts : List Access) (ledger : Ledger) : Except Refusal Session := do
  let [signer, table, round] := accounts | .error .wrongAccounts
  signer.requireSigned
  table.requireOwn .table
  let t : Table ← ledger.load .table table.address
  let r : Round Address ← ledger.load .round round.address
  round.requireDerived (.round r.id)
  let roll ← r.roll
  let rolled ← t.catchUp r.id roll
  let s : Session := { ledger }
  match rolled.2 with
  | none => return s
  | some call =>
    let s := s.store .table table.address rolled.1
    return s.note (rollLine "AdvanceTable" r.id roll call rolled.1)

/-- Clears a seat whose wagers can no longer be settled; the house keeps them. -/
def forfeit (accounts : List Access) (ledger : Ledger) : Except Refusal Session := do
  let [signer, table, seat] := accounts | .error .wrongAccounts
  signer.requireSigned
  table.requireOwn .table
  let t : Table ← ledger.load .table table.address
  seat.requireWritable
  let taken : Seat Address ← ledger.load .seat seat.address
  seat.requireDerived (.seat taken.owner)
  require (taken.hasRiding ∧ t.isBeyondLog taken.epoch) .stillSettleable
  let cleared ← taken.forfeit
  let tally := cleared.2
  let booked ← t.book 0 tally.lost tally.released
  let s : Session := { ledger }
  let s := s.store .table table.address booked
  let s := s.store .seat seat.address { cleared.1 with epoch := booked.epoch }
  return s.note <| s!"ForceSettle: {Base58.encode taken.owner.toKey.toList} "
    ++ s!"forfeited {tally.lost} across {tally.resolved} bets"

end DiceHouse.Operation
