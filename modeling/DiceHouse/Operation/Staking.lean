import DiceHouse.Ledger.Session
import DiceHouse.Operation.Guard
import DiceHouse.Round.Payout
import DiceHouse.Round.Resolve
import DiceHouse.Round.Stake
import DiceHouse.SlotHistory

/-!
# Staking rounds

Players stake on squares while the window is open. When it has closed, anyone may resolve the round
with the hash of its seed slot and start the next; when that hash was missed, the seed slot is
replaced instead. Until a round expires, the owners of its tickets may cash them in, and get the
ticket's rent back.
-/

namespace DiceHouse.Operation

/-- The ticket of a player for a round, which the first stake opens. -/
def openTicket (s : Session) (signer ticket : Address) (round : Nat) :
    Except Refusal (Session × Ticket Address) := do
  if (s.ledger ticket).contents.isEmpty then
    let fresh : Ticket Address := { Ticket.blank signer with round }
    let s ← s.create .ticket signer ticket (.ticket signer round) fresh
    return (s, fresh)
  else
    let t : Ticket Address ← s.ledger.load .ticket ticket
    demand (t.owner = signer) .invalidContents
    return (s, t)

/-- Stakes on a square of the open round. -/
def stake (slot amount square prediction : Nat) (accounts : List Access) (ledger : Ledger) :
    Except Refusal Session := do
  let [signer, board, round, ticket, treasury, source, vault, mint, system, tokenProgram,
    walletProgram] := accounts | .error .wrongAccounts
  signer.requireSigned
  board.requireDerived .board
  let b : Board ← ledger.load .board board.address
  b.requireOpen slot
  round.requireOwn (.round b.round)
  let r : Round Address ← ledger.load .round round.address
  ticket.requireOwn (.ticket signer.address r.id)
  treasury.requireNamed .treasury
  source.requireWritable
  vault.requireWritable
  mint.requireNamed (.mint .rng)
  system.requireProgram ledger .system
  tokenProgram.requireProgram ledger .tokenProgram
  walletProgram.requireProgram ledger .walletProgram
  let opened ← openTicket { ledger } signer.address ticket.address r.id
  let staked ← r.stake opened.2 square amount prediction
  let s := opened.1.store .round round.address staked.1
  let s := s.store .ticket ticket.address staked.2
  let s ← s.ensureWallet signer.address vault.address treasury.address .rng
  let s ← s.transfer source.address vault.address signer.address amount
  return s.note <| s!"Stake: round={r.id} square={square} amount={amount} "
    ++ s!"prediction={staked.2.prediction}"

/-- Sends the fee to its collector and destroys what is to be burned. -/
def disburse (s : Session) (split : Split) (treasury vault collector mint : Access)
    (feeCollector : Address) : Except Refusal Session := do
  let s ←
    if 0 < split.fee then do
      vault.requireWallet s.ledger .treasury .rng
      collector.requireWallet s.ledger feeCollector .rng
      s.payOut vault.address collector.address treasury.address split.fee
    else pure s
  if 0 < split.burned then
    vault.requireWallet s.ledger .treasury .rng
    s.move (.burn vault.address mint.address treasury.address split.burned [treasury.address])
  else return s

/-- What the log says about a resolved round. -/
def resolveLine (r : Round Address) (split : Split) : String :=
  s!"Resolve: round={r.id} square={r.winner.getD Record.Layouts.noWinner} "
    ++ s!"dice=({r.die1}, {r.die2}) deployed={r.totalStaked} winnings={r.winnings} "
    ++ s!"fee={split.fee} burned={split.burned} carried={split.carried}"

/-- Starts the round after a resolved one; the waiting pool moves from the board into it. -/
def startNext (s : Session) (slot : Nat) (settings : Settings Address) (b : Board)
    (payer next : Address) : Except Refusal Session := do
  let advanced ← b.advance slot settings.roundDuration
  let s ← s.create .round payer next (.round advanced.round) (Round.blank .system)
  let expiresAt ← Amount.add advanced.finish Board.claimPeriod
  let started := Round.start .system advanced.round advanced.carryover expiresAt payer
  let s := s.store .board .board advanced.emptied
  return s.store .round next started

/-- Resolves the round whose window closed and starts the next. -/
def resolve (slot : Nat) (accounts : List Access) (ledger : Ledger) :
    Except Refusal Session := do
  let [signer, board, settings, round, next, treasury, vault, collector, mint, slotHashes, system,
    tokenProgram] := accounts | .error .wrongAccounts
  signer.requireSigned
  board.requireOwn .board
  let b : Board ← ledger.load .board board.address
  b.requireClosed slot
  settings.requireDerived .settings
  let config : Settings Address ← ledger.load .settings settings.address
  round.requireOwn (.round b.round)
  let r : Round Address ← ledger.load .round round.address
  let nextId ← Amount.add r.id 1
  next.requireFresh ledger (.round nextId)
  treasury.requireWritable
  treasury.requireNamed .treasury
  let t : Treasury ← ledger.load .treasury treasury.address
  mint.requireWritable
  mint.requireNamed (.mint .rng)
  slotHashes.requireNamed .slotHashes
  system.requireProgram ledger .system
  tokenProgram.requireProgram ledger .tokenProgram
  let s : Session := { ledger }
  match ← SlotHistory.lookup (ledger slotHashes.address).contents.toBytes b.seedSlot with
  | .pending => .error (.fault .seedUnavailable)
  | .expired =>
    let rearmed ← b.rearm slot
    let s := s.store .board board.address rearmed
    return s.note s!"Resolve: round={r.id} seed expired, re-armed at slot {rearmed.seedSlot}"
  | .found seed =>
    let resolved ← r.resolve seed config
    let recorded ← t.record resolved.2
    let s := s.store .round round.address resolved.1
    let s := s.store .treasury treasury.address recorded
    let s ← disburse s resolved.2 treasury vault collector mint config.feeCollector
    let carryover ← Amount.add b.carryover resolved.2.carried
    let s := s.note (resolveLine resolved.1 resolved.2)
    startNext s slot config { b with carryover } signer.address next.address

/-- Empties an account that is no longer needed; its lamports go to the payee. -/
def close (l : Ledger) (a payee : Address) : Except Refusal Ledger := do
  let lamports := (l a).lamports
  let l := l.setLamports a 0
  let total := (l payee).lamports + lamports
  demand (total < Amount.limit) .overflow
  let l := l.setLamports payee total
  return l.put a { l a with owner := .system, contents := .empty }

/-- Cashes in the signer's ticket for a resolved round. -/
def claim (slot : Nat) (accounts : List Access) (ledger : Ledger) : Except Refusal Session := do
  let [signer, round, ticket, treasury, vault, target, tokenProgram] := accounts
    | .error .wrongAccounts
  signer.requireSigned
  ticket.requireWritable
  let own : Ticket Address ← ledger.load .ticket ticket.address
  demand (own.owner = signer.address) .invalidContents
  ticket.requireDerived (.ticket signer.address own.round)
  round.requireOwn (.round own.round)
  let r : Round Address ← ledger.load .round round.address
  treasury.requireWritable
  treasury.requireNamed .treasury
  let t : Treasury ← ledger.load .treasury treasury.address
  tokenProgram.requireProgram ledger .tokenProgram
  require (slot ≤ r.expiresAt) .roundExpired
  let payout ← r.payout own
  let amount ← payout.total
  let jackpotWinner := if payout.wonJackpot then signer.address else r.jackpotWinner
  let totalClaimed ← Amount.add r.totalClaimed amount
  let claimed ← t.claim amount
  let s : Session := { ledger }
  let s := s.store .round round.address { r with jackpotWinner, totalClaimed }
  let s := s.store .treasury treasury.address claimed
  let s ←
    if 0 < amount then do
      vault.requireWallet s.ledger .treasury .rng
      target.requireWallet s.ledger signer.address .rng
      s.payOut vault.address target.address treasury.address amount
    else pure s
  let s := s.note <| s!"ClaimMining: round={r.id} stake={payout.stake} share={payout.share} "
    ++ s!"top_miner={payout.jackpot}"
  let closed ← close s.ledger ticket.address signer.address
  return { s with ledger := closed }

end DiceHouse.Operation
