import DiceHouse.Address
import DiceHouse.Board
import DiceHouse.Layout
import DiceHouse.Round
import DiceHouse.Seat
import DiceHouse.Settings
import DiceHouse.Table
import DiceHouse.Treasury

/-!
# Records

There are seven kinds of records. In bytes a record is the tag of its kind, seven bytes that mean
nothing, and its fields at fixed offsets. `Record.decode` takes exactly the strings that start with
the tag and have the kind's length; no two kinds share a tag, so no string is read as two kinds.

A record names players and accounts: by their keys in bytes, by their addresses on the ledger.
`Record.Kind.Body` is the type of a kind's records under a type of names.
-/

namespace DiceHouse.Record

/-- The kinds of records. -/
inductive Kind where
  | board
  | settings
  | ticket
  | round
  | treasury
  | table
  | seat
  deriving DecidableEq, Repr

namespace Kind

/-- Every kind once. -/
def every : List Kind := [board, settings, ticket, round, treasury, table, seat]

/-- The number that a kind's records start with. -/
def tag : Kind → Nat
  | board => 100
  | settings => 101
  | ticket => 102
  | round => 103
  | treasury => 104
  | table => 110
  | seat => 111

/-- The kind whose records start with a number. -/
def ofTag? (n : Nat) : Option Kind := every.find? fun k => k.tag = n

theorem ofTag?_tag (k : Kind) : ofTag? k.tag = some k := by cases k <;> rfl

/-- The records of a kind. -/
abbrev Body (κ : Type) : Kind → Type
  | board => Board
  | settings => Settings κ
  | ticket => Ticket κ
  | round => Round κ
  | treasury => Treasury
  | table => Table
  | seat => Seat κ

/-- The record whose every byte is zero. -/
def blank {κ : Type} (nobody : κ) : (k : Kind) → k.Body κ
  | board => Board.blank
  | settings => Settings.blank nobody
  | ticket => Ticket.blank nobody
  | round => Round.blank nobody
  | treasury => Treasury.blank
  | table => Table.blank
  | seat => Seat.blank nobody

/-- The same record under another type of names. -/
def mapNames {κ ν : Type} (f : κ → ν) : (k : Kind) → k.Body κ → k.Body ν
  | board, b => b
  | settings, s => Settings.mapNames f s
  | ticket, t => Ticket.mapOwner f t
  | round, r => Round.mapNames f r
  | treasury, t => t
  | table, t => t
  | seat, s => Seat.mapOwner f s

end Kind

/-! ## Layouts -/

namespace Layouts

open Layout

/-- An amount, counter or slot. -/
def word : Layout Nat := nat 8

/-- A small number. -/
def byte : Layout Nat := nat 1

/-- A set of dice sums. -/
def sumMask : Layout Nat := nat 2

/-- An amount for each square. -/
def squares : Layout (Vector Nat squareCount) := row squareCount word

def board : Layout Board :=
  (word.seq <| word.seq <| word.seq <| word.seq word).via
    (fun b => (b.round, b.start, b.finish, b.seedSlot, b.carryover))
    (fun (round, start, finish, seedSlot, carryover) =>
      { round, start, finish, seedSlot, carryover })
    (fun _ => rfl)

/-- The fields of the settings, without what fills them up in a record. -/
def settingsFields : Layout (Settings Key) :=
  (bytes32.seq <| bytes32.seq <| word.seq <| word.seq <| word.seq <| word.seq <|
      byte.seq byte).via
    (fun s => (s.admin, s.feeCollector, s.feeBps, s.jackpotBps, s.bonusBps, s.roundDuration,
      s.emptyPoolCode, s.fieldTripleFlag))
    (fun (admin, feeCollector, feeBps, jackpotBps, bonusBps, roundDuration, emptyPoolCode,
        fieldTripleFlag) =>
      { admin, feeCollector, feeBps, jackpotBps, bonusBps, roundDuration, emptyPoolCode,
        fieldTripleFlag })
    (fun _ => rfl)

def settings : Layout (Settings Key) :=
  (settingsFields.seq (gap 6)).via (fun s => (s, ())) Prod.fst (fun _ => rfl)

def ticket : Layout (Ticket Key) :=
  (bytes32.seq <| word.seq <| squares.seq <| squares.seq <| word.seq <| byte.seq (gap 7)).via
    (fun t => (t.owner, t.round, t.staked, t.before, t.total, t.prediction, ()))
    (fun (owner, round, staked, before, total, prediction, _) =>
      { owner, round, staked, before, total, prediction })
    (fun _ => rfl)

/-- The byte of a round that no square has won. -/
def noWinner : Nat := 255

/-- The number of a winning square, or `noWinner`. -/
def winner : Layout (Option Nat) where
  size := 1
  Fits w := w.getD 0 < noWinner
  write w := byte.write (w.getD noWinner)
  read bs := if byte.read bs = noWinner then none else some (byte.read bs)
  length_write w := byte.length_write _
  read_write {w} h rest := by
    cases w with
    | none =>
      have hfit : byte.Fits noWinner := show 255 < 256 ^ 1 by decide
      rw [Option.getD_none, byte.read_write hfit, if_pos rfl]
    | some n =>
      have hn : n < noWinner := h
      have hfit : byte.Fits n := by
        show n < 256 ^ 1
        unfold noWinner at hn
        omega
      rw [Option.getD_some, byte.read_write hfit, if_neg (Nat.ne_of_lt hn)]

def round : Layout (Round Key) :=
  (word.seq <| squares.seq <| squares.seq <| squares.seq <| bytes32.seq <| winner.seq <|
      byte.seq <| byte.seq <| (gap 5).seq <| word.seq <| bytes32.seq <| bytes32.seq <|
      word.seq <| word.seq <| word.seq <| word.seq <| word.seq <| word.seq <| word.seq word).via
    (fun r => (r.id, r.staked, r.predicted, r.tickets, r.seed, r.winner, r.die1, r.die2, (),
      r.expiresAt, r.rentPayer, r.jackpotWinner, r.jackpotUnit, r.jackpot, r.carryIn,
      r.totalStaked, r.totalVaulted, r.winnings, r.totalClaimed, r.bonusBps))
    (fun (id, staked, predicted, tickets, seed, winner, die1, die2, _, expiresAt, rentPayer,
        jackpotWinner, jackpotUnit, jackpot, carryIn, totalStaked, totalVaulted, winnings,
        totalClaimed, bonusBps) =>
      { id, staked, predicted, tickets, seed, winner, die1, die2, expiresAt, rentPayer,
        jackpotWinner, jackpotUnit, jackpot, carryIn, totalStaked, totalVaulted, winnings,
        totalClaimed, bonusBps })
    (fun _ => rfl)

def treasury : Layout Treasury :=
  (word.seq <| word.seq <| word.seq word).via
    (fun t => (t.totalFees, t.totalBurned, t.totalCarried, t.totalClaimed))
    (fun (totalFees, totalBurned, totalCarried, totalClaimed) =>
      { totalFees, totalBurned, totalCarried, totalClaimed })
    (fun _ => rfl)

def table : Layout Table :=
  (word.seq <| word.seq <| byte.seq <| byte.seq <| byte.seq <| byte.seq <| (gap 4).seq <|
      (row logLength byte).seq <| word.seq <| word.seq <| word.seq <| word.seq <| word.seq
      word).via
    (fun t => (t.epoch, t.version, t.point, t.comeOutFlag, t.lastDie1, t.lastDie2, (),
      t.phaseLog, t.shooterRolls, t.bankroll, t.reserved, t.totalWagered, t.totalCollected,
      t.totalPayouts))
    (fun (epoch, version, point, comeOutFlag, lastDie1, lastDie2, _, phaseLog, shooterRolls,
        bankroll, reserved, totalWagered, totalCollected, totalPayouts) =>
      { epoch, version, point, comeOutFlag, lastDie1, lastDie2, phaseLog, shooterRolls,
        bankroll, reserved, totalWagered, totalCollected, totalPayouts })
    (fun _ => rfl)

def wager : Layout Wager :=
  (word.seq <| byte.seq <| byte.seq (gap 6)).via
    (fun w => (w.amount, w.stageCode, w.endingCode, ()))
    (fun (amount, stageCode, endingCode, _) => { amount, stageCode, endingCode })
    (fun _ => rfl)

def trackers : Layout Trackers :=
  (byte.seq <| byte.seq <| sumMask.seq <| sumMask.seq sumMask).via
    (fun t => (t.firePoints, t.rideWins, t.smallHits, t.tallHits, t.allHits))
    (fun (firePoints, rideWins, smallHits, tallHits, allHits) =>
      { firePoints, rideWins, smallHits, tallHits, allHits })
    (fun _ => rfl)

def seat : Layout (Seat Key) :=
  (bytes32.seq <| word.seq <| (row spotCount wager).seq <| trackers.seq <| word.seq <|
      word.seq <| word.seq <| word.seq word).via
    (fun s => (s.owner, s.epoch, s.wagers, s.trackers, s.pending, s.totalWagered, s.totalWon,
      s.totalLost, s.totalPushed))
    (fun (owner, epoch, wagers, trackers, pending, totalWagered, totalWon, totalLost,
        totalPushed) =>
      { owner, epoch, wagers, trackers, pending, totalWagered, totalWon, totalLost, totalPushed })
    (fun _ => rfl)

end Layouts

/-- The fields of a kind's records in bytes. -/
def Kind.layout : (k : Kind) → Layout (k.Body Key)
  | .board => Layouts.board
  | .settings => Layouts.settings
  | .ticket => Layouts.ticket
  | .round => Layouts.round
  | .treasury => Layouts.treasury
  | .table => Layouts.table
  | .seat => Layouts.seat

/-! ## Whole records -/

/-- How many bytes stand before the fields. -/
def headerLength : Nat := 8

/-- How many bytes a record of a kind has. -/
def Kind.length (k : Kind) : Nat := headerLength + k.layout.size

/-- A record in bytes. -/
def encode (k : Kind) (body : k.Body Key) : List UInt8 :=
  UInt8.ofNat k.tag :: (List.replicate (headerLength - 1) 0 ++ k.layout.write body)

/-- The fields of a record, whatever tag stands before them. -/
def readFields (k : Kind) (bytes : List UInt8) : k.Body Key :=
  k.layout.read (bytes.drop headerLength)

/-- The record of a kind that a byte string holds. -/
def decode (k : Kind) (bytes : List UInt8) : Option (k.Body Key) :=
  if bytes.length = k.length ∧ bytes.head? = some (UInt8.ofNat k.tag) then
    some (readFields k bytes)
  else none

/-- A record is read as it was written, if its fields fit. -/
theorem decode_encode (k : Kind) {body : k.Body Key} (h : k.layout.Fits body) :
    decode k (encode k body) = some body := by
  have hread := k.layout.read_write h []
  rw [List.append_nil] at hread
  unfold decode
  rw [if_pos]
  · simpa [encode, readFields, headerLength] using hread
  · refine ⟨?_, rfl⟩
    simp [encode, Kind.length, headerLength, k.layout.length_write]
    omega

end DiceHouse.Record
