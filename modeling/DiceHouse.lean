import DiceHouse.Client
import DiceHouse.House
import DiceHouse.Proofs.Round.Tally
import DiceHouse.Proofs.SlotHistory
import DiceHouse.Proofs.Record
import DiceHouse.Proofs.House.Custody
import DiceHouse.Proofs.House.Solvency
import DiceHouse.Proofs.Seat.Riding
import DiceHouse.Proofs.Table.Line
import DiceHouse.Proofs.House.Pace
import DiceHouse.Proofs.House.InStep
import DiceHouse.Proofs.House.Rolls
import DiceHouse.Proofs.House.Sequence
import DiceHouse.Proofs.House.Calls
import DiceHouse.Proofs.House.Clearing
import DiceHouse.Proofs.House.Progress
import DiceHouse.Proofs.House.Lifecycle
import DiceHouse.Proofs.House.Finality
import DiceHouse.Proofs.House.Windows
import DiceHouse.Proofs.Seat.Course
import DiceHouse.Proofs.Seat.Bonus
import DiceHouse.Proofs.Seat.Backing
import DiceHouse.Proofs.Seat.Tidy
import DiceHouse.Proofs.Seat.Totals
import DiceHouse.Proofs.Table.Bookings
import DiceHouse.Proofs.House.Concurrence
import DiceHouse.Proofs.House.Consent
import DiceHouse.Proofs.House.Lifetime
import DiceHouse.Proofs.House.Succession
import DiceHouse.Proofs.Seat.ComeBets
import DiceHouse.Proofs.House.Orders
import DiceHouse.Proofs.House.Expiry
import DiceHouse.Proofs.House.Treasury
import DiceHouse.Proofs.Seat.Fates
import DiceHouse.Proofs.Seat.Separation
import DiceHouse.Proofs.Round.Split
import DiceHouse.Proofs.Round.Payable
import DiceHouse.Proofs.Round.Dust
import DiceHouse.Proofs.Seat.Reservations
import DiceHouse.Proofs.House.NextWindow
import DiceHouse.Proofs.Draw
import DiceHouse.Proofs.Seat.Forfeiture
import DiceHouse.Proofs.Round.Requests
import DiceHouse.Proofs.Round.Apart
import DiceHouse.Proofs.Round.Interleaving
import DiceHouse.Proofs.Seat.Lenses
