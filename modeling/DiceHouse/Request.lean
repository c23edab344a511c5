import DiceHouse.Record

/-!
# Requests

There are eleven things that one can ask of the house. In bytes a request is the number of its kind
and its arguments. A request that takes arguments has to have exactly their bytes; one that takes
none may be followed by anything.
-/

namespace DiceHouse

/-- What one can ask of the house. -/
inductive Request where
  /-- Set up the board, the settings, the treasury, the first round and the table. -/
  | openHouse
  /-- Put other settings into force. -/
  | configure (settings : Settings Key)
  /-- Stake on a square of the open round. -/
  | stake (amount square prediction : Nat)
  /-- Resolve the round whose window closed, and start the next. -/
  | resolve
  /-- Cash in a ticket. -/
  | claim
  /-- Bet at the table. -/
  | bet (amount kindCode number : Nat)
  /-- Settle a seat against a round. -/
  | settle
  /-- Bring the table up to a round. -/
  | advance
  /-- Collect what a seat has won. -/
  | collect
  /-- Add to the bankroll. -/
  | fund (amount : Nat)
  /-- Clear a seat that can no longer be settled. -/
  | forfeit
  deriving DecidableEq, Repr

namespace Request

/-- The kinds of requests. -/
inductive Kind where
  | openHouse
  | configure
  | stake
  | resolve
  | claim
  | bet
  | settle
  | advance
  | collect
  | fund
  | forfeit
  deriving DecidableEq, Repr

namespace Kind

/-- Every kind once. -/
def every : List Kind :=
  [openHouse, configure, stake, resolve, claim, bet, settle, advance, collect, fund, forfeit]

/-- The number that a request of the kind starts with. -/
def code : Kind → Nat
  | openHouse => 0
  | configure => 1
  | stake => 2
  | resolve => 3
  | claim => 4
  | bet => 10
  | settle => 11
  | advance => 12
  | collect => 13
  | fund => 14
  | forfeit => 15

/-- The kind of the requests that start with a number. -/
def ofCode? (n : Nat) : Option Kind := every.find? fun k => k.code = n

theorem ofCode?_code (k : Kind) : ofCode? k.code = some k := by cases k <;> rfl

theorem code_lt (k : Kind) : k.code < 256 := by cases k <;> decide

end Kind

def kind : Request → Kind
  | openHouse => .openHouse
  | configure _ => .configure
  | stake _ _ _ => .stake
  | resolve => .resolve
  | claim => .claim
  | bet _ _ _ => .bet
  | settle => .settle
  | advance => .advance
  | collect => .collect
  | fund _ => .fund
  | forfeit => .forfeit

/-! ## Arguments -/

/-- The arguments of requests about an amount. -/
def amountArgument : Layout Nat := Record.Layouts.word

/-- The arguments of requests about an amount and two small numbers. -/
def amountArguments : Layout (Nat × Nat × Nat) :=
  Record.Layouts.word.seq (Record.Layouts.byte.seq Record.Layouts.byte)

/-- The arguments of a request in bytes. -/
def arguments : Request → List UInt8
  | configure settings => Record.Layouts.settingsFields.write settings
  | stake amount square prediction => amountArguments.write (amount, square, prediction)
  | bet amount kindCode number => amountArguments.write (amount, kindCode, number)
  | fund amount => amountArgument.write amount
  | _ => []

/-- Whether the arguments fit into their bytes. -/
def Fits : Request → Prop
  | configure settings => Record.Layouts.settingsFields.Fits settings
  | stake amount square prediction => amountArguments.Fits (amount, square, prediction)
  | bet amount kindCode number => amountArguments.Fits (amount, kindCode, number)
  | fund amount => amountArgument.Fits amount
  | _ => True

/-- The request of a kind with arguments in bytes. -/
def Kind.parse? (args : List UInt8) : Kind → Option Request
  | openHouse => some .openHouse
  | configure => (Record.Layouts.settingsFields.parse? args).map .configure
  | stake => (amountArguments.parse? args).map fun a => .stake a.1 a.2.1 a.2.2
  | resolve => some .resolve
  | claim => some .claim
  | bet => (amountArguments.parse? args).map fun a => .bet a.1 a.2.1 a.2.2
  | settle => some .settle
  | advance => some .advance
  | collect => some .collect
  | fund => (amountArgument.parse? args).map .fund
  | forfeit => some .forfeit

/-! ## Whole requests -/

/-- A request in bytes. -/
def encode (r : Request) : List UInt8 := UInt8.ofNat r.kind.code :: r.arguments

/-- The request that a byte string makes. -/
def decode : List UInt8 → Option Request
  | [] => none
  | code :: args => (Kind.ofCode? code.toNat).bind fun k => k.parse? args

/-- A request is read as it was written, if its arguments fit. -/
theorem decode_encode {r : Request} (h : r.Fits) : decode r.encode = some r := by
  have hcode : (UInt8.ofNat r.kind.code).toNat = r.kind.code :=
    Nat.mod_eq_of_lt r.kind.code_lt
  simp only [decode, encode, hcode, Kind.ofCode?_code, Option.bind_some]
  cases r with
  | configure s => simp [kind, Kind.parse?, arguments, Layout.parse?_write _ h]
  | stake a s p => simp [kind, Kind.parse?, arguments, Layout.parse?_write _ h]
  | bet a k n => simp [kind, Kind.parse?, arguments, Layout.parse?_write _ h]
  | fund a => simp [kind, Kind.parse?, arguments, Layout.parse?_write _ h]
  | _ => rfl

end Request

end DiceHouse
