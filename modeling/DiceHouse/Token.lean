/-!
# Tokens

There are two tokens. Amounts are counted in indivisible units, of which `Token.one` make one token.
-/

namespace DiceHouse

/-- The two tokens. -/
inductive Token where
  /-- Staked on the board. -/
  | rng
  /-- Wagered at the table. -/
  | crap
  deriving DecidableEq, Repr

namespace Token

/-- How many decimal places a token has. -/
def decimals : Token → Nat
  | rng => 9
  | crap => 9

/-- One token, in units. -/
def one (t : Token) : Nat := Nat.pow 10 t.decimals

end Token

end DiceHouse
