import DiceHouse.Board

/-!
# Settings

What the operator may tune. Rates are in basis points, of which `wholeBps` make a whole. The fee
and the jackpot together take at most the whole of the losing stake, a right prediction weighs
between once and ten times, and a window is never empty; `Settings.validate` refuses anything else.
-/

namespace DiceHouse

/-- What happens to the pool of a round whose winning square nobody staked on. -/
inductive EmptyPool where
  /-- It is added to the next round. -/
  | carry
  /-- It is destroyed. -/
  | burn
  deriving DecidableEq, Repr

namespace EmptyPool

def code : EmptyPool → Nat
  | carry => 0
  | burn => 1

def ofCode? : Nat → Option EmptyPool
  | 0 => some carry
  | 1 => some burn
  | _ => none

theorem ofCode?_code (p : EmptyPool) : ofCode? p.code = some p := by cases p <;> rfl

end EmptyPool

/-- What the operator may tune. -/
structure Settings (κ : Type) where
  /-- Who may change the settings. -/
  admin : κ
  /-- Who receives the fees. -/
  feeCollector : κ
  /-- The fee on the losing stake. -/
  feeBps : Nat
  /-- The jackpot's part of the losing stake. -/
  jackpotBps : Nat
  /-- What a right prediction weighs. -/
  bonusBps : Nat
  /-- How many slots a window is open. -/
  roundDuration : Nat
  /-- The number of the rule for empty pools. -/
  emptyPoolCode : Nat
  /-- 1 if a twelve in the field pays three for one. -/
  fieldTripleFlag : Nat
  deriving DecidableEq, Repr

namespace Settings

variable {κ : Type}

/-- How many basis points make a whole. -/
def wholeBps : Nat := 10000

/-- The most that a right prediction may weigh. -/
def maxBonusBps : Nat := 100000

def defaultFeeBps : Nat := 100

def defaultJackpotBps : Nat := 1000

def defaultBonusBps : Nat := 20000

def defaultDuration : Nat := Board.minute

/-- Settings whose every number is zero. -/
def blank (nobody : κ) : Settings κ where
  admin := nobody
  feeCollector := nobody
  feeBps := 0
  jackpotBps := 0
  bonusBps := 0
  roundDuration := 0
  emptyPoolCode := 0
  fieldTripleFlag := 0

/-- The settings that a house opens with. -/
def initial (admin : κ) : Settings κ where
  admin := admin
  feeCollector := admin
  feeBps := defaultFeeBps
  jackpotBps := defaultJackpotBps
  bonusBps := defaultBonusBps
  roundDuration := defaultDuration
  emptyPoolCode := EmptyPool.carry.code
  fieldTripleFlag := 0

/-- The same settings under another type of names. -/
def mapNames {ν : Type} (f : κ → ν) (s : Settings κ) : Settings ν :=
  { s with admin := f s.admin, feeCollector := f s.feeCollector }

/-- The rule for empty pools; a number that stands for none means carrying. -/
def emptyPool (s : Settings κ) : EmptyPool := (EmptyPool.ofCode? s.emptyPoolCode).getD .carry

/-- Whether a twelve in the field pays three for one. -/
def fieldTriple (s : Settings κ) : Bool := s.fieldTripleFlag == 1

/-- Whether settings may be put into force. -/
def Sound (s : Settings κ) : Prop :=
  s.feeBps + s.jackpotBps ≤ wholeBps ∧ wholeBps ≤ s.bonusBps ∧ s.bonusBps ≤ maxBonusBps
    ∧ 0 < s.roundDuration ∧ s.emptyPoolCode ≤ 1 ∧ s.fieldTripleFlag ≤ 1

instance (s : Settings κ) : Decidable s.Sound := by
  unfold Sound
  infer_instance

/-- Settings that may be put into force, as they are. -/
def validate (new : Settings κ) : Except Fault (Settings κ) := do
  require new.Sound .invalidSettings
  return new

theorem sound_initial (admin : κ) : (initial admin).Sound := by
  simp [Sound, initial, wholeBps, maxBonusBps, defaultFeeBps, defaultJackpotBps, defaultBonusBps,
    defaultDuration, Board.minute, EmptyPool.code]

end Settings

end DiceHouse
