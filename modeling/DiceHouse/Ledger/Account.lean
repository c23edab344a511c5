import DiceHouse.Record
import DiceHouse.Refusal

/-!
# Accounts

An account has lamports, an owner and contents. The owner is the program that may change it; only
what the right owner keeps there counts as a record or a wallet. Contents that the program or the
token program wrote are kept as what they are, and `Contents.toBytes` gives their bytes; any others
are kept as bytes, and are understood through the same views. Those bytes show accounts by their
keys, so a view into them is told which addresses it may find there.
-/

namespace DiceHouse

/-- A balance of one token. Beside it stand a state and three flags, each for something that the
wallet may have; what it has is left out, since only its owner moves tokens here. -/
structure Wallet (κ : Type) where
  mint : κ
  owner : κ
  amount : Nat
  /-- 0 before the wallet is opened, 1 while it is open, 2 while it is frozen. -/
  stateCode : Nat := 1
  /-- 1 if somebody else may spend from it. -/
  delegateFlag : Nat := 0
  /-- 1 if its tokens stand for lamports. -/
  nativeFlag : Nat := 0
  /-- 1 if somebody else may close it. -/
  closerFlag : Nat := 0
  deriving DecidableEq, Repr

namespace Wallet

/-- A wallet in bytes. -/
def layout : Layout (Wallet Key) :=
  (Layout.bytes32.seq <| Layout.bytes32.seq <| (Layout.nat 8).seq <| (Layout.nat 4).seq <|
      (Layout.gap 32).seq <| (Layout.nat 1).seq <| (Layout.nat 4).seq <| (Layout.gap 16).seq <|
      (Layout.nat 4).seq (Layout.gap 32)).via
    (fun w => (w.mint, w.owner, w.amount, w.delegateFlag, (), w.stateCode, w.nativeFlag, (),
      w.closerFlag, ()))
    (fun (mint, owner, amount, delegateFlag, _, stateCode, nativeFlag, _, closerFlag, _) =>
      { mint, owner, amount, stateCode, delegateFlag, nativeFlag, closerFlag })
    (fun _ => rfl)

/-- How many bytes a wallet has. -/
def length : Nat := layout.size

/-- The same wallet under another type of names. -/
def mapNames {κ ν : Type} (f : κ → ν) (w : Wallet κ) : Wallet ν :=
  { w with mint := f w.mint, owner := f w.owner }

/-- The state is one of the three, and every flag is 0 or 1. -/
def Sound {κ : Type} (w : Wallet κ) : Prop :=
  w.stateCode ≤ 2 ∧ w.delegateFlag ≤ 1 ∧ w.nativeFlag ≤ 1 ∧ w.closerFlag ≤ 1

instance {κ : Type} (w : Wallet κ) : Decidable w.Sound := by
  unfold Sound
  infer_instance

end Wallet

/-- How many bytes of a mint stand before the supply. -/
def supplyOffset : Nat := 36

/-- The supply of a token in the bytes of its mint; the rest is left out. -/
def supplyLayout : Layout Nat :=
  ((Layout.gap supplyOffset).seq <| (Layout.nat 8).seq (Layout.gap 38)).via
    (fun n => ((), n, ())) (fun p => p.2.1) (fun _ => rfl)

/-- What an account holds. -/
inductive Contents where
  | bytes (data : List UInt8)
  | record (kind : Record.Kind) (body : kind.Body Address)
  | wallet (wallet : Wallet Address)
  /-- The mint of a token, with how much of it there is. -/
  | mint (supply : Nat)

namespace Contents

def empty : Contents := bytes []

def isEmpty : Contents → Bool
  | bytes data => data.isEmpty
  | _ => false

/-- The contents in bytes. -/
def toBytes : Contents → List UInt8
  | bytes data => data
  | record kind body => Record.encode kind (kind.mapNames Address.toKey body)
  | wallet w => Wallet.layout.write (w.mapNames Address.toKey)
  | mint supply => supplyLayout.write supply

/-- The record of a kind that is kept here. -/
def record? (known : List Address) (kind : Record.Kind) :
    Contents → Option (kind.Body Address)
  | bytes data => (Record.decode kind data).map (kind.mapNames (Address.ofKey known))
  | record k body => if h : k = kind then some (h ▸ body) else none
  | _ => none

/-- The wallet that is kept here. -/
def wallet? (known : List Address) : Contents → Option (Wallet Address)
  | bytes data => (Wallet.layout.parse? data).map fun w => w.mapNames (Address.ofKey known)
  | wallet w => some w
  | _ => none

/-- The supply of the mint that is kept here. -/
def supply? : Contents → Option Nat
  | bytes data => supplyLayout.parse? data
  | mint supply => some supply
  | _ => none

/-- The mint with another supply; what its bytes say besides stays. -/
def withSupply (supply : Nat) : Contents → Contents
  | bytes data =>
    bytes (data.take supplyOffset ++ Bytes.ofNat 8 supply ++ data.drop (supplyOffset + 8))
  | _ => mint supply

@[simp] theorem record?_record (known : List Address) (kind : Record.Kind)
    (body : kind.Body Address) : (record kind body).record? known kind = some body := by
  simp [record?]

end Contents

/-- An account of the ledger. -/
structure Account where
  lamports : Nat
  /-- The program that may change the contents. -/
  owner : Address
  /-- Whether it is a program itself. -/
  executable : Bool
  contents : Contents

namespace Account

/-- An account that nobody has touched. -/
def untouched : Account := ⟨0, .system, false, .empty⟩

end Account

end DiceHouse
