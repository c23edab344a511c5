import DiceHouse.Edwards25519
import DiceHouse.Hash.Sha256
import DiceHouse.Text.Base58
import DiceHouse.Token

/-!
# Addresses

An account is named by its address. The addresses that the game speaks of have names of their own
here: the fixed ones, the one account of each kind that belongs to a round, a player or both, and
the wallet that holds an owner's balance of a token. Two names that differ name two accounts; any
other account is named by its key.

The key of a name is what stands for it in bytes. The game's own accounts have derived keys: the
SHA-256 digest of some seeds, a bump, the program's key and a tag, with the greatest bump whose
digest is no point of edwards25519, so that nobody has a matching secret. A key does not show what
it was derived from, so going back `ofKey` recognises the keys of the fixed names and of those that
it is told of, and leaves all others as they are.
-/

namespace DiceHouse

/-- What stands for an address in bytes. -/
abbrev Key := Bytes32

/-- The name of an account. -/
inductive Address where
  /-- The account with this key. -/
  | key (k : Key)
  /-- Who may open the house. -/
  | admin
  /-- The game itself. -/
  | program
  /-- The program that owns plain accounts; its key is all zeros. -/
  | system
  /-- The program that keeps token balances. -/
  | tokenProgram
  /-- The program that opens wallets. -/
  | walletProgram
  /-- The recent slots and their hashes. -/
  | slotHashes
  | mint (token : Token)
  | board
  | settings
  | treasury
  | table
  /-- The owner of the table's chips. -/
  | vault
  | round (id : Nat)
  | ticket (owner : Address) (round : Nat)
  | seat (owner : Address)
  | wallet (owner : Address) (token : Token)
  deriving DecidableEq, Repr

namespace Address

/-! ## Derived keys -/

/-- What marks a digest as a derived key. -/
def derivedTag : List UInt8 := "ProgramDerivedAddress".toUTF8.toList

/-- The digest of seeds under a program with a bump. -/
def candidate (program : Key) (seeds : List UInt8) (bump : Nat) : Key :=
  Sha256.digest (seeds ++ Bytes.ofNat 1 bump ++ program.toList ++ derivedTag)

/-- The first candidate from a bump downwards that is no point of the curve, with its bump. -/
def deriveFrom (program : Key) (seeds : List UInt8) : Nat → Key × Nat
  | 0 => (candidate program seeds 0, 0)
  | bump + 1 =>
    let k := candidate program seeds (bump + 1)
    if Edwards25519.isPoint k then deriveFrom program seeds bump else (k, bump + 1)

/-- The derived key of seeds under a program, with its bump. -/
def derive (program : Key) (seeds : List UInt8) : Key × Nat := deriveFrom program seeds 255

/-! ## Keys of the names -/

def adminKey : Key := Base58.decode32 "HBUh9g46wk2X89CvaNN15UmsznP59rh6od1h8JwYAopk"

def programKey : Key := Base58.decode32 "5Ujir85piAjL1tF4nmKEnyWhXv8TarBW8QNpuqUeo4t9"

def tokenProgramKey : Key := Base58.decode32 "TokenkegQfeZyiNwAJbNbGKPFXCWuBvf9Ss623VQ5DA"

def walletProgramKey : Key := Base58.decode32 "ATokenGPvbdGVxr1b2hvZbsiqW5xWH25efTNsLJA8knL"

def slotHashesKey : Key := Base58.decode32 "SysvarS1otHashes111111111111111111111111111"

def mintKey : Token → Key
  | .rng => Base58.decode32 "RNGqnVVhpuFfWBJJbiZ3BtG1MrXF3cvD3mLSXpnPump"
  | .crap => Base58.decode32 "CRAPqnVVhpuFfWBJJbiZ3BtG1MrXF3cvD3mLSXpnPump"

/-- The bytes of a word. -/
def word (s : String) : List UInt8 := s.toUTF8.toList

/-! ### Seeds of the game's own accounts -/

def boardSeeds : List UInt8 := word "board"

def settingsSeeds : List UInt8 := word "config"

def treasurySeeds : List UInt8 := word "treasury"

def tableSeeds : List UInt8 := word "craps_game"

def vaultSeeds : List UInt8 := word "craps_vault"

def roundSeeds (id : Nat) : List UInt8 := word "round" ++ Bytes.ofNat 8 id

def ticketSeeds (owner : Key) (round : Nat) : List UInt8 :=
  word "miner" ++ owner.toList ++ Bytes.ofNat 8 round

def seatSeeds (owner : Key) : List UInt8 := word "craps_position" ++ owner.toList

/-- The seeds of a wallet, whose key the wallet program derives. -/
def walletSeeds (owner : Key) (token : Token) : List UInt8 :=
  owner.toList ++ tokenProgramKey.toList ++ (mintKey token).toList

/-- The key of a name. -/
def toKey : Address → Key
  | key k => k
  | admin => adminKey
  | program => programKey
  | system => Bytes.fill32 0
  | tokenProgram => tokenProgramKey
  | walletProgram => walletProgramKey
  | slotHashes => slotHashesKey
  | mint token => mintKey token
  | board => (derive programKey boardSeeds).1
  | settings => (derive programKey settingsSeeds).1
  | treasury => (derive programKey treasurySeeds).1
  | table => (derive programKey tableSeeds).1
  | vault => (derive programKey vaultSeeds).1
  | round id => (derive programKey (roundSeeds id)).1
  | ticket owner id => (derive programKey (ticketSeeds owner.toKey id)).1
  | seat owner => (derive programKey (seatSeeds owner.toKey)).1
  | wallet owner token => (derive walletProgramKey (walletSeeds owner.toKey token)).1

/-- The seeds of one of the game's own accounts. -/
def seeds? : Address → Option (List UInt8)
  | board => some boardSeeds
  | settings => some settingsSeeds
  | treasury => some treasurySeeds
  | table => some tableSeeds
  | vault => some vaultSeeds
  | round id => some (roundSeeds id)
  | ticket owner id => some (ticketSeeds owner.toKey id)
  | seat owner => some (seatSeeds owner.toKey)
  | _ => none

/-- The bump of the key of one of the game's own accounts. -/
def bump? (a : Address) : Option Nat := a.seeds?.map fun seeds => (derive programKey seeds).2

/-- The names that are fixed. -/
def fixed : List Address :=
  [system, admin, program, tokenProgram, walletProgram, slotHashes, mint .rng, mint .crap, board,
    settings, treasury, table, vault]

/-- The fixed names with their keys. -/
def fixedKeys : List (Key × Address) := fixed.map fun a => (a.toKey, a)

/-- The address, then the one whose key is among its seeds, and so on. -/
def ancestry : Address → List Address
  | ticket owner id => ticket owner id :: owner.ancestry
  | seat owner => seat owner :: owner.ancestry
  | wallet owner token => wallet owner token :: owner.ancestry
  | a => [a]

/-- The name of the account with a key, among the fixed names and those known besides. -/
def ofKey (known : List Address) (k : Key) : Address :=
  match fixedKeys.find? fun p => p.1 = k with
  | some p => p.2
  | none => (known.find? fun a => a.toKey = k).getD (key k)

/-- A key's name has that key. -/
theorem toKey_ofKey (known : List Address) (k : Key) : (ofKey known k).toKey = k := by
  unfold ofKey
  split
  · next p h =>
    have hk : p.1 = k := by simpa using List.find?_some h
    obtain ⟨a, _, ha⟩ := List.mem_map.1 (List.mem_of_find?_eq_some h)
    rw [← hk, ← ha]
  · cases h : known.find? fun a => a.toKey = k with
    | none => rfl
    | some a => simpa using List.find?_some h

end Address

end DiceHouse
