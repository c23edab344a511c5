import DiceHouse.Ledger.Account

/-!
# The ledger

The ledger has an account at every address and keeps those that ever changed. `load` reads a record
of the house, `store` writes one back, and what is written at one address is read there and leaves
all other accounts as they are. Where bytes show an account by its key, the ledger finds the name
among the addresses that are in use on it.
-/

namespace DiceHouse

/-- The accounts of all addresses. -/
structure Ledger where
  /-- The addresses in use, whose keys are recognised in bytes. -/
  known : List Address
  /-- The accounts that ever changed. -/
  changed : List (Address × Account)
  /-- Each is listed once. -/
  nodup : (changed.map Prod.fst).Nodup

namespace Ledger

/-! ## The first ledger -/

/-- What a player and the admin hold at first. -/
def endowment : Nat := Nat.pow 10 12

/-- How much of each token there is at first. -/
def firstSupply : Nat := Nat.pow 10 18

/-- What an account of so many bytes has to hold. -/
def rent (length : Nat) : Nat := (128 + length) * 6960

/-- An account before anything has happened. -/
def firstAccount : Address → Account
  | .key _ | .admin => { Account.untouched with lamports := endowment }
  | .system | .tokenProgram | .walletProgram => { Account.untouched with executable := true }
  | .mint _ =>
    { lamports := rent supplyLayout.size
      owner := .tokenProgram
      executable := false
      contents := .mint firstSupply }
  | _ => Account.untouched

/-- The ledger on which nothing has happened, with the addresses that will be used on it. -/
def genesis (used : List Address) : Ledger where
  known := (used.flatMap Address.ancestry).eraseDups
  changed := []
  nodup := List.nodup_nil

/-! ## Accounts -/

/-- The name of the account with a key. -/
def nameOf (l : Ledger) (k : Key) : Address := Address.ofKey l.known k

/-- The account at an address. -/
def account (l : Ledger) (a : Address) : Account :=
  match l.changed.find? fun p => p.1 = a with
  | some p => p.2
  | none => firstAccount a

instance : CoeFun Ledger fun _ => Address → Account := ⟨account⟩

/-- A list of accounts in which each address stands once is still such a list when the one at an
address was replaced. -/
theorem nodup_replace {changed : List (Address × Account)} (h : (changed.map Prod.fst).Nodup)
    (a : Address) (account : Account) :
    (((a, account) :: changed.filter fun p => p.1 ≠ a).map Prod.fst).Nodup := by
  rw [List.map_cons, List.nodup_cons]
  refine ⟨by simp, ?_⟩
  exact h.sublist (List.filter_sublist.map _)

/-- The ledger with another account at an address. -/
def put (l : Ledger) (a : Address) (account : Account) : Ledger where
  known := l.known
  changed := (a, account) :: l.changed.filter fun p => p.1 ≠ a
  nodup := nodup_replace l.nodup a account

@[simp] theorem account_genesis (used : List Address) (a : Address) :
    genesis used a = firstAccount a := rfl

@[simp] theorem known_put (l : Ledger) (a : Address) (account : Account) :
    (l.put a account).known = l.known := rfl

@[simp] theorem put_self (l : Ledger) (a : Address) (account : Account) :
    l.put a account a = account := by
  simp [Ledger.account, put]

theorem put_of_ne (l : Ledger) {a b : Address} (account : Account) (h : b ≠ a) :
    l.put a account b = l b := by
  have hab : (a = b) = False := by simp [Ne.symm h]
  simp only [Ledger.account, put, List.find?_cons, hab, decide_false, List.find?_filter]
  congr 2
  funext p
  by_cases hp : p.1 = b
  · simp [hp, h]
  · simp [hp]

/-! ## Lamports -/

/-- The ledger with other lamports in an account. -/
def setLamports (l : Ledger) (a : Address) (lamports : Nat) : Ledger :=
  l.put a { l a with lamports }

/-- Moves lamports from one account to another. -/
def pay (l : Ledger) (payer payee : Address) (lamports : Nat) : Except Refusal Ledger := do
  demand (lamports ≤ (l payer).lamports) .insufficient
  let debited := l.setLamports payer ((l payer).lamports - lamports)
  return debited.setLamports payee ((debited payee).lamports + lamports)

/-! ## Records -/

/-- The record of a kind that the house keeps at an address. -/
def load (l : Ledger) (kind : Record.Kind) (a : Address) :
    Except Refusal (kind.Body Address) := do
  demand ((l a).owner = .program) .invalidOwner
  match (l a).contents.record? l.known kind with
  | some body => return body
  | none => .error .invalidContents

/-- The ledger with a record at an address whose owner stays. -/
def store (l : Ledger) (kind : Record.Kind) (a : Address) (body : kind.Body Address) : Ledger :=
  l.put a { l a with contents := .record kind body }

/-- A record is loaded as it was stored. -/
theorem load_store (l : Ledger) (kind : Record.Kind) (a : Address) (body : kind.Body Address)
    (h : (l a).owner = .program) : (l.store kind a body).load kind a = .ok body := by
  unfold load store demand
  rw [put_self, if_pos h]
  simp only [Contents.record?_record]
  rfl

theorem load_store_of_ne (l : Ledger) {kind k : Record.Kind} {a b : Address}
    (body : kind.Body Address) (h : b ≠ a) : (l.store kind a body).load k b = l.load k b := by
  simp [load, store, put_of_ne l _ h]

/-! ## Wallets -/

/-- The wallet that the token program keeps at an address. -/
def wallet (l : Ledger) (a : Address) : Except Refusal (Wallet Address) :=
  if (l a).owner = .tokenProgram then
    match (l a).contents.wallet? l.known with
    | some w => .ok w
    | none => .error .invalidContents
  else .error .invalidContents

/-- The ledger with a wallet at an address whose owner stays. -/
def setWallet (l : Ledger) (a : Address) (w : Wallet Address) : Ledger :=
  l.put a { l a with contents := .wallet w }

/-- The supply in the mint at an address, which is a mint by its length alone. -/
def supply (l : Ledger) (a : Address) : Except Refusal Nat :=
  match (l a).contents.supply? with
  | some n => .ok n
  | none => .error .invalidContents

/-- The ledger with another supply in the mint at an address. -/
def setSupply (l : Ledger) (a : Address) (supply : Nat) : Ledger :=
  l.put a { l a with contents := (l a).contents.withSupply supply }

/-- How much of its token a wallet holds; nothing if there is none. -/
def balance (l : Ledger) (a : Address) : Nat :=
  match l.wallet a with
  | .ok w => w.amount
  | .error _ => 0

/-- Refuses an address that is not the opened wallet of an owner for a token. A frozen wallet counts
as opened, and one that makes no sense is refused for that before it is asked whether it is. -/
def requireWallet (l : Ledger) (a owner : Address) (token : Token) : Except Refusal Unit := do
  demand (a = .wallet owner token) .invalidContents
  let w ← l.wallet a
  demand w.Sound .invalidContents
  demand (w.stateCode ≠ 0) .notOpened

end Ledger

end DiceHouse
