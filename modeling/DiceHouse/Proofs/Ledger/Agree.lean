import DiceHouse.Ledger.Session
import DiceHouse.Operation.Staking
import DiceHouse.Proofs.Checks

/-!
# What a change of the ledger leaves alone

Two ledgers agree at an address if the account there has the same owner and holds the same contents;
its lamports may differ, for no record and no balance of tokens depends on them. Every change of the
ledger is the identity up to this except at the few addresses that it names, and what is read at an
address on which two ledgers agree is the same on both.

Transfers change two wallets at addresses that the caller chooses. Since only the token program's
accounts are wallets and only the house's own accounts are records, no record is read differently
after a transfer, whatever the addresses are.
-/

namespace DiceHouse.Ledger

/-- The account at an address is the same on both ledgers, lamports aside. -/
structure Agree (l m : Ledger) (a : Address) : Prop where
  known : m.known = l.known
  owner : (m a).owner = (l a).owner
  contents : (m a).contents = (l a).contents

namespace Agree

variable {l m n : Ledger} {a : Address}

theorem refl (l : Ledger) (a : Address) : Agree l l a := ⟨rfl, rfl, rfl⟩

theorem trans (h : Agree l m a) (h' : Agree m n a) : Agree l n a :=
  ⟨h'.known.trans h.known, h'.owner.trans h.owner, h'.contents.trans h.contents⟩

theorem load (h : Agree l m a) (kind : Record.Kind) : m.load kind a = l.load kind a := by
  unfold Ledger.load
  rw [h.known, h.owner, h.contents]

theorem wallet (h : Agree l m a) : m.wallet a = l.wallet a := by
  unfold Ledger.wallet
  rw [h.known, h.owner, h.contents]

theorem balance (h : Agree l m a) : m.balance a = l.balance a := by
  unfold Ledger.balance
  rw [h.wallet]

end Agree

variable {l m : Ledger} {a b : Address}

/-! ## Changes of one account -/

theorem agree_put (l : Ledger) (account : Account) (h : b ≠ a) : Agree l (l.put a account) b := by
  refine ⟨rfl, ?_, ?_⟩ <;> rw [put_of_ne l account h]

/-- Lamports can be written anywhere. -/
theorem agree_setLamports (l : Ledger) (a b : Address) (lamports : Nat) :
    Agree l (l.setLamports a lamports) b := by
  by_cases h : b = a
  · subst h
    exact ⟨rfl, by rw [setLamports, put_self], by rw [setLamports, put_self]⟩
  · exact agree_put l _ h

theorem agree_pay {payer payee : Address} {lamports : Nat} (h : l.pay payer payee lamports = .ok m)
    (b : Address) : Agree l m b := by
  unfold pay at h
  simp only [bind_eq_ok_iff, demand_eq_ok_iff, exists_const, pure_eq_ok_iff] at h
  obtain ⟨-, rfl⟩ := h
  exact (agree_setLamports l payer b _).trans (agree_setLamports _ payee b _)

theorem agree_store (l : Ledger) (kind : Record.Kind) (body : kind.Body Address) (h : b ≠ a) :
    Agree l (l.store kind a body) b :=
  agree_put l _ h

theorem agree_setWallet (l : Ledger) (w : Wallet Address) (h : b ≠ a) :
    Agree l (l.setWallet a w) b :=
  agree_put l _ h

theorem agree_setSupply (l : Ledger) (supply : Nat) (h : b ≠ a) :
    Agree l (l.setSupply a supply) b :=
  agree_put l _ h

theorem owner_setWallet (l : Ledger) (a b : Address) (w : Wallet Address) :
    (l.setWallet a w b).owner = (l b).owner := by
  by_cases h : b = a
  · subst h
    rw [setWallet, put_self]
  · exact (agree_setWallet l w h).owner

/-- An account keeps its owner when a record is written there. -/
theorem owner_store (l : Ledger) (kind : Record.Kind) (a b : Address) (body : kind.Body Address) :
    (l.store kind a body b).owner = (l b).owner := by
  by_cases h : b = a
  · subst h
    rw [store, put_self]
  · exact (agree_store l kind body h).owner

/-- An account from which a record was loaded is the house's own. -/
theorem owner_of_load {kind : Record.Kind} {body : kind.Body Address}
    (h : l.load kind a = .ok body) : (l a).owner = .program := by
  unfold load at h
  simp only [bind_eq_ok_iff, demand_eq_ok_iff] at h
  obtain ⟨-, ho, -⟩ := h
  exact ho

theorem load_of_owner_ne {kind : Record.Kind} (h : (l a).owner ≠ .program) :
    l.load kind a = .error .invalidOwner := by
  unfold load demand
  rw [if_neg h]
  rfl

/-- Nothing was ever kept in an account that is empty. -/
theorem load_of_isEmpty {kind : Record.Kind} {body : kind.Body Address}
    (h : (l a).contents.isEmpty = true) : l.load kind a ≠ .ok body := by
  intro hl
  unfold load at hl
  cases hc : (l a).contents with
  | bytes data =>
    rw [hc] at h hl
    have hd : data = [] := by simpa [Contents.isEmpty] using h
    subst hd
    have hn : (Contents.bytes []).record? l.known kind = none := by
      simp [Contents.record?, Record.decode]
    simp only [hn, bind_eq_ok_iff] at hl
    obtain ⟨-, -, hl⟩ := hl
    cases hl
  | record _ _ => simp [hc, Contents.isEmpty] at h
  | wallet _ => simp [hc, Contents.isEmpty] at h
  | mint _ => simp [hc, Contents.isEmpty] at h

/-! ## Wallets -/

theorem owner_of_wallet {w : Wallet Address} (h : l.wallet a = .ok w) :
    (l a).owner = .tokenProgram := by
  unfold wallet at h
  split at h
  · assumption
  · cases h

/-- No account is a record and a wallet. -/
theorem load_of_wallet {w : Wallet Address} (h : l.wallet a = .ok w) (kind : Record.Kind) :
    l.load kind a = .error .invalidOwner :=
  load_of_owner_ne (by rw [owner_of_wallet h]; decide)

theorem wallet_setWallet (w : Wallet Address) (h : (l a).owner = .tokenProgram) :
    (l.setWallet a w).wallet a = .ok w := by
  unfold wallet
  rw [owner_setWallet, if_pos h, setWallet, put_self]
  rfl

theorem balance_of_wallet {w : Wallet Address} (h : l.wallet a = .ok w) :
    l.balance a = w.amount := by
  unfold balance
  rw [h]

/-- What is no wallet is not refused as one that lacks tokens. -/
theorem wallet_ne_insufficient : l.wallet a ≠ .error .insufficient := by
  intro h
  unfold wallet at h
  repeat' split at h
  all_goals cases h

theorem wallet_of_isEmpty {w : Wallet Address} (h : (l a).contents.isEmpty = true) :
    l.wallet a ≠ .ok w := by
  intro hw
  unfold wallet at hw
  cases hc : (l a).contents with
  | bytes data =>
    rw [hc] at h hw
    have hd : data = [] := by simpa [Contents.isEmpty] using h
    subst hd
    have hn : (Contents.bytes []).wallet? l.known = none := by
      have hs : ¬ (([] : List UInt8).length = Wallet.layout.size) := by decide
      simp only [Contents.wallet?, Layout.parse?, if_neg hs, Option.map_none]
    simp only [hn] at hw
    split at hw <;> cases hw
  | record _ _ => simp [hc, Contents.isEmpty] at h
  | wallet _ => simp [hc, Contents.isEmpty] at h
  | mint _ => simp [hc, Contents.isEmpty] at h

/-- Where a record was written there is no wallet. -/
theorem wallet_store (l : Ledger) (kind : Record.Kind) (a : Address) (body : kind.Body Address)
    (w : Wallet Address) : (l.store kind a body).wallet a ≠ .ok w := by
  intro h
  unfold wallet at h
  rw [store, put_self] at h
  split at h
  · cases h
  · cases h

/-- What is no record is not refused as a wallet that lacks tokens. -/
theorem load_ne_insufficient {kind : Record.Kind} : l.load kind a ≠ .error .insufficient := by
  intro h
  unfold load at h
  simp only [bind_eq_error_iff, demand_eq_error_iff, reduceCtorEq, and_false, false_or] at h
  obtain ⟨-, -, h⟩ := h
  split at h <;> cases h

theorem requireWallet_ne_insufficient {owner : Address} {token : Token} :
    l.requireWallet a owner token ≠ .error .insufficient := by
  intro h
  unfold requireWallet at h
  simp only [bind_eq_error_iff, demand_eq_error_iff, wallet_ne_insufficient, reduceCtorEq,
    and_false, false_or, exists_false] at h

/-! ## Movements -/

section Movement

variable {payer account owner source target mint authority : Address} {token : Token}
  {space amount : Nat}

theorem agree_createAccount (h : l.createAccount payer account owner space = .ok m)
    (hb : b ≠ account) : Agree l m b := by
  unfold createAccount at h
  simp only [bind_eq_ok_iff, pure_eq_ok_iff] at h
  obtain ⟨paid, hp, rfl⟩ := h
  exact (agree_pay hp b).trans (agree_put paid _ hb)

theorem owner_createAccount (h : l.createAccount payer account owner space = .ok m) :
    (m account).owner = owner := by
  unfold createAccount at h
  simp only [bind_eq_ok_iff, pure_eq_ok_iff] at h
  obtain ⟨paid, -, rfl⟩ := h
  rw [put_self]

/-- A wallet is opened at its own address, and holds nothing. -/
theorem openWallet_ok (h : l.openWallet payer account owner token = .ok m) :
    (Address.wallet owner token = account ∨ Address.wallet owner token = payer) ∧
      m.wallet (.wallet owner token) = .ok { mint := .mint token, owner, amount := 0 } ∧
      ∀ b, b ≠ .wallet owner token → Agree l m b := by
  unfold openWallet at h
  simp only [bind_eq_ok_iff, demand_eq_ok_iff, exists_const, pure_eq_ok_iff] at h
  obtain ⟨ha, paid, hp, rfl⟩ := h
  refine ⟨ha, ?_, fun b hb => (agree_pay hp b).trans (agree_put paid _ hb)⟩
  unfold wallet
  rw [put_self]
  rfl

/-- A transfer is between two wallets, and the giver's owner wants it. -/
theorem transfer_ok (h : l.transfer source target authority amount = .ok m) :
    ∃ giver taker, l.wallet source = .ok giver ∧ l.wallet target = .ok taker ∧
      amount ≤ giver.amount ∧ giver.mint = taker.mint ∧ giver.owner = authority ∧
      ∃ received, (l.setWallet source { giver with amount := giver.amount - amount }).wallet target
          = .ok received ∧
        received.amount + amount < Amount.limit ∧
        m = (l.setWallet source { giver with amount := giver.amount - amount }).setWallet target
          { received with amount := received.amount + amount } := by
  unfold transfer at h
  simp only [bind_eq_ok_iff, demand_eq_ok_iff, exists_const, pure_eq_ok_iff] at h
  obtain ⟨giver, hg, taker, ht, hle, hm, ho, received, hr, hlt, rfl⟩ := h
  exact ⟨giver, taker, hg, ht, hle, hm, ho, received, hr, hlt, rfl⟩

theorem agree_transfer (h : l.transfer source target authority amount = .ok m) (hs : b ≠ source)
    (ht : b ≠ target) : Agree l m b := by
  obtain ⟨giver, -, -, -, -, -, -, received, -, -, rfl⟩ := transfer_ok h
  exact (agree_setWallet l _ hs).trans (agree_setWallet _ _ ht)

/-- No record changes with a transfer. -/
theorem load_transfer (h : l.transfer source target authority amount = .ok m)
    (kind : Record.Kind) (b : Address) : m.load kind b = l.load kind b := by
  obtain ⟨giver, taker, hg, ht, -, -, -, received, -, -, hm⟩ := transfer_ok h
  have howner : (m b).owner = (l b).owner := by rw [hm, owner_setWallet, owner_setWallet]
  by_cases hs : b = source
  · subst hs
    rw [load_of_wallet hg, load_of_owner_ne]
    rw [howner, owner_of_wallet hg]
    decide
  · by_cases htb : b = target
    · subst htb
      rw [load_of_wallet ht, load_of_owner_ne]
      rw [howner, owner_of_wallet ht]
      decide
    · exact (agree_transfer h hs htb).load kind

/-- A burn takes the amount out of the wallet. -/
theorem burn_ok (h : l.burn source mint amount = .ok m) :
    ∃ giver supply, l.wallet source = .ok giver ∧ amount ≤ giver.amount ∧
      m = (l.setWallet source { giver with amount := giver.amount - amount }).setSupply mint
        supply := by
  unfold burn at h
  simp only [bind_eq_ok_iff, demand_eq_ok_iff, exists_const, pure_eq_ok_iff] at h
  obtain ⟨giver, hg, supply, -, hle, -, rfl⟩ := h
  exact ⟨giver, _, hg, hle, rfl⟩

theorem agree_burn (h : l.burn source mint amount = .ok m) (hs : b ≠ source) (hm : b ≠ mint) :
    Agree l m b := by
  obtain ⟨giver, supply, -, -, rfl⟩ := burn_ok h
  exact (agree_setWallet l _ hs).trans (agree_setSupply _ _ hm)

/-- No record changes with a burn, unless the mint's address is the record's. -/
theorem load_burn (h : l.burn source mint amount = .ok m) (kind : Record.Kind) (hb : b ≠ mint) :
    m.load kind b = l.load kind b := by
  by_cases hs : b = source
  · obtain ⟨giver, supply, hg, -, rfl⟩ := burn_ok h
    subst hs
    rw [load_of_wallet hg, load_of_owner_ne]
    rw [(agree_setSupply _ _ hb).owner, owner_setWallet, owner_of_wallet hg]
    decide
  · exact (agree_burn h hs hb).load kind

theorem agree_close {payee : Address} (h : Operation.close l a payee = .ok m) (hb : b ≠ a) :
    Agree l m b := by
  unfold Operation.close at h
  simp only [bind_eq_ok_iff, demand_eq_ok_iff, exists_const, pure_eq_ok_iff] at h
  obtain ⟨-, rfl⟩ := h
  exact ((agree_setLamports l a b 0).trans (agree_setLamports _ payee b _)).trans
    (agree_put _ _ hb)

/-- Nothing is kept in an account that was closed. -/
theorem load_close {payee : Address} (h : Operation.close l a payee = .ok m)
    (kind : Record.Kind) : m.load kind a = .error .invalidOwner := by
  unfold Operation.close at h
  simp only [bind_eq_ok_iff, demand_eq_ok_iff, exists_const, pure_eq_ok_iff] at h
  obtain ⟨-, rfl⟩ := h
  apply load_of_owner_ne
  rw [put_self]
  exact (by decide : Address.system ≠ .program)

end Movement

end DiceHouse.Ledger
