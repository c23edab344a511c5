import DiceHouse.Proofs.Ledger.Agree

/-!
# Purses

The purse of an owner for a token is the wallet at the address derived from both. It is in order if
whatever wallet is kept there names that owner and that token and holds an amount.

A transfer needs the word of the giving wallet's owner. So a purse that is in order stays so, and
what someone else signs for can only add to it: `purse_transfer` for the transfers of others,
`purse_payOut` and `purse_burn` for what leaves with the owner's word. `deposit_ok` is the one way
in which the house takes tokens: its purse is opened if need be, and then paid into.
-/

namespace DiceHouse.Ledger

/-- The wallet at the derived address, if there is one, is the owner's and of the token. -/
def Purse (l : Ledger) (owner : Address) (token : Token) : Prop :=
  ∀ w, l.wallet (.wallet owner token) = .ok w →
    w.owner = owner ∧ w.mint = .mint token ∧ w.amount < Amount.limit

variable {l m : Ledger} {owner : Address} {token : Token}

theorem Purse.of_agree (hp : l.Purse owner token) (h : Agree l m (.wallet owner token)) :
    m.Purse owner token := by
  intro w hw
  exact hp w (by rw [← h.wallet]; exact hw)

/-- What moves a purse moves it just so when other things are done before and after. -/
theorem Purse.between {l' m' : Ledger} {R : Nat → Nat → Prop} (hp : l.Purse owner token)
    (hl : Agree l l' (.wallet owner token)) (hm : Agree m' m (.wallet owner token))
    (h : l'.Purse owner token → m'.Purse owner token ∧
      R (m'.balance (.wallet owner token)) (l'.balance (.wallet owner token))) :
    m.Purse owner token ∧
      R (m.balance (.wallet owner token)) (l.balance (.wallet owner token)) := by
  obtain ⟨hp', hr⟩ := h (hp.of_agree hl)
  rw [hl.balance] at hr
  refine ⟨hp'.of_agree hm, ?_⟩
  rw [hm.balance]
  exact hr

theorem Purse.balance_lt (hp : l.Purse owner token) :
    l.balance (.wallet owner token) < Amount.limit := by
  unfold balance
  cases hw : l.wallet (.wallet owner token) with
  | ok w => exact (hp w hw).2.2
  | error r => exact Nat.pow_pos (by decide)

/-- A purse that holds nothing yet is in order. -/
theorem purse_of_isEmpty (h : (l (.wallet owner token)).contents.isEmpty = true) :
    l.Purse owner token :=
  fun _ hw => absurd hw (wallet_of_isEmpty h)

theorem balance_of_isEmpty {a : Address} (h : (l a).contents.isEmpty = true) :
    l.balance a = 0 := by
  unfold balance
  cases hw : l.wallet a with
  | ok w => exact absurd hw (wallet_of_isEmpty h)
  | error r => rfl

section Movement

variable {source target authority mint : Address} {amount : Nat}

/-- What a transfer leaves in the wallet that was given something, if it was another one. -/
theorem target_of_transfer (h : l.transfer source target authority amount = .ok m)
    (hne : target ≠ source) :
    ∃ taker, l.wallet target = .ok taker ∧ taker.amount + amount < Amount.limit ∧
      m.wallet target = .ok { taker with amount := taker.amount + amount } := by
  obtain ⟨giver, taker, -, htk, -, -, -, received, hr, hlt, rfl⟩ := transfer_ok h
  -- the wallet is read again after the giver's was written, which has not changed it
  rw [(agree_setWallet l _ hne).wallet, htk] at hr
  cases hr
  refine ⟨taker, htk, hlt, wallet_setWallet _ ?_⟩
  rw [owner_setWallet]
  exact owner_of_wallet htk

/-- What a transfer leaves in a wallet that gave nothing. -/
theorem wallet_of_transfer (h : l.transfer source target authority amount = .ok m)
    {a : Address} (ha : a ≠ source) {w : Wallet Address} (hw : m.wallet a = .ok w) :
    ∃ v, l.wallet a = .ok v ∧ w.owner = v.owner ∧ w.mint = v.mint ∧
      w.amount = v.amount + (if target = a then amount else 0) ∧
      (target = a → w.amount < Amount.limit) := by
  by_cases ht : target = a
  · subst ht
    obtain ⟨taker, htk, hlt, hm⟩ := target_of_transfer h ha
    rw [hm] at hw
    cases hw
    exact ⟨taker, htk, rfl, rfl, by rw [if_pos rfl], fun _ => hlt⟩
  · rw [(agree_transfer h ha (Ne.symm ht)).wallet] at hw
    refine ⟨w, hw, rfl, rfl, ?_, fun hc => absurd hc ht⟩
    rw [if_neg ht, Nat.add_zero]

/-- Balances of wallets that gave nothing grow by what they were given. -/
theorem balance_of_transfer (h : l.transfer source target authority amount = .ok m)
    {a : Address} (ha : a ≠ source) :
    m.balance a = l.balance a + (if target = a then amount else 0) := by
  by_cases ht : target = a
  · subst ht
    obtain ⟨taker, htk, -, hm⟩ := target_of_transfer h ha
    rw [balance_of_wallet hm, balance_of_wallet htk, if_pos rfl]
  · rw [(agree_transfer h ha (Ne.symm ht)).balance, if_neg ht, Nat.add_zero]

/-- Nobody but its owner takes from a purse. -/
theorem purse_transfer (hp : l.Purse owner token) (hne : authority ≠ owner)
    (h : l.transfer source target authority amount = .ok m) :
    m.Purse owner token ∧ m.balance (.wallet owner token)
      = l.balance (.wallet owner token)
        + (if target = .wallet owner token then amount else 0) := by
  -- the owner of the giving wallet has signed, so it is not this purse
  have hs : Address.wallet owner token ≠ source := by
    intro hc
    subst hc
    obtain ⟨giver, -, hg, -, -, -, ho, -⟩ := transfer_ok h
    exact hne (by rw [← ho, (hp giver hg).1])
  refine ⟨fun w hw => ?_, balance_of_transfer h hs⟩
  obtain ⟨v, hv, ho, hmint, ham, hlt⟩ := wallet_of_transfer h hs hw
  obtain ⟨hvo, hvm, hvl⟩ := hp v hv
  refine ⟨by rw [ho, hvo], by rw [hmint, hvm], ?_⟩
  by_cases ht : target = .wallet owner token
  · exact hlt ht
  · rw [ham, if_neg ht]
    exact hvl

/-- What leaves a purse by a transfer leaves its balance, unless it comes back at once. -/
theorem purse_payOut (hp : l.Purse owner token)
    (h : l.transfer (.wallet owner token) target owner amount = .ok m) :
    m.Purse owner token ∧ m.balance (.wallet owner token) + amount
      = l.balance (.wallet owner token)
        + (if target = .wallet owner token then amount else 0) := by
  obtain ⟨giver, taker, hg, ht, hle, -, -, received, hr, hlt, hm⟩ := transfer_ok h
  obtain ⟨hgo, hgm, hgl⟩ := hp giver hg
  have hown : (l (.wallet owner token)).owner = .tokenProgram := owner_of_wallet hg
  -- a transfer to itself reads the wallet again after the amount was taken out of it
  by_cases hself : target = .wallet owner token
  · subst hself
    have hrec := wallet_setWallet { giver with amount := giver.amount - amount } hown
    rw [hrec] at hr
    cases hr
    have hfin := wallet_setWallet
      (l := l.setWallet (.wallet owner token) { giver with amount := giver.amount - amount })
      { giver with amount := giver.amount - amount + amount } (by rw [owner_setWallet, hown])
    rw [← hm] at hfin
    refine ⟨fun w hw => ?_, ?_⟩
    · rw [hfin] at hw
      cases hw
      exact ⟨hgo, hgm, hlt⟩
    · rw [balance_of_wallet hfin, balance_of_wallet hg, if_pos rfl]
      simp only
      omega
  · have hne : Address.wallet owner token ≠ target := fun hc => hself hc.symm
    have hfin : m.wallet (.wallet owner token)
        = .ok { giver with amount := giver.amount - amount } := by
      rw [hm, (agree_setWallet _ _ hne).wallet]
      exact wallet_setWallet _ hown
    refine ⟨fun w hw => ?_, ?_⟩
    · rw [hfin] at hw
      cases hw
      exact ⟨hgo, hgm, Nat.lt_of_le_of_lt (Nat.sub_le _ _) hgl⟩
    · rw [balance_of_wallet hfin, balance_of_wallet hg, if_neg hself]
      simp only
      omega

/-- An amount that was paid out of a purse, by a transfer unless it was nothing. -/
def PaidOut (l m : Ledger) (owner : Address) (token : Token) (target : Address) (amount : Nat) :
    Prop :=
  m = l ∧ amount = 0 ∨ l.transfer (.wallet owner token) target owner amount = .ok m

theorem PaidOut.load (h : l.PaidOut m owner token target amount) (kind : Record.Kind)
    (a : Address) : m.load kind a = l.load kind a := by
  rcases h with ⟨rfl, -⟩ | htr
  · rfl
  · exact load_transfer htr kind a

theorem PaidOut.agree {a : Address} (h : l.PaidOut m owner token target amount)
    (hs : a ≠ .wallet owner token) (ht : a ≠ target) : Agree l m a := by
  rcases h with ⟨rfl, -⟩ | htr
  · exact .refl _ a
  · exact agree_transfer htr hs ht

theorem PaidOut.purse (h : l.PaidOut m owner token target amount) (hp : l.Purse owner token) :
    m.Purse owner token ∧ m.balance (.wallet owner token) + amount
      = l.balance (.wallet owner token)
        + (if target = .wallet owner token then amount else 0) := by
  rcases h with ⟨rfl, rfl⟩ | htr
  · exact ⟨hp, by rw [ite_self]⟩
  · exact purse_payOut hp htr

theorem PaidOut.other {o : Address} {k : Token} (h : l.PaidOut m owner token target amount)
    (hne : owner ≠ o) (hp : l.Purse o k) :
    m.Purse o k ∧ m.balance (.wallet o k) = l.balance (.wallet o k)
      + (if target = .wallet o k then amount else 0) := by
  rcases h with ⟨rfl, rfl⟩ | htr
  · exact ⟨hp, by rw [ite_self, Nat.add_zero]⟩
  · exact purse_transfer hp hne htr

/-- What is burned leaves the balance. -/
theorem purse_burn (hp : l.Purse owner token) (hmint : mint ≠ .wallet owner token)
    (h : l.burn (.wallet owner token) mint amount = .ok m) :
    m.Purse owner token ∧ m.balance (.wallet owner token) + amount
      = l.balance (.wallet owner token) := by
  obtain ⟨giver, supply, hg, hle, hm⟩ := burn_ok h
  obtain ⟨hgo, hgm, hgl⟩ := hp giver hg
  have hfin : m.wallet (.wallet owner token)
      = .ok { giver with amount := giver.amount - amount } := by
    rw [hm, (agree_setSupply _ _ hmint.symm).wallet]
    exact wallet_setWallet _ (owner_of_wallet hg)
  refine ⟨fun w hw => ?_, ?_⟩
  · rw [hfin] at hw
    cases hw
    exact ⟨hgo, hgm, Nat.lt_of_le_of_lt (Nat.sub_le _ _) hgl⟩
  · rw [balance_of_wallet hfin, balance_of_wallet hg]
    simp only
    omega

/-- A transfer is refused for want of tokens only if the giving wallet lacks them. -/
theorem balance_lt_of_transfer (h : l.transfer source target authority amount
    = .error .insufficient) : l.balance source < amount := by
  unfold transfer at h
  simp only [bind_eq_error_iff, demand_eq_error_iff, demand_eq_ok_iff, exists_const,
    wallet_ne_insufficient, pure_ne_error, reduceCtorEq, and_false, and_true, or_false,
    false_or, exists_false] at h
  obtain ⟨giver, hg, -, -, hlt⟩ := h
  rw [balance_of_wallet hg]
  omega

end Movement

end DiceHouse.Ledger
