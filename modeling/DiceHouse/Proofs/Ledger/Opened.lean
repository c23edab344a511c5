import DiceHouse.Proofs.Ledger.Purse

/-!
# Opened wallets

The wallet of an owner for a token is opened if the token program keeps a sound wallet for them at
its own address. No movement takes it away again. Between opened wallets a transfer is refused only
for what there is to transfer, and so is every other movement of an operation: `Refusal.Short` is
what is left when all accounts are the right ones, and `Refusal.Material` is that or a fault of the
game.
-/

namespace DiceHouse

/-- The game refuses, or tokens or lamports are too few or too many. -/
def Refusal.Material : Refusal → Prop
  | .fault _ | .insufficient | .balanceOverflow | .overflow => True
  | _ => False

/-- Tokens or lamports are too few or too many. -/
def Refusal.Short : Refusal → Prop
  | .insufficient | .balanceOverflow | .overflow => True
  | _ => False

open Refusal (Material Short)

theorem Refusal.Short.material {r : Refusal} (h : r.Short) : r.Material := by
  cases r <;> trivial

/-- What is too few or too many is no fault of the game. -/
theorem Refusal.Short.ne_fault {r : Refusal} (h : r.Short) (f : Fault) : r ≠ .fault f := by
  rintro rfl
  exact h

theorem RefusedOnly.material {α : Type} {x : Except Refusal α} (h : RefusedOnly Short x) :
    RefusedOnly Material x :=
  h.mono fun _ => Refusal.Short.material

theorem material_liftM {α : Type} (x : Except Fault α) :
    RefusedOnly Material (liftM x : Except Refusal α) := by
  intro e h
  obtain ⟨f, -, rfl⟩ := liftM_eq_error_iff.mp h
  trivial

theorem short_demand {c : Prop} [Decidable c] {r : Refusal} (h : r.Short) :
    RefusedOnly Short (demand c r) := by
  intro e he
  exact (demand_eq_error_iff.mp he).2 ▸ h

namespace Ledger

variable {l m : Ledger} {owner other payer a : Address} {token token' : Token}

/-- The wallet of an owner for a token is there. -/
def Opened (l : Ledger) (owner : Address) (token : Token) : Prop :=
  ∃ w, l.wallet (.wallet owner token) = .ok w ∧ w.mint = .mint token ∧ w.owner = owner
    ∧ w.Sound ∧ w.stateCode ≠ 0

/-! ## What keeps a wallet opened -/

theorem Opened.of_agree (h : l.Opened owner token) (hag : Agree l m (.wallet owner token)) :
    m.Opened owner token := by
  obtain ⟨w, hw, hrest⟩ := h
  exact ⟨w, hag.wallet.trans hw, hrest⟩

theorem Opened.store {kind : Record.Kind} {body : kind.Body Address} (h : l.Opened owner token)
    (ha : Address.wallet owner token ≠ a) : (l.store kind a body).Opened owner token :=
  h.of_agree (agree_store l kind body ha)

/-- Other amounts in wallets close none. -/
theorem Opened.setAmount {v : Wallet Address} (h : l.Opened owner token)
    (hv : l.wallet a = .ok v) (amount : Nat) :
    (l.setWallet a { v with amount }).Opened owner token := by
  by_cases ha : Address.wallet owner token = a
  · subst ha
    obtain ⟨w, hw, hmint, howner, hsound, hstate⟩ := h
    rw [hv] at hw
    cases hw
    exact ⟨_, wallet_setWallet _ (owner_of_wallet hv), hmint, howner, hsound, hstate⟩
  · exact h.of_agree (agree_setWallet l _ ha)

theorem Opened.transfer {source target authority : Address} {amount : Nat}
    (h : l.Opened owner token) (ht : l.transfer source target authority amount = .ok m) :
    m.Opened owner token := by
  obtain ⟨giver, taker, hgiver, -, -, -, -, received, hreceived, -, rfl⟩ := transfer_ok ht
  exact (h.setAmount hgiver _).setAmount hreceived _

theorem opened_openWallet (h : l.openWallet payer a owner token = .ok m) :
    m.Opened owner token :=
  ⟨_, (openWallet_ok h).2.1, rfl, rfl,
    ⟨by simp, Nat.zero_le 1, Nat.zero_le 1, Nat.zero_le 1⟩, Nat.one_ne_zero⟩

/-- An opened wallet other than the new one stays as it was. -/
theorem Opened.openWallet (h : l.Opened other token')
    (hm : l.openWallet payer a owner token = .ok m) : m.Opened other token' := by
  by_cases ha : Address.wallet other token' = .wallet owner token
  · cases ha
    exact opened_openWallet hm
  · exact h.of_agree ((openWallet_ok hm).2.2 _ ha)

/-- An opened wallet passes the check that asks for it. -/
theorem Opened.require (h : l.Opened owner token) :
    l.requireWallet (.wallet owner token) owner token = .ok () := by
  obtain ⟨w, hw, -, -, hsound, hstate⟩ := h
  unfold requireWallet
  rw [demand_of_true rfl, ok_bind, hw, ok_bind, demand_of_true hsound, ok_bind,
    demand_of_true hstate]

/-! ## Refusals of movements -/

theorem short_pay {payee : Address} {lamports : Nat} :
    RefusedOnly Short (l.pay payer payee lamports) := by
  unfold pay
  exact RefusedOnly.bind (short_demand trivial) fun _ => refusedOnly_pure _

theorem short_createAccount {space : Nat} :
    RefusedOnly Short (l.createAccount payer a owner space) := by
  unfold createAccount
  exact short_pay.bind fun _ => refusedOnly_pure _

theorem short_openWallet :
    RefusedOnly Short (l.openWallet payer (.wallet owner token) owner token) := by
  intro e h
  unfold Ledger.openWallet at h
  rcases bind_eq_error_iff.mp h with hown | ⟨-, -, hpaid⟩
  · exact absurd (.inl rfl) (demand_eq_error_iff.mp hown).1
  · exact short_pay.bind (fun _ => refusedOnly_pure _) e hpaid

theorem short_transfer {amount : Nat} (hs : l.Opened owner token) (ht : l.Opened other token) :
    RefusedOnly Short
      (l.transfer (.wallet owner token) (.wallet other token) owner amount) := by
  obtain ⟨giver, hgiver, hmint, howner, -⟩ := hs
  have hstill := ht.setAmount hgiver (giver.amount - amount)
  obtain ⟨taker, htaker, htmint, -⟩ := ht
  obtain ⟨received, hreceived, -⟩ := hstill
  have hmints : giver.mint = taker.mint := hmint.trans htmint.symm
  unfold Ledger.transfer
  simp only [hgiver, htaker, demand_of_true hmints, demand_of_true howner, hreceived, ok_bind]
  exact RefusedOnly.bind (short_demand trivial) fun _ =>
    RefusedOnly.bind (short_demand trivial) fun _ => refusedOnly_pure _

theorem short_burn {mint : Address} {amount supply : Nat} (hs : l.Opened owner token)
    (hm : l.supply mint = .ok supply) :
    RefusedOnly Short (l.burn (.wallet owner token) mint amount) := by
  obtain ⟨giver, hgiver, -⟩ := hs
  unfold Ledger.burn
  simp only [hgiver, hm, ok_bind]
  exact RefusedOnly.bind (short_demand trivial) fun _ =>
    RefusedOnly.bind (short_demand trivial) fun _ => refusedOnly_pure _

theorem short_close {payee : Address} : RefusedOnly Short (Operation.close l a payee) := by
  unfold Operation.close
  exact RefusedOnly.bind (short_demand trivial) fun _ => refusedOnly_pure _

end Ledger

end DiceHouse
