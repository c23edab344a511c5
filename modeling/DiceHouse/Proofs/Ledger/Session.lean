import DiceHouse.Proofs.Ledger.Purse

/-!
# What the steps of a session change

A session opens a record, opens a purse of the house, takes a deposit into it or pays out of it.
Each lemma here says what such a step leaves behind: the record it put, the purse it filled, and
that nothing else is read differently.
-/

namespace DiceHouse

/-- What a movement transfers from one wallet to another. -/
def Movement.paid (source target : Address) : Movement → Nat
  | .transfer s t _ amount _ => if s = source ∧ t = target then amount else 0
  | _ => 0

namespace Session

/-- What an instruction has transferred from one wallet to another so far. -/
def paid (s : Session) (source target : Address) : Nat :=
  s.movements.foldl (fun total m => total + m.paid source target) 0

variable {s s' s₁ s₂ s₃ : Session} {payer account derived owner source target authority : Address}
  {token : Token} {amount : Nat}

@[simp] theorem ledger_note (s : Session) (line : String) : (s.note line).ledger = s.ledger := rfl

@[simp] theorem ledger_store (s : Session) (kind : Record.Kind) (a : Address)
    (body : kind.Body Address) : (s.store kind a body).ledger = s.ledger.store kind a body := rfl

theorem move_ok {movement : Movement} (h : s.move movement = .ok s') :
    movement.apply s.ledger = .ok s'.ledger := by
  unfold move at h
  simp only [bind_eq_ok_iff, pure_eq_ok_iff] at h
  obtain ⟨ledger, hl, rfl⟩ := h
  exact hl

theorem move_error {movement : Movement} {e : Refusal} (h : s.move movement = .error e) :
    movement.apply s.ledger = .error e := by
  unfold move at h
  simp only [bind_eq_error_iff, pure_ne_error, and_false, exists_false, or_false] at h
  exact h

/-! ## What was paid -/

@[simp] theorem paid_start (l : Ledger) (source target : Address) :
    paid { ledger := l } source target = 0 := rfl

@[simp] theorem paid_store (s : Session) (kind : Record.Kind) (a : Address)
    (body : kind.Body Address) (source target : Address) :
    (s.store kind a body).paid source target = s.paid source target := rfl

/-- A payment counts from the wallet that gave to the wallet that took, and nowhere else. -/
theorem paid_of_payOut {house : Address} (h : s.payOut source target house amount = .ok s')
    (giver taker : Address) : s'.paid giver taker
      = s.paid giver taker + if source = giver ∧ target = taker then amount else 0 := by
  unfold payOut move at h
  simp only [bind_eq_ok_iff, pure_eq_ok_iff] at h
  obtain ⟨ledger, -, rfl⟩ := h
  simp only [paid, List.foldl_append, List.foldl_cons, List.foldl_nil, Movement.paid]

theorem paid_payOut {house : Address} (h : s.payOut source target house amount = .ok s') :
    s'.paid source target = s.paid source target + amount := by
  rw [paid_of_payOut h, if_pos ⟨rfl, rfl⟩]

/-! ## Deposits and new records -/

/-- A record is opened at the address derived for it, and only there. -/
theorem create_ok {kind : Record.Kind} {body : kind.Body Address}
    (h : s.create kind payer account derived body = .ok s') :
    account = derived ∧ s'.ledger.load kind account = .ok body ∧
      (s'.ledger account).owner = .program ∧
      ∀ b, b ≠ account → Ledger.Agree s.ledger s'.ledger b := by
  unfold create at h
  simp only [bind_eq_ok_iff, demand_eq_ok_iff, exists_const, pure_eq_ok_iff] at h
  obtain ⟨hd, s₁, hm, rfl⟩ := h
  have hc := move_ok hm
  have ho : (s₁.ledger account).owner = .program := Ledger.owner_createAccount hc
  refine ⟨hd, Ledger.load_store _ kind account body ho, ?_, fun b hb => ?_⟩
  · rw [ledger_store, Ledger.owner_store, ho]
  · exact (Ledger.agree_createAccount hc hb).trans (Ledger.agree_store _ kind body hb)

/-- A purse that is asked for is there already, or is opened at its own address. -/
theorem ensureWallet_ok (h : s.ensureWallet payer account owner token = .ok s₁) :
    s₁ = s ∧ account = .wallet owner token ∨
      (s.ledger account).contents.isEmpty = true ∧
        s₁.ledger.wallet (.wallet owner token) = .ok { mint := .mint token, owner, amount := 0 } ∧
        ∀ b, b ≠ .wallet owner token → Ledger.Agree s.ledger s₁.ledger b := by
  unfold ensureWallet at h
  split at h
  · next hempty =>
    obtain ⟨-, hopen, hrest⟩ := Ledger.openWallet_ok (move_ok h)
    exact .inr ⟨hempty, hopen, hrest⟩
  · simp only [bind_eq_ok_iff, pure_eq_ok_iff] at h
    obtain ⟨u, hreq, rfl⟩ := h
    unfold Ledger.requireWallet at hreq
    simp only [bind_eq_ok_iff, demand_eq_ok_iff, exists_const] at hreq
    exact .inl ⟨rfl, hreq.1⟩

/-- A purse that was asked for and is paid into is the owner's, and what had to be opened for it was
empty. Records may be written in between, where there are no wallets. -/
theorem deposit_ok (written : Address → Prop)
    (he : s.ensureWallet payer account owner token = .ok s₁)
    (hag : ∀ b, ¬written b → Ledger.Agree s₁.ledger s₂.ledger b)
    (hno : ∀ b, written b → ∀ w, s₂.ledger.wallet b ≠ .ok w)
    (ht : s₂.transfer source account authority amount = .ok s₃) :
    account = .wallet owner token ∧
      (∀ b, b ≠ account → Ledger.Agree s.ledger s₁.ledger b) ∧
      (∀ kind b, s₃.ledger.load kind b = s₂.ledger.load kind b) ∧
      (∀ o k, authority ≠ o → ¬written (.wallet o k) → s.ledger.Purse o k →
        s₃.ledger.Purse o k ∧ s₃.ledger.balance (.wallet o k)
          = s.ledger.balance (.wallet o k) + (if account = .wallet o k then amount else 0)) := by
  have htr : s₂.ledger.transfer source account authority amount = .ok s₃.ledger := move_ok ht
  have hload := Ledger.load_transfer htr
  obtain ⟨rfl, hacc⟩ | ⟨hempty, hopen, hrest⟩ := ensureWallet_ok he
  · refine ⟨hacc, fun b _ => .refl _ b, hload, fun o k hne hw hp => ?_⟩
    have hmid := hag (.wallet o k) hw
    have hfin := Ledger.purse_transfer (hp.of_agree hmid) hne htr
    rw [hmid.balance] at hfin
    exact hfin
  · have hacc : account = .wallet owner token := by
      -- had the payer's own wallet been opened, nothing could be paid to the account
      refine Classical.byContradiction fun hne => ?_
      obtain ⟨-, taker, -, hw, -⟩ := Ledger.transfer_ok htr
      have hnw : ¬written account := fun hc => hno account hc taker hw
      rw [(hag account hnw).wallet, (hrest account hne).wallet] at hw
      exact Ledger.wallet_of_isEmpty hempty hw
    refine ⟨hacc, fun b hb => hrest b (hacc ▸ hb), hload, fun o k hne hnw hp => ?_⟩
    have hmid := hag (.wallet o k) hnw
    -- opening a purse adds nothing to any
    suffices hopened : s₁.ledger.Purse o k ∧
        s₁.ledger.balance (.wallet o k) = s.ledger.balance (.wallet o k) by
      have hfin := Ledger.purse_transfer (hopened.1.of_agree hmid) hne htr
      rw [hmid.balance, hopened.2] at hfin
      exact hfin
    by_cases hok : account = .wallet o k
    · cases hacc.symm.trans hok
      refine ⟨fun w hw => ?_, ?_⟩
      · rw [hopen] at hw
        cases hw
        exact ⟨rfl, rfl, Nat.pow_pos (by decide)⟩
      · rw [Ledger.balance_of_wallet hopen, ← hacc, Ledger.balance_of_isEmpty hempty]
    · have hsame : Ledger.Agree s.ledger s₁.ledger (.wallet o k) :=
        hrest _ fun hc => hok (hacc.trans hc.symm)
      exact ⟨hp.of_agree hsame, hsame.balance⟩

end Session

end DiceHouse
