import DiceHouse.Proofs.Ledger.Session

/-!
# What is left to an owner

A change of the ledger spares an owner if every wallet of theirs is still there afterwards, theirs
and of the same token, and holds no less. It does not matter where the wallet is: an owner may have
any number of them, at addresses that somebody else hands over as accounts of an instruction.

Each step of a session spares whoever does not sign for it: a record is written where the house's
own account is or where nothing was, a purse of the house is opened over none but its own, and a
transfer takes from a wallet whose owner wants it.
-/

namespace DiceHouse

namespace Ledger

/-- Every wallet of an owner stays theirs and holds no less. -/
def Spares (l m : Ledger) (owner : Address) : Prop :=
  ∀ a w, l.wallet a = .ok w → w.owner = owner →
    ∃ w', m.wallet a = .ok w' ∧ w'.owner = owner ∧ w'.mint = w.mint ∧ w.amount ≤ w'.amount

namespace Spares

variable {l m n : Ledger} {v : Address}

theorem refl (l : Ledger) (v : Address) : Spares l l v :=
  fun _ w hw ho => ⟨w, hw, ho, rfl, Nat.le_refl _⟩

theorem trans (h : Spares l m v) (h' : Spares m n v) : Spares l n v := by
  intro a w hw ho
  obtain ⟨w₁, hw₁, ho₁, hmint₁, hle₁⟩ := h a w hw ho
  obtain ⟨w₂, hw₂, ho₂, hmint₂, hle₂⟩ := h' a w₁ hw₁ ho₁
  exact ⟨w₂, hw₂, ho₂, hmint₂.trans hmint₁, Nat.le_trans hle₁ hle₂⟩

/-- What changes only where the owner has no wallet spares the owner. -/
theorem of_agree (h : ∀ a, (∀ w, l.wallet a = .ok w → w.owner ≠ v) ∨ Agree l m a) :
    Spares l m v := by
  intro a w hw ho
  rcases h a with hnone | hag
  · exact absurd ho (hnone w hw)
  · exact ⟨w, hag.wallet.trans hw, ho, rfl, Nat.le_refl _⟩

/-- So does what changes one account only, which is no wallet of the owner's. -/
theorem of_agree_except {a : Address} (ha : ∀ w, l.wallet a = .ok w → w.owner ≠ v)
    (h : ∀ b, b ≠ a → Agree l m b) : Spares l m v := by
  refine of_agree fun b => ?_
  by_cases hb : b = a
  · subst hb
    exact .inl ha
  · exact .inr (h b hb)

end Spares

variable {l m : Ledger} {a v : Address}

/-! ## Accounts that are no wallets -/

/-- An account that is the house's own is no wallet. -/
theorem wallet_of_owner (h : (l a).owner = .program) (w : Wallet Address) :
    l.wallet a ≠ .ok w := by
  intro hw
  rw [owner_of_wallet hw] at h
  cases h

/-- What changes the house's own accounts only spares everybody. -/
theorem spares_of_own (h : ∀ a, (l a).owner ≠ .program → Agree l m a) (v : Address) :
    Spares l m v := by
  refine .of_agree fun a => ?_
  by_cases ha : (l a).owner = .program
  · exact .inl fun w hw => absurd hw (wallet_of_owner ha w)
  · exact .inr (h a ha)

/-- So does what changes but an account from which a record was loaded. -/
theorem spares_of_written {kind : Record.Kind} {body : kind.Body Address}
    (h : l.load kind a = .ok body) (hrest : ∀ b, b ≠ a → Agree l m b) (v : Address) :
    Spares l m v :=
  spares_of_own (fun b hb => hrest b fun hc => hb (hc ▸ owner_of_load h)) v

/-- And what changes but two of them. -/
theorem spares_of_both_written {b : Address} {kind kind' : Record.Kind}
    {body : kind.Body Address} {body' : kind'.Body Address} (ha : l.load kind a = .ok body)
    (hb : l.load kind' b = .ok body') (hrest : ∀ c, c ≠ a → c ≠ b → Agree l m c) (v : Address) :
    Spares l m v :=
  spares_of_own (fun c hc => hrest c (fun he => hc (he ▸ owner_of_load ha))
    fun he => hc (he ▸ owner_of_load hb)) v

/-- A mint is no wallet, for it has fewer bytes. -/
theorem wallet_of_supply {n : Nat} (h : l.supply a = .ok n) (w : Wallet Address) :
    l.wallet a ≠ .ok w := by
  intro hw
  unfold supply at h
  unfold wallet at hw
  cases hc : (l a).contents with
  | bytes data =>
    rw [hc] at h hw
    simp only [Contents.supply?, Contents.wallet?, Layout.parse?] at h hw
    by_cases hlength : data.length = supplyLayout.size
    · have hne : ¬data.length = Wallet.layout.size := by
        rw [hlength]
        decide
      simp only [if_neg hne, Option.map_none] at hw
      split at hw <;> cases hw
    · rw [if_neg hlength] at h
      cases h
  | record _ _ =>
    rw [hc] at h
    cases h
  | wallet _ =>
    rw [hc] at h
    cases h
  | mint _ =>
    rw [hc] at hw
    simp only [Contents.wallet?] at hw
    split at hw <;> cases hw

/-! ## Changes of the ledger -/

/-- A record that is written where the house's own account is spares everybody. -/
theorem spares_store (kind : Record.Kind) (body : kind.Body Address)
    (h : (l a).owner = .program) (v : Address) : Spares l (l.store kind a body) v :=
  spares_of_own (fun _ hb => agree_store l _ _ fun hc => hb (hc ▸ h)) v

/-- Two records are written where the house's own accounts are: each is read as it was written, no
other account changes, and everybody is spared. -/
theorem store_both {kind kind' : Record.Kind} {b : Address} {body : kind.Body Address}
    {body' : kind'.Body Address} (ha : (l a).owner = .program) (hb : (l b).owner = .program)
    (hne : a ≠ b) (hm : (l.store kind a body).store kind' b body' = m) :
    m.load kind a = .ok body ∧ m.load kind' b = .ok body' ∧
      (∀ c, c ≠ a → c ≠ b → Agree l m c) ∧ ∀ v, Spares l m v := by
  subst hm
  have hb' : (l.store kind a body b).owner = .program := by
    rw [owner_store]
    exact hb
  refine ⟨?_, load_store _ kind' b body' hb', fun c hca hcb => ?_, fun v => ?_⟩
  · rw [load_store_of_ne _ _ hne]
    exact load_store l kind a body ha
  · exact (agree_store l _ _ hca).trans (agree_store _ _ _ hcb)
  · exact (spares_store kind body ha v).trans (spares_store kind' body' hb' v)

/-- A transfer spares whoever does not sign for it. -/
theorem spares_transfer {source target authority : Address} {amount : Nat}
    (h : l.transfer source target authority amount = .ok m) (hne : authority ≠ v) :
    Spares l m v := by
  intro a w hw ho
  obtain ⟨giver, -, hg, -, -, -, hauthority, -⟩ := transfer_ok h
  -- the giving wallet is the authority's, so it is another than this one
  have hs : a ≠ source := by
    intro hc
    subst hc
    cases hw.symm.trans hg
    exact hne (hauthority.symm.trans ho)
  by_cases ht : a = target
  · subst ht
    obtain ⟨taker, htaker, -, hafter⟩ := target_of_transfer h hs
    cases hw.symm.trans htaker
    exact ⟨_, hafter, ho, rfl, Nat.le_add_right _ _⟩
  · exact ⟨w, (agree_transfer h hs ht).wallet.trans hw, ho, rfl, Nat.le_refl _⟩

theorem PaidOut.spares {owner target : Address} {token : Token} {amount : Nat}
    (h : l.PaidOut m owner token target amount) (hne : owner ≠ v) : Spares l m v := by
  rcases h with ⟨rfl, -⟩ | htr
  · exact .refl _ v
  · exact spares_transfer htr hne

/-- A burn out of somebody else's purse spares the owner. -/
theorem spares_burn {owner mint : Address} {token : Token} {amount : Nat}
    (h : l.burn (.wallet owner token) mint amount = .ok m) (hp : l.Purse owner token)
    (hne : owner ≠ v) : Spares l m v := by
  have hmint : ∃ n, l.supply mint = .ok n := by
    unfold burn at h
    simp only [bind_eq_ok_iff] at h
    obtain ⟨-, -, n, hn, -⟩ := h
    exact ⟨n, hn⟩
  obtain ⟨n, hn⟩ := hmint
  refine .of_agree fun a => ?_
  by_cases hs : a = .wallet owner token
  · subst hs
    left
    intro w hw
    rw [(hp w hw).1]
    exact hne
  · by_cases hm : a = mint
    · subst hm
      exact .inl fun w hw => absurd hw (wallet_of_supply hn w)
    · exact .inr (agree_burn h hs hm)

/-- An account of the house's own that is closed was nobody's wallet. -/
theorem spares_close {payee : Address} (h : Operation.close l a payee = .ok m)
    (hown : (l a).owner = .program) (v : Address) : Spares l m v :=
  spares_of_own (fun _ hb => agree_close h fun hc => hb (hc ▸ hown)) v

end Ledger

/-! ## Steps of a session -/

namespace Session

variable {s s' : Session} {payer account derived owner v : Address} {token : Token}

/-- A record that is opened where no wallet was spares everybody. -/
theorem create_spares {kind : Record.Kind} {body : kind.Body Address}
    (h : s.create kind payer account derived body = .ok s')
    (hno : ∀ w, s.ledger.wallet account ≠ .ok w) (v : Address) :
    s.ledger.Spares s'.ledger v := by
  obtain ⟨-, -, -, hrest⟩ := create_ok h
  exact .of_agree_except (fun w hw => absurd hw (hno w)) hrest

/-- The purse of another, if it is opened at all, is opened over none but its own. -/
theorem ensureWallet_spares (h : s.ensureWallet payer account owner token = .ok s')
    (hp : s.ledger.Purse owner token) (hne : owner ≠ v) : s.ledger.Spares s'.ledger v := by
  rcases ensureWallet_ok h with ⟨rfl, -⟩ | ⟨-, -, hrest⟩
  · exact .refl _ v
  · refine .of_agree_except (fun w hw => ?_) hrest
    rw [(hp w hw).1]
    exact hne

theorem transfer_spares {source target authority : Address} {amount : Nat}
    (h : s.transfer source target authority amount = .ok s') (hne : authority ≠ v) :
    s.ledger.Spares s'.ledger v :=
  Ledger.spares_transfer (move_ok h) hne

end Session

end DiceHouse
