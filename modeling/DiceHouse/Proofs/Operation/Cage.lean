import DiceHouse.Operation.Cage
import DiceHouse.Proofs.Ledger.Spares
import DiceHouse.Proofs.Table

/-!
# What the cage changes

Funding raises the bankroll by what it takes; collecting takes from the chips what was pending and
leaves nothing pending. Both leave all other records as they are.
-/

namespace DiceHouse.Operation

/-- A granted addition to the bankroll. -/
structure Funding (amount : Nat) (accounts : List Access) (l m : Ledger) where
  signer : Access
  listed : signer ∈ accounts
  signed : signer.signed = true
  positive : 0 < amount
  table : Table
  table_load : l.load .table .table = .ok table
  funded : Table
  fund : table.fund amount = .ok funded
  table_after : m.load .table .table = .ok funded
  records : ∀ kind b, b ≠ .table → b ≠ .wallet .vault .crap → m.load kind b = l.load kind b
  purses : ∀ o k, signer.address ≠ o → l.Purse o k → m.Purse o k ∧
    m.balance (.wallet o k)
      = l.balance (.wallet o k) + (if Address.wallet .vault .crap = .wallet o k then amount else 0)
  spares : ∀ v, signer.address ≠ v → .vault ≠ v → l.Purse .vault .crap → l.Spares m v

theorem fund_ok {amount : Nat} {accounts : List Access} {l : Ledger} {s : Session}
    (h : fund amount accounts l = .ok s) : Nonempty (Funding amount accounts l s.ledger) := by
  unfold fund at h
  split at h
  · next signer table vault source chips mint system tokenProgram walletProgram =>
    simp only [bind_eq_ok_iff, Access.requireSigned_eq_ok_iff, Access.requireDerived_eq_ok_iff,
      Access.requireOwn_eq_ok_iff, Access.requireWritable_eq_ok_iff,
      Access.requireNamed_eq_ok_iff, Access.requireProgram_eq_ok_iff, liftM_eq_ok_iff,
      require_eq_ok_iff, exists_const, pure_eq_ok_iff] at h
    obtain ⟨hsigned, ⟨-, htable⟩, t, ht, hvault, -, -, -, -, -, -, hpos, s₁, hensure, funded, hfund,
      s₂, hpay, rfl⟩ := h
    rw [htable] at ht hpay
    rw [hvault] at hensure
    have hstored : ∀ b, ¬b = .table → Ledger.Agree s₁.ledger
        (s₁.store .table .table funded).ledger b := by
      intro b hb
      exact Ledger.agree_store _ _ _ hb
    have hno : ∀ b, b = .table → ∀ w, (s₁.store .table .table funded).ledger.wallet b ≠ .ok w := by
      rintro b rfl
      exact Ledger.wallet_store _ .table _ funded
    obtain ⟨hchips, hopened, hpaid, hpurse⟩ :=
      Session.deposit_ok (· = .table) hensure hstored hno hpay
    rw [hchips] at hopened hpurse
    have htable_owner : (s₁.ledger .table).owner = .program := by
      rw [(hopened .table (by simp)).owner]
      exact Ledger.owner_of_load ht
    refine ⟨{
      signer, listed := List.mem_cons_self, signed := hsigned, positive := Nat.pos_of_ne_zero hpos
      table := t, table_load := ht, funded, fund := hfund
      table_after := ?_, records := ?_, purses := ?_, spares := ?_ }⟩
    · rw [Session.ledger_note, hpaid]
      exact Ledger.load_store _ .table _ funded htable_owner
    · intro kind b hbt hbc
      rw [Session.ledger_note, hpaid, (hstored b hbt).load, (hopened b hbc).load]
    · intro o k hne hp
      exact hpurse o k hne (by simp) hp
    · intro v hsigner hvault_ne hp
      rw [Session.ledger_note]
      exact ((Session.ensureWallet_spares hensure hp hvault_ne).trans
        (Ledger.spares_store .table funded htable_owner v)).trans
        (Session.transfer_spares hpay hsigner)
  · cases h

/-- A granted collection. -/
structure Collection (accounts : List Access) (l m : Ledger) where
  signer : Access
  listed : signer ∈ accounts
  signed : signer.signed = true
  seat : Seat Address
  seat_load : l.load .seat (.seat signer.address) = .ok seat
  owner : seat.owner = signer.address
  pending : seat.pending ≠ 0
  seat_after : m.load .seat (.seat signer.address) = .ok { seat with pending := 0 }
  records : ∀ kind b, b ≠ .seat signer.address → m.load kind b = l.load kind b
  chips : signer.address ≠ .vault → l.Purse .vault .crap → m.Purse .vault .crap ∧
    m.balance (.wallet .vault .crap) + seat.pending = l.balance (.wallet .vault .crap)
  purses : ∀ o k, .vault ≠ o → l.Purse o k → m.Purse o k ∧
    m.balance (.wallet o k) = l.balance (.wallet o k)
      + (if Address.wallet signer.address .crap = .wallet o k then seat.pending else 0)
  spares : ∀ v, .vault ≠ v → l.Spares m v

/-- A granted collection pays what was pending to the seat's owner, and nobody else. -/
theorem collect_ok {accounts : List Access} {l : Ledger} {s : Session}
    (h : collect accounts l = .ok s) :
    ∃ g : Collection accounts l s.ledger,
      ∀ o, s.paid (.wallet .vault .crap) (.wallet o .crap)
        = if g.signer.address = o then g.seat.pending else 0 := by
  unfold collect at h
  split at h
  · next signer seat vault chips target mint tokenProgram =>
    simp only [bind_eq_ok_iff, Access.requireSigned_eq_ok_iff, Access.requireDerived_eq_ok_iff,
      Access.requireOwn_eq_ok_iff, Access.requireNamed_eq_ok_iff,
      Access.requireProgram_eq_ok_iff, Access.requireWallet_eq_ok_iff, liftM_eq_ok_iff,
      require_eq_ok_iff, exists_const, pure_eq_ok_iff] at h
    obtain ⟨hsigned, ⟨-, hseat⟩, taken, htaken, howner, -, ⟨-, hchips, -⟩, ⟨-, htarget, -⟩, -, -,
      hpending, s₁, hpay, rfl⟩ := h
    rw [hseat] at htaken hpay
    rw [hchips, htarget] at hpay
    have htr := Session.move_ok hpay
    have hpaid : ∀ o, s₁.paid (.wallet .vault .crap) (.wallet o .crap)
        = if signer.address = o then taken.pending else 0 := by
      intro o
      rw [Session.paid_of_payOut hpay, Session.paid_store, Session.paid_start, Nat.zero_add]
      simp only [true_and, Address.wallet.injEq, and_true]
    have hstored : ∀ b, b ≠ .seat signer.address → Ledger.Agree l
        (l.store .seat (.seat signer.address) { taken with pending := 0 }) b :=
      fun b hb => Ledger.agree_store _ _ _ hb
    have hload := Ledger.load_transfer htr
    refine ⟨{
      signer, listed := List.mem_cons_self, signed := hsigned
      seat := taken, seat_load := htaken, owner := howner, pending := hpending
      seat_after := ?_, records := ?_, chips := ?_, purses := ?_, spares := ?_ }, hpaid⟩
    · rw [Session.ledger_note, hload]
      exact Ledger.load_store _ .seat _ _ (Ledger.owner_of_load htaken)
    · intro kind b hb
      rw [Session.ledger_note, hload]
      exact (hstored b hb).load kind
    · intro hne hp
      have hmid := hstored (.wallet .vault .crap) (by simp)
      obtain ⟨hp', hbal⟩ := Ledger.purse_payOut (hp.of_agree hmid) htr
      rw [if_neg (by simpa using hne), Nat.add_zero, hmid.balance] at hbal
      exact ⟨hp', hbal⟩
    · intro o k hne hp
      have hmid := hstored (.wallet o k) (by simp)
      obtain ⟨hp', hbal⟩ := Ledger.purse_transfer (hp.of_agree hmid) hne htr
      rw [hmid.balance] at hbal
      exact ⟨hp', hbal⟩
    · intro v hne
      exact (Ledger.spares_store .seat _ (Ledger.owner_of_load htaken) v).trans
        (Ledger.spares_transfer htr hne)
  · cases h

/-- A collection is refused for want of tokens only if the chips do not cover what is pending. -/
theorem collect_insufficient {accounts : List Access} {l : Ledger}
    (h : collect accounts l = .error .insufficient) :
    ∃ signer seat, l.load .seat (.seat signer) = .ok seat ∧
      l.balance (.wallet .vault .crap) < seat.pending := by
  unfold collect at h
  split at h
  · next signer seat vault chips target mint tokenProgram =>
    simp only [bind_eq_error_iff, Access.requireSigned, Access.requireOwn, Access.requireWritable,
      Access.requireDerived, Access.requireNamed, Access.requireProgram, Access.requireWallet,
      demand_eq_error_iff, demand_eq_ok_iff, liftM_eq_error_iff, liftM_eq_ok_iff,
      require_eq_ok_iff, Ledger.requireWallet_ne_insufficient, pure_ne_error, reduceCtorEq,
      and_false, or_false, false_or, exists_false, exists_const] at h
    obtain ⟨-, u, hu, h⟩ := h
    have hseat : seat.address = .seat signer.address :=
      (Access.requireOwn_eq_ok_iff.mp hu).2
    rcases h with hl | ⟨taken, htaken, -, -, v, hv, -, -, -, -, -, -, h⟩
    · exact absurd hl Ledger.load_ne_insufficient
    · have hchips : chips.address = .wallet .vault .crap :=
        (Access.requireWallet_eq_ok_iff.mp hv).2.1
      rw [hseat] at htaken h
      rw [hchips] at h
      have hlt := Ledger.balance_lt_of_transfer (Session.move_error h)
      rw [Session.ledger_store, (Ledger.agree_store l _ _ (by simp)).balance] at hlt
      exact ⟨signer.address, taken, htaken, hlt⟩
  · cases h

end DiceHouse.Operation
