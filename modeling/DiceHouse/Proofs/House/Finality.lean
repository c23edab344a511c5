import DiceHouse.Proofs.House.Lifecycle
import DiceHouse.Proofs.Round.Payout

/-!
# A drawn round is final

A player is kept from cashing in a ticket twice by nothing but the ticket's being gone. That is
enough, since no ticket for a drawn round ever appears. And what a ticket is paid depends on nothing
that other claims change, so it is what the ticket was owed when the round was drawn, in whatever
order the claims come.
-/

namespace DiceHouse

namespace Ledger

/-- What was claimed of a round; nothing if there is none. -/
def claimed (l : Ledger) (n : Nat) : Nat :=
  ((l.load .round (.round n)).toOption.map Round.totalClaimed).getD 0

variable {l m : Ledger} {n : Nat}

theorem claimed_of_load {r : Round Address} (h : l.load .round (.round n) = .ok r) :
    l.claimed n = r.totalClaimed := by
  unfold claimed
  rw [toOption_eq_some_iff.mpr h]
  rfl

theorem claimed_of_absent (h : ∀ r, l.load .round (.round n) ≠ .ok r) : l.claimed n = 0 := by
  unfold claimed
  rw [toOption_eq_none_iff.mpr h]
  rfl

end Ledger

namespace House

variable {accounts : List Access} {l m : Ledger} {n : Nat}

/-- What is claimed of a round grows by what an instruction pays for it. -/
theorem RoundMove.claimed {label : Option (Address × Nat)} (h : RoundMove accounts l m n label) :
    m.claimed n = l.claimed n + (label.map Prod.snd).getD 0 := by
  cases h with
  | same hround =>
    unfold Ledger.claimed
    rw [hround]
    rfl
  | opened habsent hafter =>
    rw [Ledger.claimed_of_load hafter, Ledger.claimed_of_absent habsent]
    rfl
  | staked g hn =>
    subst hn
    obtain ⟨_, _, -, -, -, -, -, -, -, hround, -⟩ := Round.stake_ok g.stake
    rw [Ledger.claimed_of_load g.round_after, Ledger.claimed_of_load g.round_load, hround]
    rfl
  | drawn g hn =>
    subst hn
    obtain ⟨_, hdrawn⟩ := Round.resolve_ok g.resolve
    rw [Ledger.claimed_of_load g.round_after, Ledger.claimed_of_load g.round_load,
      hdrawn.totalClaimed]
    rfl
  | cashed g hn =>
    subst hn
    rw [Ledger.claimed_of_load g.round_after, Ledger.claimed_of_load g.round_load]
    rfl

namespace Run

variable {allowed : Instruction → Prop} {run : Run allowed Ledger.Outside} {j k a b : Nat}
  {o : Address}

/-- Who cashed in tickets for a round before a moment, and what they were paid, in order. -/
def payments {outside : Ledger → Ledger → Prop} (run : Run allowed outside) (n k : Nat) :
    List (Address × Nat) :=
  (List.range k).filterMap (run.cashed? n)

theorem claimed_eq_payments (run : Run allowed Ledger.Outside) (n k : Nat) :
    (run.ledger k).claimed n = ((run.payments n k).map Prod.snd).sum := by
  unfold payments
  induction k with
  | zero =>
    rw [ledger_zero]
    rfl
  | succ k ih =>
    obtain ⟨accounts, hmove⟩ := run.roundMove n k
    rw [hmove.claimed, ih, List.range_succ, List.filterMap_append, List.map_append,
      List.sum_append]
    congr 1
    cases h : run.cashed? n k <;> simp [h]

/-- A claim on a round that is granted cashes in the signer's ticket for it. -/
theorem cashed_of_claim {outside : Ledger → Ledger → Prop} {run : Run allowed outside}
    {slot : Nat} {i : Instruction} {s : Session} (hevent : run.events[k]? = some (.call slot i))
    (hdecode : Request.decode i.data = some .claim)
    (hp : process slot i (run.ledger k) = .ok s)
    (hround : i.accounts[1]?.map Access.address = some (.round n)) :
    ∃ o, i.accounts[0]?.map Access.address = some o ∧
      run.cashed? n k = some (o, s.paid (.wallet .treasury .rng) (.wallet o .rng)) := by
  obtain ⟨request, hrequest, hserve⟩ := process_serve hp
  cases hdecode.symm.trans hrequest
  obtain ⟨g, -⟩ := Operation.claim_ok hserve
  have hsigner := g.signer_listed
  rw [Access.address_unify] at hsigner
  refine ⟨g.signer.address, hsigner, ?_⟩
  unfold cashed? told? cashedWith? reportOf
  rw [hevent]
  dsimp only
  rw [hdecode, hp]
  dsimp only
  rw [cashedBy?, if_pos rfl, Access.cashes?, hsigner, hround]
  dsimp only
  rw [if_pos rfl, Option.map_some]

/-- A ticket that was cashed in is never cashed in again. -/
theorem cashed_once (hjk : j < k) (hj : run.cashed? n j = some (o, a)) :
    run.cashed? n k ≠ some (o, b) := by
  intro hk
  obtain ⟨_, _, g, rfl, rfl, -⟩ := exists_claim hj
  obtain ⟨_, _, g', hn, ho, -⟩ := exists_claim hk
  have hload := g'.ticket_load
  rw [hn, ho] at hload
  -- a ticket that is there at the second moment was there right after the first claim
  obtain ⟨-, htickets⟩ :=
    run.resolved_kept hjk g.round_after (Round.isResolved_of_payout g.payout_eq)
  exact g.ticket_after _ (htickets _ _ hload)

/-- What a ticket is paid is what it was owed when the round was drawn. -/
theorem paid_as_drawn (h : run.cashed? n k = some (o, a)) :
    ∃ j < k, ∃ (before r : Round Address) (t : Ticket Address) (payout : Payout),
      (run.ledger j).load .round (.round n) = .ok before ∧ before.isResolved = false ∧
      (run.ledger (j + 1)).load .round (.round n) = .ok r ∧ r.isResolved = true ∧
      (run.ledger (j + 1)).load .ticket (.ticket o n) = .ok t ∧ r.payout t = .ok payout ∧
      payout.total = .ok a := by
  obtain ⟨slot, accounts, claim, rfl, rfl, rfl⟩ := exists_claim h
  obtain ⟨j, hj, slot', accounts', g, hn⟩ :=
    run.exists_resolution claim.round_load (Round.isResolved_of_payout claim.payout_eq)
  obtain ⟨square, hdrawn⟩ := Round.resolve_ok g.resolve
  have hbefore := g.round_load
  have hafter := g.round_after
  rw [hn] at hbefore hafter
  obtain ⟨⟨jackpotWinner, totalClaimed, hkept⟩, htickets⟩ :=
    run.resolved_kept hj hafter hdrawn.isResolved
  have hround := Except.ok.inj (claim.round_load.symm.trans hkept)
  have hpayout := claim.payout_eq
  rw [hround, Round.payout_claimed] at hpayout
  refine ⟨j, hj, g.round, g.resolved.1, claim.ticket, claim.payout, hbefore, ?_, hafter,
    hdrawn.isResolved, htickets _ _ claim.ticket_load, hpayout, claim.total⟩
  rw [Round.isResolved, hdrawn.open_before, Option.isSome_none]

end Run

/-- A drawn round is final, and each of its tickets is paid at most once. Whatever happens after its
draw, the round stays as it is but for who got the jackpot and how much was claimed. A claim on it
that is granted cashes in the signer's ticket, and nobody cashes one in at two moments; who does is
paid what the ticket was owed right after the draw, whoever came before. What the round says was
claimed is at any moment the sum of what was paid. -/
theorem draws_final {allowed : Instruction → Prop} (run : Run allowed Ledger.Outside) (n : Nat) :
    (∀ j k r, j ≤ k → (run.ledger j).load .round (.round n) = .ok r → r.isResolved = true →
      ∃ jackpotWinner totalClaimed,
        (run.ledger k).load .round (.round n) = .ok { r with jackpotWinner, totalClaimed }) ∧
    (∀ k slot i s, run.events[k]? = some (.call slot i) → Request.decode i.data = some .claim →
      process slot i (run.ledger k) = .ok s →
      i.accounts[1]?.map Access.address = some (.round n) →
      ∃ o, i.accounts[0]?.map Access.address = some o ∧
        run.cashed? n k = some (o, s.paid (.wallet .treasury .rng) (.wallet o .rng))) ∧
    (∀ j k o a b, run.cashed? n j = some (o, a) → run.cashed? n k = some (o, b) → j = k) ∧
    (∀ k o a, run.cashed? n k = some (o, a) →
      ∃ j < k, ∃ (before r : Round Address) (t : Ticket Address) (payout : Payout),
        (run.ledger j).load .round (.round n) = .ok before ∧ before.isResolved = false ∧
        (run.ledger (j + 1)).load .round (.round n) = .ok r ∧ r.isResolved = true ∧
        (run.ledger (j + 1)).load .ticket (.ticket o n) = .ok t ∧ r.payout t = .ok payout ∧
        payout.total = .ok a) ∧
    ∀ k r, (run.ledger k).load .round (.round n) = .ok r →
      r.totalClaimed = ((run.payments n k).map Prod.snd).sum := by
  refine ⟨fun j k r hjk hr hresolved => (run.resolved_kept hjk hr hresolved).1,
    fun k slot i s hevent hdecode hp hround => run.cashed_of_claim hevent hdecode hp hround,
    fun j k o a b hj hk => ?_, fun k o a h => run.paid_as_drawn h, fun k r hr => ?_⟩
  · rcases Nat.lt_trichotomy j k with hlt | heq | hgt
    · exact absurd hk (run.cashed_once hlt hj)
    · exact heq
    · exact absurd hj (run.cashed_once hgt hk)
  · rw [← Ledger.claimed_of_load hr]
    exact run.claimed_eq_payments n k

/-- The second claim of the same ticket pays nothing, and leaves the round as it is. -/
theorem draws_final_firstClaim :
    firstClaim.cashed? 1 8 = some (.admin, 1090) ∧
      (∀ k a, k ≠ 8 → firstClaim.cashed? 1 k ≠ some (.admin, a)) ∧
      ∃ r, (firstClaim.ledger 8).load .round (.round 1) = .ok r ∧ r.isResolved = true ∧
        ∃ jackpotWinner totalClaimed,
          (firstClaim.ledger 10).load .round (.round 1)
            = .ok { r with jackpotWinner, totalClaimed } := by
  obtain ⟨-, -, hpaid⟩ := firstClaim_moments
  obtain ⟨hfinal, -, honce, hexact, -⟩ := draws_final firstClaim 1
  obtain ⟨j, hj, before, r, t, payout, -, -, hr, hresolved, -⟩ := hexact 8 .admin 1090 hpaid
  obtain ⟨jackpotWinner, totalClaimed, hclaim⟩ := hfinal (j + 1) 8 r hj hr hresolved
  exact ⟨hpaid, fun k a hk h => hk (honce k 8 .admin a 1090 h hpaid), _, hclaim, hresolved,
    hfinal 8 10 _ (by decide) hclaim hresolved⟩

end House

end DiceHouse
