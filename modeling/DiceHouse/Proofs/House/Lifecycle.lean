import DiceHouse.Proofs.House.Run

/-!
# The life of a round

A round is opened once, takes stakes, is drawn with a seed that the slot history shows, and then its
tickets are cashed in one by one. `RoundMove` says what one granted instruction is to a round and to
its tickets, with the player whose ticket it cashed in and what that player was paid.

Nothing opens a round twice or draws one twice, and no ticket for a drawn round is ever opened: the
board points past it. So what was drawn stays but for who got the jackpot and how much was claimed,
and a ticket that is gone is gone for good.
-/

namespace DiceHouse

/-- The player for whom accounts ask to cash in a ticket for a round. -/
def Access.cashes? (accounts : List Access) (n : Nat) : Option Address :=
  match accounts[0]?.map Access.address, accounts[1]?.map Access.address with
  | some owner, some (.round k) => if k = n then some owner else none
  | _, _ => none

/-- In step, a round is kept at its own number. -/
theorem Ledger.InStep.id_of_load {l : Ledger} {n : Nat} {r : Round Address} (h : l.InStep)
    (hr : l.load .round (.round n) = .ok r) : r.id = n := by
  have hdraw := draw?_of_load hr
  rcases h with hshut | ⟨current, t, rolls, hu⟩
  · rw [hshut.draws n] at hdraw
    cases hdraw
  · by_cases hother : n = 0 ∨ current < n
    · rw [hu.others n hother] at hdraw
      cases hdraw
    · rcases Nat.lt_or_eq_of_le (show n ≤ current by omega) with hlt | rfl
      · obtain ⟨square, hdrawn⟩ := hu.drawn n (by omega) hlt
        rw [hdrawn] at hdraw
        exact (congrArg Prod.fst (Option.some.inj hdraw)).symm
      · rw [hu.waiting] at hdraw
        exact (congrArg Prod.fst (Option.some.inj hdraw)).symm

namespace House

variable {accounts : List Access} {l m : Ledger} {n slot : Nat} {r : Round Address}

/-! ## One instruction -/

/-- What a granted instruction is to a round and to its tickets, with who cashed in a ticket and was
paid how much. -/
inductive RoundMove (accounts : List Access) (l m : Ledger) (n : Nat) :
    Option (Address × Nat) → Prop where
  | same (hround : m.load .round (.round n) = l.load .round (.round n))
    (htickets : ∀ o, m.load .ticket (.ticket o n) = l.load .ticket (.ticket o n)) :
    RoundMove accounts l m n none
  | opened {carryIn expiresAt : Nat} {rentPayer : Address}
    (habsent : ∀ r, l.load .round (.round n) ≠ .ok r)
    (hafter : m.load .round (.round n) = .ok (Round.start .system n carryIn expiresAt rentPayer)) :
    RoundMove accounts l m n none
  | staked {slot amount square prediction : Nat}
    (g : Operation.Stake slot amount square prediction accounts l m) (hn : g.board.round = n) :
    RoundMove accounts l m n none
  | drawn {slot : Nat} (g : Operation.Resolution slot accounts l m) (hn : g.board.round = n) :
    RoundMove accounts l m n none
  | cashed {slot : Nat} (g : Operation.Claim slot accounts l m) (hn : g.ticket.round = n) :
    RoundMove accounts l m n (some (g.signer.address, g.amount))

theorem roundMove_opening (g : Operation.Opening slot accounts l m) (n : Nat) :
    RoundMove accounts l m n none := by
  by_cases hn : n = 1
  · subst hn
    exact .opened g.round_absent g.round_after
  · exact .same
      ((g.rest _ (by simp) (by simp) (by simp) (by simpa using hn) (by simp)).load _)
      fun o => (g.rest _ (by simp) (by simp) (by simp) (by simp) (by simp)).load _

theorem roundMove_stake {amount square prediction : Nat} (hl : l.InStep)
    (g : Operation.Stake slot amount square prediction accounts l m) (n : Nat) :
    RoundMove accounts l m n none := by
  have hid := hl.id_of_load g.round_load
  by_cases hn : g.board.round = n
  · exact .staked g hn
  · have hticket : ∀ o, Address.ticket o n ≠ .ticket g.signer.address g.round.id := by
      intro o hc
      cases hc
      exact hn hid.symm
    exact .same (g.records _ _ (by simpa using Ne.symm hn) (by simp) (by simp))
      fun o => g.records _ _ (by simp) (hticket o) (by simp)

theorem roundMove_resolution (g : Operation.Resolution slot accounts l m) (n : Nat) :
    RoundMove accounts l m n none := by
  by_cases hn : g.board.round = n
  · exact .drawn g hn
  · by_cases hnext : n = g.board.round + 1
    · subst hnext
      exact .opened g.next_absent g.next_after
    · exact .same
        (g.records _ _ (by simp) (by simpa using Ne.symm hn) (by simpa using hnext) (by simp)
          (by simp))
        fun o => g.records _ _ (by simp) (by simp) (by simp) (by simp) (by simp)

/-- Who cashes in a ticket for a round with a request that is granted, and what the player is
paid. -/
def cashedBy? (request : Request) (accounts : List Access) (s : Session) (n : Nat) :
    Option (Address × Nat) :=
  if request = .claim then
    (Access.cashes? accounts n).map fun owner =>
      (owner, s.paid (.wallet .treasury .rng) (.wallet owner .rng))
  else none

theorem cashedBy?_unify (request : Request) (accounts : List Access) (s : Session) (n : Nat) :
    cashedBy? request (Access.unify accounts) s n = cashedBy? request accounts s n := by
  unfold cashedBy? Access.cashes?
  rw [Access.address_unify, Access.address_unify]

theorem roundMove_claim {s : Session} (g : Operation.Claim slot accounts l s.ledger)
    (hpaid : s.paid (.wallet .treasury .rng) (.wallet g.signer.address .rng) = g.amount) (n : Nat) :
    RoundMove accounts l s.ledger n (cashedBy? .claim accounts s n) := by
  have hlabel : cashedBy? .claim accounts s n
      = if g.ticket.round = n then some (g.signer.address, g.amount) else none := by
    unfold cashedBy? Access.cashes?
    rw [if_pos rfl, g.signer_listed, g.round_listed]
    dsimp only
    split
    · rw [Option.map_some, hpaid]
    · rfl
  rw [hlabel]
  split
  · next hn => exact .cashed g hn
  · next hn =>
    have hticket : ∀ o, Address.ticket o n ≠ .ticket g.signer.address g.ticket.round := by
      intro o hc
      cases hc
      exact hn rfl
    exact .same (g.records _ _ (by simpa using Ne.symm hn) (by simp) (by simp))
      fun o => g.records _ _ (by simp) (hticket o) (by simp)

theorem serve_roundMove {request : Request} {s : Session} (hl : l.InStep)
    (h : serve slot request accounts l = .ok s) (n : Nat) :
    RoundMove accounts l s.ledger n (cashedBy? request accounts s n) := by
  cases request with
  | openHouse =>
    obtain ⟨g⟩ := Operation.openHouse_ok h
    exact roundMove_opening g n
  | configure settings =>
    obtain ⟨g⟩ := Operation.configure_ok h
    exact .same ((g.rest _ (by simp)).load _) fun o => (g.rest _ (by simp)).load _
  | stake amount square prediction =>
    obtain ⟨g⟩ := Operation.stake_ok h
    exact roundMove_stake hl g n
  | resolve =>
    rcases Operation.resolve_ok h with ⟨⟨g⟩⟩ | ⟨⟨g⟩⟩
    · exact .same ((g.rest _ (by simp)).load _) fun o => (g.rest _ (by simp)).load _
    · exact roundMove_resolution g n
  | claim =>
    obtain ⟨g, hpaid⟩ := Operation.claim_ok h
    exact roundMove_claim g hpaid n
  | bet amount kindCode number =>
    simp only [serve, bind_eq_ok_iff, liftM_eq_ok_iff] at h
    obtain ⟨spot, -, h⟩ := h
    obtain ⟨g⟩ := Operation.bet_ok h
    exact .same (g.records _ _ (by simp) (by simp) (by simp))
      fun o => g.records _ _ (by simp) (by simp) (by simp)
  | settle =>
    obtain ⟨g⟩ := Operation.settle_ok h
    exact .same ((g.rest _ (by simp) (by simp)).load _)
      fun o => (g.rest _ (by simp) (by simp)).load _
  | advance =>
    obtain ⟨g⟩ := Operation.advance_ok h
    exact .same ((g.rest _ (by simp)).load _) fun o => (g.rest _ (by simp)).load _
  | collect =>
    obtain ⟨g, -⟩ := Operation.collect_ok h
    exact .same (g.records _ _ (by simp)) fun o => g.records _ _ (by simp)
  | fund amount =>
    obtain ⟨g⟩ := Operation.fund_ok h
    exact .same (g.records _ _ (by simp) (by simp)) fun o => g.records _ _ (by simp) (by simp)
  | forfeit =>
    obtain ⟨g⟩ := Operation.forfeit_ok h
    exact .same ((g.rest _ (by simp) (by simp)).load _)
      fun o => (g.rest _ (by simp) (by simp)).load _

/-! ## Drawn rounds -/

/-- What is drawn stays, but for who got the jackpot and how much was claimed, and no ticket for it
appears or changes. -/
theorem RoundMove.kept {label : Option (Address × Nat)} (h : RoundMove accounts l m n label)
    (hr : l.load .round (.round n) = .ok r) (hresolved : r.isResolved = true) :
    (∃ jackpotWinner totalClaimed,
      m.load .round (.round n) = .ok { r with jackpotWinner, totalClaimed }) ∧
      ∀ o t, m.load .ticket (.ticket o n) = .ok t → l.load .ticket (.ticket o n) = .ok t := by
  have hopen : r.winner ≠ none := by
    intro hc
    rw [Round.isResolved, hc] at hresolved
    cases hresolved
  cases h with
  | same hround htickets =>
    refine ⟨⟨r.jackpotWinner, r.totalClaimed, hround.trans hr⟩, fun o t ht => ?_⟩
    rw [← htickets o]
    exact ht
  | opened habsent => exact absurd hr (habsent r)
  | staked g hn =>
    subst hn
    cases g.round_load.symm.trans hr
    obtain ⟨_, _, -, hwaits, -⟩ := Round.stake_ok g.stake
    exact absurd hwaits hopen
  | drawn g hn =>
    subst hn
    cases g.round_load.symm.trans hr
    obtain ⟨_, hdrawn⟩ := Round.resolve_ok g.resolve
    exact absurd hdrawn.open_before hopen
  | cashed g hn =>
    subst hn
    cases g.round_load.symm.trans hr
    refine ⟨⟨g.jackpotWinner, _, g.round_after⟩, fun o t ht => ?_⟩
    by_cases ho : o = g.signer.address
    · subst ho
      exact absurd ht (g.ticket_after t)
    · rw [← g.records .ticket (.ticket o g.ticket.round) (by simp) (by simpa using ho) (by simp)]
      exact ht

/-- A round that is drawn was so before, or it is drawn just now. -/
theorem RoundMove.drawn_of_resolved {label : Option (Address × Nat)}
    (h : RoundMove accounts l m n label) (hr : m.load .round (.round n) = .ok r)
    (hresolved : r.isResolved = true) :
    (∃ r, l.load .round (.round n) = .ok r ∧ r.isResolved = true) ∨
      ∃ (slot : Nat) (g : Operation.Resolution slot accounts l m), g.board.round = n := by
  cases h with
  | same hround => exact .inl ⟨r, hround.symm.trans hr, hresolved⟩
  | opened _ hafter =>
    cases hafter.symm.trans hr
    cases hresolved
  | staked g hn =>
    subst hn
    cases g.round_after.symm.trans hr
    obtain ⟨_, _, -, hwaits, -, -, -, -, -, hround, -⟩ := Round.stake_ok g.stake
    rw [hround, Round.isResolved, hwaits] at hresolved
    cases hresolved
  | drawn g hn => exact .inr ⟨_, g, hn⟩
  | cashed g hn =>
    subst hn
    cases g.round_after.symm.trans hr
    exact .inl ⟨g.round, g.round_load, hresolved⟩

/-! ## Whole runs -/

/-- Who cashes in a ticket for a round with a call, and what the player is paid. -/
def cashedWith? (l : Ledger) (call : Nat × Instruction) (n : Nat) : Option (Address × Nat) :=
  reportOf (fun request accounts s => cashedBy? request accounts s n) l call

theorem step_roundMove (hl : l.InStep) (call : Nat × Instruction) (n : Nat) :
    RoundMove (Access.unify call.2.accounts) l (step l call) n (cashedWith? l call n) := by
  unfold cashedWith?
  refine step_report (P := fun m label => RoundMove (Access.unify call.2.accounts) l m n label)
    (.same rfl fun _ => rfl) fun {request s} h => ?_
  rw [← cashedBy?_unify]
  exact serve_roundMove hl h n

namespace Run

/-- Who cashes in a ticket for a round between a moment and the next, and for how much. -/
def cashed? {allowed : Instruction → Prop} {outside : Ledger → Ledger → Prop}
    (run : Run allowed outside) (n k : Nat) : Option (Address × Nat) :=
  run.told? (fun l call => cashedWith? l call n) k

variable {allowed : Instruction → Prop} {run : Run allowed Ledger.Outside} {j k : Nat}

theorem roundMove (run : Run allowed Ledger.Outside) (n k : Nat) :
    ∃ accounts, RoundMove accounts (run.ledger k) (run.ledger (k + 1)) n (run.cashed? n k) :=
  run.exists_told (P := fun accounts l m label => RoundMove accounts l m n label) k
    (fun call => step_roundMove (run.inStep k) call n) fun ho =>
      .same (ho.load (by simp [Address.seeds?]) _) fun _ => ho.load (by simp [Address.seeds?]) _

/-- From its draw on a round stays as it is, but for who got the jackpot and how much was claimed,
and its tickets can only go. -/
theorem resolved_kept (hjk : j ≤ k) (hr : (run.ledger j).load .round (.round n) = .ok r)
    (hresolved : r.isResolved = true) :
    (∃ jackpotWinner totalClaimed,
      (run.ledger k).load .round (.round n) = .ok { r with jackpotWinner, totalClaimed }) ∧
      ∀ o t, (run.ledger k).load .ticket (.ticket o n) = .ok t →
        (run.ledger j).load .ticket (.ticket o n) = .ok t := by
  induction hjk with
  | refl => exact ⟨⟨r.jackpotWinner, r.totalClaimed, hr⟩, fun _ _ ht => ht⟩
  | @step k _ ih =>
    obtain ⟨⟨jackpotWinner, totalClaimed, hk⟩, htickets⟩ := ih
    obtain ⟨accounts, hmove⟩ := run.roundMove n k
    obtain ⟨⟨jackpotWinner', totalClaimed', hk'⟩, htickets'⟩ := hmove.kept hk hresolved
    exact ⟨⟨jackpotWinner', totalClaimed', hk'⟩, fun o t ht => htickets o t (htickets' o t ht)⟩

/-- A round that is drawn was drawn between a moment and the next. -/
theorem exists_resolution (hr : (run.ledger k).load .round (.round n) = .ok r)
    (hresolved : r.isResolved = true) :
    ∃ j < k, ∃ (slot : Nat) (accounts : List Access)
      (g : Operation.Resolution slot accounts (run.ledger j) (run.ledger (j + 1))),
      g.board.round = n := by
  induction k generalizing r with
  | zero =>
    rw [ledger_zero] at hr
    cases hr
  | succ k ih =>
    obtain ⟨accounts, hmove⟩ := run.roundMove n k
    rcases hmove.drawn_of_resolved hr hresolved with ⟨r', hr', hresolved'⟩ | ⟨slot, g, hn⟩
    · obtain ⟨j, hj, hdrawn⟩ := ih hr' hresolved'
      exact ⟨j, Nat.lt_succ_of_lt hj, hdrawn⟩
    · exact ⟨k, Nat.lt_succ_self k, slot, accounts, g, hn⟩

/-- Whoever cashes in a ticket has made a claim on the round. -/
theorem exists_claim {o : Address} {amount : Nat} (h : run.cashed? n k = some (o, amount)) :
    ∃ (slot : Nat) (accounts : List Access)
      (g : Operation.Claim slot accounts (run.ledger k) (run.ledger (k + 1))),
      g.ticket.round = n ∧ g.signer.address = o ∧ g.amount = amount := by
  obtain ⟨accounts, hmove⟩ := run.roundMove n k
  rw [h] at hmove
  cases hmove with
  | cashed g hn => exact ⟨_, accounts, g, hn, rfl, rfl⟩

end Run

/-! ## A first claim -/

/-- The admin opens the house and is given tokens. -/
def provided : Ledger :=
  (run (.genesis [.admin]) [(0, Client.openHouse .admin)]).withWallet .admin .rng 5000

/-- The admin stakes on two squares, and nobody looks at the slot history until all that it held
when the window closed is lost. -/
def outdated : Ledger :=
  (run provided
    [(1, Client.stake .admin 1 26 100 0), (2, Client.stake .admin 1 3 1000 0)]).withHistory
      [⟨700, Bytes.fill32 9⟩]

/-- The seed slot is put off to 705, and then there are slots before and after it. -/
def renewed : Ledger :=
  (step outdated (701, resolveFirst)).withHistory
    [⟨704, Bytes.fill32 0⟩, ⟨706, Bytes.fill32 7⟩]

/-- Two stakes are taken, the seed slot is put off once, the round is drawn with the hash of slot
706, and the ticket is cashed in, once. -/
def firstClaim : Run Authentic Ledger.Outside where
  used := [.admin]
  events :=
    [.call 0 (Client.openHouse .admin), .other provided, .call 1 (Client.stake .admin 1 26 100 0),
      .call 2 (Client.stake .admin 1 3 1000 0), .other outdated,
      .call 701 resolveFirst, .other renewed,
      .call 710 resolveFirst, .call 711 (Client.claim .admin 1),
      .call 712 (Client.claim .admin 1)]
  permitted k event h := by
    match k with
    | 0 => cases h; exact .of_first rfl (by decide)
    | 1 => cases h; exact Ledger.outside_withWallet _ _ _ rfl
    | 2 => cases h; exact .of_first rfl (by decide)
    | 3 => cases h; exact .of_first rfl (by decide)
    | 4 => cases h; exact Ledger.outside_withHistory _ _
    | 5 => cases h; exact .of_first rfl (by decide)
    | 6 => cases h; exact Ledger.outside_withHistory _ _
    | 7 => cases h; exact .of_first rfl (by decide)
    | 8 => cases h; exact .of_first rfl (by decide)
    | 9 => cases h; exact .of_first rfl (by decide)
    | k + 10 => cases h

/-- The window closes at 150, the seed slot is put off to 705, and the winner is paid the stakes of
1100 less the fee of 10. -/
theorem firstClaim_moments :
    [2, 6].map (fun k => ((firstClaim.ledger k).load .board .board).toOption)
        = [some ⟨1, 0, 150, 150, 0⟩, some ⟨1, 0, 150, 705, 0⟩] ∧
      (process 1 (Client.stake .admin 1 26 100 0) (firstClaim.ledger 2)).toOption.isSome = true ∧
      firstClaim.cashed? 1 8 = some (.admin, 1090) := by
  decide +kernel

end House

end DiceHouse
