import DiceHouse.Proofs.House.Concurrence
import DiceHouse.Proofs.House.Custody
import DiceHouse.Proofs.Ledger.Spares
import DiceHouse.Proofs.Seat.Totals

/-!
# Nothing is taken from those who do not sign

An instruction lists whatever accounts its caller likes, and most of them need not sign. `Leaves`
says what it leaves to a player who is not among the signers: their wallets and their tickets, and
of their seat all but what a settlement or a forfeiture may do to it, which anybody may ask for. The
settings are left to all who are not the admin.

Every granted request leaves that much to those who do not sign for it. What has to be known of the
ledger is only that the two purses of the house are the house's.
-/

namespace DiceHouse

/-- A seat is still its owner's, what was ever staked on it counts as before, and no less waits to be
collected. -/
structure Seat.Spares {κ : Type} (s t : Seat κ) : Prop where
  owner : t.owner = s.owner
  wagered : t.totalWagered = s.totalWagered
  pending : s.pending ≤ t.pending

theorem Seat.Credited.spares {κ : Type} {s t : Seat κ} {tally : Tally} (h : s.Credited tally t) :
    s.Spares t :=
  ⟨h.owner, h.wagered, h.pending ▸ Nat.le_add_right _ _⟩

namespace Operation

/-- A turn takes nothing from a seat, and its wagers change in the one against the next round. -/
theorem Played.spares {t t' : Table} {seat seat' : Seat Address} {round : Nat} {roll : Roll}
    {fieldTriple : Bool} (h : Played t seat round roll fieldTriple t' seat') :
    seat.Spares seat' ∧ (seat'.wagers = seat.wagers ∨ round = seat.epoch + 1) := by
  cases h with
  | sync => exact ⟨⟨rfl, rfl, Nat.le_refl _⟩, .inl rfl⟩
  | settle hturn hsettle _ =>
    obtain ⟨howner, hwagered, hpending⟩ := (Seat.settle_credited hsettle).spares
    exact ⟨⟨howner, hwagered, hpending⟩, .inr (Table.round_of_turn hturn)⟩

end Operation

namespace House

variable {request : Request} {accounts : List Access} {l m : Ledger} {v : Address} {slot : Nat}

/-! ## What a request leaves -/

/-- A request judges the wagers on a player's seat that was settled up to a round: against the next
round, or because the log of the table is past it. -/
def Judges (request : Request) (accounts : List Access) (l : Ledger) (v : Address) (epoch : Nat) :
    Prop :=
  request = .settle ∧ Access.settles? accounts v = some (epoch + 1) ∨
    request = .forfeit ∧ ∃ t, l.load .table .table = .ok t ∧ t.isBeyondLog epoch = true

/-- The settings change with the word of their admin, the first ones with that of the admin whom
they name. -/
def AdminSigned (accounts : List Access) (l m : Ledger) : Prop :=
  ∃ a ∈ accounts, a.signed = true ∧
    ((∃ current, l.load .settings .settings = .ok current ∧ current.admin = a.address) ∨
      (∀ current, l.load .settings .settings ≠ .ok current) ∧
        ∃ first, m.load .settings .settings = .ok first ∧ first.admin = a.address)

/-- What a granted request leaves to a player. -/
structure Leaves (request : Request) (accounts : List Access) (l m : Ledger) (v : Address) :
    Prop where
  wallets : l.Spares m v
  tickets : ∀ n, m.load .ticket (.ticket v n) = l.load .ticket (.ticket v n)
  seat : ∀ x, l.load .seat (.seat v) = .ok x → ∃ y, m.load .seat (.seat v) = .ok y ∧ x.Spares y ∧
    (y.wagers ≠ x.wagers → Judges request accounts l v x.epoch)
  /-- No seat is taken for the player. -/
  seatless : (∀ x, l.load .seat (.seat v) ≠ .ok x) → ∀ y, m.load .seat (.seat v) ≠ .ok y
  settings : m.load .settings .settings ≠ l.load .settings .settings → AdminSigned accounts l m

/-- What leaves the player's seat as it is. -/
theorem Leaves.of_same (hwallets : l.Spares m v)
    (htickets : ∀ n, m.load .ticket (.ticket v n) = l.load .ticket (.ticket v n))
    (hseat : m.load .seat (.seat v) = l.load .seat (.seat v))
    (hsettings : m.load .settings .settings ≠ l.load .settings .settings →
      AdminSigned accounts l m) :
    Leaves request accounts l m v where
  wallets := hwallets
  tickets := htickets
  seat x hx := ⟨x, hseat.trans hx, ⟨rfl, rfl, Nat.le_refl _⟩, fun hc => absurd rfl hc⟩
  seatless hnone y hy := hnone y (hseat.symm.trans hy)
  settings := hsettings

/-- What writes to the player's seat, and leaves of it what it has to. -/
theorem Leaves.of_seat {x y : Seat Address} (hwallets : l.Spares m v)
    (htickets : ∀ n, m.load .ticket (.ticket v n) = l.load .ticket (.ticket v n))
    (hx : l.load .seat (.seat v) = .ok x) (hy : m.load .seat (.seat v) = .ok y)
    (hspares : x.Spares y) (hjudges : y.wagers ≠ x.wagers → Judges request accounts l v x.epoch)
    (hsettings : m.load .settings .settings = l.load .settings .settings) :
    Leaves request accounts l m v where
  wallets := hwallets
  tickets := htickets
  seat x' hx' := by
    cases hx.symm.trans hx'
    exact ⟨y, hy, hspares, hjudges⟩
  seatless hnone := absurd hx (hnone x)
  settings hc := absurd hsettings hc

/-! ## Each request -/

section Each

variable {amount : Nat}

theorem leaves_opening (g : Operation.Opening slot accounts l m) :
    Leaves .openHouse accounts l m v :=
  .of_same (g.spares v)
    (fun n => (g.rest _ (by simp) (by simp) (by simp) (by simp) (by simp)).load _)
    ((g.rest _ (by simp) (by simp) (by simp) (by simp) (by simp)).load _)
    fun _ => ⟨g.signer, g.listed, g.signed,
      .inr ⟨g.settings_absent, _, g.settings_after, g.admin.symm⟩⟩

theorem leaves_configuration {new : Settings Address}
    (g : Operation.Configuration new accounts l m) : Leaves request accounts l m v :=
  .of_same (Ledger.spares_of_written g.current_load g.rest v)
    (fun n => (g.rest _ (by simp)).load _) ((g.rest _ (by simp)).load _)
    fun _ => ⟨g.signer, g.listed, g.signed, .inl ⟨g.current, g.current_load, g.authority⟩⟩

/-- A stake is put on the signer's own ticket, out of the signer's own wallet. -/
theorem leaves_stake {square prediction : Nat} (hv : Address.treasury ≠ v)
    (hpurse : l.Purse .treasury .rng) (hsigners : ∀ a ∈ accounts, a.signed = true → a.address ≠ v)
    (g : Operation.Stake slot amount square prediction accounts l m) :
    Leaves request accounts l m v := by
  have hsigner : g.signer.address ≠ v := hsigners g.signer g.listed g.signed
  exact .of_same (g.spares v hsigner hv hpurse)
    (fun n => g.records _ _ (by simp) (by simpa using fun hc => absurd hc.symm hsigner) (by simp))
    (g.records _ _ (by simp) (by simp) (by simp))
    fun hc => absurd (g.records _ _ (by simp) (by simp) (by simp)) hc

theorem leaves_rearming (g : Operation.Rearming slot accounts l m) :
    Leaves request accounts l m v :=
  .of_same (Ledger.spares_of_written g.board_load g.rest v)
    (fun n => (g.rest _ (by simp)).load _) ((g.rest _ (by simp)).load _)
    fun hc => absurd ((g.rest _ (by simp)).load _) hc

theorem leaves_resolution (hv : Address.treasury ≠ v) (hpurse : l.Purse .treasury .rng)
    (g : Operation.Resolution slot accounts l m) : Leaves request accounts l m v :=
  .of_same (g.spares v hv hpurse)
    (fun n => g.records _ _ (by simp) (by simp) (by simp) (by simp) (by simp))
    (g.records _ _ (by simp) (by simp) (by simp) (by simp) (by simp))
    fun hc => absurd (g.records _ _ (by simp) (by simp) (by simp) (by simp) (by simp)) hc

/-- Only the signer's own ticket is cashed in. -/
theorem leaves_claim (hv : Address.treasury ≠ v)
    (hsigners : ∀ a ∈ accounts, a.signed = true → a.address ≠ v)
    (g : Operation.Claim slot accounts l m) : Leaves request accounts l m v := by
  have hsigner : g.signer.address ≠ v := hsigners g.signer g.listed g.signed
  exact .of_same (g.spares v hv)
    (fun n => g.records _ _ (by simp) (by simpa using fun hc => absurd hc.symm hsigner) (by simp))
    (g.records _ _ (by simp) (by simp) (by simp))
    fun hc => absurd (g.records _ _ (by simp) (by simp) (by simp)) hc

/-- A bet is placed at the signer's own seat, out of the signer's own wallet. -/
theorem leaves_bet {spot : Spot} (hv : Address.vault ≠ v) (hpurse : l.Purse .vault .crap)
    (hsigners : ∀ a ∈ accounts, a.signed = true → a.address ≠ v)
    (g : Operation.Bet slot spot amount accounts l m) : Leaves request accounts l m v := by
  have hsigner : g.signer.address ≠ v := hsigners g.signer g.listed g.signed
  exact .of_same (g.spares v hsigner hv hpurse)
    (fun n => g.records _ _ (by simp) (by simp) (by simp))
    (g.records _ _ (by simp) (by simpa using hsigner.symm) (by simp))
    fun hc => absurd (g.records _ _ (by simp) (by simp) (by simp)) hc

/-- Whose seat it is, a settlement credits it and judges it against the next round only. -/
theorem leaves_settlement (g : Operation.Settlement accounts l m) :
    Leaves .settle accounts l m v := by
  have hwallets : l.Spares m v := Ledger.spares_of_both_written g.table_load g.seat_load g.rest v
  have htickets : ∀ n, m.load .ticket (.ticket v n) = l.load .ticket (.ticket v n) :=
    fun n => (g.rest _ (by simp) (by simp)).load _
  have hsettings : m.load .settings .settings = l.load .settings .settings :=
    (g.rest _ (by simp) (by simp)).load _
  by_cases ho : g.seat.owner = v
  · subst ho
    obtain ⟨hspares, hjudged⟩ := (Operation.playTurn_played g.play).spares
    refine .of_seat hwallets htickets g.seat_load g.seat_after hspares (fun hc => ?_) hsettings
    -- a turn in which the seat only moves up leaves the wagers
    have hnext : g.round.id = g.seat.epoch + 1 := hjudged.resolve_left hc
    refine .inl ⟨rfl, ?_⟩
    unfold Access.settles?
    rw [g.seat_listed, g.round_listed, ← hnext]
    exact if_pos rfl
  · exact .of_same hwallets htickets ((g.rest _ (by simp) (by simpa using Ne.symm ho)).load _)
      fun hc => absurd hsettings hc

theorem leaves_advance (g : Operation.Advance accounts l m) : Leaves request accounts l m v :=
  .of_same (Ledger.spares_of_written g.table_load g.rest v)
    (fun n => (g.rest _ (by simp)).load _) ((g.rest _ (by simp)).load _)
    fun hc => absurd ((g.rest _ (by simp)).load _) hc

/-- What is pending at a seat goes to its owner, who signs. -/
theorem leaves_collection (hv : Address.vault ≠ v)
    (hsigners : ∀ a ∈ accounts, a.signed = true → a.address ≠ v)
    (g : Operation.Collection accounts l m) : Leaves request accounts l m v := by
  have hsigner : g.signer.address ≠ v := hsigners g.signer g.listed g.signed
  exact .of_same (g.spares v hv) (fun n => g.records _ _ (by simp))
    (g.records _ _ (by simpa using hsigner.symm))
    fun hc => absurd (g.records _ _ (by simp)) hc

theorem leaves_funding (hv : Address.vault ≠ v) (hpurse : l.Purse .vault .crap)
    (hsigners : ∀ a ∈ accounts, a.signed = true → a.address ≠ v)
    (g : Operation.Funding amount accounts l m) : Leaves request accounts l m v :=
  .of_same (g.spares v (hsigners g.signer g.listed g.signed) hv hpurse)
    (fun n => g.records _ _ (by simp) (by simp)) (g.records _ _ (by simp) (by simp))
    fun hc => absurd (g.records _ _ (by simp) (by simp)) hc

/-- Whose seat it is, a forfeiture credits nothing to it, and the log is past its round. -/
theorem leaves_forfeiture (g : Operation.Forfeiture accounts l m) :
    Leaves .forfeit accounts l m v := by
  have hwallets : l.Spares m v := Ledger.spares_of_both_written g.table_load g.seat_load g.rest v
  have htickets : ∀ n, m.load .ticket (.ticket v n) = l.load .ticket (.ticket v n) :=
    fun n => (g.rest _ (by simp) (by simp)).load _
  have hsettings : m.load .settings .settings = l.load .settings .settings :=
    (g.rest _ (by simp) (by simp)).load _
  by_cases ho : g.seat.owner = v
  · subst ho
    obtain ⟨howner, hwagered, hpending⟩ := (Seat.forfeit_credited g.clear).1.spares
    exact .of_seat hwallets htickets g.seat_load g.seat_after ⟨howner, hwagered, hpending⟩
      (fun _ => .inr ⟨rfl, g.table, g.table_load, g.forgotten.2⟩) hsettings
  · exact .of_same hwallets htickets ((g.rest _ (by simp) (by simpa using Ne.symm ho)).load _)
      fun hc => absurd hsettings hc

end Each

/-- A granted request leaves to those who do not sign for it what is theirs. -/
theorem serve_leaves {s : Session} (h : serve slot request accounts l = .ok s)
    (htokens : l.Purse .treasury .rng) (hchips : l.Purse .vault .crap) (hv : v.seeds? = none)
    (hsigners : ∀ a ∈ accounts, a.signed = true → a.address ≠ v) :
    Leaves request accounts l s.ledger v := by
  have htreasury : Address.treasury ≠ v := by
    rintro rfl
    cases hv
  have hvault : Address.vault ≠ v := by
    rintro rfl
    cases hv
  cases request with
  | openHouse => exact (Operation.openHouse_ok h).elim leaves_opening
  | configure settings => exact (Operation.configure_ok h).elim leaves_configuration
  | stake amount square prediction =>
    exact (Operation.stake_ok h).elim (leaves_stake htreasury htokens hsigners)
  | resolve =>
    rcases Operation.resolve_ok h with ⟨⟨g⟩⟩ | ⟨⟨g⟩⟩
    · exact leaves_rearming g
    · exact leaves_resolution htreasury htokens g
  | claim =>
    obtain ⟨g, -⟩ := Operation.claim_ok h
    exact leaves_claim htreasury hsigners g
  | bet amount kindCode number =>
    simp only [serve, bind_eq_ok_iff, liftM_eq_ok_iff] at h
    obtain ⟨spot, -, h⟩ := h
    exact (Operation.bet_ok h).elim (leaves_bet hvault hchips hsigners)
  | settle => exact (Operation.settle_ok h).elim leaves_settlement
  | advance => exact (Operation.advance_ok h).elim leaves_advance
  | collect => exact (Operation.collect_ok h).elim fun g _ => leaves_collection hvault hsigners g
  | fund amount => exact (Operation.fund_ok h).elim (leaves_funding hvault hchips hsigners)
  | forfeit => exact (Operation.forfeit_ok h).elim leaves_forfeiture

/-! ## Any instruction -/

theorem Leaves.of_unify (h : Leaves request (Access.unify accounts) l m v) :
    Leaves request accounts l m v where
  wallets := h.wallets
  tickets := h.tickets
  seat x hx := by
    obtain ⟨y, hy, hspares, hjudges⟩ := h.seat x hx
    refine ⟨y, hy, hspares, fun hc => ?_⟩
    have hcause := hjudges hc
    unfold Judges at hcause
    rw [Access.settles?_unify] at hcause
    exact hcause
  seatless := h.seatless
  settings hc := by
    obtain ⟨a, ha, hsigned, hadmin⟩ := h.settings hc
    exact ⟨a, Access.mem_of_mem_unify ha, hsigned, hadmin⟩

/-- Whatever accounts an instruction lists and whatever it says, if it is granted it leaves to a
player who did not sign what is theirs: no wallet of theirs loses tokens, their tickets stay, and
their seat keeps its owner, what was staked on it and what waits to be collected, and has its wagers
judged only by a settlement against the round that they wait for, or when the log of the table is
past it. And the settings change only if their admin signed. -/
theorem leaves_unsigned (hl : Reachable Authentic Ledger.Outside l) {i : Instruction} {s : Session}
    (h : process slot i l = .ok s) (hv : v.seeds? = none)
    (hunsigned : ∀ a ∈ i.accounts, a.address = v → a.signed = false) :
    ∃ request, Request.decode i.data = some request ∧
      Leaves request i.accounts l s.ledger v := by
  obtain ⟨request, hdecode, hserve⟩ := process_serve h
  have hsigners : ∀ a ∈ Access.unify i.accounts, a.signed = true → a.address ≠ v := by
    intro a ha hsigned hc
    have hnot := hunsigned a (Access.mem_of_mem_unify ha) hc
    rw [hsigned] at hnot
    cases hnot
  exact ⟨request, hdecode,
    (serve_leaves hserve hl.custody.purse hl.chipsCover.purse hv hsigners).of_unify⟩

/-- The admin has the guest's seat settled: the wager of 20 on the field is lost, and the other 80
chips of the guest stay where they are. -/
theorem settle_guest_moment :
    ((process 151 (Client.settle .admin guest 1) twoSeats).toOption.map fun s =>
      (((s.ledger.load .seat (.seat guest)).toOption.map fun y => (y.epoch, y.hasRiding)),
        s.ledger.balance (.wallet guest .crap))) = some (some (1, false), 80) ∧
    ((twoSeats.load .seat (.seat guest)).toOption.map fun x =>
      (x.epoch, x.hasRiding, x.totalWagered)) = some (0, true, 20) ∧
    twoSeats.balance (.wallet guest .crap) = 80 := by
  decide +kernel

/-- The guest has not signed, and the wagers at the guest's seat are judged: against round 1, the one
after that up to which the seat was settled. -/
theorem leaves_unsigned_guest :
    Reachable Authentic Ledger.Outside twoSeats ∧ guest.seeds? = none ∧
      (∀ a ∈ (Client.settle .admin guest 1).accounts, a.address = guest → a.signed = false) ∧
      ∃ s x y, process 151 (Client.settle .admin guest 1) twoSeats = .ok s ∧
        twoSeats.load .seat (.seat guest) = .ok x ∧ s.ledger.load .seat (.seat guest) = .ok y ∧
        y.wagers ≠ x.wagers ∧ x.epoch = 0 ∧ y.totalWagered = 20 ∧ x.pending ≤ y.pending ∧
        twoSeats.Spares s.ledger guest ∧
        Judges .settle (Client.settle .admin guest 1).accounts twoSeats guest 0 := by
  obtain ⟨hafter, hbefore, -⟩ := settle_guest_moment
  have hunsigned : ∀ a ∈ (Client.settle .admin guest 1).accounts, a.address = guest →
      a.signed = false := by
    decide
  obtain ⟨s, hs, hpair⟩ := exists_of_toOption_map hafter
  obtain ⟨y, hy, hmoved⟩ := exists_of_toOption_map (congrArg Prod.fst hpair)
  obtain ⟨x, hx, hfirst⟩ := exists_of_toOption_map hbefore
  simp only [Prod.mk.injEq] at hmoved hfirst
  obtain ⟨hepoch, hriding, hwagered⟩ := hfirst
  obtain ⟨request, hdecode, hleaves⟩ := leaves_unsigned reachable_twoSeats hs rfl hunsigned
  have hsettle : Request.decode (Client.settle .admin guest 1).data = some .settle := by decide
  cases hdecode.symm.trans hsettle
  obtain ⟨y', hy', hspares, hjudges⟩ := hleaves.seat x hx
  cases hy.symm.trans hy'
  -- nothing rides any more, so the wagers are others
  have hne : y.wagers ≠ x.wagers := by
    intro hc
    have hsame : y.hasRiding = x.hasRiding := by
      unfold Seat.hasRiding
      rw [hc]
    rw [hmoved.2, hriding] at hsame
    cases hsame
  rw [hepoch] at hjudges
  exact ⟨reachable_twoSeats, rfl, hunsigned, s, x, y, hs, hx, hy, hne, hepoch,
    hspares.wagered.trans hwagered, hspares.pending, hleaves.wallets, hjudges hne⟩

end House

end DiceHouse
