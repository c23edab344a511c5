import DiceHouse.Proofs.House
import DiceHouse.Proofs.Ledger.Census

/-!
# The books of the table

Every granted instruction is one of three things to the table: it opens it; it books on it what
happens to one seat or to the bankroll; or it leaves the table as it is, and at most pays out what a
seat had pending. `Books` says for each how the table, the sums over all seats and the chips move
together, so that what is claimed of all runs only has to be followed through these three.
-/

namespace DiceHouse

namespace Ledger

/-- The bankroll that all riding wagers tie up. -/
def tied (l : Ledger) : Nat := (l.seats.map Seat.exposure).sum

/-- What the players have on the table: the stakes that ride and what waits to be collected. -/
def held (l : Ledger) : Nat := (l.seats.map fun s => s.stakes + s.pending).sum

/-- How many chips the house has. -/
def chips (l : Ledger) : Nat := l.balance (.wallet .vault .crap)

/-- Every seat is sound. -/
def SeatsSound (l : Ledger) : Prop := ∀ s ∈ l.seats, s.Sound

variable {l m : Ledger} {o : Address} {s s' : Seat Address}

theorem sound_of_load (hs : l.SeatsSound) (h : l.load .seat (.seat o) = .ok s) : s.Sound :=
  hs s (mem_seats.mpr ⟨o, h⟩)

/-- The sums over the seats depend on nothing but the seats. -/
theorem sums_congr (hs : l.SeatsSound)
    (h : ∀ a, m.load .seat (.seat a) = l.load .seat (.seat a)) :
    m.SeatsSound ∧ m.tied = l.tied ∧ m.held = l.held := by
  have hseats := seats_congr h
  unfold SeatsSound tied held
  rw [hseats]
  exact ⟨hs, rfl, rfl⟩

/-- One seat was written; the sums change by what it held before and holds now. -/
theorem seats_replace (h : ∀ a, a ≠ o → m.load .seat (.seat a) = l.load .seat (.seat a))
    (hl : l.load .seat (.seat o) = .ok s) (hm : m.load .seat (.seat o) = .ok s') :
    m.tied + s.exposure = l.tied + s'.exposure ∧
      m.held + (s.stakes + s.pending) = l.held + (s'.stakes + s'.pending) :=
  ⟨sum_kept_replace _ rfl (isSeat_frame h) hl hm, sum_kept_replace _ rfl (isSeat_frame h) hl hm⟩

theorem seats_insert (h : ∀ a, a ≠ o → m.load .seat (.seat a) = l.load .seat (.seat a))
    (hl : ∀ s, l.load .seat (.seat o) ≠ .ok s) (hm : m.load .seat (.seat o) = .ok s') :
    m.tied = l.tied + s'.exposure ∧ m.held = l.held + (s'.stakes + s'.pending) :=
  ⟨sum_kept_insert _ rfl (isSeat_frame h) hl hm, sum_kept_insert _ rfl (isSeat_frame h) hl hm⟩

theorem seatsSound_update (h : ∀ a, a ≠ o → m.load .seat (.seat a) = l.load .seat (.seat a))
    (hm : m.load .seat (.seat o) = .ok s') (hs' : s'.Sound) (hs : l.SeatsSound) :
    m.SeatsSound := by
  refine forall_kept_update (isSeat_frame h) (fun body hbody => ?_) hs
  cases hm.symm.trans hbody
  exact hs'

end Ledger

namespace House

/-- The chips move by what is taken and given, and stay in the vault's purse. -/
def ChipsMove (l m : Ledger) (took gave : Nat) : Prop :=
  l.Purse .vault .crap → m.Purse .vault .crap ∧ m.chips + gave = l.chips + took

/-- What a granted instruction is to the table. -/
inductive Books (accounts : List Access) (l m : Ledger) : Prop where
  | opening (habsent : ∀ t, l.load .table .table ≠ .ok t)
    (htable : m.load .table .table = .ok (Table.blank.setPhase .comeOut))
    (hseats : m.seats = l.seats) (hchips : ChipsMove l m 0 0)
  | aside (gave : Nat) (htable : m.load .table .table = l.load .table .table)
    (hsound : m.SeatsSound) (htied : m.tied = l.tied) (hheld : m.held + gave = l.held)
    (hchips : Access.Authentic accounts → ChipsMove l m 0 gave)
  | deal {t t' : Table} (took : Nat) (hload : l.load .table .table = .ok t)
    (htable : m.load .table .table = .ok t') (hsound : m.SeatsSound)
    (htied : t'.reserved + l.tied = t.reserved + m.tied)
    (hheld : t'.bankroll + m.held = t.bankroll + l.held + took)
    (hsolvent : t.Solvent → t'.Solvent)
    (hchips : Access.Authentic accounts → ChipsMove l m took 0)

variable {accounts : List Access} {l m : Ledger}

theorem ChipsMove.of_agree (h : Ledger.Agree l m (.wallet .vault .crap)) : ChipsMove l m 0 0 :=
  fun hp => ⟨hp.of_agree h, h.balance⟩

/-- What another than the vault signs for brings the chips what is sent to them. -/
theorem ChipsMove.of_deposit {target : Address} {amount : Nat} {signer : Access}
    (hlisted : signer ∈ accounts) (hsigned : signer.signed = true)
    (h : ∀ o k, signer.address ≠ o → l.Purse o k → m.Purse o k ∧ m.balance (.wallet o k)
      = l.balance (.wallet o k) + (if target = .wallet o k then amount else 0))
    (hauth : Access.Authentic accounts) :
    ChipsMove l m (if target = .wallet .vault .crap then amount else 0) 0 :=
  fun hp => h .vault .crap (hauth.ne_of_seeds hlisted hsigned (by simp [Address.seeds?])) hp

/-- What leaves the table and all seats alone, and brings no chips, is nothing to the table. -/
theorem Books.none (hs : l.SeatsSound) (htable : m.load .table .table = l.load .table .table)
    (hseats : ∀ a, m.load .seat (.seat a) = l.load .seat (.seat a))
    (hchips : Access.Authentic accounts → ChipsMove l m 0 0) : Books accounts l m := by
  obtain ⟨hsound, htied, hheld⟩ := Ledger.sums_congr hs hseats
  exact .aside 0 htable hsound htied hheld hchips

/-! ## Each instruction -/

section Each

variable {slot amount : Nat} {spot : Spot}

theorem books_opening (g : Operation.Opening slot accounts l m) : Books accounts l m := by
  have hseats : m.seats = l.seats := Ledger.seats_congr fun a =>
    (g.rest _ (by simp) (by simp) (by simp) (by simp) (by simp)).load _
  exact .opening g.table_absent g.table_after hseats
    (.of_agree (g.rest _ (by simp) (by simp) (by simp) (by simp) (by simp)))

theorem sound_of_taken {signer : Address} {epoch : Nat} {seat : Seat Address} (hs : l.SeatsSound)
    (htaken : Operation.Taken l signer epoch seat) : seat.Sound := by
  cases htaken with
  | fresh _ => exact (Seat.sound_blank signer).congr rfl
  | kept hprior _ _ => exact (Ledger.sound_of_load hs hprior).congr rfl

/-- A seat that is taken holds what the player's seat held, which is nothing if there was none. -/
theorem sums_of_taken {signer : Address} {epoch : Nat} {seat s' : Seat Address} (hs : l.SeatsSound)
    (htaken : Operation.Taken l signer epoch seat)
    (hframe : ∀ a, a ≠ signer → m.load .seat (.seat a) = l.load .seat (.seat a))
    (hm : m.load .seat (.seat signer) = .ok s') :
    seat.Sound ∧ m.tied + seat.exposure = l.tied + s'.exposure ∧
      m.held + (seat.stakes + seat.pending) = l.held + (s'.stakes + s'.pending) := by
  refine ⟨sound_of_taken hs htaken, ?_⟩
  -- taking a seat changes nothing of it but the round up to which it was settled
  cases htaken with
  | fresh habsent =>
    obtain ⟨htied, hheld⟩ := Ledger.seats_insert hframe habsent hm
    have hex : ({ Seat.blank signer with epoch } : Seat Address).exposure = 0 :=
      (Seat.total_congr _ rfl).trans (Seat.exposure_blank signer)
    have hst : ({ Seat.blank signer with epoch } : Seat Address).stakes = 0 :=
      (Seat.total_congr _ rfl).trans (Seat.stakes_blank signer)
    refine ⟨?_, ?_⟩
    · rw [hex, htied, Nat.add_zero]
    · rw [hst, hheld]
      rfl
  | @kept prior hprior _ _ =>
    obtain ⟨htied, hheld⟩ := Ledger.seats_replace hframe hprior hm
    have hex : ({ prior with epoch } : Seat Address).exposure = prior.exposure :=
      Seat.total_congr _ rfl
    have hst : ({ prior with epoch } : Seat Address).stakes = prior.stakes :=
      Seat.total_congr _ rfl
    refine ⟨?_, ?_⟩
    · rw [hex, htied]
    · rw [hst, hheld]

theorem books_bet (hs : l.SeatsSound) (g : Operation.Bet slot spot amount accounts l m) :
    Books accounts l m := by
  have hframe : ∀ a, a ≠ g.signer.address → m.load .seat (.seat a) = l.load .seat (.seat a) := by
    intro a ha
    exact g.records .seat _ (by simp) (by simpa using ha) (by simp)
  obtain ⟨hsound, htied, hheld⟩ := sums_of_taken hs g.taken hframe g.seat_after
  obtain ⟨-, hbank, hreserved⟩ := Table.reserve_ok g.reserve
  have hplaced := Seat.place_ok hsound g.place
  have hexposure := hplaced.exposure
  have hstakes := hplaced.stakes
  have hpending := hplaced.pending
  exact .deal amount g.table_load g.table_after
    (Ledger.seatsSound_update hframe g.seat_after hplaced.sound hs) (by omega) (by omega)
    (Table.solvent_reserve g.reserve) (.of_deposit g.listed g.signed g.purses)

theorem books_settlement (hs : l.SeatsSound) (g : Operation.Settlement accounts l m) :
    Books accounts l m := by
  have hdeal := (Operation.playTurn_played g.play).deal (Ledger.sound_of_load hs g.seat_load)
  -- the table takes the roll before the seat is settled, and that moves no money
  obtain ⟨hbank, hreserved, -, -⟩ := Table.catchUp_ok g.catchUp
  have hframe : ∀ a, a ≠ g.seat.owner → m.load .seat (.seat a) = l.load .seat (.seat a) := by
    intro a ha
    exact (g.rest _ (by simp) (by simpa using ha)).load _
  obtain ⟨htied, hheld⟩ := Ledger.seats_replace hframe g.seat_load g.seat_after
  have hmoney := hdeal.money
  have hties := hdeal.reserved
  refine .deal 0 g.table_load g.table_after
    (Ledger.seatsSound_update hframe g.seat_after hdeal.sound hs) (by omega) (by omega)
    (fun h => hdeal.solvent ?_) fun _ => .of_agree (g.rest _ (by simp) (by simp))
  unfold Table.Solvent at h ⊢
  omega

theorem books_advance (hs : l.SeatsSound) (g : Operation.Advance accounts l m) :
    Books accounts l m := by
  obtain ⟨hbank, hreserved, -, -⟩ := Table.catchUp_ok g.catchUp
  obtain ⟨hsound, htied, hheld⟩ :=
    Ledger.sums_congr hs fun a => (g.rest (.seat a) (by simp)).load .seat
  refine .deal 0 g.table_load g.table_after hsound (by omega) (by omega) (fun h => ?_)
    fun _ => .of_agree (g.rest _ (by simp))
  unfold Table.Solvent at h ⊢
  omega

theorem books_forfeiture (hs : l.SeatsSound) (g : Operation.Forfeiture accounts l m) :
    Books accounts l m := by
  have hsettled := Seat.forfeit_ok (Ledger.sound_of_load hs g.seat_load) g.clear
  have hdeal : Operation.Deal g.table g.booked g.seat
      { g.cleared.1 with epoch := g.booked.epoch } :=
    Operation.deal_of_settled hsettled (Seat.profit_forfeit g.clear).symm g.book
  have hframe : ∀ a, a ≠ g.seat.owner → m.load .seat (.seat a) = l.load .seat (.seat a) := by
    intro a ha
    exact (g.rest _ (by simp) (by simpa using ha)).load _
  obtain ⟨htied, hheld⟩ := Ledger.seats_replace hframe g.seat_load g.seat_after
  have hmoney := hdeal.money
  have hties := hdeal.reserved
  exact .deal 0 g.table_load g.table_after
    (Ledger.seatsSound_update hframe g.seat_after hdeal.sound hs) (by omega) (by omega)
    hdeal.solvent fun _ => .of_agree (g.rest _ (by simp) (by simp))

theorem books_funding (hs : l.SeatsSound) (g : Operation.Funding amount accounts l m) :
    Books accounts l m := by
  obtain ⟨hbank, hreserved⟩ := Table.fund_ok g.fund
  obtain ⟨hsound, htied, hheld⟩ :=
    Ledger.sums_congr hs fun a => g.records .seat (.seat a) (by simp) (by simp)
  refine .deal amount g.table_load g.table_after hsound (by omega) (by omega) (fun h => ?_)
    (.of_deposit g.listed g.signed g.purses)
  unfold Table.Solvent at h ⊢
  omega

/-- What is collected was pending, and nothing is pending afterwards. -/
theorem books_collection (hs : l.SeatsSound) (g : Operation.Collection accounts l m) :
    Books accounts l m := by
  have hframe : ∀ a, a ≠ g.signer.address → m.load .seat (.seat a) = l.load .seat (.seat a) := by
    intro a ha
    exact g.records .seat _ (by simpa using ha)
  obtain ⟨htied, hheld⟩ := Ledger.seats_replace hframe g.seat_load g.seat_after
  have hex : ({ g.seat with pending := 0 } : Seat Address).exposure = g.seat.exposure :=
    Seat.total_congr _ rfl
  have hst : ({ g.seat with pending := 0 } : Seat Address).stakes = g.seat.stakes :=
    Seat.total_congr _ rfl
  have hsound : ({ g.seat with pending := 0 } : Seat Address).Sound :=
    (Ledger.sound_of_load hs g.seat_load).congr rfl
  rw [hex] at htied
  rw [hst] at hheld
  refine .aside g.seat.pending (g.records .table _ (by simp))
    (Ledger.seatsSound_update hframe g.seat_after hsound hs) (by omega) ?_ fun hauth hp => ?_
  · simp only at hheld
    omega
  · have hne : g.signer.address ≠ .vault :=
      hauth.ne_of_seeds g.listed g.signed (by simp [Address.seeds?])
    exact g.chips hne hp

end Each

/-- Every granted instruction keeps the table's books in one of the three ways. -/
theorem Granted.books (hs : l.SeatsSound) (h : Granted accounts l m) : Books accounts l m := by
  cases h with
  | opening g => exact books_opening g
  | configuration g =>
    exact .none hs ((g.rest _ (by simp)).load _) (fun a => (g.rest _ (by simp)).load _)
      fun _ => .of_agree (g.rest _ (by simp))
  | stake g =>
    exact .none hs (g.records .table _ (by simp) (by simp) (by simp))
      (fun a => g.records .seat _ (by simp) (by simp) (by simp))
      (.of_deposit g.listed g.signed g.purses)
  | rearming g =>
    exact .none hs ((g.rest _ (by simp)).load _) (fun a => (g.rest _ (by simp)).load _)
      fun _ => .of_agree (g.rest _ (by simp))
  | resolution g =>
    refine .none hs (g.records .table _ (by simp) (by simp) (by simp) (by simp) (by simp))
      (fun a => g.records .seat _ (by simp) (by simp) (by simp) (by simp) (by simp))
      fun _ hp => ?_
    have h := g.purses .vault .crap (by simp) hp
    rw [if_neg (by simp)] at h
    exact h
  | claim g =>
    refine .none hs (g.records .table _ (by simp) (by simp) (by simp))
      (fun a => g.records .seat _ (by simp) (by simp) (by simp)) fun _ hp => ?_
    have h := g.purses .vault .crap (by simp) hp
    rw [if_neg (by simp)] at h
    exact h
  | bet g => exact books_bet hs g
  | settlement g => exact books_settlement hs g
  | advance g => exact books_advance hs g
  | collection g => exact books_collection hs g
  | funding g => exact books_funding hs g
  | forfeiture g => exact books_forfeiture hs g

end House

end DiceHouse
