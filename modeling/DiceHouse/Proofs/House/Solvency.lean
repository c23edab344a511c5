import DiceHouse.Client
import DiceHouse.Proofs.House.Books

/-!
# Solvency and custody of the table

On every ledger that a house can come to, the table has reserved exactly what the riding wagers of
all seats can win, its bankroll covers that, and the chips in the vault's purse cover the bankroll
together with what the players have on the table. So whoever collects what a seat has won is never
turned away for want of chips.

The invariants speak of a ledger without a table too: as long as there is none, nobody has anything
on it.
-/

namespace DiceHouse

/-- What others do, if nobody sends chips to the vault. -/
structure Ledger.OutsideVault (l m : Ledger) : Prop extends l.Outside m where
  chips : m.chips = l.chips

/-! ## A first bet -/

namespace House

/-- The admin opens the house and is given chips. -/
def furnished : Ledger :=
  (run (.genesis [.admin]) [(0, Client.openHouse .admin)]).withWallet .admin .crap 5000

/-- Then the admin puts 1000 of them into the bankroll and bets 10 on the pass line. -/
def firstBet : Ledger :=
  run furnished [(1, Client.fund .admin 1000), (2, Client.bet .admin .passLine 0 10)]

theorem reachable_firstBet {outside : Ledger → Ledger → Prop}
    (ho : ∀ l m, l.OutsideVault m → outside l m) : Reachable Authentic outside firstBet := by
  have hfurnished : Reachable Authentic outside furnished := by
    refine ((Reachable.genesis [.admin]).run ?_).other
      (ho _ _ ⟨Ledger.outside_withWallet _ _ _ rfl, ?_⟩)
    · simp only [List.forall_mem_singleton]
      exact .of_first rfl (by decide)
    · exact (Ledger.agree_put _ _ (by simp)).balance
  refine hfurnished.run ?_
  simp only [List.forall_mem_cons, List.not_mem_nil, false_implies, implies_true, and_true]
  exact ⟨.of_first rfl (by decide), .of_first rfl (by decide)⟩

end House

/-! ## Reservations -/

/-- The reservations are exact and the table is solvent. -/
structure Ledger.Reserved (l : Ledger) : Prop where
  sound : l.SeatsSound
  absent : (∀ t, l.load .table .table ≠ .ok t) → l.tied = 0 ∧ l.held = 0
  exact : ∀ t, l.load .table .table = .ok t → t.reserved = l.tied
  solvent : ∀ t, l.load .table .table = .ok t → t.Solvent

namespace House

variable {accounts : List Access} {l m : Ledger} {t : Table}

theorem reserved_genesis (used : List Address) : (Ledger.genesis used).Reserved := by
  have hnone : ∀ t, (Ledger.genesis used).load .table .table ≠ .ok t := fun t h => by cases h
  exact ⟨fun s hs => absurd hs (Multiset.notMem_zero s), fun _ => ⟨rfl, rfl⟩,
    fun t h => absurd h (hnone t), fun t h => absurd h (hnone t)⟩

theorem reserved_books (h : l.Reserved) (hb : Books accounts l m) : m.Reserved := by
  cases hb with
  | opening habsent htable hseats _ =>
    -- as long as there was no table nobody had anything on it
    obtain ⟨htied, hheld⟩ := h.absent habsent
    have htied' : m.tied = 0 := by
      unfold Ledger.tied at htied ⊢
      rw [hseats, htied]
    refine ⟨?_, fun hc => absurd htable (hc _), fun t ht => ?_, fun t ht => ?_⟩
    · unfold Ledger.SeatsSound
      rw [hseats]
      exact h.sound
    · cases htable.symm.trans ht
      exact htied'.symm
    · cases htable.symm.trans ht
      exact Nat.zero_le _
  | aside gave htable hsound htied hheld _ =>
    refine ⟨hsound, fun hc => ?_, fun t ht => ?_, fun t ht => ?_⟩
    · obtain ⟨h₁, h₂⟩ := h.absent fun t ht => hc t (htable.trans ht)
      omega
    · rw [htied]
      exact h.exact t (htable.symm.trans ht)
    · exact h.solvent t (htable.symm.trans ht)
  | @deal t₀ t₁ took hload htable hsound htied _ hsolvent _ =>
    have hexact := h.exact t₀ hload
    refine ⟨hsound, fun hc => absurd htable (hc t₁), fun t ht => ?_, fun t ht => ?_⟩
    · cases htable.symm.trans ht
      omega
    · cases htable.symm.trans ht
      exact hsolvent (h.solvent t₀ hload)

/-- Others leave the table and all seats as they are. -/
theorem seats_outside (ho : l.Outside m) : m.seats = l.seats :=
  Ledger.seats_congr fun a => (ho.own _ (by simp [Address.seeds?])).load .seat

theorem table_outside (ho : l.Outside m) : m.load .table .table = l.load .table .table :=
  (ho.own _ (by simp [Address.seeds?])).load .table

theorem reserved_outside (h : l.Reserved) (ho : l.Outside m) : m.Reserved := by
  have hseats := seats_outside ho
  obtain ⟨hsound, habsent, hexact, hsolvent⟩ := h
  unfold Ledger.SeatsSound at hsound
  unfold Ledger.tied at habsent hexact
  unfold Ledger.held at habsent
  rw [← hseats] at hsound habsent hexact
  rw [← table_outside ho] at habsent hexact hsolvent
  exact ⟨hsound, habsent, hexact, hsolvent⟩

theorem Reachable.reserved {allowed : Instruction → Prop} {outside : Ledger → Ledger → Prop}
    (houtside : ∀ l m, outside l m → l.Outside m) (h : Reachable allowed outside l) : l.Reserved :=
  h.induction reserved_genesis
    (fun _ hg hr => reserved_books hr (hg.books hr.sound))
    (fun ho hr => reserved_outside hr (houtside _ _ ho))

/-- What a riding wager ties up is what `Spot.reserve` says. -/
theorem reserve_of_rides {s : Seat Address} {spot : Spot} {w : Wager} (hs : s.Sound)
    (hw : s.wager spot = .ok w) (hr : w.rides = true) :
    spot.reserve w.amount = .ok (spot.tied w.amount) := by
  obtain ⟨r, hreserve⟩ := (hs.holds hw).reserved hr
  rw [Spot.tied_of_reserve hreserve, hreserve]

/-- Whatever instructions are given, by whomever and in whatever order: the table has reserved
exactly what all riding wagers of all seats can win at most, and the bankroll covers it. -/
theorem reservations_exact {allowed : Instruction → Prop}
    (h : Reachable allowed Ledger.Outside l) (ht : l.load .table .table = .ok t) :
    t.reserved = (l.seats.map Seat.exposure).sum ∧ t.reserved ≤ t.bankroll ∧
      ∀ s ∈ l.seats, ∀ spot w, s.wager spot = .ok w → w.rides = true →
        spot.reserve w.amount = .ok (spot.tied w.amount) := by
  have hr := h.reserved fun _ _ ho => ho
  exact ⟨hr.exact t ht, hr.solvent t ht, fun s hs spot w => reserve_of_rides (hr.sound s hs)⟩

theorem reservations_exact_firstBet :
    Reachable (fun _ => True) Ledger.Outside firstBet ∧ ∃ t, firstBet.load .table .table = .ok t ∧
      t.reserved = 10 ∧ (firstBet.seats.map Seat.exposure).sum = 10 ∧ 10 ≤ t.bankroll := by
  have hreach : Reachable (fun _ => True) Ledger.Outside firstBet :=
    (reachable_firstBet fun _ _ h => h).mono (fun _ _ => trivial) fun _ _ h => h.toOutside
  have hten : (firstBet.load .table .table).map Table.reserved = .ok 10 := rfl
  refine ⟨hreach, ?_⟩
  -- the table is there, for something of it was computed
  cases ht : firstBet.load .table .table with
  | error r =>
    rw [ht] at hten
    cases hten
  | ok t =>
    rw [ht] at hten
    have ht10 : t.reserved = 10 := Except.ok.inj hten
    obtain ⟨hexact, hsolvent, -⟩ := reservations_exact hreach ht
    exact ⟨t, rfl, ht10, hexact.symm.trans ht10, ht10 ▸ hsolvent⟩

end House

/-! ## Custody -/

/-- The chips cover the bankroll and what the players have on the table. -/
structure Ledger.ChipsCover (l : Ledger) : Prop extends l.Reserved where
  purse : l.Purse .vault .crap
  cover : ∀ t, l.load .table .table = .ok t → t.bankroll + l.held ≤ l.chips

/-- The chips are the bankroll and what the players have on the table, and nothing else. -/
structure Ledger.ChipsMatch (l : Ledger) : Prop extends l.Reserved where
  purse : l.Purse .vault .crap
  bare : (∀ t, l.load .table .table ≠ .ok t) → l.chips = 0
  equal : ∀ t, l.load .table .table = .ok t → t.bankroll + l.held = l.chips

namespace House

variable {accounts : List Access} {l m : Ledger} {t : Table}

theorem chipsCover_genesis (used : List Address) : (Ledger.genesis used).ChipsCover :=
  { reserved_genesis used with
    purse := Ledger.purse_of_isEmpty rfl
    cover := fun t ht => by cases ht }

theorem chipsCover_books (hauth : Access.Authentic accounts) (h : l.ChipsCover)
    (hb : Books accounts l m) : m.ChipsCover := by
  have hr := reserved_books h.toReserved hb
  cases hb with
  | opening habsent htable hseats hchips =>
    obtain ⟨hp, hmoved⟩ := hchips h.purse
    refine { hr with purse := hp, cover := fun t ht => ?_ }
    cases htable.symm.trans ht
    have hheld : m.held = 0 := by
      unfold Ledger.held
      rw [hseats]
      exact (h.absent habsent).2
    rw [hheld]
    exact Nat.zero_le _
  | aside gave htable _ _ hheld hchips =>
    obtain ⟨hp, hmoved⟩ := hchips hauth h.purse
    refine { hr with purse := hp, cover := fun t ht => ?_ }
    have hcover := h.cover t (htable.symm.trans ht)
    omega
  | @deal t₀ t₁ took hload htable _ _ hheld _ hchips =>
    obtain ⟨hp, hmoved⟩ := hchips hauth h.purse
    refine { hr with purse := hp, cover := fun t ht => ?_ }
    cases htable.symm.trans ht
    have hcover := h.cover t₀ hload
    omega

theorem held_outside (ho : l.Outside m) : m.held = l.held := by
  unfold Ledger.held
  rw [seats_outside ho]

theorem chipsCover_outside (h : l.ChipsCover) (ho : l.Outside m) : m.ChipsCover := by
  obtain ⟨hp, hle⟩ := ho.purses .vault .crap (by simp [Address.seeds?]) h.purse
  refine { reserved_outside h.toReserved ho with purse := hp, cover := fun t ht => ?_ }
  rw [table_outside ho] at ht
  rw [held_outside ho]
  exact (h.cover t ht).trans hle

theorem chipsMatch_genesis (used : List Address) : (Ledger.genesis used).ChipsMatch :=
  { reserved_genesis used with
    purse := Ledger.purse_of_isEmpty rfl
    bare := fun _ => rfl
    equal := fun t ht => by cases ht }

theorem chipsMatch_books (hauth : Access.Authentic accounts) (h : l.ChipsMatch)
    (hb : Books accounts l m) : m.ChipsMatch := by
  have hr := reserved_books h.toReserved hb
  cases hb with
  | opening habsent htable hseats hchips =>
    obtain ⟨hp, hmoved⟩ := hchips h.purse
    refine { hr with purse := hp, bare := fun hc => absurd htable (hc _), equal := fun t ht => ?_ }
    cases htable.symm.trans ht
    have hheld : m.held = 0 := by
      unfold Ledger.held
      rw [hseats]
      exact (h.absent habsent).2
    have hnone := h.bare habsent
    have hbank : (Table.blank.setPhase .comeOut).bankroll = 0 := rfl
    omega
  | aside gave htable _ _ hheld hchips =>
    obtain ⟨hp, hmoved⟩ := hchips hauth h.purse
    refine { hr with purse := hp, bare := fun hc => ?_, equal := fun t ht => ?_ }
    · have hnone := h.bare fun t ht => hc t (htable.trans ht)
      omega
    · have hmatch := h.equal t (htable.symm.trans ht)
      omega
  | @deal t₀ t₁ took hload htable _ _ hheld _ hchips =>
    obtain ⟨hp, hmoved⟩ := hchips hauth h.purse
    refine { hr with purse := hp, bare := fun hc => absurd htable (hc t₁), equal := fun t ht => ?_ }
    cases htable.symm.trans ht
    have hmatch := h.equal t₀ hload
    omega

theorem chipsMatch_outside (h : l.ChipsMatch) (ho : l.OutsideVault m) : m.ChipsMatch := by
  obtain ⟨hp, -⟩ := ho.purses .vault .crap (by simp [Address.seeds?]) h.purse
  have htable := table_outside ho.toOutside
  refine { reserved_outside h.toReserved ho.toOutside with
    purse := hp, bare := fun hc => ?_, equal := fun t ht => ?_ }
  · rw [ho.chips]
    exact h.bare fun t ht => hc t (htable.trans ht)
  · rw [held_outside ho.toOutside, ho.chips]
    exact h.equal t (htable.symm.trans ht)

theorem Reachable.chipsCover (h : Reachable Authentic Ledger.Outside l) : l.ChipsCover :=
  h.induction chipsCover_genesis
    (fun hauth hg hr => chipsCover_books (Access.Authentic.unify hauth) hr (hg.books hr.sound))
    (fun ho hr => chipsCover_outside hr ho)

theorem Reachable.chipsMatch (h : Reachable Authentic Ledger.OutsideVault l) : l.ChipsMatch :=
  h.induction chipsMatch_genesis
    (fun hauth hg hr => chipsMatch_books (Access.Authentic.unify hauth) hr (hg.books hr.sound))
    (fun ho hr => chipsMatch_outside hr ho)

/-- What one seat has on the table is part of what all have. -/
theorem held_of_mem {s : Seat Address} (hs : s ∈ l.seats) : s.stakes + s.pending ≤ l.held :=
  le_sum_map (fun s => s.stakes + s.pending) hs

/-- The stake that rides at a seat is told without overflow, for all that the players have on the
table is there in chips. -/
theorem atRisk_of_mem {s : Seat Address} (h : l.ChipsCover) (hs : s ∈ l.seats) :
    s.atRisk = .ok s.stakes := by
  have hle := held_of_mem hs
  refine Seat.atRisk_of_lt ?_
  by_cases htable : ∃ t, l.load .table .table = .ok t
  · obtain ⟨t, ht⟩ := htable
    have hcover : t.bankroll + l.held ≤ l.chips := h.cover t ht
    have hlt : l.chips < Amount.limit := h.purse.balance_lt
    omega
  · have hheld : l.held = 0 := (h.absent fun t ht => htable ⟨t, ht⟩).2
    have hpos : 0 < Amount.limit := Nat.pow_pos (by decide)
    omega

/-- What one seat ties up is part of what all do. -/
theorem tied_of_mem {s : Seat Address} (hs : s ∈ l.seats) : s.exposure ≤ l.tied :=
  le_sum_map Seat.exposure hs

/-- Whatever instructions are given, the chips in the vault's purse cover the bankroll, the stakes
that ride and what waits to be collected; if nobody else sends chips there, they are exactly that.
So no collection is refused for want of chips. -/
theorem chips_cover_claims (h : Reachable Authentic Ledger.Outside l)
    (ht : l.load .table .table = .ok t) :
    t.bankroll + (l.seats.map fun s => s.stakes + s.pending).sum
        ≤ l.balance (.wallet .vault .crap) ∧
      (∀ s ∈ l.seats, s.atRisk = .ok s.stakes) ∧
      (Reachable Authentic Ledger.OutsideVault l →
        t.bankroll + (l.seats.map fun s => s.stakes + s.pending).sum
          = l.balance (.wallet .vault .crap)) ∧
      (∀ s ∈ l.seats, s.pending ≠ 0 →
        ∃ w, l.wallet (.wallet .vault .crap) = .ok w ∧ s.pending ≤ w.amount) ∧
      ∀ slot i, Request.decode i.data = some .collect →
        process slot i l ≠ .error .insufficient := by
  have hc := h.chipsCover
  have hcover : t.bankroll + l.held ≤ l.chips := hc.cover t ht
  have hlt : l.chips < Amount.limit := hc.purse.balance_lt
  refine ⟨hcover, fun s hs => atRisk_of_mem hc hs, fun hclosed => hclosed.chipsMatch.equal t ht,
    fun s hs hne => ?_, fun slot i hdecode hrefused => ?_⟩
  · have hle := held_of_mem hs
    cases hw : l.wallet (.wallet .vault .crap) with
    | ok w =>
      have hbal : l.chips = w.amount := Ledger.balance_of_wallet hw
      exact ⟨w, rfl, by omega⟩
    | error r =>
      have hbal : l.chips = 0 := by
        unfold Ledger.chips Ledger.balance
        rw [hw]
      omega
  · obtain ⟨signer, seat, hseat, hshort⟩ :=
      Operation.collect_insufficient (serve_error (by simp) hdecode hrefused)
    have hle := held_of_mem (Ledger.mem_seats.mpr ⟨signer, hseat⟩)
    have hshort : l.chips < seat.pending := hshort
    omega

theorem chips_cover_claims_firstBet :
    Reachable Authentic Ledger.Outside firstBet ∧ ∃ t, firstBet.load .table .table = .ok t ∧
      t.bankroll = 1000 ∧ (firstBet.seats.map fun s => s.stakes + s.pending).sum = 10 ∧
      firstBet.balance (.wallet .vault .crap) = 1010 ∧
      process 3 (Client.collect .admin) firstBet ≠ .error .insufficient := by
  have hreach : Reachable Authentic Ledger.Outside firstBet :=
    reachable_firstBet fun _ _ h => h.toOutside
  have hthousand : (firstBet.load .table .table).map Table.bankroll = .ok 1000 := rfl
  have hbalance : firstBet.balance (.wallet .vault .crap) = 1010 := rfl
  refine ⟨hreach, ?_⟩
  cases ht : firstBet.load .table .table with
  | error r =>
    rw [ht] at hthousand
    cases hthousand
  | ok t =>
    rw [ht] at hthousand
    have hbank : t.bankroll = 1000 := Except.ok.inj hthousand
    obtain ⟨-, -, hequal, -, hcollect⟩ := chips_cover_claims hreach ht
    have hsum := hequal (reachable_firstBet fun _ _ h => h)
    rw [hbalance] at hsum
    exact ⟨t, rfl, hbank, by omega, hbalance, hcollect 3 _ (Request.decode_encode trivial)⟩

end House

end DiceHouse
