import DiceHouse.Client
import DiceHouse.Proofs.House
import DiceHouse.Proofs.Seat.Riding

/-!
# Calls with the right accounts

A call that asks to settle or to clear a seat is well formed if it hands over the accounts that the
request is about, with the rights that it needs. For such a call the checks of accounts fall away,
and what is left is what the game says: `settle_call` and `forfeit_call`.
-/

namespace DiceHouse.House

variable {slot n : Nat} {i : Instruction} {l : Ledger} {owner : Address}

/-- A well-formed call to settle the seat of a player against a round. -/
structure SettleCall (i : Instruction) (owner : Address) (n : Nat) : Prop where
  program : i.program = .program
  request : Request.decode i.data = some .settle
  accounts : ∃ signer settings table seat round,
    Access.unify i.accounts = [signer, settings, table, seat, round] ∧ signer.signed = true ∧
      settings.address = .settings ∧ table.writable = true ∧ table.address = .table ∧
      seat.writable = true ∧ seat.address = .seat owner ∧ round.address = .round n

/-- A well-formed call to bring the table up to a round. -/
structure AdvanceCall (i : Instruction) (n : Nat) : Prop where
  program : i.program = .program
  request : Request.decode i.data = some .advance
  accounts : ∃ signer table round, Access.unify i.accounts = [signer, table, round] ∧
    signer.signed = true ∧ table.writable = true ∧ table.address = .table ∧
      round.address = .round n

/-- A well-formed call to clear the seat of a player. -/
structure ForfeitCall (i : Instruction) (owner : Address) : Prop where
  program : i.program = .program
  request : Request.decode i.data = some .forfeit
  accounts : ∃ signer table seat,
    Access.unify i.accounts = [signer, table, seat] ∧ signer.signed = true ∧
      table.writable = true ∧ table.address = .table ∧ seat.writable = true ∧
      seat.address = .seat owner

theorem process_of_request {request : Request} (hprogram : i.program = .program)
    (hdecode : Request.decode i.data = some request) :
    process slot i l = serve slot request (Access.unify i.accounts) l := by
  unfold process demand
  rw [if_pos hprogram, hdecode]
  rfl

/-- With the right accounts, settling is what comes of the table taking the roll and the seat its turn
after that. -/
theorem settle_call_turn (slot : Nat) {config : Settings Address} {t : Table} {s : Seat Address}
    {r : Round Address} {roll : Roll} (hi : SettleCall i s.owner n)
    (hconfig : l.load .settings .settings = .ok config) (ht : l.load .table .table = .ok t)
    (hs : l.load .seat (.seat s.owner) = .ok s) (hr : l.load .round (.round n) = .ok r)
    (hid : r.id = n) (hroll : r.roll = .ok roll) :
    (∀ rolled turn, t.catchUp n roll = .ok rolled →
        Operation.playTurn rolled.1 s n roll config.fieldTriple = .ok turn →
        ∃ session, process slot i l = .ok session ∧
          session.ledger = (l.store .table .table turn.1).store .seat (.seat s.owner) turn.2.1) ∧
      (∀ rolled f, t.catchUp n roll = .ok rolled →
        Operation.playTurn rolled.1 s n roll config.fieldTriple = .error f →
        process slot i l = .error (.fault f)) ∧
      ∀ f, t.catchUp n roll = .error f → process slot i l = .error (.fault f) := by
  obtain ⟨signer, settings, table, seat, round, haccounts, hsigned, hsettings, htable, htable',
    hseat, hseat', hround⟩ := hi.accounts
  subst hid
  have hcheck₁ : signer.requireSigned = .ok () := Access.requireSigned_eq_ok_iff.mpr hsigned
  have hcheck₂ : settings.requireDerived .settings = .ok () :=
    Access.requireDerived_eq_ok_iff.mpr hsettings
  have hcheck₃ : table.requireOwn .table = .ok () :=
    Access.requireOwn_eq_ok_iff.mpr ⟨htable, htable'⟩
  have hcheck₄ : seat.requireWritable = .ok () := Access.requireWritable_eq_ok_iff.mpr hseat
  have hcheck₅ : seat.requireDerived (.seat s.owner) = .ok () :=
    Access.requireDerived_eq_ok_iff.mpr hseat'
  have hcheck₆ : round.requireDerived (.round r.id) = .ok () :=
    Access.requireDerived_eq_ok_iff.mpr hround
  rw [process_of_request hi.program hi.request, haccounts]
  unfold serve Operation.settle
  simp only [hcheck₁, hcheck₂, hcheck₃, hcheck₄, hsettings, htable', hseat', hround, hconfig, ht,
    hs, hr, ok_bind, hcheck₅, hcheck₆, hroll, liftM_ok]
  refine ⟨fun rolled turn hcatch hturn => ?_, fun rolled f hcatch hturn => ?_, fun f hcatch => ?_⟩
  · rw [hcatch, liftM_ok, ok_bind, hturn, liftM_ok, ok_bind]
    refine ⟨_, rfl, ?_⟩
    -- a roll that the table took only adds a line to the log
    simp only [Session.ledger_note, Session.ledger_store]
    split <;> rfl
  · rw [hcatch, liftM_ok, ok_bind, hturn]
    rfl
  · rw [hcatch]
    rfl

/-- With the right accounts, settling is the turn of the seat at a table that has the roll. -/
theorem settle_call {config : Settings Address} {t : Table} {s : Seat Address}
    {r : Round Address} {roll : Roll} {rolled : Table × Option Call} (hi : SettleCall i s.owner n)
    (hconfig : l.load .settings .settings = .ok config) (ht : l.load .table .table = .ok t)
    (hs : l.load .seat (.seat s.owner) = .ok s) (hr : l.load .round (.round n) = .ok r)
    (hid : r.id = n) (hroll : r.roll = .ok roll) (hcatch : t.catchUp n roll = .ok rolled) :
    (∀ turn, Operation.playTurn rolled.1 s n roll config.fieldTriple = .ok turn →
        ∃ session, process slot i l = .ok session) ∧
      ∀ f, Operation.playTurn rolled.1 s n roll config.fieldTriple = .error f →
        process slot i l = .error (.fault f) := by
  obtain ⟨hok, herror, -⟩ := settle_call_turn slot hi hconfig ht hs hr hid hroll
  refine ⟨fun turn hturn => ?_, fun f hturn => herror rolled f hcatch hturn⟩
  obtain ⟨session, hsession, -⟩ := hok rolled turn hcatch hturn
  exact ⟨session, hsession⟩

/-- With the right accounts, bringing the table up to a round is the table taking its roll. -/
theorem advance_call (slot : Nat) {t : Table} {r : Round Address} {roll : Roll} (hi : AdvanceCall i n)
    (ht : l.load .table .table = .ok t) (hr : l.load .round (.round n) = .ok r) (hid : r.id = n)
    (hroll : r.roll = .ok roll) :
    (∀ rolled, t.catchUp n roll = .ok rolled → ∃ session, process slot i l = .ok session ∧
        (session.ledger = l.store .table .table rolled.1 ∨
          session.ledger = l ∧ rolled.1 = t)) ∧
      ∀ f, t.catchUp n roll = .error f → process slot i l = .error (.fault f) := by
  obtain ⟨signer, table, round, haccounts, hsigned, htable, htable', hround⟩ := hi.accounts
  subst hid
  have hcheck₁ : signer.requireSigned = .ok () := Access.requireSigned_eq_ok_iff.mpr hsigned
  have hcheck₂ : table.requireOwn .table = .ok () :=
    Access.requireOwn_eq_ok_iff.mpr ⟨htable, htable'⟩
  have hcheck₃ : round.requireDerived (.round r.id) = .ok () :=
    Access.requireDerived_eq_ok_iff.mpr hround
  rw [process_of_request hi.program hi.request, haccounts]
  unfold serve Operation.advance
  simp only [hcheck₁, hcheck₂, htable', hround, ht, hr, ok_bind, hcheck₃, hroll, liftM_ok]
  refine ⟨fun rolled hcatch => ?_, fun f hcatch => ?_⟩
  · rw [hcatch, liftM_ok, ok_bind]
    obtain ⟨rolled, call⟩ := rolled
    cases call with
    | none => exact ⟨_, rfl, .inr ⟨rfl, Table.catchUp_none hcatch⟩⟩
    | some call => exact ⟨_, rfl, .inl rfl⟩
  · rw [hcatch]
    rfl

/-- Booking is refused for want of room or of bankroll. -/
theorem refusedOnly_book (t : Table) (profit collected released : Nat) :
    RefusedOnly (fun f => Seat.Plain f ∨ f = .bankrollShort)
      (t.book profit collected released) := by
  have hadd : ∀ a b, RefusedOnly (fun f => Seat.Plain f ∨ f = .bankrollShort) (Amount.add a b) :=
    fun a b => (Seat.plain_add a b).mono fun _ hf => .inl hf
  unfold Table.book
  refine (hadd _ _).bind fun grown => RefusedOnly.bind ?_ fun _ => RefusedOnly.bind ?_ fun _ => ?_
  · intro f h
    unfold require at h
    split at h
    · cases h
    · exact .inr (Except.error.inj h).symm
  · intro f h
    unfold Amount.sub at h
    split at h
    · cases h
    · exact .inl (.inl (Except.error.inj h).symm)
  · exact (hadd _ _).bind fun _ => (hadd _ _).bind fun _ => refusedOnly_pure _

/-- With the right accounts, clearing a seat is refused as too early unless something rides there
and the log forgot its round. -/
theorem forfeit_call {t : Table} {s : Seat Address} (hi : ForfeitCall i s.owner)
    (ht : l.load .table .table = .ok t) (hs : l.load .seat (.seat s.owner) = .ok s) :
    process slot i l = .error (.fault .stillSettleable) ↔
      ¬(s.hasRiding = true ∧ t.isBeyondLog s.epoch = true) := by
  obtain ⟨signer, table, seat, haccounts, hsigned, htable, htable', hseat, hseat'⟩ := hi.accounts
  have hcheck₁ : signer.requireSigned = .ok () := Access.requireSigned_eq_ok_iff.mpr hsigned
  have hcheck₂ : table.requireOwn .table = .ok () :=
    Access.requireOwn_eq_ok_iff.mpr ⟨htable, htable'⟩
  have hcheck₃ : seat.requireWritable = .ok () := Access.requireWritable_eq_ok_iff.mpr hseat
  have hcheck₄ : seat.requireDerived (.seat s.owner) = .ok () :=
    Access.requireDerived_eq_ok_iff.mpr hseat'
  rw [process_of_request hi.program hi.request, haccounts]
  unfold serve Operation.forfeit
  simp only [hcheck₁, hcheck₂, hcheck₃, htable', hseat', ht, hs, ok_bind, hcheck₄]
  by_cases hforgotten : s.hasRiding = true ∧ t.isBeyondLog s.epoch = true
  · -- what comes after the check is never refused as too early
    refine iff_of_false (fun h => ?_) (not_not_intro hforgotten)
    rw [require_of_true hforgotten, liftM_ok, ok_bind] at h
    rcases bind_eq_error_iff.mp h with hclear | ⟨cleared, -, h⟩
    · obtain ⟨f, hf, hfault⟩ := liftM_eq_error_iff.mp hclear
      cases hfault
      exact absurd (Seat.plain_forfeit s _ hf) (by unfold Seat.Plain; decide)
    rcases bind_eq_error_iff.mp h with hbook | ⟨booked, -, h⟩
    · obtain ⟨f, hf, hfault⟩ := liftM_eq_error_iff.mp hbook
      cases hfault
      exact absurd (refusedOnly_book t _ _ _ _ hf) (by unfold Seat.Plain; decide)
    · exact absurd h pure_ne_error
  · refine iff_of_true ?_ hforgotten
    unfold require
    rw [if_neg hforgotten]
    rfl

/-! ## The client's calls -/

theorem settleCall_client (signer owner : Address) (n : Nat) :
    SettleCall (Client.settle signer owner n) owner n where
  program := rfl
  request := Request.decode_encode trivial
  accounts := by
    refine ⟨_, _, _, _, _, rfl, ?_, Access.address_first _ _, ?_, Access.address_first _ _, ?_,
      Access.address_first _ _, Access.address_first _ _⟩
    · simp [Client.settle, Client.ask, Client.signs]
    · refine Access.first_of_forall (p := fun a => a.writable = true) ?_
      simp [Client.settle, Client.ask, Client.signs, Client.reads, Client.writes]
    · refine Access.first_of_forall (p := fun a => a.writable = true) ?_
      simp [Client.settle, Client.ask, Client.signs, Client.reads, Client.writes]

theorem advanceCall_client (signer : Address) (n : Nat) :
    AdvanceCall (Client.advance signer n) n where
  program := rfl
  request := Request.decode_encode trivial
  accounts := by
    refine ⟨_, _, _, rfl, ?_, ?_, Access.address_first _ _, Access.address_first _ _⟩
    · simp [Client.advance, Client.ask, Client.signs]
    · refine Access.first_of_forall (p := fun a => a.writable = true) ?_
      simp [Client.advance, Client.ask, Client.signs, Client.reads, Client.writes]

theorem forfeitCall_client (signer owner : Address) :
    ForfeitCall (Client.forfeit signer owner) owner where
  program := rfl
  request := Request.decode_encode trivial
  accounts := by
    refine ⟨_, _, _, rfl, ?_, ?_, Access.address_first _ _, ?_, Access.address_first _ _⟩
    · simp [Client.forfeit, Client.ask, Client.signs]
    · refine Access.first_of_forall (p := fun a => a.writable = true) ?_
      simp [Client.forfeit, Client.ask, Client.signs, Client.writes]
    · refine Access.first_of_forall (p := fun a => a.writable = true) ?_
      simp [Client.forfeit, Client.ask, Client.signs, Client.writes]

end DiceHouse.House
