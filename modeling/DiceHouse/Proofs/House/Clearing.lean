import DiceHouse.Proofs.House.Calls
import DiceHouse.Proofs.House.Run

/-!
# Settling and clearing are complements

A seat at which something rides is level with the table, or it can be settled, or it can only be
cleared, and never two of these. The bounds by which the table decides are told in different ways:
the log counts from the round that is settled, the check of a forfeiture from the last one that the
seat saw, and the sequence of settlements asks for the round in between. They meet at `logLength`.
-/

namespace DiceHouse

/-- One of three, and only one. -/
def ExactlyOne (a b c : Prop) : Prop := a ∧ ¬b ∧ ¬c ∨ ¬a ∧ b ∧ ¬c ∨ ¬a ∧ ¬b ∧ c

namespace Table

/-- A seat at which something rides can be settled against the round after its last and against no
other. -/
def Settleable (t : Table) (epoch : Nat) : Prop :=
  (∃ phase, t.turn epoch true (epoch + 1) = .ok (.settle phase)) ∧
    ∀ n way, t.turn epoch true n = .ok way → n = epoch + 1

/-- A seat at which something rides can be settled against no round and may be cleared. -/
def Forgotten (t : Table) (epoch : Nat) : Prop :=
  t.isBeyondLog epoch = true ∧ ∀ n way, t.turn epoch true n ≠ .ok way

variable {t : Table} {rolls : List Roll} {epoch : Nat}

theorem isBeyondLog_iff : t.isBeyondLog epoch = true ↔ logLength < t.epoch - epoch := by
  unfold isBeyondLog
  exact decide_eq_true_iff

theorem Follows.settleable_iff (h : t.Follows rolls) :
    t.Settleable epoch ↔ epoch < t.epoch ∧ t.epoch - epoch ≤ logLength := by
  rw [h.epoch]
  constructor
  · rintro ⟨⟨phase, hturn⟩, -⟩
    obtain ⟨-, hle, hwindow, -⟩ := h.turn_riding_eq_ok_iff.mp hturn
    omega
  · rintro ⟨hlt, hwindow⟩
    refine ⟨⟨_, h.turn_riding_eq_ok_iff.mpr ⟨rfl, hlt, by omega, rfl⟩⟩, fun n way hturn => ?_⟩
    exact (h.turn_riding_eq_ok_iff.mp hturn).1

theorem Follows.forgotten_iff (h : t.Follows rolls) :
    t.Forgotten epoch ↔ logLength < t.epoch - epoch := by
  unfold Forgotten
  rw [isBeyondLog_iff]
  constructor
  · rintro ⟨hfar, -⟩
    exact hfar
  · intro hfar
    refine ⟨hfar, fun n way hturn => ?_⟩
    obtain ⟨rfl, -, hwindow, -⟩ := h.turn_riding_eq_ok_iff.mp hturn
    rw [h.epoch] at hfar
    omega

theorem Follows.exactlyOne (h : t.Follows rolls) (hle : epoch ≤ t.epoch) :
    ExactlyOne (epoch = t.epoch) (t.Settleable epoch) (t.Forgotten epoch) := by
  unfold ExactlyOne
  rw [h.settleable_iff, h.forgotten_iff]
  omega

end Table

namespace House

variable {allowed : Instruction → Prop} {l : Ledger}

/-- On every reachable ledger, a seat at which something rides is not ahead of the table, and it is
level with the table, or can be settled against the next round only, or can only be cleared, and
just one of these; whether a well-formed call to clear it is refused as too early depends on that
alone. What is cleared has nothing riding and is level with the table. -/
theorem settle_or_clear (h : Reachable allowed Ledger.Outside l) :
    (∀ o s, l.load .seat (.seat o) = .ok s → s.hasRiding = true →
      ∃ t, l.load .table .table = .ok t ∧ s.epoch ≤ t.epoch ∧
        ExactlyOne (s.epoch = t.epoch) (t.Settleable s.epoch) (t.Forgotten s.epoch) ∧
        ∀ slot i, ForfeitCall i o →
          (process slot i l = .error (.fault .stillSettleable) ↔ ¬t.Forgotten s.epoch)) ∧
      ∀ slot i session, Request.decode i.data = some .forfeit → process slot i l = .ok session →
        ∃ o s t, i.accounts[2]?.map Access.address = some (.seat o) ∧
          session.ledger.load .seat (.seat o) = .ok s ∧
          session.ledger.load .table .table = .ok t ∧ s.hasRiding = false ∧ s.epoch = t.epoch := by
  refine ⟨fun o s hs hr => ?_, fun slot i session hdecode hgranted => ?_⟩
  · rcases h.inStep fun _ _ ho => ho with hshut | ⟨current, t, rolls, hu⟩
    · exact absurd hs (hshut.seats o s)
    obtain ⟨howner, hle⟩ := hu.seats o s hs
    subst howner
    refine ⟨t, hu.table, hle, hu.follows.exactlyOne hle, fun slot i hi => ?_⟩
    rw [forfeit_call hi hu.table hs, hu.follows.forgotten_iff, ← Table.isBeyondLog_iff]
    simp only [hr, true_and]
  · have hsound : l.SeatsSound := (h.reserved fun _ _ ho => ho).sound
    obtain ⟨request, hrequest, hserve⟩ := process_serve hgranted
    cases hdecode.symm.trans hrequest
    obtain ⟨g⟩ := Operation.forfeit_ok hserve
    obtain ⟨-, hclear, -⟩ := seat_of_forfeiture hsound g
    refine ⟨g.seat.owner, _, g.booked, ?_, g.seat_after, g.table_after, hclear, rfl⟩
    rw [← Access.address_unify]
    exact g.seat_listed

/-- While the table is 64 rolls ahead, the seat can be settled, and to clear it is too early. One
roll later it can only be cleared, and is then level with the table. -/
theorem settle_or_clear_longAbsence :
    Reachable Authentic Ledger.Outside (longAbsence.ledger 133) ∧
      Reachable Authentic Ledger.Outside (longAbsence.ledger 135) ∧
      (∃ t, (longAbsence.ledger 133).load .table .table = .ok t ∧ t.epoch = 64 ∧
        t.Settleable 0 ∧ process 12000 (Client.forfeit .admin .admin) (longAbsence.ledger 133)
          = .error (.fault .stillSettleable)) ∧
      (∃ t, (longAbsence.ledger 135).load .table .table = .ok t ∧ t.epoch = 65 ∧
        t.Forgotten 0) ∧
      ∃ session s,
        process 12000 (Client.forfeit .admin .admin) (longAbsence.ledger 135) = .ok session ∧
        session.ledger.load .seat (.seat .admin) = .ok s ∧ s.hasRiding = false ∧
        s.epoch = 65 := by
  obtain ⟨hseats, hlines, -, hcleared⟩ := longAbsence_moments
  have hmoment : ∀ k epoch, 0 < epoch →
      ((longAbsence.ledger k).load .seat (.seat .admin)).toOption.map
        (fun s => (s.epoch, s.hasRiding)) = some (0, true) →
      (longAbsence.ledger k).line?.map Line.epoch = some epoch →
      ∃ t, (longAbsence.ledger k).load .table .table = .ok t ∧ t.epoch = epoch ∧
        (t.Settleable 0 ∨ t.Forgotten 0) ∧
        (process 12000 (Client.forfeit .admin .admin) (longAbsence.ledger k)
          = .error (.fault .stillSettleable) ↔ ¬t.Forgotten 0) := by
    intro k epoch hpos hseat hline
    obtain ⟨s, hs, hpair⟩ := exists_of_toOption_map hseat
    obtain ⟨hzero, hriding⟩ := Prod.mk.inj hpair
    obtain ⟨t, ht, -, hone, hrefused⟩ :=
      (settle_or_clear (longAbsence.reachable k)).1 .admin s hs hriding
    rw [Ledger.line?_of_load ht] at hline
    obtain rfl : t.epoch = epoch := Option.some.inj hline
    rw [hzero] at hone hrefused
    refine ⟨t, ht, rfl, ?_, hrefused 12000 _ (forfeitCall_client .admin .admin)⟩
    rcases hone with ⟨hlevel, -⟩ | ⟨-, hsettle, -⟩ | ⟨-, -, hforgot⟩
    · exact absurd hlevel hpos.ne
    · exact .inl hsettle
    · exact .inr hforgot
  obtain ⟨hseat, hrest⟩ := List.cons.inj hseats
  obtain ⟨hline, hrest'⟩ := List.cons.inj hlines
  obtain ⟨t, ht, hepoch, hway, hrefused⟩ := hmoment 133 64 (by decide) hseat hline
  obtain ⟨t', ht', hepoch', hway', hrefused'⟩ :=
    hmoment 135 65 (by decide) (List.cons.inj hrest).1 (List.cons.inj hrest').1
  obtain ⟨session, hgranted, hline'⟩ := exists_of_toOption_map hcleared
  have hkeep : ¬t.Forgotten 0 := by
    rintro ⟨hfar, -⟩
    rw [Table.isBeyondLog_iff, hepoch] at hfar
    exact absurd hfar (by decide)
  have hforgot : t'.Forgotten 0 := by
    by_contra hkeep'
    cases hgranted.symm.trans (hrefused'.mpr hkeep')
  obtain ⟨o, s, after, howner, hs, hafter, hclear, hlevel⟩ :=
    (settle_or_clear (longAbsence.reachable 135)).2 12000 _ session rfl hgranted
  cases howner
  rw [Ledger.line?_of_load hafter] at hline'
  exact ⟨longAbsence.reachable 133, longAbsence.reachable 135,
    ⟨t, ht, hepoch, hway.resolve_right hkeep, hrefused.mpr hkeep⟩, ⟨t', ht', hepoch', hforgot⟩,
    session, s, hgranted, hs, hclear, hlevel.trans (Option.some.inj hline')⟩

end House

end DiceHouse
