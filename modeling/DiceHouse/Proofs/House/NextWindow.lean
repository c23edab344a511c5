import DiceHouse.Proofs.House.Treasury

/-!
# Slots for the next window

A draw opens the next window: after a pause, for the duration in the settings; and the round can be
claimed for some time after that. Three sums tell when all this is, and a draw for which one of them
is no amount is refused. Settings with any duration but zero may be in force, so it is the draws
that find out whether there are such slots. As long as the clock is in the lower half of the
amounts, none is refused for a duration that makes at most that half together with the pause and the
time to claim. A longer one can stop the board: no draw is granted before the settings are others.
-/

namespace DiceHouse

theorem Amount.overflow_add (m n : Nat) : RefusedOnly (· = .overflow) (add m n) := by
  intro fault h
  rcases Nat.lt_or_ge (m + n) limit with hlt | hle
  · cases (add_of_lt hlt).symm.trans h
  · cases (add_of_le hle).symm.trans h
    rfl

namespace Board

variable {b : Board} {slot duration : Nat}

/-- The board with the next window, and the last slot at which its round can be claimed. -/
def nextWindow (b : Board) (slot duration : Nat) : Except Fault (Board × Nat) := do
  let advanced ← b.advance slot duration
  let expiresAt ← Amount.add advanced.finish claimPeriod
  return (advanced, expiresAt)

/-- There are slots for the next window, and to claim its round afterwards. -/
def HasSlots (slot duration : Nat) : Prop :=
  slot + intermission + duration + claimPeriod < Amount.limit

theorem nextWindow_ok_iff (hround : b.round + 1 < Amount.limit) :
    (∃ next, b.nextWindow slot duration = .ok next) ↔ HasSlots slot duration := by
  unfold nextWindow advance HasSlots
  simp only [bind_eq_ok_iff, Amount.add_eq_ok_iff, pure_eq_ok_iff]
  constructor
  · rintro ⟨_, _, ⟨_, -, _, ⟨-, rfl⟩, _, ⟨-, rfl⟩, rfl⟩, _, ⟨hexpires, -⟩, -⟩
    exact hexpires
  · intro hslots
    exact ⟨_, _, ⟨_, ⟨hround, rfl⟩, _, ⟨by omega, rfl⟩, _, ⟨by omega, rfl⟩, rfl⟩, _,
      ⟨hslots, rfl⟩, rfl⟩

/-- Throughout the lower half of the amounts there are slots, exactly if the duration makes at most
that half together with the pause and the time to claim. -/
theorem forall_hasSlots_iff :
    (∀ slot < Nat.pow 2 63, HasSlots slot duration)
      ↔ duration + intermission + claimPeriod ≤ Nat.pow 2 63 := by
  have hhalves : Amount.limit = Nat.pow 2 63 + Nat.pow 2 63 := by decide
  have hpos : 0 < Nat.pow 2 63 := by decide
  unfold HasSlots
  constructor
  · intro hall
    have hlast := hall (Nat.pow 2 63 - 1) (by omega)
    omega
  · intro hle slot hslot
    omega

theorem overflow_advance : RefusedOnly (· = .overflow) (b.advance slot duration) :=
  (Amount.overflow_add _ _).bind fun _ => (Amount.overflow_add _ _).bind fun _ =>
    (Amount.overflow_add _ _).bind fun _ => refusedOnly_pure _

theorem overflow_nextWindow : RefusedOnly (· = .overflow) (b.nextWindow slot duration) :=
  overflow_advance.bind fun _ => (Amount.overflow_add _ _).bind fun _ => refusedOnly_pure _

end Board

/-! ## The draw that opens it -/

/-- Amounts, tokens or lamports are too few or too many. -/
def Refusal.Tight (e : Refusal) : Prop := e.Short ∨ e = .fault .overflow

open Refusal (Short Tight)

theorem RefusedOnly.tight {α : Type} {x : Except Refusal α} (h : RefusedOnly Short x) :
    RefusedOnly Tight x :=
  h.mono fun _ => .inl

theorem tight_liftM {α : Type} {x : Except Fault α} (h : RefusedOnly (· = .overflow) x) :
    RefusedOnly Tight (liftM x : Except Refusal α) := by
  intro e he
  obtain ⟨fault, hfault, rfl⟩ := liftM_eq_error_iff.mp he
  exact .inr (congrArg _ (h fault hfault))

namespace House

variable {l m : Ledger} {slot : Nat} {b : Board} {t : Treasury} {config : Settings Address}
  {resolved : Round Address × Split} {signer payer feeCollector : Address}

theorem tight_startNext : RefusedOnly Tight (Deed.startNext slot config b payer l) := by
  unfold Deed.startNext
  exact (tight_liftM Board.overflow_advance).bind fun _ => (short_enter _ _).tight.bind fun _ =>
    (tight_liftM (Amount.overflow_add _ _)).bind fun _ => refusedOnly_pure _

/-- No round is started without slots for it. -/
theorem hasSlots_of_startNext (h : Deed.startNext slot config b payer l = .ok m) :
    Board.HasSlots slot config.roundDuration := by
  unfold Deed.startNext Board.advance at h
  simp only [bind_eq_ok_iff, liftM_eq_ok_iff, Amount.add_eq_ok_iff, pure_eq_ok_iff] at h
  obtain ⟨_, ⟨_, -, _, ⟨-, rfl⟩, _, ⟨-, rfl⟩, rfl⟩, _, -, _, ⟨hexpires, -⟩, -⟩ := h
  exact hexpires

theorem tight_resolve (hdue : l.Due slot b config resolved)
    (ht : l.load .treasury .treasury = .ok t)
    (hready : (Client.Order.resolve signer b.round feeCollector).Ready l) :
    RefusedOnly Tight (Deed.resolve slot signer b.round feeCollector l) := by
  by_cases hroom : t.HasRoom resolved.2
  · rw [resolve_of_due hdue ht, Treasury.record_of_hasRoom hroom, liftM_ok, ok_bind]
    exact (short_split hready _ _ _).tight.bind fun _ =>
      (tight_liftM (Amount.overflow_add _ _)).bind fun _ => tight_startNext
  · rw [resolve_of_not_hasRoom hdue ht hroom]
    rintro e ⟨⟩
    exact .inr rfl

/-- No round that is due is drawn without slots for the next. -/
theorem hasSlots_of_resolve (hdue : l.Due slot b config resolved)
    (ht : l.load .treasury .treasury = .ok t)
    (h : Deed.resolve slot signer b.round feeCollector l = .ok m) :
    Board.HasSlots slot config.roundDuration := by
  rw [resolve_of_due hdue ht] at h
  simp only [bind_eq_ok_iff] at h
  obtain ⟨_, -, _, -, _, -, hstarted⟩ := h
  exact hasSlots_of_startNext hstarted

/-- Which durations can freeze the board. Whatever the board and the duration are, as long as the
number of the round can grow, the next window and the time to claim its round are told exactly if
there are slots for them, and what else is refused is refused as an overflow. At every slot in the
lower half of the amounts there are, exactly if the duration, the pause and the time to claim make
no more than the half. And in every run, where a round is due: if the totals have room for its draw
and there are slots, nothing but a want of tokens or lamports refuses a request to resolve on whose
accounts nothing is wrong; if there are no slots, every such request is refused, as an overflow
unless tokens or lamports are what it lacks first. -/
theorem next_window_fits (run : Run Authentic Ledger.Outside) (k : Nat) :
    (∀ (b : Board) (duration : Nat), b.round + 1 < Amount.limit →
      (∀ slot, ((∃ next, b.nextWindow slot duration = .ok next) ↔ Board.HasSlots slot duration) ∧
        RefusedOnly (· = .overflow) (b.nextWindow slot duration)) ∧
      ((∀ slot < Nat.pow 2 63, ∃ next, b.nextWindow slot duration = .ok next)
        ↔ duration + Board.intermission + Board.claimPeriod ≤ Nat.pow 2 63)) ∧
    ∀ slot b config resolved t, (run.ledger k).Due slot b config resolved →
      (run.ledger k).load .treasury .treasury = .ok t →
      ∀ signer feeCollector i, Client.resolve signer b.round feeCollector = some i →
        (Client.Order.resolve signer b.round feeCollector).Ready (run.ledger k) →
        (t.HasRoom resolved.2 → Board.HasSlots slot config.roundDuration →
          RefusedOnly Short (process slot i (run.ledger k))) ∧
        (¬Board.HasSlots slot config.roundDuration →
          ∃ e, process slot i (run.ledger k) = .error e ∧ (e.Short ∨ e = .fault .overflow)) := by
  constructor
  · intro b duration hround
    refine ⟨fun slot => ⟨Board.nextWindow_ok_iff hround, Board.overflow_nextWindow⟩, ?_⟩
    simp only [Board.nextWindow_ok_iff hround]
    exact Board.forall_hasSlots_iff
  · intro slot b config resolved t hdue ht signer feeCollector i hi hready
    have hdoes : Does (process slot i (run.ledger k))
        (Deed.resolve slot signer b.round feeCollector (run.ledger k)) :=
      process_does (o := .resolve signer b.round feeCollector) hi trivial hready
    constructor
    · intro hroom hslots e he
      have hround : b.round + 1 < Amount.limit := by
        by_contra hlast
        rw [Client.resolve, if_neg hlast] at hi
        cases hi
      exact short_resolve hdue ht hroom hready (run.board_emptied k b hdue.board) hround hslots e
        (hdoes.error_iff.mp he)
    · intro hnone
      cases hdeed : Deed.resolve slot signer b.round feeCollector (run.ledger k) with
      | ok m => exact absurd (hasSlots_of_resolve hdue ht hdeed) hnone
      | error e => exact ⟨e, hdoes.error_iff.mpr hdeed, tight_resolve hdue ht hready e hdeed⟩

/-- The first round is drawn as soon as its window has closed, but not at the last slot of all. -/
theorem next_window_fits_firstCarry :
    (∃ next, Board.nextWindow ⟨1, 0, 150, 150, 0⟩ 150 150 = .ok next) ∧
      RefusedOnly Short (process 150 resolveFirst (firstCarry.ledger 4)) ∧
      ∃ e, process Amount.greatest resolveFirst (firstCarry.ledger 4) = .error e ∧
        (e.Short ∨ e = .fault .overflow) := by
  obtain ⟨houtcome, hround, hnext, htreasury, hvault, hcollector, hsupply, hruns, -⟩ :=
    firstCarry_due
  obtain ⟨⟨b, config, resolved⟩, houtcome, hfigures⟩ := exists_of_toOption_map houtcome
  simp only [Prod.mk.injEq] at hfigures
  obtain ⟨rfl, hfee, hduration, hsplit⟩ := hfigures
  obtain ⟨r, hr, hid⟩ := exists_of_toOption_map hround
  rw [toOption_eq_some_iff] at htreasury
  have hdue : ∀ slot, 150 ≤ slot →
      (firstCarry.ledger 4).Due slot ⟨1, 0, 150, 150, 0⟩ config resolved :=
    fun slot hclosed => Ledger.due_of_outcome houtcome hclosed
  have hboard := (hdue 150 (Nat.le_refl 150)).board
  have hsettings := (hdue 150 (Nat.le_refl 150)).settings
  have hready : (Client.Order.resolve .admin 1 .admin).Ready (firstCarry.ledger 4) :=
    ⟨⟨_, hboard, rfl⟩, ⟨config, hsettings, hfee⟩, ⟨r, hr, hid⟩, hnext, ⟨_, htreasury, trivial⟩,
      ⟨_, toOption_eq_some_iff.mp hvault, rfl, rfl, by decide, by decide⟩,
      ⟨_, toOption_eq_some_iff.mp hcollector, rfl, rfl, by decide, by decide⟩,
      ⟨_, toOption_eq_some_iff.mp hsupply⟩, hruns⟩
  have hroom : Treasury.blank.HasRoom resolved.2 := by
    rw [hsplit]
    exact ⟨by decide, by decide, by decide⟩
  have hslots : Board.HasSlots 150 150 := by
    unfold Board.HasSlots
    decide
  have hnone : ¬Board.HasSlots Amount.greatest 150 := by
    unfold Board.HasSlots
    decide
  obtain ⟨hwindows, hcalls⟩ := next_window_fits firstCarry 4
  obtain ⟨htold, -⟩ := hwindows ⟨1, 0, 150, 150, 0⟩ 150 (by decide)
  obtain ⟨hshort, -⟩ := hcalls 150 _ config resolved _ (hdue 150 (Nat.le_refl 150)) htreasury
    .admin .admin resolveFirst rfl hready
  obtain ⟨-, hrefused⟩ := hcalls Amount.greatest _ config resolved _
    (hdue Amount.greatest (by decide)) htreasury .admin .admin resolveFirst rfl hready
  rw [hduration] at hshort hrefused
  exact ⟨(htold 150).1.mpr hslots, hshort hroom hslots, hrefused hnone⟩

end House

/-! ## A duration without end -/

namespace Settings

/-- The longest duration that a number can tell. -/
def endless : Settings Nat := { Settings.initial 0 with roundDuration := Amount.greatest }

/-- Settings may be in force under which no window opens after the first. -/
theorem not_always_next_window :
    ¬∀ new settings : Settings Nat, new.validate = .ok settings →
      ∀ b : Board, b.round + 1 < Amount.limit → ∀ slot < Nat.pow 2 63,
        ∃ next, b.nextWindow slot settings.roundDuration = .ok next := by
  intro hall
  have haccepted : endless.validate = .ok endless := eq_ok_of_toOption (by decide)
  have hround : (⟨1, 0, 150, 150, 0⟩ : Board).round + 1 < Amount.limit := by decide
  have hslots : Board.HasSlots 151 Amount.greatest := (Board.nextWindow_ok_iff hround).mp
    (hall endless endless haccepted ⟨1, 0, 150, 150, 0⟩ hround 151 (by decide))
  unfold Board.HasSlots at hslots
  exact absurd hslots (by decide)

end Settings

end DiceHouse
