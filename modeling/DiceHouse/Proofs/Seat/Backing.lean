import DiceHouse.Proofs.Seat.Course

/-!
# Odds and the bets behind which they stand

Odds are checked against their parent when they are placed, and never again. `Seat.Backed` says that
the check goes on holding: odds ride only behind a parent that rides, within three times its stake,
and those behind the line only with a point up. A placement keeps it, since a parent only grows. A
roll keeps it, since a roll that leaves odds open leaves their parent open too, as it was; and a
wager that travels never goes to the number of odds that are left, which is not the one rolled.
-/

namespace DiceHouse

namespace Spot

variable {odds parent : Spot} {view : RollView}

theorem ne_of_parent? (h : odds.parent? = some parent) : odds ≠ parent := by
  rintro rfl
  unfold parent? at h
  split at h <;> simp at h

/-- No wager travels to where odds stand. -/
theorem landing_ne_of_parent? (h : odds.parent? = some parent) (box : Spot) (n : Nat) :
    box.landing n ≠ odds := by
  rintro rfl
  unfold landing at h
  split at h <;> cases h

/-- The number that decides an odds bet, with the seven. -/
def oddsOn (phase : Phase) : Spot → Option Nat
  | passOdds | dontPassOdds =>
    match phase with
    | .comeOut => none
    | .point p => some p
  | comeOdds n | dontComeOdds n => some n
  | _ => none

/-- A roll leaves odds open that is neither their number nor the seven. -/
theorem oddsOn_of_carry (h : odds.parent? = some parent) (hv : odds.verdict view = .ok .carry) :
    ∃ n, odds.oddsOn view.phase = some n ∧ view.sum ≠ n ∧ view.sum ≠ 7 := by
  cases odds with
  | passOdds | dontPassOdds =>
    cases hp : view.phase with
    | comeOut => simp [verdict, hp] at hv
    | point p =>
      simp only [verdict, hp] at hv
      repeat' split at hv
      all_goals
        simp only [map_eq_ok_iff, Except.ok.injEq, reduceCtorEq, and_false, exists_false] at hv
      exact ⟨p, rfl, ‹_›, ‹_›⟩
  | comeOdds n | dontComeOdds n =>
    simp only [verdict] at hv
    repeat' split at hv
    all_goals
      simp only [map_eq_ok_iff, Except.ok.injEq, reduceCtorEq, and_false, exists_false] at hv
    exact ⟨n, rfl, ‹_›, ‹_›⟩
  | _ => cases h

variable {n : Nat}

/-- What leaves odds open leaves the bet open behind which they stand. -/
theorem verdict_parent (h : odds.parent? = some parent) (hon : odds.oddsOn view.phase = some n)
    (hn : view.sum ≠ n) (hseven : view.sum ≠ 7) : parent.verdict view = .ok .carry := by
  cases odds with
  | passOdds | dontPassOdds =>
    cases h
    cases hp : view.phase with
    | comeOut =>
      rw [hp] at hon
      cases hon
    | point p =>
      rw [hp] at hon
      cases hon
      simp [verdict, hp, hn, hseven]
  | comeOdds m | dontComeOdds m =>
    cases h
    cases hon
    simp [verdict, hn, hseven]
  | _ => cases h

/-- A wager travels to the number that was rolled, so not to where odds are left open. -/
theorem landing_ne_parent (h : odds.parent? = some parent) (hon : odds.oddsOn view.phase = some n)
    (hn : view.sum ≠ n) {box : Spot} {m : Nat} (hbox : box.verdict view = .ok (.travel m)) :
    box.landing m ≠ parent := by
  have hm : m = view.sum := by
    rcases verdict_travel hbox with rfl | rfl
    all_goals
      simp only [verdict] at hbox
      repeat' split at hbox
      all_goals cases hbox
    all_goals rfl
  rintro rfl
  unfold landing at h
  cases odds with
  | comeOdds k | dontComeOdds k =>
    cases hon
    split at h <;> cases h
    exact hn hm.symm
  | passOdds | dontPassOdds => split at h <;> cases h
  | _ => cases h

/-- Odds on the line that a roll leaves open leave the point up. -/
theorem point_of_oddsOn (h : odds ∈ [passOdds, dontPassOdds])
    (hon : odds.oddsOn view.phase = some n) (hn : view.sum ≠ n) (hseven : view.sum ≠ 7) :
    (view.phase.step view.sum).1 = .point n := by
  have hphase : view.phase = .point n := by
    cases hp : view.phase with
    | comeOut =>
      rw [hp] at hon
      rcases List.mem_pair.mp h with rfl | rfl <;> cases hon
    | point p =>
      rw [hp] at hon
      rcases List.mem_pair.mp h with rfl | rfl <;> cases hon <;> rfl
  rw [hphase]
  exact Phase.step_on_point hn hseven

/-- With a point up, a roll decides odds on the line or leaves them open. -/
theorem verdict_ne_push {p : Nat} (h : odds ∈ [passOdds, dontPassOdds])
    (hp : view.phase = .point p) : odds.verdict view ≠ .ok .push := by
  intro hpush
  rcases List.mem_pair.mp h with rfl | rfl
  all_goals
    simp only [verdict, hp] at hpush
    repeat' split at hpush
    all_goals
      simp only [map_eq_ok_iff, Except.ok.injEq, reduceCtorEq, and_false, exists_false] at hpush

end Spot

namespace Seat

variable {κ : Type} {s t : Seat κ} {spot : Spot} {amount : Nat} {phase : Phase}

/-- Odds ride only behind a parent that rides, within a multiple of its stake; and behind the line
only with a point up. -/
structure Backed (s : Seat κ) (phase : Phase) : Prop where
  covered : ∀ odds parent, odds.parent? = some parent → (s.bet odds).rides = true →
    (s.bet parent).rides = true ∧
      (s.bet odds).amount ≤ (s.bet parent).amount * maxOddsMultiple
  up : ∀ odds ∈ [Spot.passOdds, .dontPassOdds], (s.bet odds).rides = true → ∃ p, phase = .point p

/-- Where no odds ride, all of them are backed. -/
theorem backed_of_idle (h : ∀ spot, (s.bet spot).rides = false) : s.Backed phase := by
  constructor
  · intro odds parent _ hr
    rw [h odds] at hr
    cases hr
  · intro odds _ hr
    rw [h odds] at hr
    cases hr

theorem Backed.congr (h : s.Backed phase) (hw : t.wagers = s.wagers) : t.Backed phase := by
  constructor
  · intro odds parent hp hr
    rw [bet_congr hw] at hr ⊢
    rw [bet_congr hw]
    exact h.covered odds parent hp hr
  · intro odds hmem hr
    rw [bet_congr hw] at hr
    exact h.up odds hmem hr

/-- Odds that are placed were checked, and a parent on which stake is put only grows. -/
theorem Backed.place (h : s.Backed phase) (hstaked : s.Staked spot amount phase t) :
    t.Backed phase := by
  constructor
  · intro odds parent hp hr
    by_cases hodds : odds = spot
    · subst hodds
      obtain ⟨hrides, hle⟩ := hstaked.parent parent hp
      rw [hstaked.others parent (Spot.ne_of_parent? hp).symm, hstaked.amount]
      exact ⟨hrides, hle⟩
    · rw [hstaked.others odds hodds] at hr ⊢
      obtain ⟨hrides, hle⟩ := h.covered odds parent hp hr
      by_cases hparent : parent = spot
      · subst hparent
        refine ⟨hstaked.rides, hle.trans (Nat.mul_le_mul_right _ ?_)⟩
        rw [hstaked.amount, Wager.atRisk_of_rides hrides]
        exact Nat.le_add_right _ _
      · rw [hstaked.others parent hparent]
        exact ⟨hrides, hle⟩
  · intro odds hmem hr
    by_cases hodds : odds = spot
    · subst hodds
      have hopens := hstaked.opens
      cases phase with
      | comeOut => rcases List.mem_pair.mp hmem with rfl | rfl <;> cases hopens
      | point p => exact ⟨p, rfl⟩
    · rw [hstaked.others odds hodds] at hr
      exact h.up odds hmem hr

/-- A roll that leaves odds open leaves what backs them. -/
theorem Backed.settle {roll : Roll} {fieldTriple : Bool} {tally : Tally} (h : s.Backed phase)
    (hs : s.Sound) (hsettle : s.settle phase roll fieldTriple = .ok (t, tally)) :
    t.Backed (phase.step roll.sum).1 := by
  obtain ⟨view, hseen, hruled⟩ := settle_ruled hs hsettle
  obtain ⟨hphase, hroll, -⟩ := seen_ok hseen
  subst hphase hroll
  constructor
  · intro odds parent hp hr
    obtain ⟨hrides, hverdict, hbet⟩ :=
      hruled.left_open (fun box n _ => Spot.landing_ne_of_parent? hp box n) hr
    obtain ⟨n, hon, hn, hseven⟩ := Spot.oddsOn_of_carry hp hverdict
    obtain ⟨hparent, hle⟩ := h.covered odds parent hp hrides
    have hcarry : s.ruling view parent = .carry :=
      ruling_of_verdict hparent (Spot.verdict_parent hp hon hn hseven)
    have hstays := hruled.stays parent fun box m hm =>
      Spot.landing_ne_parent hp hon hn (travel_of_ruling hm).2
    rw [hcarry] at hstays
    rw [hstays, hbet]
    refine ⟨(Wager.rides_carry _).trans hparent, ?_⟩
    rw [Wager.amount_carry]
    exact hle.trans (Nat.mul_le_mul_right _ (Wager.amount_carry _).ge)
  · intro odds hmem hr
    obtain ⟨parent, hp⟩ : ∃ parent, odds.parent? = some parent := by
      rcases List.mem_pair.mp hmem with rfl | rfl <;> exact ⟨_, rfl⟩
    obtain ⟨hrides, hverdict, -⟩ :=
      hruled.left_open (fun box n _ => Spot.landing_ne_of_parent? hp box n) hr
    obtain ⟨n, hon, hn, hseven⟩ := Spot.oddsOn_of_carry hp hverdict
    exact ⟨n, Spot.point_of_oddsOn hmem hon hn hseven⟩

theorem Course.backed {rolls : List Roll} (h : Course phase s rolls t) (hs : s.Sound)
    (hstart : s.Backed phase) : t.Backed (phase.along rolls) := by
  induction h with
  | start => exact hstart
  | aside _ hwagers _ ih => exact ih.congr hwagers
  | place hcourse hplace ih => exact ih.place (place_staked (hcourse.sound hs) hplace)
  | settle hcourse hsettle ih =>
    rw [Phase.along_concat]
    exact ih.settle (hcourse.sound hs) hsettle
  | pass roll hcourse hidle ih => exact backed_of_idle (bet_of_not_hasRiding hidle)

/-- At a seat that was blank once, odds never outlive or outgrow the bet behind which they stand, and
odds on the line ride only with a point up, so that no roll returns them. -/
theorem odds_stay_backed {owner : κ} {rolls : List Roll} (h : Course phase (blank owner) rolls s) :
    (∀ odds parent, odds.parent? = some parent → (s.bet odds).rides = true →
      (s.bet parent).rides = true ∧ (s.bet odds).amount ≤ 3 * (s.bet parent).amount) ∧
    ∀ odds ∈ [Spot.passOdds, .dontPassOdds],
      ((s.bet odds).rides = true → ∃ p, phase.along rolls = .point p) ∧
      ∀ roll fieldTriple view, s.seen (phase.along rolls) roll fieldTriple = .ok view →
        s.ruling view odds ≠ .push := by
  have hidle : ∀ spot, ((blank owner).bet spot).rides = false := by
    intro spot
    rw [bet_blank]
    rfl
  have hbacked := h.backed (sound_blank owner) (backed_of_idle hidle)
  refine ⟨fun odds parent hp hr => ?_, fun odds hmem => ⟨hbacked.up odds hmem, ?_⟩⟩
  · obtain ⟨hparent, hle⟩ := hbacked.covered odds parent hp hr
    rw [Nat.mul_comm]
    exact ⟨hparent, hle⟩
  · intro roll fieldTriple view hseen
    obtain ⟨hphase, -⟩ := seen_ok hseen
    intro hpush
    obtain ⟨hrides, hverdict⟩ := verdict_of_ruling hpush (by simp)
    obtain ⟨p, hp⟩ := hbacked.up odds hmem hrides
    exact Spot.verdict_ne_push hmem (hphase.trans hp) hverdict

/-- A come bet on the five is paid with its odds by the roll that sends a smaller one there, and new
odds go behind that. -/
theorem odds_stay_backed_smallerCome :
    ∃ s : Seat Unit, Course .comeOut (blank ()) [.ofSquare 2, .ofSquare 3, .ofSquare 3] s ∧
      (s.bet (.comeOdds 5)).rides = true ∧ (s.bet (.come 5)).rides = true ∧
      (s.bet (.comeOdds 5)).amount ≤ 3 * (s.bet (.come 5)).amount := by
  have heval : (((blank ()).place .passLine 10 .comeOut >>= fun a =>
      a.1.settle .comeOut (.ofSquare 2) false >>= fun b =>
      b.1.place .comeBox 100 (.point 4) >>= fun c =>
      c.1.settle (.point 4) (.ofSquare 3) false >>= fun d =>
      d.1.place (.comeOdds 5) 300 (.point 4) >>= fun e =>
      e.1.place .comeBox 20 (.point 4) >>= fun f =>
      f.1.settle (.point 4) (.ofSquare 3) false >>= fun g =>
      g.1.place (.comeOdds 5) 60 (.point 4)).toOption.map
        (fun r => (r.1.bet (.comeOdds 5)).rides)) = some true := by
    decide +kernel
  obtain ⟨s, hrun, hrides⟩ := Option.map_eq_some_iff.mp heval
  have hrun := eq_ok_of_toOption hrun
  simp only [bind_eq_ok_iff] at hrun
  obtain ⟨a, ha, b, hb, c, hc, d, hd, e, he, f, hf, g, hg, hs⟩ := hrun
  have hcourse : Course .comeOut (blank ()) [.ofSquare 2, .ofSquare 3, .ofSquare 3] s.1 :=
    .place (.settle (.place (.place (.settle (.place (.settle (.place .start ha) hb) hc) hd) he) hf)
      hg) hs
  obtain ⟨hbacked, -⟩ := odds_stay_backed hcourse
  obtain ⟨hparent, hle⟩ := hbacked (.comeOdds 5) (.come 5) rfl hrides
  exact ⟨s.1, hcourse, hrides, hparent, hle⟩

end Seat

end DiceHouse
