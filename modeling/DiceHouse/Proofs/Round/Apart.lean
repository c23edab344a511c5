import DiceHouse.Proofs.Round.Dust
import DiceHouse.Proofs.Round.Requests

/-!
# A stake under two names

A player may be tempted to put a stake on a square under two names instead of one. It never pays.
The round that both leave differs in its count of tickets only, and no payout looks at that; so the
others get what they would have got anyway. The two tickets cut the one ticket's interval, so the
jackpot goes to either of them exactly if it goes to the one. And a weight is rounded down, and a
share of it is rounded down again: both lose more in two parts than in one.

`Round.Recounted` and `Pool.Beside` relate the two rounds and their pools while the others stake on;
`Ticket.Cut` relates the three tickets.
-/

namespace DiceHouse

/-! ## Rounds that differ in their counts of tickets -/

namespace Round

variable {κ ν : Type} {r r' : Round κ} {t : Ticket κ} {s : Square}
  {square amount prediction : Nat}

/-- The same round but for the numbers of tickets. -/
def Recounted (r r' : Round κ) : Prop := ∃ tickets, r' = { r with tickets }

theorem Recounted.refl (r : Round κ) : Recounted r r := ⟨r.tickets, rfl⟩

theorem Recounted.winner (h : Recounted r r') : r'.winner = r.winner := by
  obtain ⟨tickets, rfl⟩ := h
  rfl

/-- Room is a matter of stakes. -/
theorem Recounted.hasRoom_iff (h : Recounted r r') :
    r'.HasRoom t s amount prediction ↔ r.HasRoom t s amount prediction := by
  obtain ⟨tickets, rfl⟩ := h
  exact Iff.rfl

theorem Recounted.put (h : Recounted r r') (s : Square) (amount prediction : Nat) :
    Recounted (r.put s amount prediction) (r'.put s amount prediction) := by
  obtain ⟨tickets, rfl⟩ := h
  exact ⟨_, rfl⟩

/-- The count of tickets has no part in a resolution. -/
theorem resolve_recounted (r : Round κ) (tickets : Vector Nat squareCount) (seed : Bytes32)
    (settings : Settings ν) :
    resolve { r with tickets } seed settings =
      (fun resolved => ({ resolved.1 with tickets }, resolved.2)) <$> r.resolve seed settings := by
  unfold resolve
  simp only [map_bind]
  refine bind_congr fun _ => bind_congr fun square => bind_congr fun losing =>
    bind_congr fun pool => ?_
  split
  · rfl
  · simp only [map_bind]
    rfl

theorem Recounted.resolve {seed : Bytes32} {settings : Settings ν} {split : Split}
    {round : Round κ} (h : Recounted r r')
    (hresolve : r.resolve seed settings = .ok (round, split)) :
    r'.resolve seed settings = .ok ({ round with tickets := r'.tickets }, split) := by
  obtain ⟨tickets, rfl⟩ := h
  rw [resolve_recounted, hresolve]
  rfl

/-- Two stakes of one prediction on a square make one. -/
theorem recounted_put_put (r : Round κ) (s : Square) (a b prediction : Nat) :
    Recounted (r.put s (a + b) prediction) ((r.put s a prediction).put s b prediction) := by
  refine ⟨((r.put s a prediction).put s b prediction).tickets, ?_⟩
  unfold Round.put
  simp only [get_set, if_true, Vector.set_set, Nat.add_assoc]
  split <;> rfl

/-- Where there is room for the whole there is room for the first part, -/
theorem HasRoom.first {first : Ticket κ} {a b : Nat} (h : r.HasRoom t s (a + b) prediction)
    (htotal : first.total = t.total) : r.HasRoom first s a prediction := by
  obtain ⟨hsquare, hall, hright, hticket⟩ := h
  refine ⟨by omega, by omega, ?_, by omega⟩
  by_cases hforetold : prediction = (Roll.ofSquare s).sum
  · rw [if_pos hforetold] at hright ⊢
    omega
  · rw [if_neg hforetold] at hright ⊢
    exact hright

/-- and then for the second. -/
theorem HasRoom.second {second : Ticket κ} {a b : Nat} (h : r.HasRoom t s (a + b) prediction)
    (htotal : second.total = t.total) : (r.put s a prediction).HasRoom second s b prediction := by
  obtain ⟨hsquare, hall, hright, hticket⟩ := h
  unfold HasRoom Round.put
  dsimp only
  rw [get_set, if_pos rfl, get_set, if_pos rfl]
  refine ⟨by omega, by omega, ?_, by omega⟩
  by_cases hforetold : prediction = (Roll.ofSquare s).sum
  · rw [if_pos hforetold] at hright
    rw [if_pos hforetold, if_pos hforetold]
    omega
  · rw [if_neg hforetold] at hright
    rw [if_neg hforetold, if_neg hforetold]
    exact hright

end Round

/-! ## Tickets that cut a ticket -/

namespace Ticket

variable {ν : Type} {whole first second : Ticket ν} {square : Square}

/-- Two tickets that hold on a square what one holds there, the second above the first. -/
structure Cut (square : Square) (whole first second : Ticket ν) : Prop where
  staked : first.staked.get square + second.staked.get square = whole.staked.get square
  first_prediction : first.prediction = whole.prediction
  second_prediction : second.prediction = whole.prediction
  first_before : first.before.get square = whole.before.get square
  second_before : second.before.get square = first.before.get square + first.staked.get square

/-- A ticket on which nothing was staked yet. -/
structure Unused (t : Ticket ν) : Prop where
  staked : t.staked = Vector.replicate squareCount 0
  before : t.before = Vector.replicate squareCount 0
  total : t.total = 0
  prediction : t.prediction = 0

/-- Unused tickets say the same, however much is asked for. -/
theorem Unused.answer_eq (hfirst : first.Unused) (hsecond : second.Unused) {a b number : Nat}
    (ha : 0 < a) (hb : 0 < b) (prediction : Nat) :
    second.answer number b prediction = first.answer number a prediction := by
  rw [answer_of_pos ha, answer_of_pos hb]
  exact answer_congr (hsecond.staked.trans hfirst.staked.symm)
    (hsecond.total.trans hfirst.total.symm) (hsecond.prediction.trans hfirst.prediction.symm) _ _ _

/-- Nothing is cut into nothing and nothing. -/
theorem Unused.cut (hwhole : whole.Unused) (hfirst : first.Unused) (hsecond : second.Unused)
    (square : Square) : Cut square whole first second := by
  constructor
  case staked => simp [hwhole.staked, hfirst.staked, hsecond.staked]
  case first_prediction => exact hfirst.prediction.trans hwhole.prediction.symm
  case second_prediction => exact hsecond.prediction.trans hwhole.prediction.symm
  case first_before => rw [hfirst.before, hwhole.before]
  case second_before => simp [hfirst.before, hfirst.staked, hsecond.before]

/-- What two stakes one above the other hold is what one of both held. -/
theorem cut_put (square : Square) (a b before prediction : Nat) :
    Cut square (whole.put square (a + b) before prediction)
      (first.put square a before prediction) (second.put square b (before + a) prediction) := by
  constructor
  case staked => simp [put, get_set]
  case first_prediction => rfl
  case second_prediction => rfl
  case first_before => simp [put, get_set]
  case second_before => simp [put, get_set]

end Ticket

namespace Round

variable {κ ν : Type} {r : Round κ} {square : Square} {whole first second : Ticket ν}

/-- Rounding down once loses no more than rounding down twice. -/
theorem weight_add_le (r : Round κ) (isRight : Bool) (a b : Nat) :
    r.weight isRight a + r.weight isRight b ≤ r.weight isRight (a + b) := by
  unfold weight
  cases isRight with
  | false => exact Nat.le_refl _
  | true =>
    rw [if_pos rfl, if_pos rfl, if_pos rfl, Nat.add_mul]
    exact Nat.div_add_div_le_add_div

/-- The two get what the one does, but that the rounding may cost them some of the share. -/
theorem due_cut (hcut : Ticket.Cut square whole first second) :
    (r.due square first).stake + (r.due square second).stake = (r.due square whole).stake ∧
      (r.due square first).share + (r.due square second).share ≤ (r.due square whole).share ∧
      (r.due square first).jackpot + (r.due square second).jackpot
        = (r.due square whole).jackpot := by
  obtain ⟨hstaked, hfirst, hsecond, hbefore, habove⟩ := hcut
  unfold due
  dsimp only
  rw [hfirst, hsecond]
  refine ⟨hstaked, ?_, ?_⟩
  · rw [← hstaked]
    refine Nat.div_add_div_le_add_div.trans (Nat.div_le_div_right ?_)
    rw [← Nat.mul_add]
    exact Nat.mul_le_mul_left _ (r.weight_add_le _ _ _)
  · -- the unit lies in the interval below the cut, or in the one above it, or in neither
    split_ifs <;> unfold Ticket.covers at * <;> omega

/-- Told of what the three get, whether or not the square had any stake. -/
theorem payout_cut {paid paid₁ paid₂ : Payout} (hcut : Ticket.Cut square whole first second)
    (hwinner : r.winner = some square.val) (hwhole : r.payout whole = .ok paid)
    (hfirst : r.payout first = .ok paid₁) (hsecond : r.payout second = .ok paid₂) :
    paid₁.stake + paid₂.stake = paid.stake ∧ paid₁.share + paid₂.share ≤ paid.share ∧
      paid₁.jackpot + paid₂.jackpot = paid.jackpot := by
  by_cases hstaked : r.staked.get square = 0
  · rw [payout_empty hwinner hstaked hwhole, payout_empty hwinner hstaked hfirst,
      payout_empty hwinner hstaked hsecond]
    exact ⟨rfl, Nat.le_refl _, rfl⟩
  · rw [payout_ok hwinner hstaked hwhole, payout_ok hwinner hstaked hfirst,
      payout_ok hwinner hstaked hsecond]
    exact due_cut hcut

end Round

/-! ## Pools side by side -/

namespace Pool

variable {ι κ ν : Type} [DecidableEq ι] {others : ι → Prop} {p p' : Pool ι κ}

/-- Pools whose rounds differ in their counts of tickets at most, and in which these players have
the same tickets. -/
structure Beside (others : ι → Prop) (p p' : Pool ι κ) : Prop where
  round : p.round.Recounted p'.round
  ticket : ∀ i, others i → p'.ticket i = p.ticket i

/-- What one of them orders comes to the same in both. -/
theorem Beside.step (h : Beside others p p') (hopen : p.round.winner = none) {o : Order ι}
    (ho : others o.player) : Beside others (p.step o) (p'.step o) := by
  have hopen' : p'.round.winner = none := h.round.winner.trans hopen
  have hasked' : p'.asked o = p.asked o := by
    unfold asked
    rw [h.ticket o.player ho]
  rcases step_cases hopen o with ⟨fault, hasked, -, hstep⟩ | ⟨s, q, hasked, hroom, -, hstep⟩ |
    ⟨s, q, hasked, hroom, -, hstep⟩
  · rw [hstep, (refused_of_asked hopen' (hasked'.trans hasked)).2]
    exact h
  · have hroom' : p'.round.HasRoom (p'.ticket o.player) s o.amount q := by
      rw [h.ticket o.player ho]
      exact h.round.hasRoom_iff.mpr hroom
    rw [hstep, (granted_of_asked hopen' (hasked'.trans hasked) hroom').2]
    refine ⟨h.round.put s o.amount q, fun i hi => ?_⟩
    have hstaked : p'.round.staked = p.round.staked := by
      obtain ⟨tickets, heq⟩ := h.round
      rw [heq]
    by_cases hplayer : i = o.player
    · subst hplayer
      rw [ticket_grant_self, ticket_grant_self, h.ticket _ hi, hstaked]
    · rw [ticket_grant_of_ne hplayer, ticket_grant_of_ne hplayer, h.ticket i hi]
  · have hroom' : ¬p'.round.HasRoom (p'.ticket o.player) s o.amount q := by
      rw [h.ticket o.player ho]
      exact fun hroom' => hroom (h.round.hasRoom_iff.mp hroom')
    rw [hstep, (overflow_of_asked hopen' (hasked'.trans hasked) hroom').2]
    exact h

theorem Beside.run (h : Beside others p p') (hopen : p.round.winner = none)
    {orders : List (Order ι)} (horders : ∀ o ∈ orders, others o.player) :
    Beside others (p.run orders) (p'.run orders) := by
  induction orders generalizing p p' with
  | nil => exact h
  | cons o orders ih =>
    exact ih (h.step hopen (horders o List.mem_cons_self)) (winner_step hopen o)
      fun o' ho' => horders o' (List.mem_cons_of_mem o ho')

/-- At the point where the stake is made under one name or under two, the pools part: they are
beside each other for everybody else, and the two tickets cut the one. -/
theorem step_apart {whole first second : ι} {square : Square} {a b prediction : Nat}
    (hopen : p.round.winner = none) (hwhole : (p.ticket whole).Unused)
    (hfirst : (p.ticket first).Unused) (hsecond : (p.ticket second).Unused)
    (hdistinct : first ≠ second) (ha : 0 < a) (hb : 0 < b)
    (hroom : p.answer ⟨whole, square, a + b, prediction⟩ ≠ .error .overflow)
    {together apart : Pool ι κ} (htogether : together = p.step ⟨whole, square, a + b, prediction⟩)
    (hapart : apart =
      (p.step ⟨first, square, a, prediction⟩).step ⟨second, square, b, prediction⟩) :
    Beside (fun i => i ≠ whole ∧ i ≠ first ∧ i ≠ second) together apart ∧
      Ticket.Cut square (together.ticket whole) (apart.ticket first) (apart.ticket second) := by
  -- what the tickets say is the same three times
  have hasked₁ : p.asked ⟨first, square, a, prediction⟩
      = p.asked ⟨whole, square, a + b, prediction⟩ :=
    hwhole.answer_eq hfirst (Nat.add_pos_left ha b) ha prediction
  have hasked₂ : p.asked ⟨second, square, b, prediction⟩
      = p.asked ⟨whole, square, a + b, prediction⟩ :=
    hwhole.answer_eq hsecond (Nat.add_pos_left ha b) hb prediction
  rcases step_cases hopen ⟨whole, square, a + b, prediction⟩ with
    ⟨fault, hasked, -, hstep⟩ | ⟨s, q, hasked, hfits, -, hstep⟩ | ⟨s, q, -, -, hanswer, -⟩
  · -- none of the three is granted
    have hstep₁ : p.step ⟨first, square, a, prediction⟩ = p :=
      (refused_of_asked hopen (hasked₁.trans hasked)).2
    have hstep₂ : p.step ⟨second, square, b, prediction⟩ = p :=
      (refused_of_asked hopen (hasked₂.trans hasked)).2
    rw [htogether, hapart, hstep, hstep₁, hstep₂]
    exact ⟨⟨Round.Recounted.refl p.round, fun _ _ => rfl⟩, hwhole.cut hfirst hsecond square⟩
  · -- all three are
    obtain rfl : s = square := Ticket.eq_of_answer hasked
    have hstep₁ : p.step ⟨first, s, a, prediction⟩ = p.grant first s a q :=
      (granted_of_asked hopen (hasked₁.trans hasked)
        (hfits.first (hfirst.total.trans hwhole.total.symm))).2
    have hkept : (p.grant first s a q).ticket second = p.ticket second :=
      ticket_grant_of_ne hdistinct.symm s a q
    have hstep₂ : (p.grant first s a q).step ⟨second, s, b, prediction⟩
        = (p.grant first s a q).grant second s b q := by
      refine (granted_of_asked (p := p.grant first s a q) hopen ?_ ?_).2
      · unfold asked at hasked₂ ⊢
        rw [hkept]
        exact hasked₂.trans hasked
      · show (p.round.put s a q).HasRoom ((p.grant first s a q).ticket second) s b q
        rw [hkept]
        exact hfits.second (hsecond.total.trans hwhole.total.symm)
    rw [htogether, hapart, hstep, hstep₁, hstep₂]
    refine ⟨⟨Round.recounted_put_put p.round s a b q, ?_⟩, ?_⟩
    · rintro i ⟨hi, hi₁, hi₂⟩
      rw [ticket_grant_of_ne hi₂, ticket_grant_of_ne hi₁, ticket_grant_of_ne hi]
    · have hstaked : (p.grant first s a q).round.staked.get s = p.round.staked.get s + a := by
        show (p.round.put s a q).staked.get s = _
        rw [Round.put, get_set, if_pos rfl]
      rw [ticket_grant_self, ticket_grant_of_ne hdistinct, ticket_grant_self, ticket_grant_self,
        hstaked]
      exact Ticket.cut_put s a b _ q
  · exact absurd hanswer hroom

theorem unused_run {nobody rentPayer : κ} {owner : ι → κ} {id carryIn expiresAt : Nat}
    {orders : List (Order ι)} {i : ι} (h : ∀ o ∈ orders, o.player ≠ i) :
    (((opened nobody rentPayer owner id carryIn expiresAt).run orders).ticket i).Unused := by
  rw [ticket_run_of_ne h]
  exact ⟨rfl, rfl, rfl, rfl⟩

/-- Staking apart never pays. On a round that just started let anybody order anything, and let a
stake of `a + b` be put on a square at some point under one new name, or else `a` and then `b` at
that point under two new names, with the same prediction, while all other orders stay as they are;
there is room for the whole. If both rounds are resolved with the same seed under the same settings,
the square wins and everybody is paid, then the one name gets the stake and the jackpot of the two
and no less than their shares, and everybody else is paid the same. -/
theorem staking_apart_never_pays {nobody rentPayer : κ} {owner : ι → κ}
    {id carryIn expiresAt : Nat} {before after : List (Order ι)} {whole first second : ι}
    {square : Square} {a b prediction : Nat} {opening together apart : Pool ι κ} {seed : Bytes32}
    {settings : Settings ν} {round round' : Round κ} {split split' : Split}
    {paid paid' : ι → Payout}
    (hopening : opening = (opened nobody rentPayer owner id carryIn expiresAt).run before)
    (htogether : together = opening.run (⟨whole, square, a + b, prediction⟩ :: after))
    (hapart : apart = opening.run
      (⟨first, square, a, prediction⟩ :: ⟨second, square, b, prediction⟩ :: after))
    (ha : 0 < a) (hb : 0 < b) (hdistinct : first ≠ second)
    (hnew : ∀ o ∈ before ++ after, o.player ≠ whole ∧ o.player ≠ first ∧ o.player ≠ second)
    (hroom : opening.answer ⟨whole, square, a + b, prediction⟩ ≠ .error .overflow)
    (hresolve : together.round.resolve seed settings = .ok (round, split))
    (hresolve' : apart.round.resolve seed settings = .ok (round', split'))
    (hsquare : round.winningSquare = .ok square)
    (hpaid : ∀ i, round.payout (together.ticket i) = .ok (paid i))
    (hpaid' : ∀ i, round'.payout (apart.ticket i) = .ok (paid' i)) :
    (paid' first).stake + (paid' second).stake = (paid whole).stake ∧
      (paid' first).share + (paid' second).share ≤ (paid whole).share ∧
      (paid' first).jackpot + (paid' second).jackpot = (paid whole).jackpot ∧
      ∀ i, i ≠ whole → i ≠ first → i ≠ second → paid' i = paid i := by
  have hopen : opening.round.winner = none := by
    rw [hopening]
    exact winner_run rfl before
  have hunused : ∀ i, (∀ o ∈ before, o.player ≠ i) → (opening.ticket i).Unused := by
    intro i hi
    rw [hopening]
    exact unused_run hi
  have hbefore := fun o ho => hnew o (List.mem_append_left after ho)
  have hafter := fun o ho => hnew o (List.mem_append_right before ho)
  obtain ⟨hbeside, hcut⟩ := step_apart hopen (hunused whole fun o ho => (hbefore o ho).1)
    (hunused first fun o ho => (hbefore o ho).2.1) (hunused second fun o ho => (hbefore o ho).2.2)
    hdistinct ha hb hroom rfl rfl
  rw [run_cons] at htogether hapart
  rw [run_cons] at hapart
  -- the others order on, and the three tickets stay as they are
  have hrun : Beside (fun i => i ≠ whole ∧ i ≠ first ∧ i ≠ second) together apart := by
    rw [htogether, hapart]
    exact hbeside.run (winner_step hopen _) hafter
  have hcut : Ticket.Cut square (together.ticket whole) (apart.ticket first)
      (apart.ticket second) := by
    rw [htogether, hapart, ticket_run_of_ne fun o ho => (hafter o ho).1,
      ticket_run_of_ne fun o ho => (hafter o ho).2.1,
      ticket_run_of_ne fun o ho => (hafter o ho).2.2]
    exact hcut
  obtain rfl : { round with tickets := apart.round.tickets } = round' :=
    congrArg Prod.fst (Except.ok.inj ((hrun.round.resolve hresolve).symm.trans hresolve'))
  obtain ⟨w, hdrawn⟩ : ∃ w, Round.Drawn together.round round split w := Round.resolve_ok hresolve
  cases hsquare.symm.trans (Round.winningSquare_eq hdrawn.winner)
  obtain ⟨hstake, hshare, hjackpot⟩ :=
    Round.payout_cut hcut hdrawn.winner (hpaid whole) (hpaid' first) (hpaid' second)
  refine ⟨hstake, hshare, hjackpot, fun i hi hi₁ hi₂ => ?_⟩
  have hsame := hpaid' i
  rw [hrun.ticket i ⟨hi, hi₁, hi₂⟩] at hsame
  exact Except.ok.inj (hsame.symm.trans (hpaid i))

/-! ## Seventy-five under one name, or fifty and twenty-five -/

/-- A player's name and a spare one, a rival on the same square and someone who loses. -/
inductive Guest where
  | mine
  | spare
  | rival
  | loser
  deriving DecidableEq

/-- A player puts 75 above the stake of another, and predicts the sum. -/
def oneName : Pool Guest Guest :=
  (opened .mine .mine id 1 0 1000).run
    [⟨.rival, 26, 75, 0⟩, ⟨.mine, 26, 75, 8⟩, ⟨.loser, 3, 1000, 0⟩]

/-- The player uses the spare name for a third of it. -/
def twoNames : Pool Guest Guest :=
  (opened .mine .mine id 1 0 1000).run
    [⟨.rival, 26, 75, 0⟩, ⟨.mine, 26, 50, 8⟩, ⟨.spare, 26, 25, 8⟩, ⟨.loser, 3, 1000, 0⟩]

/-- The round that the one name staked on, resolved. -/
def oneNameDrawn : Round Guest := { oneName.round with
  seed := Bytes.fill32 7
  winner := some 26
  die1 := 5
  die2 := 3
  jackpotUnit := 119
  jackpot := 100
  winnings := 890
  totalVaulted := 10
  bonusBps := 15000 }

/-- The other round has one ticket more. -/
def twoNamesDrawn : Round Guest := { oneNameDrawn with tickets := twoNames.round.tickets }

/-- What each of them gets, -/
def oneNamePaid : Guest → Payout
  | .mine => ⟨75, 533, 100⟩
  | .rival => ⟨75, 356, 0⟩
  | .spare | .loser => {}

/-- and with the spare name. -/
def twoNamesPaid : Guest → Payout
  | .mine => ⟨50, 356, 100⟩
  | .spare => ⟨25, 176, 0⟩
  | .rival => ⟨75, 356, 0⟩
  | .loser => {}

theorem oneName_resolve :
    oneName.round.resolve (Bytes.fill32 7) halfBonus = .ok (oneNameDrawn, { fee := 10 }) := by
  have hid : oneName.round.id = 1 := by decide
  have hstaked : oneName.round.staked.get 26 = 150 := by decide
  rw [Round.resolve_of_draws (hid ▸ square_sevens) (by rw [hid, hstaked]; exact jackpot_sevens)
    (by rw [hstaked]; decide)]
  exact eq_ok_of_toOption (by decide)

theorem twoNames_resolve :
    twoNames.round.resolve (Bytes.fill32 7) halfBonus = .ok (twoNamesDrawn, { fee := 10 }) := by
  have hrecounted : oneName.round.Recounted twoNames.round := ⟨twoNames.round.tickets, by decide⟩
  exact hrecounted.resolve oneName_resolve

theorem oneName_payout : ∀ i, oneNameDrawn.payout (oneName.ticket i) = .ok (oneNamePaid i) := by
  intro i
  refine eq_ok_of_toOption ?_
  cases i <;> decide

theorem twoNames_payout : ∀ i, twoNamesDrawn.payout (twoNames.ticket i) = .ok (twoNamesPaid i) := by
  intro i
  refine eq_ok_of_toOption ?_
  cases i <;> decide

/-- The spare name costs the player one of the share. -/
theorem staking_apart_never_pays_twoNames :
    (twoNamesPaid .mine).stake + (twoNamesPaid .spare).stake = 75 ∧
      (twoNamesPaid .mine).share + (twoNamesPaid .spare).share ≤ 533 ∧
      (twoNamesPaid .mine).jackpot + (twoNamesPaid .spare).jackpot = 100 ∧
      ∀ i, i ≠ .mine → i ≠ .spare → twoNamesPaid i = oneNamePaid i := by
  have htogether : oneName = ((opened .mine .mine id 1 0 1000).run [⟨.rival, 26, 75, 0⟩]).run
      [⟨.mine, (26 : Square).val, 50 + 25, 8⟩, ⟨.loser, 3, 1000, 0⟩] := rfl
  have hapart : twoNames = ((opened .mine .mine id 1 0 1000).run [⟨.rival, 26, 75, 0⟩]).run
      [⟨.mine, (26 : Square).val, 50, 8⟩, ⟨.spare, (26 : Square).val, 25, 8⟩,
        ⟨.loser, 3, 1000, 0⟩] := rfl
  have hroom : ((opened Guest.mine .mine id 1 0 1000).run [⟨.rival, 26, 75, 0⟩]).answer
      ⟨.mine, (26 : Square).val, 50 + 25, 8⟩ ≠ .error .overflow := by decide
  have hsquare : oneNameDrawn.winningSquare = .ok 26 := rfl
  obtain ⟨hstake, hshare, hjackpot, hothers⟩ :=
    staking_apart_never_pays rfl htogether hapart (by decide) (by decide) (by decide) (by decide)
      hroom oneName_resolve twoNames_resolve hsquare oneName_payout twoNames_payout
  refine ⟨hstake, hshare, hjackpot, ?_⟩
  intro i hi hspare
  exact hothers i hi hi hspare

end Pool

end DiceHouse
