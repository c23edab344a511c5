import DiceHouse.Proofs.Round.Payable
import DiceHouse.Proofs.Round.Requests
import DiceHouse.Proofs.Round.Tally
import Mathlib.Algebra.Order.BigOperators.Group.Finset

/-!
# The order in which players stake

Players stake on a round independently of each other, and the order in which their requests arrive
is nobody's choice. It decides where in a square's stake a ticket lies, and so who gets the jackpot,
but nothing else: as long as there is room, a request is answered by the player's own ticket, which
only the player's earlier requests have made what it is.

So a run is projected to each player alone. `Ticket.taking` is one request made to a ticket outside
any round, and `Pool.wanted` what all requests of a player would make of the ticket. A step of the
pool is a step of one of these tickets, and the places of the stakes, which the tickets outside a
round do not have, are forgotten by `Ticket.unplaced`. What the tickets come to does not depend on
how the requests are interleaved; nor does whether there is room, for the round's whole stake, the
largest of its sums, is then the same in the end and never sinks on the way.
-/

namespace DiceHouse

open Pool (Order)

/-! ## A ticket outside any round -/

namespace Ticket

variable {ι κ : Type} {t : Ticket κ} {o : Order ι}

/-- The ticket without where its stakes lie. -/
def unplaced (t : Ticket κ) : Ticket κ :=
  { t with before := Vector.replicate squareCount 0 }

/-- What the ticket says to a request that there is room for. -/
def told (t : Ticket κ) (o : Order ι) : Except Fault Unit :=
  (fun _ => ()) <$> t.answer o.square o.amount o.prediction

/-- The ticket after such a request. -/
def taking (t : Ticket κ) (o : Order ι) : Ticket κ :=
  match t.answer o.square o.amount o.prediction with
  | .ok (s, prediction) => (t.put s o.amount 0 prediction).unplaced
  | .error _ => t

/-- The ticket after one request after another. -/
def alone (t : Ticket κ) (orders : List (Order ι)) : Ticket κ := orders.foldl taking t

/-- What they are told. -/
def toldAll (t : Ticket κ) : List (Order ι) → List (Except Fault Unit)
  | [] => []
  | o :: orders => t.told o :: (t.taking o).toldAll orders

theorem total_taking {s : Square} {prediction : Nat}
    (h : t.answer o.square o.amount o.prediction = .ok (s, prediction)) :
    (t.taking o).total = t.total + o.amount := by
  unfold taking
  rw [h]
  rfl

/-- The total only grows. -/
theorem total_le_taking (t : Ticket κ) (o : Order ι) : t.total ≤ (t.taking o).total := by
  unfold taking
  split
  · exact Nat.le_add_right t.total o.amount
  · exact Nat.le_refl t.total

theorem total_le_alone (t : Ticket κ) (orders : List (Order ι)) :
    t.total ≤ (t.alone orders).total := by
  induction orders generalizing t with
  | nil => exact Nat.le_refl t.total
  | cons o orders ih => exact (t.total_le_taking o).trans (ih (t.taking o))

end Ticket

/-! ## A round that orders change -/

namespace Round

variable {κ ν : Type} {r : Round κ} {t : Ticket ν}

/-- Where a stake lies matters for the jackpot only. -/
theorem payout_unplaced
    (hroom : ∀ square : Square, t.staked.get square ≠ 0 →
      t.before.get square + t.staked.get square < Amount.limit) :
    (fun paid => (paid.stake, paid.share)) <$> r.payout t.unplaced
      = (fun paid => (paid.stake, paid.share)) <$> r.payout t := by
  unfold payout
  simp only [map_bind]
  refine bind_congr fun square => ?_
  show _ <$> (if t.staked.get square = 0 ∨ r.staked.get square = 0 then _ else _) = _
  split
  · rfl
  · next hsome =>
    have hfits := hroom square fun hzero => hsome (.inl hzero)
    simp only [map_bind]
    refine bind_congr fun product => bind_congr fun share => ?_
    have hplace : t.unplaced.before.get square = 0 := get_replicate 0 square
    have hstaked : t.unplaced.staked.get square = t.staked.get square := rfl
    rw [hplace, hstaked, Amount.add_of_lt (by omega), Amount.add_of_lt hfits]
    rfl

end Round

namespace Pool

variable {ι κ ν : Type} {p : Pool ι κ} {o : Order ι} {orders : List (Order ι)}

/-! ## The largest sum of a round -/

section Books

variable [Fintype ι] (h : p.round.Sold p.tickets)
include h

/-- The tickets' totals make up the round's. -/
theorem sum_total : ∑ i, (p.ticket i).total = p.round.totalStaked := by
  calc ∑ i, (p.ticket i).total
      = ∑ i, ∑ square : Square, (p.ticket i).staked.get square :=
        Finset.sum_congr rfl fun i _ =>
          h.totals _ (Multiset.mem_map_of_mem p.ticket (Finset.mem_univ_val i))
    _ = ∑ square : Square, ∑ i, (p.ticket i).staked.get square := Finset.sum_comm
    _ = ∑ square : Square, p.round.staked.get square :=
        Finset.sum_congr rfl fun square _ => by rw [h.staked, sum_tickets]
    _ = p.round.totalStaked := h.total.symm

theorem staked_le_totalStaked (square : Square) :
    p.round.staked.get square ≤ p.round.totalStaked := by
  rw [h.total]
  exact le_sum_map (fun square => p.round.staked.get square) (Finset.mem_univ_val square)

/-- A ticket's interval ends at an amount. -/
theorem before_add_staked_lt (hlt : p.round.totalStaked < Amount.limit) (i : ι) (square : Square)
    (hstaked : (p.ticket i).staked.get square ≠ 0) :
    (p.ticket i).before.get square + (p.ticket i).staked.get square < Amount.limit := by
  have hpast : (p.ticket i).before.get square + (p.ticket i).staked.get square
      ≤ p.round.staked.get square :=
    h.past_le (Multiset.mem_map_of_mem p.ticket (Finset.mem_univ_val i))
      (Nat.pos_of_ne_zero hstaked)
  exact (hpast.trans (staked_le_totalStaked h square)).trans_lt hlt

/-- The round's whole stake is the largest of the sums that a stake adds to. -/
theorem hasRoom_of_total {s : Square} {amount prediction : Nat}
    (hlt : p.round.totalStaked + amount < Amount.limit) (i : ι) :
    p.round.HasRoom (p.ticket i) s amount prediction := by
  have hsquare : p.round.staked.get s ≤ p.round.totalStaked := staked_le_totalStaked h s
  have hright : p.round.predicted.get s ≤ p.round.staked.get s := by
    rw [h.predicted, h.staked]
    refine Multiset.sum_map_le_sum_map _ _ fun t _ => ?_
    unfold Ticket.rightStake
    split
    · exact Nat.le_refl _
    · exact Nat.zero_le _
  have hticket : (p.ticket i).total ≤ p.round.totalStaked := by
    rw [← sum_total h]
    exact le_sum_map (fun i => (p.ticket i).total) (Finset.mem_univ_val i)
  refine ⟨by omega, hlt, ?_, by omega⟩
  split <;> omega

end Books

section Run

variable [DecidableEq ι]

/-- What a player is told, request by request. -/
def answersTo (p : Pool ι κ) (i : ι) : List (Order ι) → List (Except Fault Unit)
  | [] => []
  | o :: orders =>
    if o.player = i then p.answer o :: (p.step o).answersTo i orders
    else (p.step o).answersTo i orders

/-- The orders of one player. -/
def ordersOf (i : ι) (orders : List (Order ι)) : List (Order ι) :=
  orders.filter fun o => o.player = i

/-- Every player's requests, each player's in their own order. -/
def Interleaves (requests : ι → List (Order ι)) (orders : List (Order ι)) : Prop :=
  ∀ i, ordersOf i orders = requests i

/-- Nobody is refused for want of room. -/
def RoomFor (p : Pool ι κ) (orders : List (Order ι)) : Prop :=
  ∀ i, .error .overflow ∉ p.answersTo i orders

/-- What the ticket of a player comes to if there is room. -/
def wanted (p : Pool ι κ) (orders : List (Order ι)) (i : ι) : Ticket κ :=
  (p.ticket i).unplaced.alone (ordersOf i orders)

theorem ordersOf_cons_self (o : Order ι) (orders : List (Order ι)) :
    ordersOf o.player (o :: orders) = o :: ordersOf o.player orders :=
  List.filter_cons_of_pos (decide_eq_true rfl)

theorem ordersOf_cons_of_ne {i : ι} (h : o.player ≠ i) (orders : List (Order ι)) :
    ordersOf i (o :: orders) = ordersOf i orders :=
  List.filter_cons_of_neg (by simpa using h)

theorem RoomFor.head (h : p.RoomFor (o :: orders)) : p.answer o ≠ .error .overflow := by
  intro hanswer
  refine h o.player ?_
  rw [answersTo, if_pos rfl, hanswer]
  exact List.mem_cons_self

theorem RoomFor.tail (h : p.RoomFor (o :: orders)) : (p.step o).RoomFor orders := by
  intro i hi
  refine h i ?_
  rw [answersTo]
  split
  · exact List.mem_cons_of_mem _ hi
  · exact hi

theorem RoomFor.cons (hhead : p.answer o ≠ .error .overflow) (htail : (p.step o).RoomFor orders) :
    p.RoomFor (o :: orders) := by
  intro i hi
  rw [answersTo] at hi
  split at hi
  · rcases List.mem_cons.mp hi with hi | hi
    · exact hhead hi.symm
    · exact htail i hi
  · exact htail i hi

/-! ## A step is a step of the player's ticket -/

section Open

variable (hopen : p.round.winner = none)
include hopen

theorem answer_eq_told (hroom : p.answer o ≠ .error .overflow) :
    p.answer o = (p.ticket o.player).unplaced.told o := by
  have htold : (p.ticket o.player).unplaced.told o = (fun _ => ()) <$> p.asked o := rfl
  rw [htold]
  rcases step_cases hopen o with ⟨fault, hasked, hanswer, -⟩ | ⟨s, q, hasked, -, hanswer, -⟩ |
    ⟨-, -, -, -, hanswer, -⟩
  · rw [hasked, hanswer]
    rfl
  · rw [hasked, hanswer]
    rfl
  · exact absurd hanswer hroom

theorem unplaced_step_self (hroom : p.answer o ≠ .error .overflow) :
    ((p.step o).ticket o.player).unplaced = (p.ticket o.player).unplaced.taking o := by
  have htaking : (p.ticket o.player).unplaced.taking o = match p.asked o with
    | .ok (s, prediction) => ((p.ticket o.player).unplaced.put s o.amount 0 prediction).unplaced
    | .error _ => (p.ticket o.player).unplaced := rfl
  rw [htaking]
  rcases step_cases hopen o with ⟨fault, hasked, -, hstep⟩ | ⟨s, q, hasked, -, -, hstep⟩ |
    ⟨-, -, -, -, hanswer, -⟩
  · rw [hasked, hstep]
  · rw [hasked, hstep, ticket_grant_self]
    rfl
  · exact absurd hanswer hroom

/-- The order that is first met is the first of its player's. -/
theorem wanted_step (hroom : p.answer o ≠ .error .overflow) (orders : List (Order ι)) (i : ι) :
    (p.step o).wanted orders i = p.wanted (o :: orders) i := by
  unfold wanted
  by_cases hplayer : o.player = i
  · subst hplayer
    rw [ordersOf_cons_self, unplaced_step_self hopen hroom]
    rfl
  · rw [ordersOf_cons_of_ne hplayer, ticket_step_of_ne hplayer]

/-- A run with room projects to every player. -/
theorem unplaced_run (hroom : p.RoomFor orders) (i : ι) :
    ((p.run orders).ticket i).unplaced = p.wanted orders i := by
  induction orders generalizing p with
  | nil => rfl
  | cons o orders ih =>
    rw [run_cons, ih (winner_step hopen o) hroom.tail, wanted_step hopen hroom.head]

theorem answersTo_eq_toldAll (hroom : p.RoomFor orders) (i : ι) :
    p.answersTo i orders = (p.ticket i).unplaced.toldAll (ordersOf i orders) := by
  induction orders generalizing p with
  | nil => rfl
  | cons o orders ih =>
    have hrest := ih (winner_step hopen o) hroom.tail
    rw [answersTo, hrest]
    by_cases hplayer : o.player = i
    · subst hplayer
      rw [if_pos rfl, ordersOf_cons_self, unplaced_step_self hopen hroom.head,
        answer_eq_told hopen hroom.head]
      rfl
    · rw [if_neg hplayer, ordersOf_cons_of_ne hplayer, ticket_step_of_ne hplayer]

end Open

/-! ## Whether there is room -/

/-- What a ticket takes it keeps, so the requests come to no less than the whole stake after the
first of them. -/
theorem totalStaked_add_le [Fintype ι] (h : p.round.Sold p.tickets) {s : Square} {prediction : Nat}
    (hasked : p.asked o = .ok (s, prediction)) (orders : List (Order ι)) :
    p.round.totalStaked + o.amount ≤ ∑ i, (p.wanted (o :: orders) i).total := by
  have hle : ∀ i, (p.ticket i).total + (if i = o.player then o.amount else 0)
      ≤ (p.wanted (o :: orders) i).total := by
    intro i
    unfold wanted
    by_cases hplayer : i = o.player
    · subst hplayer
      have htaken : ((p.ticket o.player).unplaced.taking o).total
          = (p.ticket o.player).total + o.amount := Ticket.total_taking hasked
      rw [if_pos rfl, ordersOf_cons_self, ← htaken]
      exact Ticket.total_le_alone _ _
    · rw [if_neg hplayer, Nat.add_zero]
      exact Ticket.total_le_alone (p.ticket i).unplaced _
  calc p.round.totalStaked + o.amount
      = ∑ i, ((p.ticket i).total + if i = o.player then o.amount else 0) := by
        rw [Finset.sum_add_distrib, sum_total h, Finset.sum_ite_eq' Finset.univ o.player,
          if_pos (Finset.mem_univ o.player)]
    _ ≤ ∑ i, (p.wanted (o :: orders) i).total := Finset.sum_le_sum fun i _ => hle i

/-- There is room for requests if what they come to is an amount, whatever their order. -/
theorem roomFor_of_wanted [Fintype ι] (hopen : p.round.winner = none) (h : p.round.Sold p.tickets)
    (hlt : ∑ i, (p.wanted orders i).total < Amount.limit) : p.RoomFor orders := by
  induction orders generalizing p with
  | nil =>
    intro i hi
    exact absurd hi List.not_mem_nil
  | cons o orders ih =>
    have hhead : p.answer o ≠ .error .overflow := by
      rcases step_cases hopen o with ⟨fault, hasked, hanswer, -⟩ | ⟨s, q, -, -, hanswer, -⟩ |
        ⟨s, q, hasked, hroom, -, -⟩
      · rw [hanswer]
        rintro ⟨⟩
        exact Ticket.answer_ne_overflow hasked
      · rw [hanswer]
        rintro ⟨⟩
      · have hfits : p.round.totalStaked + o.amount < Amount.limit :=
          (totalStaked_add_le h hasked orders).trans_lt hlt
        exact absurd (hasRoom_of_total h hfits o.player) hroom
    refine .cons hhead (ih (winner_step hopen o) (sold_run h [o]) ?_)
    rw [Finset.sum_congr rfl fun i _ => by rw [wanted_step hopen hhead]]
    exact hlt

/-! ## What the round comes to -/

/-- Runs that leave the same tickets, but for where the stakes lie, leave the same round. -/
theorem round_eq_of_unplaced [Fintype ι] {orders' : List (Order ι)}
    (hbooks : (p.run orders).Tallied) (hbooks' : (p.run orders').Tallied)
    (h : ∀ i, ((p.run orders').ticket i).unplaced = ((p.run orders).ticket i).unplaced) :
    (p.run orders').round = (p.run orders).round := by
  have hstakes : ∀ i, ((p.run orders').ticket i).staked = ((p.run orders).ticket i).staked := by
    intro i
    show ((p.run orders').ticket i).unplaced.staked = ((p.run orders).ticket i).unplaced.staked
    rw [h i]
  have hpredictions : ∀ i,
      ((p.run orders').ticket i).prediction = ((p.run orders).ticket i).prediction := by
    intro i
    show ((p.run orders').ticket i).unplaced.prediction
      = ((p.run orders).ticket i).unplaced.prediction
    rw [h i]
  have hstaked : (p.run orders').round.staked = (p.run orders).round.staked := by
    refine Vector.ext fun k hk => ?_
    show (p.run orders').round.staked.get ⟨k, hk⟩ = (p.run orders).round.staked.get ⟨k, hk⟩
    rw [hbooks'.staked, hbooks.staked]
    exact Finset.sum_congr rfl fun i _ => by rw [hstakes]
  have hpredicted : (p.run orders').round.predicted = (p.run orders).round.predicted := by
    refine Vector.ext fun k hk => ?_
    show (p.run orders').round.predicted.get ⟨k, hk⟩ = (p.run orders).round.predicted.get ⟨k, hk⟩
    rw [hbooks'.predicted, hbooks.predicted]
    simp only [hstakes, hpredictions]
  have htickets : (p.run orders').round.tickets = (p.run orders).round.tickets := by
    refine Vector.ext fun k hk => ?_
    show (p.run orders').round.tickets.get ⟨k, hk⟩ = (p.run orders).round.tickets.get ⟨k, hk⟩
    rw [hbooks'.counted, hbooks.counted]
    simp only [hstakes]
  have htotal : (p.run orders').round.totalStaked = (p.run orders).round.totalStaked := by
    rw [← hbooks'.total, ← hbooks.total, hstaked]
  rw [round_run p orders', round_run p orders, hstaked, hpredicted, htickets, htotal]

/-- The order of stakes is immaterial. Let every player of a round that just started have requests
to make, and let these arrive in some order in which nobody is refused for want of room. In any
other order each of them is answered the same; the round comes to the same sums and counts; and,
resolved with the same seed under the same settings, it owes every player the same stake and the
same share. -/
theorem stake_order_immaterial [Fintype ι] {nobody rentPayer : κ} {owner : ι → κ}
    {id carryIn expiresAt : Nat} {requests : ι → List (Order ι)} {orders orders' : List (Order ι)}
    {opening p p' : Pool ι κ}
    (hopening : opening = opened nobody rentPayer owner id carryIn expiresAt)
    (horders : Interleaves requests orders) (horders' : Interleaves requests orders')
    (hp : p = opening.run orders) (hp' : p' = opening.run orders')
    (hroom : opening.RoomFor orders) :
    (∀ i, opening.answersTo i orders' = opening.answersTo i orders) ∧
      p'.round.staked = p.round.staked ∧ p'.round.predicted = p.round.predicted ∧
      p'.round.tickets = p.round.tickets ∧ p'.round.totalStaked = p.round.totalStaked ∧
      ∀ (seed : Bytes32) (settings : Settings ν),
        p'.round.resolve seed settings = p.round.resolve seed settings ∧
        ∀ round split, p.round.resolve seed settings = .ok (round, split) → ∀ i,
          (fun paid => (paid.stake, paid.share)) <$> round.payout (p'.ticket i)
            = (fun paid => (paid.stake, paid.share)) <$> round.payout (p.ticket i) := by
  have hopen : opening.round.winner = none := by rw [hopening]; rfl
  have hbooks : opening.round.Tallied opening.tickets := by
    rw [hopening]
    exact tallied_fresh nobody rentPayer owner (fun _ => id) id carryIn expiresAt
  have hempty : opening.round.totalStaked < Amount.limit := by
    rw [hopening]
    exact Nat.pow_pos Nat.zero_lt_two
  have hall : ∀ orders, (opening.run orders).round.Tallied (opening.run orders).tickets := by
    intro orders
    exact run_keeps (fun htallied hs => htallied.stake hs) hbooks orders
  have hsame : ∀ i, ordersOf i orders' = ordersOf i orders :=
    fun i => (horders' i).trans (horders i).symm
  have hwanted : ∀ i, opening.wanted orders' i = opening.wanted orders i := by
    intro i
    unfold wanted
    rw [hsame]
  -- the requests come to what the first run came to, which is an amount
  have hroom' : opening.RoomFor orders' := by
    refine roomFor_of_wanted hopen hbooks.toSold ?_
    calc ∑ i, (opening.wanted orders' i).total
        = ∑ i, ((opening.run orders).ticket i).total :=
          Finset.sum_congr rfl fun i _ => by rw [hwanted, ← unplaced_run hopen hroom]; rfl
      _ = (opening.run orders).round.totalStaked := sum_total (hall orders).toSold
      _ < Amount.limit := totalStaked_run_lt hempty orders
  have htickets : ∀ i,
      ((opening.run orders').ticket i).unplaced = ((opening.run orders).ticket i).unplaced := by
    intro i
    rw [unplaced_run hopen hroom', unplaced_run hopen hroom, hwanted]
  have hround : p'.round = p.round := by
    rw [hp, hp']
    exact round_eq_of_unplaced (tallied_of_round (hall orders))
      (tallied_of_round (hall orders')) htickets
  have hplaced : ∀ orders i (square : Square),
      ((opening.run orders).ticket i).staked.get square ≠ 0 →
      ((opening.run orders).ticket i).before.get square
        + ((opening.run orders).ticket i).staked.get square < Amount.limit := by
    intro orders i
    exact before_add_staked_lt (hall orders).toSold (totalStaked_run_lt hempty orders) i
  refine ⟨fun i => ?_, by rw [hround], by rw [hround], by rw [hround], by rw [hround],
    fun seed settings => ⟨by rw [hround], fun round split _ i => ?_⟩⟩
  · rw [answersTo_eq_toldAll hopen hroom', answersTo_eq_toldAll hopen hroom, hsame]
  · rw [hp, hp', ← Round.payout_unplaced (hplaced orders' i), htickets,
      Round.payout_unplaced (hplaced orders i)]

/-! ## Two players on a square -/

/-- One player stakes on two squares and then on the first of them again, and another in between. -/
def twoPlayers : Pool Bool Nat :=
  (opened 0 0 Bool.toNat 1 40 1000).run
    [⟨false, 26, 100, 0⟩, ⟨false, 3, 1000, 0⟩, ⟨true, 26, 50, 8⟩, ⟨false, 26, 5, 0⟩]

/-- The other player comes first. -/
def twoPlayersLater : Pool Bool Nat :=
  (opened 0 0 Bool.toNat 1 40 1000).run
    [⟨true, 26, 50, 8⟩, ⟨false, 26, 100, 0⟩, ⟨false, 3, 1000, 0⟩, ⟨false, 26, 5, 0⟩]

/-- Whoever comes later lies above the other, and here gets the jackpot for it. Stakes and shares
are the same. -/
theorem stake_order_immaterial_twoPlayers :
    twoPlayersLater.round.staked = twoPlayers.round.staked ∧
      (∀ i, (fun paid => (paid.stake, paid.share)) <$>
          threePlayersDrawn.payout (twoPlayersLater.ticket i)
        = (fun paid => (paid.stake, paid.share)) <$>
          threePlayersDrawn.payout (twoPlayers.ticket i)) ∧
      threePlayersDrawn.payout (twoPlayers.ticket true) = .ok ⟨50, 465, 100⟩ ∧
      threePlayersDrawn.payout (twoPlayersLater.ticket true) = .ok ⟨50, 465, 0⟩ := by
  have hfirst : Interleaves
      (fun i => ordersOf i
        [⟨true, 26, 50, 8⟩, ⟨false, 26, 100, 0⟩, ⟨false, 3, 1000, 0⟩, ⟨false, 26, 5, 0⟩])
      [⟨false, 26, 100, 0⟩, ⟨false, 3, 1000, 0⟩, ⟨true, 26, 50, 8⟩, ⟨false, 26, 5, 0⟩] := by
    intro i
    cases i <;> rfl
  have hroom : (opened 0 0 Bool.toNat 1 40 1000).RoomFor
      [⟨false, 26, 100, 0⟩, ⟨false, 3, 1000, 0⟩, ⟨true, 26, 50, 8⟩, ⟨false, 26, 5, 0⟩] := by
    unfold RoomFor
    decide
  obtain ⟨-, hstaked, -, -, -, hresolved⟩ :=
    stake_order_immaterial rfl hfirst (fun _ => rfl) rfl rfl hroom
  obtain ⟨-, hpaid⟩ := hresolved (Bytes.fill32 7) (Settings.initial 0)
  -- the round does not know who staked
  have hround : twoPlayers.round = threePlayers.round := by decide
  have hresolve : twoPlayers.round.resolve (Bytes.fill32 7) (Settings.initial 0)
      = .ok (threePlayersDrawn, { fee := 10 }) := by
    rw [hround]
    exact threePlayers_resolve
  exact ⟨hstaked, hpaid _ _ hresolve, eq_ok_of_toOption (by decide), eq_ok_of_toOption (by decide)⟩

end Run

end Pool

end DiceHouse
