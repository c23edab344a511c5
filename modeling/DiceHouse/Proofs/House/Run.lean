import DiceHouse.Proofs.House.InStep

/-!
# Runs of the house

A run is what happened to a ledger from the first on, one event after another: calls of the program
and what others did in between. Its moments are numbers; at moment `k` the first `k` events have
happened, and after the last event the ledger stays as it is. Every ledger of a run is reachable,
and every reachable ledger is that of a run.
-/

namespace DiceHouse.House

/-- Something that happens to the ledger. -/
inductive Event where
  | call (slot : Nat) (i : Instruction)
  /-- Others leave the ledger like this. -/
  | other (after : Ledger)

namespace Event

/-- The ledger after an event. -/
def apply (l : Ledger) : Event → Ledger
  | call slot i => step l (slot, i)
  | other after => after

/-- What of this sort may happen to a ledger. -/
def Permitted (allowed : Instruction → Prop) (outside : Ledger → Ledger → Prop) (l : Ledger) :
    Event → Prop
  | call _ i => allowed i
  | other after => outside l after

theorem Permitted.move {allowed : Instruction → Prop} {outside : Ledger → Ledger → Prop}
    {l : Ledger} {event : Event} (h : event.Permitted allowed outside l) :
    Move allowed outside l (event.apply l) := by
  cases event with
  | call slot i => exact .call slot h
  | other after => exact .other h

end Event

/-- The ledger after events, from one on which nothing has happened. -/
def ledgerAfter (used : List Address) (events : List Event) : Ledger :=
  events.foldl Event.apply (Ledger.genesis used)

/-- Events that happened one after another. -/
structure Run (allowed : Instruction → Prop) (outside : Ledger → Ledger → Prop) where
  used : List Address
  events : List Event
  permitted : ∀ k (event : Event), events[k]? = some event →
    event.Permitted allowed outside (ledgerAfter used (events.take k))

namespace Run

variable {allowed : Instruction → Prop} {outside : Ledger → Ledger → Prop}

/-- The ledger at a moment. -/
def ledger (run : Run allowed outside) (k : Nat) : Ledger :=
  ledgerAfter run.used (run.events.take k)

/-- What is told of the call between a moment and the next, if there is one. -/
def told? {α : Type} (run : Run allowed outside) (tell : Ledger → Nat × Instruction → Option α)
    (k : Nat) : Option α :=
  match run.events[k]? with
  | some (.call slot i) => tell (run.ledger k) (slot, i)
  | _ => none

/-- The round against which the seat of a player was settled between a moment and the next. -/
def settled? (run : Run allowed outside) (owner : Address) (k : Nat) : Option Nat :=
  match run.events[k]? with
  | some (.call slot i) => settledAgainst? (run.ledger k) (slot, i) owner
  | _ => none

/-- The rounds against which the seat of a player was settled from one moment to another, in
order. -/
def settledBetween (run : Run allowed outside) (owner : Address) (j k : Nat) : List Nat :=
  (List.range' j (k - j)).filterMap (run.settled? owner)

variable {run : Run allowed outside} {k : Nat}

@[simp] theorem ledger_zero (run : Run allowed outside) : run.ledger 0 = .genesis run.used := by
  unfold ledger
  rw [List.take_zero]
  rfl

theorem ledger_succ {event : Event} (h : run.events[k]? = some event) :
    run.ledger (k + 1) = event.apply (run.ledger k) := by
  unfold ledger ledgerAfter
  rw [List.take_add_one, h, List.foldl_append]
  rfl

/-- A call that is granted leaves the ledger of its session. -/
theorem ledger_of_process {slot : Nat} {i : Instruction} {s : Session}
    (h : run.events[k]? = some (.call slot i)) (hp : process slot i (run.ledger k) = .ok s) :
    run.ledger (k + 1) = s.ledger := by
  rw [ledger_succ h]
  show step (run.ledger k) (slot, i) = s.ledger
  unfold step
  rw [hp]

/-- After the last event nothing happens. -/
theorem ledger_done (h : run.events[k]? = none) : run.ledger (k + 1) = run.ledger k := by
  unfold ledger ledgerAfter
  rw [List.take_add_one, h, Option.toList_none, List.append_nil]

theorem reachable (run : Run allowed outside) (k : Nat) :
    Reachable allowed outside (run.ledger k) := by
  induction k with
  | zero =>
    rw [ledger_zero]
    exact .genesis run.used
  | succ k ih =>
    cases hevent : run.events[k]? with
    | none =>
      rw [ledger_done hevent]
      exact ih
    | some event =>
      obtain ⟨used, hr⟩ := ih
      rw [ledger_succ hevent]
      exact ⟨used, hr.tail (run.permitted k event hevent).move⟩

/-- The run in which one more event happens. -/
def concat (run : Run allowed outside) (event : Event)
    (h : event.Permitted allowed outside (run.ledger run.events.length)) :
    Run allowed outside where
  used := run.used
  events := run.events ++ [event]
  permitted k e he := by
    unfold ledger at h
    rw [List.take_length] at h
    rcases Nat.lt_trichotomy k run.events.length with hlt | rfl | hgt
    · rw [List.getElem?_append_left hlt] at he
      rw [List.take_append_of_le_length hlt.le]
      exact run.permitted k e he
    · rw [List.getElem?_concat_length] at he
      cases he
      rw [List.take_left]
      exact h
    · rw [List.getElem?_eq_none (by rw [List.length_append]; exact hgt)] at he
      cases he

/-- The run in which calls follow, one after another. -/
def followedBy (run : Run allowed outside) (calls : List (Nat × Instruction))
    (h : ∀ call ∈ calls, allowed call.2) : Run allowed outside where
  used := run.used
  events := run.events ++ calls.map fun call => .call call.1 call.2
  permitted k event he := by
    rcases Nat.lt_or_ge k run.events.length with hlt | hge
    · rw [List.getElem?_append_left hlt] at he
      rw [List.take_append_of_le_length hlt.le]
      exact run.permitted k event he
    · rw [List.getElem?_append_right hge] at he
      obtain ⟨call, hcall, rfl⟩ := List.mem_map.mp (List.mem_of_getElem? he)
      exact h call hcall

/-- The run in which nothing happened. -/
def nothing (allowed : Instruction → Prop) (outside : Ledger → Ledger → Prop)
    (used : List Address) : Run allowed outside where
  used := used
  events := []
  permitted _ _ h := by cases h

/-- What is reachable is reached by a run. -/
theorem exists_of_reachable {l : Ledger} (h : Reachable allowed outside l) :
    ∃ run : Run allowed outside, run.ledger run.events.length = l := by
  obtain ⟨used, hr⟩ := h
  induction hr with
  | refl => exact ⟨nothing allowed outside used, ledger_zero _⟩
  | @tail l m _ hmove ih =>
    obtain ⟨run, rfl⟩ := ih
    have hevent : ∃ event : Event, event.Permitted allowed outside (run.ledger run.events.length) ∧
        event.apply (run.ledger run.events.length) = m := by
      cases hmove with
      | call slot hi => exact ⟨.call slot _, hi, rfl⟩
      | other ho => exact ⟨.other m, ho, rfl⟩
    obtain ⟨event, hpermitted, rfl⟩ := hevent
    refine ⟨run.concat event hpermitted, ?_⟩
    have hat : (run.concat event hpermitted).events[run.events.length]? = some event :=
      List.getElem?_concat_length ..
    have hlast : (run.concat event hpermitted).events.length = run.events.length + 1 :=
      List.length_append
    have hbefore : (run.concat event hpermitted).ledger run.events.length
        = run.ledger run.events.length := by
      unfold ledger
      rw [List.take_length]
      exact congrArg _ List.take_left
    rw [hlast, ledger_succ hat, hbefore]

/-! ## Steps of a run -/

section Steps

variable {run : Run allowed Ledger.Outside}

theorem inStep (run : Run allowed Ledger.Outside) (k : Nat) : (run.ledger k).InStep :=
  (run.reachable k).inStep fun _ _ ho => ho

theorem seatsSound (run : Run allowed Ledger.Outside) (k : Nat) : (run.ledger k).SeatsSound :=
  ((run.reachable k).reserved fun _ _ ho => ho).sound

/-- Between a moment and the next an instruction is granted, or what happens is none of the house's
doing; a call that is refused does nothing at all. -/
theorem granted_or_outside (run : Run allowed Ledger.Outside) (k : Nat) :
    (∃ accounts, Granted accounts (run.ledger k) (run.ledger (k + 1))) ∨
      (run.ledger k).Outside (run.ledger (k + 1)) := by
  cases hevent : run.events[k]? with
  | none =>
    right
    rw [ledger_done hevent]
    exact .refl _
  | some event =>
    rw [ledger_succ hevent]
    cases event with
    | call slot i =>
      rcases step_cases (run.ledger k) slot i with hsame | hg
      · right
        show (run.ledger k).Outside (step (run.ledger k) (slot, i))
        rw [hsame]
        exact .refl _
      · exact .inl ⟨_, hg⟩
    | other after => exact .inr (run.permitted k _ hevent)

theorem pace (run : Run allowed Ledger.Outside) (k : Nat) :
    Pace (run.ledger k) (run.ledger (k + 1)) := by
  rcases run.granted_or_outside k with ⟨accounts, hg⟩ | ho
  · exact hg.pace
  · exact pace_outside ho

/-- What is so of every call with what is told of it, and with nothing told of what others do, is so
between a moment and the next with what is told of that. -/
theorem exists_told {α : Type} {tell : Ledger → Nat × Instruction → Option α}
    {P : List Access → Ledger → Ledger → Option α → Prop} (run : Run allowed Ledger.Outside)
    (k : Nat)
    (hcall : ∀ call, P (Access.unify call.2.accounts) (run.ledger k) (step (run.ledger k) call)
      (tell (run.ledger k) call))
    (hother : ∀ {l m}, l.Outside m → P [] l m none) :
    ∃ accounts, P accounts (run.ledger k) (run.ledger (k + 1)) (run.told? tell k) := by
  unfold told?
  cases hevent : run.events[k]? with
  | none =>
    rw [ledger_done hevent]
    exact ⟨[], hother (.refl _)⟩
  | some event =>
    rw [ledger_succ hevent]
    cases event with
    | call slot i => exact ⟨_, hcall (slot, i)⟩
    | other after => exact ⟨[], hother (run.permitted k _ hevent)⟩

theorem seatMove (run : Run allowed Ledger.Outside) (owner : Address) (k : Nat) :
    ∃ accounts, SeatMove accounts (run.ledger k) (run.ledger (k + 1)) owner
      (run.settled? owner k) := by
  show ∃ accounts, SeatMove accounts _ _ owner
    (run.told? (fun l call => settledAgainst? l call owner) k)
  exact run.exists_told (P := fun accounts l m label => SeatMove accounts l m owner label) k
    (fun call => step_seatMove _ call owner) fun ho => .same (ho.load (by simp [Address.seeds?]) _)

/-- A roll stays that of its round. -/
theorem resolved_mono {n : Nat} {roll : Roll} {j k : Nat} (hjk : j ≤ k)
    (h : (run.ledger j).Resolved n roll) : (run.ledger k).Resolved n roll := by
  induction hjk with
  | refl => exact h
  | @step k _ ih => exact resolved_pace (run.pace k) (run.inStep k) ih

end Steps

end Run

/-! ## A first roll -/

/-- The slot history comes to hold the hash that round 1 waits for. -/
def hashed : Ledger :=
  firstBet.withHistory [⟨149, Bytes.fill32 0⟩, ⟨150, Bytes.fill32 7⟩]

/-- After the first bet, round 1 is resolved with five and three, and the seat is settled against
it. -/
def firstRoll : Run Authentic Ledger.Outside where
  used := [.admin]
  events :=
    [.call 0 (Client.openHouse .admin), .other furnished, .call 1 (Client.fund .admin 1000),
      .call 2 (Client.bet .admin .passLine 0 10), .other hashed,
      .call 150 ((Client.resolve .admin 1 .admin).get rfl),
      .call 151 (Client.settle .admin .admin 1)]
  permitted k event h := by
    match k with
    | 0 => cases h; exact .of_first rfl (by decide)
    | 1 => cases h; exact Ledger.outside_withWallet _ _ _ rfl
    | 2 => cases h; exact .of_first rfl (by decide)
    | 3 => cases h; exact .of_first rfl (by decide)
    | 4 => cases h; exact Ledger.outside_withHistory _ _
    | 5 => cases h; exact .of_first rfl (by decide)
    | 6 => cases h; exact .of_first rfl (by decide)
    | k + 7 => cases h

/-- The admin asks to resolve round 1. -/
def resolveFirst : Instruction := (Client.resolve .admin 1 .admin).get rfl

/-- The bet is granted and rides until the seat is settled against round 1, and rides on. -/
theorem firstRoll_moments : (firstRoll.ledger 3).cursor? = some 1 ∧
    (process 2 (Client.bet .admin .passLine 0 10) (firstRoll.ledger 3)).toOption.isSome = true ∧
    [4, 5, 6, 7].map (fun k => ((firstRoll.ledger k).load .seat (.seat .admin)).toOption.map
      fun s => (s.epoch, s.hasRiding))
        = [some (0, true), some (0, true), some (0, true), some (1, true)] ∧
    firstRoll.settled? .admin 6 = some 1 := by
  decide +kernel

/-- What was read of a record that is there. -/
theorem exists_of_toOption_map {ε α β : Type} {x : Except ε α} {f : α → β} {b : β}
    (h : x.toOption.map f = some b) : ∃ a, x = .ok a ∧ f a = b := by
  obtain ⟨a, ha, hb⟩ := Option.map_eq_some_iff.mp h
  exact ⟨a, toOption_eq_some_iff.mp ha, hb⟩

/-- The seat of the admin at the moments from the bet on. -/
theorem firstRoll_seat {k : Nat} (hlo : 4 ≤ k) (hhi : k ≤ 7) :
    ∃ s, (firstRoll.ledger k).load .seat (.seat .admin) = .ok s ∧
      s.epoch = (if k = 7 then 1 else 0) ∧ s.hasRiding = true := by
  obtain ⟨-, -, hseats, -⟩ := firstRoll_moments
  simp only [List.map_cons, List.map_nil, List.cons.injEq, and_true] at hseats
  obtain ⟨h₄, h₅, h₆, h₇⟩ := hseats
  have hk : k = 4 ∨ k = 5 ∨ k = 6 ∨ k = 7 := by omega
  have hmoment : ((firstRoll.ledger k).load .seat (.seat .admin)).toOption.map
      (fun s => (s.epoch, s.hasRiding)) = some (if k = 7 then 1 else 0, true) := by
    rcases hk with rfl | rfl | rfl | rfl
    · exact h₄
    · exact h₅
    · exact h₆
    · exact h₇
  obtain ⟨s, hs, hpair⟩ := exists_of_toOption_map hmoment
  exact ⟨s, hs, congrArg Prod.fst hpair, congrArg Prod.snd hpair⟩

/-! ## A first win -/

/-- After the first bet the admin bets 20 on the field and 10 on the next roll to be 8, and then the
slot history comes to hold the hash that round 1 waits for. -/
def manyBets : Ledger :=
  (run firstBet
    [(2, Client.bet .admin .field 0 20), (2, Client.bet .admin .next 8 10)]).withHistory
      [⟨149, Bytes.fill32 0⟩, ⟨150, Bytes.fill32 7⟩]

/-- Round 1 is resolved with five and three: the pass line rides, the field loses, the 8 wins, and
the admin collects. -/
def firstWin : Run Authentic Ledger.Outside where
  used := [.admin]
  events :=
    [.call 0 (Client.openHouse .admin), .other furnished, .call 1 (Client.fund .admin 1000),
      .call 2 (Client.bet .admin .passLine 0 10), .call 2 (Client.bet .admin .field 0 20),
      .call 2 (Client.bet .admin .next 8 10), .other manyBets, .call 150 resolveFirst,
      .call 151 (Client.settle .admin .admin 1), .call 152 (Client.collect .admin)]
  permitted k event h := by
    match k with
    | 0 => cases h; exact .of_first rfl (by decide)
    | 1 => cases h; exact Ledger.outside_withWallet _ _ _ rfl
    | 2 => cases h; exact .of_first rfl (by decide)
    | 3 => cases h; exact .of_first rfl (by decide)
    | 4 => cases h; exact .of_first rfl (by decide)
    | 5 => cases h; exact .of_first rfl (by decide)
    | 6 => cases h; exact Ledger.outside_withHistory _ _
    | 7 => cases h; exact .of_first rfl (by decide)
    | 8 => cases h; exact .of_first rfl (by decide)
    | 9 => cases h; exact .of_first rfl (by decide)
    | k + 10 => cases h

/-! ## A long absence -/

/-- The slot in which a round closes, if each before it was resolved in the slot in which it
closed. -/
def closing (n : Nat) : Nat := 185 * n - 35

/-- After the first bet the slot history comes to list the slots in which the first 65 rounds
close. -/
def foretold : Ledger :=
  firstBet.withHistory <|
    ⟨0, Bytes.fill32 0⟩ :: (List.range' 1 65).map fun n => ⟨closing n, Bytes.fill32 7⟩

/-- Each of these rounds is resolved when it closes, and the table takes its roll. -/
def rollCalls : List (Nat × Instruction) :=
  (List.range' 1 65).flatMap fun n =>
    (Client.resolve .admin n .admin).toList.map (closing n, ·)
      ++ [(closing n, Client.advance .admin n)]

theorem authentic_rollCalls : ∀ call ∈ rollCalls, Authentic call.2 := by
  intro call hcall
  obtain ⟨n, -, hcall⟩ := List.mem_flatMap.mp hcall
  rcases List.mem_append.mp hcall with hresolve | hadvance
  · obtain ⟨i, hi, rfl⟩ := List.mem_map.mp hresolve
    obtain ⟨-, hi⟩ := Option.ite_none_right_eq_some.mp (Option.mem_toList.mp hi)
    obtain rfl := Option.some.inj hi
    exact .of_first rfl (by simp [Client.writes, Client.reads])
  · rw [List.mem_singleton.mp hadvance]
    exact .of_first rfl (by simp [Client.writes, Client.reads])

/-- The admin bets and stays away for 65 rounds. Round `n` is resolved before moment `2 * n + 4`,
and the table takes its roll right after. -/
def longAbsence : Run Authentic Ledger.Outside :=
  Run.followedBy
    { used := [.admin]
      events :=
        [.call 0 (Client.openHouse .admin), .other furnished, .call 1 (Client.fund .admin 1000),
          .call 2 (Client.bet .admin .passLine 0 10), .other foretold]
      permitted := by
        intro k event h
        match k with
        | 0 => cases h; exact .of_first rfl (by decide)
        | 1 => cases h; exact Ledger.outside_withWallet _ _ _ rfl
        | 2 => cases h; exact .of_first rfl (by decide)
        | 3 => cases h; exact .of_first rfl (by decide)
        | 4 => cases h; exact Ledger.outside_withHistory _ _
        | k + 5 => cases h }
    rollCalls authentic_rollCalls

/-- The squares on which the 65 rounds land. -/
def landed : List Square :=
  [26, 9, 34, 13, 31, 1, 0, 32, 14, 23, 29, 1, 30, 14, 35, 30, 22, 3, 27, 5, 1, 28, 11, 0, 35, 1,
    21, 32, 1, 29, 33, 32, 10, 2, 29, 12, 21, 5, 15, 26, 21, 9, 28, 32, 35, 32, 34, 29, 5, 21, 27,
    29, 11, 35, 18, 29, 0, 26, 8, 11, 27, 2, 11, 11, 17].filterMap fun n =>
      (Square.ofNumber n).toOption

/-- The seat has seen no round when the table has taken the 64th roll, nor when it has taken the
65th, and then it may be cleared. -/
theorem longAbsence_moments :
    [133, 135].map (fun k => ((longAbsence.ledger k).load .seat (.seat .admin)).toOption.map
      fun s => (s.epoch, s.hasRiding)) = [some (0, true), some (0, true)] ∧
    [133, 135].map (fun k => (longAbsence.ledger k).line?.map Line.epoch) = [some 64, some 65] ∧
    (List.range 65).map (fun n => ((longAbsence.ledger 135).draw? (n + 1)).bind Prod.snd)
      = landed.map (some ·.val) ∧
    (process 12000 (Client.forfeit .admin .admin) (longAbsence.ledger 135)).toOption.map
      (fun session => session.ledger.line?.map Line.epoch) = some (some 65) := by
  decide +kernel

end DiceHouse.House
