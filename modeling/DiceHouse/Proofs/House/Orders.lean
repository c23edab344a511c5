import DiceHouse.Proofs.Client
import DiceHouse.Proofs.House.Calls
import DiceHouse.Proofs.House.Lifecycle
import DiceHouse.Proofs.Operation.Deeds
import DiceHouse.Proofs.Request
import DiceHouse.Proofs.Round.Payout

/-!
# Orders and the house

The client and the house agree on every order: the house reads from the instruction what was
ordered, and if the records and wallets that the order is about are there, it does the order's deed,
whatever becomes of that. So no check of accounts refuses an order that is ready; what refuses it is
the game, or a lack of tokens or lamports.
-/

namespace DiceHouse

namespace Ledger

/-- The record that belongs at an address is there. -/
def Has (l : Ledger) (kind : Record.Kind) (a : Address) (belongs : kind.Body Address → Prop) :
    Prop :=
  ∃ body, l.load kind a = .ok body ∧ belongs body

/-- There is nothing at an address. -/
def Vacant (l : Ledger) (a : Address) : Prop := (l a).contents.isEmpty = true

theorem Vacant.of_agree {l m : Ledger} {a : Address} (h : l.Vacant a) (hag : Agree l m a) :
    m.Vacant a := by
  rwa [Vacant, hag.contents]

/-- These accounts are programs. -/
def Runs (l : Ledger) (programs : List Address) : Prop :=
  ∀ a ∈ programs, (l a).executable = true

end Ledger

namespace Client.Order

/-- What an order is about is there: its records and wallets, and none in the way of new ones. A
first stake or bet opens the ticket or seat, and the first of all the house's wallet. -/
def Ready (l : Ledger) : Order → Prop
  | .openHouse signer => signer = .admin
    ∧ (∀ a ∈ [.board, .settings, .treasury, .round 1, .table], l.Vacant a) ∧ l.Runs [.system]
  | .configure _ _ => l.Has .settings .settings fun _ => True
  | .stake signer n _ _ _ => l.Has .board .board (fun b => b.round = n)
    ∧ l.Has .round (.round n) (fun r => r.id = n)
    ∧ (l.Vacant (.ticket signer n) ∨ l.Has .ticket (.ticket signer n) fun t => t.owner = signer)
    ∧ l.Opened signer .rng ∧ (l.Vacant (.wallet .treasury .rng) ∨ l.Opened .treasury .rng)
    ∧ l.Runs [.system, .tokenProgram, .walletProgram]
  | .resolve _ n feeCollector => l.Has .board .board (fun b => b.round = n)
    ∧ l.Has .settings .settings (fun config => config.feeCollector = feeCollector)
    ∧ l.Has .round (.round n) (fun r => r.id = n) ∧ l.Vacant (.round (n + 1))
    ∧ l.Has .treasury .treasury (fun _ => True) ∧ l.Opened .treasury .rng
    ∧ l.Opened feeCollector .rng ∧ (∃ supply, l.supply (.mint .rng) = .ok supply)
    ∧ l.Runs [.system, .tokenProgram]
  | .claim signer n =>
    l.Has .ticket (.ticket signer n) (fun t => t.owner = signer ∧ t.round = n)
    ∧ l.Has .round (.round n) (fun r => r.id = n) ∧ l.Has .treasury .treasury (fun _ => True)
    ∧ l.Opened .treasury .rng ∧ l.Opened signer .rng ∧ l.Runs [.tokenProgram]
  | .bet signer _ _ _ => l.Has .board .board (fun _ => True) ∧ l.Has .table .table (fun _ => True)
    ∧ (l.Vacant (.seat signer) ∨ l.Has .seat (.seat signer) fun s => s.owner = signer)
    ∧ l.Opened signer .crap ∧ (l.Vacant (.wallet .vault .crap) ∨ l.Opened .vault .crap)
    ∧ l.Runs [.system, .tokenProgram, .walletProgram]
  | .settle _ owner n => l.Has .settings .settings (fun _ => True)
    ∧ l.Has .table .table (fun _ => True) ∧ l.Has .seat (.seat owner) (fun s => s.owner = owner)
    ∧ l.Has .round (.round n) fun r => r.id = n
  | .advance _ n => l.Has .table .table (fun _ => True) ∧ l.Has .round (.round n) fun r => r.id = n
  | .collect signer => l.Has .seat (.seat signer) (fun s => s.owner = signer)
    ∧ l.Opened .vault .crap ∧ l.Opened signer .crap ∧ l.Runs [.tokenProgram]
  | .fund signer _ => l.Has .table .table (fun _ => True) ∧ l.Opened signer .crap
    ∧ (l.Vacant (.wallet .vault .crap) ∨ l.Opened .vault .crap)
    ∧ l.Runs [.system, .tokenProgram, .walletProgram]
  | .forfeit _ owner => l.Has .table .table (fun _ => True)
    ∧ l.Has .seat (.seat owner) fun s => s.owner = owner

/-- What becomes of the ledger when an order is carried out. -/
def deed (slot : Nat) (l : Ledger) : Order → Except Refusal Ledger
  | .openHouse signer => Deed.openHouse slot signer l
  | .configure signer settings =>
    Deed.configure signer ((settings.mapNames Address.toKey).mapNames l.nameOf) l
  | .stake signer n square amount prediction =>
    Deed.stake slot signer n square amount prediction l
  | .resolve signer n feeCollector => Deed.resolve slot signer n feeCollector l
  | .claim signer n => Deed.claim slot signer n l
  | .bet signer kind number amount => do
    let spot ← Spot.ofRequest kind number
    Deed.bet slot signer spot amount l
  | .settle _ owner n => Deed.settle owner n l
  | .advance _ n => Deed.advance n l
  | .collect signer => Deed.collect signer l
  | .fund signer amount => Deed.fund signer amount l
  | .forfeit _ owner => Deed.forfeit owner l

end Client.Order

open Access Client

variable {grant : Access → Access} {l : Ledger} {slot n : Nat} {signer owner : Address}

/-! ## Operations on the accounts of an order -/

section Operations

theorem does_openHouse (hg : Grants grant) (h : (Order.openHouse signer).Ready l) :
    Does (Operation.openHouse slot ((Client.openHouse signer).accounts.map grant) l)
      (Deed.openHouse slot signer l) := by
  obtain ⟨rfl, hvacant, hruns⟩ := h
  simp only [List.forall_mem_cons, List.not_mem_nil, IsEmpty.forall_iff, implies_true,
    and_true, Ledger.Vacant] at hvacant
  obtain ⟨hboard, hsettings, htreasury, hround, htable⟩ := hvacant
  unfold Operation.openHouse Deed.openHouse
  simp only [Client.openHouse, ask, List.map_cons, List.map_nil, hg.signs, hg.named_signs,
    hg.fresh hboard, hg.fresh hsettings, hg.fresh htreasury, hg.fresh hround, hg.fresh htable,
    hg.program (hruns .system (by simp)), hg.address_signs, hg.address_writes, ok_bind]
  refine (does_create _ _ _ _ _).bind fun s _ => .value fun first _ => ?_
  refine (does_create _ _ _ _ _).bind fun s _ => ?_
  refine (does_create _ _ _ _ _).bind fun s _ => ?_
  refine (does_create _ _ _ _ _).bind fun s _ => .value fun expiresAt _ => ?_
  exact (does_create _ _ _ _ _).last fun _ => rfl

theorem does_configure (hg : Grants grant) {settings new : Settings Address}
    (h : (Order.configure signer settings).Ready l) :
    Does (Operation.configure new ((Client.configure signer settings).accounts.map grant) l)
      (Deed.configure signer new l) := by
  obtain ⟨current, hcurrent, -⟩ := h
  unfold Operation.configure Deed.configure
  simp only [Client.configure, ask, List.map_cons, List.map_nil, hg.signs, hg.own,
    hg.address_signs, hg.address_writes, hcurrent, ok_bind]
  exact .value fun _ _ => .value fun valid _ => .pure _

/-- What is paid into a wallet of the house, which the first payment opens. -/
theorem does_deposit {s : Session} {house : Address} {token : Token} {amount : Nat} {line : String}
    (h : s.ledger.Vacant (.wallet house token) ∨ s.ledger.Opened house token) :
    Does
      (do
        let s ← s.ensureWallet signer (.wallet house token) house token
        let s ← s.transfer (.wallet signer token) (.wallet house token) signer amount
        return s.note line)
      (do
        let l ← s.ledger.furnish signer house token
        l.transfer (.wallet signer token) (.wallet house token) signer amount) :=
  (does_ensureWallet s signer h).bind fun s _ => (does_move s _).last fun _ => rfl

theorem does_stake (hg : Grants grant) {square amount prediction : Nat}
    (h : (Order.stake signer n square amount prediction).Ready l) :
    Does (Operation.stake slot amount square prediction
        ((Client.stake signer n square amount prediction).accounts.map grant) l)
      (Deed.stake slot signer n square amount prediction l) := by
  obtain ⟨⟨b, hb, rfl⟩, ⟨r, hr, hid⟩, hticket, hsource, hvault, hruns⟩ := h
  unfold Operation.stake Deed.stake
  simp only [Client.stake, ask, List.map_cons, List.map_nil, hg.signs, hg.derived_reads,
    hg.address_reads, hb, hg.own, hg.address_writes, hr, hid, hg.address_signs, hg.named_reads,
    hg.writes, hg.program (hruns .system (by simp)), hg.program (hruns .tokenProgram (by simp)),
    hg.program (hruns .walletProgram (by simp)), ok_bind]
  refine .value fun _ _ => .bind_with (does_openTicket hticket) fun s t hs =>
    .value fun staked _ => does_deposit ?_
  -- the ticket and the stake leave the house's wallet as it was
  have hag : Ledger.Agree l ((s.ledger.store .round (.round b.round) staked.1).store .ticket
      (.ticket signer b.round) staked.2) (.wallet .treasury .rng) :=
    (((Operation.openTicket_ok hs).2.2.1 _ (by simp)).trans
      (Ledger.agree_store _ _ _ (by simp))).trans (Ledger.agree_store _ _ _ (by simp))
  exact hvault.imp (·.of_agree hag) (·.of_agree hag)

theorem does_resolve (hg : Grants grant) {feeCollector : Address} {i : Instruction}
    (hi : Client.resolve signer n feeCollector = some i)
    (h : (Order.resolve signer n feeCollector).Ready l) :
    Does (Operation.resolve slot (i.accounts.map grant) l)
      (Deed.resolve slot signer n feeCollector l) := by
  obtain ⟨⟨b, hb, rfl⟩, ⟨config, hconfig, rfl⟩, ⟨r, hr, hid⟩, hnext, ⟨t, ht, -⟩, hvault,
    hfee, -, hruns⟩ := h
  have hlast : b.round + 1 < Amount.limit := by
    refine Classical.byContradiction fun hlast => ?_
    rw [Client.resolve, if_neg hlast] at hi
    cases hi
  rw [Client.resolve, if_pos hlast] at hi
  cases hi
  unfold Operation.resolve Deed.resolve
  simp only [ask, List.map_cons, List.map_nil, hg.signs, hg.own, hg.address_writes, hb,
    hg.address_signs, hg.derived_reads, hg.address_reads, hconfig, hr, hid,
    Amount.add_of_lt hlast, liftM_ok, hg.fresh hnext, hg.writes, hg.named_writes, hg.named_reads, ht,
    hg.program (hruns .system (by simp)), hg.program (hruns .tokenProgram (by simp)), ok_bind]
  refine .value fun _ _ => .value fun found _ => ?_
  cases found with
  | pending => exact .error _
  | expired => exact .value fun rearmed _ => .pure _
  | found seed =>
    refine .value fun resolved _ => .value fun recorded _ => ?_
    -- no wallet is where the records are written
    have hopened (o : Address) (ho : l.Opened o .rng) :
        ((l.store .round (.round b.round) resolved.1).store .treasury .treasury recorded).Opened
          o .rng :=
      (ho.store (by simp)).store (by simp)
    exact (does_disburse hg.address_writes hg.address_writes (hg.writable _ rfl)
      hg.address_writes (hg.writable _ rfl) hg.address_writes (hopened _ hvault)
      (hopened _ hfee)).bind fun s _ => .value fun carryover _ => does_startNext rfl

theorem does_claim (hg : Grants grant) (h : (Order.claim signer n).Ready l) :
    Does (Operation.claim slot ((Client.claim signer n).accounts.map grant) l)
      (Deed.claim slot signer n l) := by
  obtain ⟨⟨own, hown, howner, hround⟩, ⟨r, hr, -⟩, ⟨t, ht, -⟩, hvault, htarget, hruns⟩ := h
  unfold Operation.claim Deed.claim
  simp only [Client.claim, ask, List.map_cons, List.map_nil, hg.signs, hg.own, hg.address_writes,
    hg.address_signs, hown, howner, hround, hr, ht, hg.writes, hg.named_writes, hg.derived_writes,
    hg.program (hruns .tokenProgram (by simp)), demand_of_true, ok_bind]
  refine .value fun _ _ => .value fun payout _ => .value fun amount _ => .value fun total _ =>
    .value fun claimed _ => ?_
  have hopened (o : Address) (ho : l.Opened o .rng) (cashed : Round Address) :
      ((l.store .round (.round n) cashed).store .treasury .treasury claimed).Opened o .rng :=
    (ho.store (by simp)).store (by simp)
  by_cases hpos : 0 < amount
  · simp only [if_pos hpos, Session.ledger_store, hg.wallet (hopened _ hvault _),
      hg.wallet (hopened _ htarget _), ok_bind]
    exact (does_move _ _).bind fun s _ => .close
  · simp only [if_neg hpos, pure_bind]
    exact .close

theorem does_bet (hg : Grants grant) {kind : Spot.Kind} {number amount : Nat} {spot : Spot}
    (h : (Order.bet signer kind number amount).Ready l) :
    Does (Operation.bet slot spot amount
        ((Client.bet signer kind number amount).accounts.map grant) l)
      (Deed.bet slot signer spot amount l) := by
  obtain ⟨⟨b, hb, -⟩, ⟨t, ht, -⟩, hseat, hsource, hvault, hruns⟩ := h
  unfold Operation.bet Deed.bet
  simp only [Client.bet, ask, List.map_cons, List.map_nil, hg.signs, hg.derived_reads,
    hg.address_reads, hb, hg.own, hg.address_writes, ht, hg.address_signs, hg.named_reads,
    hg.writes, hg.program (hruns .system (by simp)), hg.program (hruns .tokenProgram (by simp)),
    hg.program (hruns .walletProgram (by simp)), ok_bind]
  refine .value fun _ _ => .value fun _ _ => .bind_with (does_takeSeat hseat) fun s taken hs =>
    .value fun phase _ => .value fun placed _ => .value fun reserved _ => does_deposit ?_
  -- the seat and the table leave the house's wallet as it was
  have hag : Ledger.Agree l ((s.ledger.store .seat (.seat signer) placed.1).store .table
      .table reserved) (.wallet .vault .crap) :=
    (((Operation.takeSeat_ok hs).2.2.1 _ (by simp)).trans
      (Ledger.agree_store _ _ _ (by simp))).trans (Ledger.agree_store _ _ _ (by simp))
  exact hvault.imp (·.of_agree hag) (·.of_agree hag)

theorem does_settle (hg : Grants grant) (h : (Order.settle signer owner n).Ready l) :
    Does (Operation.settle ((Client.settle signer owner n).accounts.map grant) l)
      (Deed.settle owner n l) := by
  obtain ⟨⟨config, hconfig, -⟩, ⟨t, ht, -⟩, ⟨s, hs, howner⟩, ⟨r, hr, hid⟩⟩ := h
  unfold Operation.settle Deed.settle
  simp only [Client.settle, ask, List.map_cons, List.map_nil, hg.signs, hg.derived_reads,
    hg.address_reads, hconfig, hg.own, hg.address_writes, ht, hg.writes, hs, howner,
    hg.derived_writes, hr, hid, ok_bind]
  refine .value fun roll _ => .value fun rolled _ => .value fun turn _ => ?_
  -- a roll that the table took only adds a line to the log
  cases rolled.2 with
  | none => exact .pure _
  | some call => exact .pure _

theorem does_advance (hg : Grants grant) (h : (Order.advance signer n).Ready l) :
    Does (Operation.advance ((Client.advance signer n).accounts.map grant) l)
      (Deed.advance n l) := by
  obtain ⟨⟨t, ht, -⟩, ⟨r, hr, hid⟩⟩ := h
  unfold Operation.advance Deed.advance
  simp only [Client.advance, ask, List.map_cons, List.map_nil, hg.signs, hg.own,
    hg.address_writes, ht, hg.address_reads, hr, hid, hg.derived_reads, ok_bind]
  refine .value fun roll _ => .value fun rolled _ => ?_
  cases rolled.2 with
  | none => exact .pure _
  | some call => exact .pure _

theorem does_collect (hg : Grants grant) (h : (Order.collect signer).Ready l) :
    Does (Operation.collect ((Client.collect signer).accounts.map grant) l)
      (Deed.collect signer l) := by
  obtain ⟨⟨s, hs, howner⟩, hvault, htarget, hruns⟩ := h
  unfold Operation.collect Deed.collect
  simp only [Client.collect, ask, List.map_cons, List.map_nil, hg.signs, hg.own,
    hg.address_signs, hg.address_writes, hs, howner, require_of_true, liftM_ok, hg.derived_reads,
    hg.wallet hvault, hg.wallet htarget, hg.named_reads,
    hg.program (hruns .tokenProgram (by simp)), ok_bind]
  exact .value fun _ _ => (does_move _ _).last fun _ => rfl

theorem does_fund (hg : Grants grant) {amount : Nat} (h : (Order.fund signer amount).Ready l) :
    Does (Operation.fund amount ((Client.fund signer amount).accounts.map grant) l)
      (Deed.fund signer amount l) := by
  obtain ⟨⟨t, ht, -⟩, hsource, hvault, hruns⟩ := h
  unfold Operation.fund Deed.fund
  simp only [Client.fund, ask, List.map_cons, List.map_nil, hg.signs, hg.own, hg.address_signs,
    hg.address_writes, ht, hg.derived_reads, hg.address_reads, hg.writes, hg.named_reads,
    hg.program (hruns .system (by simp)), hg.program (hruns .tokenProgram (by simp)),
    hg.program (hruns .walletProgram (by simp)), ok_bind]
  refine .value fun _ _ => (does_ensureWallet { ledger := l } signer hvault).bind fun s _ =>
    .value fun funded _ => (does_move _ _).last fun _ => rfl

theorem does_forfeit (hg : Grants grant) (h : (Order.forfeit signer owner).Ready l) :
    Does (Operation.forfeit ((Client.forfeit signer owner).accounts.map grant) l)
      (Deed.forfeit owner l) := by
  obtain ⟨⟨t, ht, -⟩, ⟨s, hs, howner⟩⟩ := h
  unfold Operation.forfeit Deed.forfeit
  simp only [Client.forfeit, ask, List.map_cons, List.map_nil, hg.signs, hg.own,
    hg.address_writes, ht, hg.writes, hs, howner, hg.derived_writes, ok_bind]
  exact .value fun _ _ => .value fun cleared _ => .value fun booked _ => .pure _

end Operations

/-! ## Refusals of deeds -/

section Refusals

open Refusal (Material Short)

theorem material_stake {square amount prediction : Nat}
    (h : (Order.stake signer n square amount prediction).Ready l) :
    RefusedOnly Material (Deed.stake slot signer n square amount prediction l) := by
  obtain ⟨⟨b, hb, -⟩, ⟨r, hr, -⟩, hticket, hsource, hvault, -⟩ := h
  unfold Deed.stake
  simp only [hb, hr, ok_bind]
  refine (material_liftM _).bind fun _ => (short_takeTicket hticket).material.bind_of_ok fun p hp =>
    (material_liftM _).bind fun staked => ?_
  have hag (o : Address) : Ledger.Agree l ((p.1.store .round (.round n) staked.1).store .ticket
      (.ticket signer n) staked.2) (.wallet o .rng) :=
    ((agree_takeTicket hp (by simp)).trans (Ledger.agree_store _ _ _ (by simp))).trans
      (Ledger.agree_store _ _ _ (by simp))
  exact (short_deposit (hsource.of_agree (hag _))
    (hvault.imp (·.of_agree (hag _)) (·.of_agree (hag _)))).material

/-- What is sent and burned after the round and the totals were written lacks nothing but tokens. -/
theorem short_split {feeCollector : Address} (h : (Order.resolve signer n feeCollector).Ready l)
    (resolved : Round Address) (split : Split) (recorded : Treasury) :
    RefusedOnly Short (Deed.disburse split feeCollector
      ((l.store .round (.round n) resolved).store .treasury .treasury recorded)) := by
  obtain ⟨-, -, -, -, -, hvault, hfee, ⟨supply, hmint⟩, -⟩ := h
  have hag (a : Address) (hround : a ≠ .round n) (htreasury : a ≠ .treasury) :
      Ledger.Agree l ((l.store .round (.round n) resolved).store .treasury .treasury recorded) a :=
    (Ledger.agree_store _ _ _ hround).trans (Ledger.agree_store _ _ _ htreasury)
  have hstill : ((l.store .round (.round n) resolved).store .treasury .treasury recorded).supply
      (.mint .rng) = .ok supply := by
    unfold Ledger.supply at hmint ⊢
    rwa [(hag _ (by simp) (by simp)).contents]
  exact short_disburse (hvault.of_agree (hag _ (by simp) (by simp)))
    (hfee.of_agree (hag _ (by simp) (by simp))) hstill

theorem material_resolve {feeCollector : Address}
    (h : (Order.resolve signer n feeCollector).Ready l) :
    RefusedOnly Material (Deed.resolve slot signer n feeCollector l) := by
  obtain ⟨⟨b, hb, -⟩, ⟨config, hconfig, -⟩, ⟨r, hr, -⟩, -, ⟨t, ht, -⟩, -⟩ := id h
  unfold Deed.resolve
  simp only [hb, hconfig, hr, ht, ok_bind]
  refine (material_liftM _).bind fun _ => (material_liftM _).bind fun found => ?_
  cases found with
  | pending => exact fun e he => by cases he; trivial
  | expired => exact (material_liftM _).bind fun _ => refusedOnly_pure _
  | found seed =>
    exact (material_liftM _).bind fun resolved => (material_liftM _).bind fun recorded =>
      (short_split h resolved.1 resolved.2 recorded).material.bind fun _ =>
        (material_liftM _).bind fun _ => material_startNext

/-- What becomes of a claim in time is up to what is owed. -/
theorem refusedOnly_claim (h : (Order.claim signer n).Ready l) {r : Round Address}
    (hr : l.load .round (.round n) = .ok r) (hslot : slot ≤ r.expiresAt) :
    RefusedOnly (fun e => e.Material ∧ e ≠ .fault .roundExpired) (Deed.claim slot signer n l) := by
  have owes {α : Type} {x : Except Fault α} (hx : RefusedOnly Round.Owing x) :
      RefusedOnly (fun e => e.Material ∧ e ≠ .fault .roundExpired)
        (liftM x : Except Refusal α) := by
    intro e he
    obtain ⟨f, hf, rfl⟩ := liftM_eq_error_iff.mp he
    refine ⟨trivial, fun hc => ?_⟩
    cases hc
    rcases hx _ hf with hc | hc | hc <;> cases hc
  have pays {α : Type} {x : Except Refusal α} (hx : RefusedOnly Refusal.Short x) :
      RefusedOnly (fun e => e.Material ∧ e ≠ .fault .roundExpired) x :=
    hx.mono fun e he => ⟨he.material, he.ne_fault _⟩
  obtain ⟨⟨own, hown, -⟩, -, ⟨t, ht, -⟩, hvault, htarget, -⟩ := h
  unfold Deed.claim
  simp only [hown, hr, ht, require_of_true hslot, liftM_ok, ok_bind]
  refine (owes (r.owing_payout own)).bind fun payout =>
    (owes ((Round.owing_add _ _).bind fun _ => Round.owing_add _ _)).bind fun amount =>
    (owes (Round.owing_add _ _)).bind fun total =>
    (owes ((Round.owing_add _ _).bind fun _ => refusedOnly_pure _)).bind fun claimed => ?_
  by_cases hpos : 0 < amount
  · simp only [if_pos hpos]
    refine (pays (Ledger.short_transfer ?_ ?_)).bind fun _ => pays Ledger.short_close
    · exact (hvault.store (by simp)).store (by simp)
    · exact (htarget.store (by simp)).store (by simp)
  · simp only [if_neg hpos, pure_bind]
    exact pays Ledger.short_close

/-- A claim too late is refused as that. -/
theorem claim_of_lt (h : (Order.claim signer n).Ready l) {r : Round Address}
    (hr : l.load .round (.round n) = .ok r) (hslot : r.expiresAt < slot) :
    Deed.claim slot signer n l = .error (.fault .roundExpired) := by
  obtain ⟨⟨own, hown, -⟩, -, ⟨t, ht, -⟩, -⟩ := h
  unfold Deed.claim require
  rw [hown, ok_bind, hr, ok_bind, ht, ok_bind, if_neg (Nat.not_le.mpr hslot)]
  rfl

theorem material_claim (h : (Order.claim signer n).Ready l) :
    RefusedOnly Material (Deed.claim slot signer n l) := by
  obtain ⟨-, ⟨r, hr, -⟩, -⟩ := id h
  rcases Nat.lt_or_ge r.expiresAt slot with hlate | htime
  · rw [claim_of_lt h hr hlate]
    rintro e ⟨⟩
    trivial
  · exact (refusedOnly_claim h hr htime).mono fun _ => And.left

theorem material_bet {kind : Spot.Kind} {number amount : Nat} {spot : Spot}
    (h : (Order.bet signer kind number amount).Ready l) :
    RefusedOnly Material (Deed.bet slot signer spot amount l) := by
  obtain ⟨⟨b, hb, -⟩, ⟨t, ht, -⟩, hseat, hsource, hvault, -⟩ := h
  unfold Deed.bet
  simp only [hb, ht, ok_bind]
  refine (material_liftM _).bind fun _ => (material_liftM _).bind fun _ =>
    (material_takeSeat hseat).bind_of_ok fun p hp => (material_liftM _).bind fun phase =>
    (material_liftM _).bind fun placed => (material_liftM _).bind fun reserved => ?_
  have hag (o : Address) : Ledger.Agree l ((p.1.store .seat (.seat signer) placed.1).store .table
      .table reserved) (.wallet o .crap) :=
    ((agree_takeSeat hp (by simp)).trans (Ledger.agree_store _ _ _ (by simp))).trans
      (Ledger.agree_store _ _ _ (by simp))
  exact (short_deposit (hsource.of_agree (hag _))
    (hvault.imp (·.of_agree (hag _)) (·.of_agree (hag _)))).material

theorem material_fund {amount : Nat} (h : (Order.fund signer amount).Ready l) :
    RefusedOnly Material (Deed.fund signer amount l) := by
  obtain ⟨⟨t, ht, -⟩, hsource, hvault, -⟩ := h
  unfold Deed.fund
  simp only [ht, ok_bind]
  refine (material_liftM _).bind fun _ => short_furnish.material.bind_of_ok fun m hm =>
    (material_liftM _).bind fun funded => ?_
  exact (Ledger.short_transfer ((hsource.furnish hm).store (by simp))
    ((opened_furnish hvault hm).store (by simp))).material

/-- What an order that is ready does is refused by the game, or for want of tokens or lamports. -/
theorem material_deed {o : Order} (h : o.Ready l) : RefusedOnly Material (o.deed slot l) := by
  cases o with
  | openHouse signer =>
    show RefusedOnly Material (Deed.openHouse slot signer l)
    unfold Deed.openHouse
    have enters {l : Ledger} {payer a : Address} (kind : Record.Kind)
        (body : kind.Body Address) : RefusedOnly Material (l.enter kind payer a body) :=
      (short_enter kind body).material
    exact (enters _ _).bind fun _ => (material_liftM _).bind fun _ =>
      (enters _ _).bind fun _ => (enters _ _).bind fun _ => (enters _ _).bind fun _ =>
      (material_liftM _).bind fun _ => enters _ _
  | configure signer settings =>
    obtain ⟨current, hcurrent, -⟩ := h
    show RefusedOnly Material (Deed.configure signer _ l)
    unfold Deed.configure
    rw [hcurrent, ok_bind]
    exact (material_liftM _).bind fun _ => (material_liftM _).bind fun _ => refusedOnly_pure _
  | stake signer n square amount prediction => exact material_stake h
  | resolve signer n feeCollector => exact material_resolve h
  | claim signer n => exact material_claim h
  | bet signer kind number amount => exact (material_liftM _).bind fun _ => material_bet h
  | settle signer owner n =>
    obtain ⟨⟨config, hconfig, -⟩, ⟨t, ht, -⟩, ⟨s, hs, -⟩, ⟨r, hr, -⟩⟩ := h
    show RefusedOnly Material (Deed.settle owner n l)
    unfold Deed.settle
    simp only [hconfig, ht, hs, hr, ok_bind]
    exact (material_liftM _).bind fun _ => (material_liftM _).bind fun _ =>
      (material_liftM _).bind fun _ => refusedOnly_pure _
  | advance signer n =>
    obtain ⟨⟨t, ht, -⟩, ⟨r, hr, -⟩⟩ := h
    show RefusedOnly Material (Deed.advance n l)
    unfold Deed.advance
    simp only [ht, hr, ok_bind]
    refine (material_liftM _).bind fun _ => (material_liftM _).bind fun rolled => ?_
    cases rolled.2 with
    | none => exact refusedOnly_pure _
    | some call => exact refusedOnly_pure _
  | collect signer =>
    obtain ⟨⟨s, hs, -⟩, hvault, htarget, -⟩ := h
    show RefusedOnly Material (Deed.collect signer l)
    unfold Deed.collect
    simp only [hs, ok_bind]
    exact (material_liftM _).bind fun _ =>
      (Ledger.short_transfer (hvault.store (by simp)) (htarget.store (by simp))).material
  | fund signer amount => exact material_fund h
  | forfeit signer owner =>
    obtain ⟨⟨t, ht, -⟩, ⟨s, hs, -⟩⟩ := h
    show RefusedOnly Material (Deed.forfeit owner l)
    unfold Deed.forfeit
    simp only [ht, hs, ok_bind]
    exact (material_liftM _).bind fun _ => (material_liftM _).bind fun _ =>
      (material_liftM _).bind fun _ => refusedOnly_pure _

end Refusals

/-! ## The client and the house -/

namespace House

theorem does_serve {o : Order} {i : Instruction} (hbuild : o.build = some i)
    (h : o.Ready l) (hg : Grants grant) :
    Does (serve slot o.request (i.accounts.map grant) l) (o.deed slot l) := by
  cases o with
  | openHouse signer => cases hbuild; exact does_openHouse hg h
  | configure signer settings => cases hbuild; exact does_configure hg h
  | stake signer n square amount prediction => cases hbuild; exact does_stake hg h
  | resolve signer n feeCollector => exact does_resolve hg hbuild h
  | claim signer n => cases hbuild; exact does_claim hg h
  | bet signer kind number amount =>
    cases hbuild
    show Does (do let spot ← spotOf kind.code number; _) _
    rw [spotOf, Spot.Kind.ofCode?_code]
    exact .value fun spot _ => does_bet hg h
  | settle signer owner n => cases hbuild; exact does_settle hg h
  | advance signer n => cases hbuild; exact does_advance hg h
  | collect signer => cases hbuild; exact does_collect hg h
  | fund signer amount => cases hbuild; exact does_fund hg h
  | forfeit signer owner => cases hbuild; exact does_forfeit hg h

/-- The house reads what was ordered. -/
theorem decode_build {o : Order} {i : Instruction} (hbuild : o.build = some i) (hfits : o.Fits) :
    Request.decode i.data = some o.request := by
  obtain ⟨-, hdata⟩ := Order.of_build hbuild
  rw [hdata]
  exact Request.decode_encode hfits

/-- An order that is ready is done by the instruction into which it is built. -/
theorem process_does {o : Order} {i : Instruction} (hbuild : o.build = some i) (hfits : o.Fits)
    (hready : o.Ready l) : Does (process slot i l) (o.deed slot l) := by
  obtain ⟨hprogram, -⟩ := Order.of_build hbuild
  obtain ⟨grant, hgrant, haccounts⟩ := exists_grants (Order.steady hbuild)
  rw [process_of_request hprogram (decode_build hbuild hfits), haccounts]
  exact does_serve hbuild hready hgrant

/-- Of any instruction whose request is of a kind that takes arguments, only those with exactly the
kind's bytes of arguments are requests. -/
theorem process_of_length {k : Request.Kind} {length : Nat} (hk : k.argumentLength? = some length)
    {args : List UInt8} (hargs : args.length ≠ length) (slot : Nat) (accounts : List Access)
    (l : Ledger) :
    process slot ⟨.program, accounts, UInt8.ofNat k.code :: args⟩ l = .error .invalidRequest := by
  have hnone : Request.decode (UInt8.ofNat k.code :: args) = none := by
    rw [Request.decode_cons, ← Option.not_isSome_iff_eq_none, Request.Kind.parse?_isSome_iff]
    exact fun h => hargs (h length hk)
  unfold process
  rw [demand_of_true rfl, ok_bind, hnone]

/-- The client and the house agree. Every order is built into an instruction, but for the one to
resolve the last round that has a number. The house reads from its bytes the request with the very
arguments that were ordered, and if what the order is about is there, the order's deed is done: no
check of accounts refuses it. A request of a kind that takes arguments is refused as none with
any other number of bytes after its kind. -/
theorem orders_understood (o : Order) (hfits : o.Fits) :
    (o.build = none ↔ ∃ signer round feeCollector,
      o = .resolve signer round feeCollector ∧ Amount.limit ≤ round + 1)
    ∧ (∀ i, o.build = some i →
      Request.decode i.data = some o.request
      ∧ ∀ slot l, o.Ready l →
        Session.ledger <$> process slot i l = o.deed slot l
        ∧ RefusedOnly Refusal.Material (process slot i l))
    ∧ ∀ length, o.request.kind.argumentLength? = some length →
      ∀ args, args.length ≠ length → ∀ slot accounts l,
        process slot ⟨.program, accounts, UInt8.ofNat o.request.kind.code :: args⟩ l
          = .error .invalidRequest := by
  refine ⟨o.build_eq_none_iff, fun i hbuild => ?_, fun length hlength args hargs slot accounts l =>
    process_of_length hlength hargs slot accounts l⟩
  refine ⟨decode_build hbuild hfits, fun slot l hready => ?_⟩
  have hdoes : Does (process slot i l) (o.deed slot l) := process_does hbuild hfits hready
  exact ⟨hdoes, fun e he => material_deed hready e (hdoes.error_iff.mp he)⟩

/-- Another stake of the admin, who staked before, on the board of round 1. -/
def thirdStake : Order := .stake .admin 1 14 70 0

theorem ready_thirdStake : thirdStake.Ready outdated := by
  refine ⟨?_, ?_, .inr ?_, ⟨{ mint := .mint .rng, owner := .admin, amount := 3900 },
    eq_ok_of_toOption (by decide +kernel), rfl, rfl, by decide, by decide⟩,
    .inr ⟨{ mint := .mint .rng, owner := .treasury, amount := 1100 },
      eq_ok_of_toOption (by decide +kernel), rfl, rfl, by decide, by decide⟩, ?_⟩
  · exact exists_of_toOption_map (by decide +kernel)
  · exact exists_of_toOption_map (by decide +kernel)
  · exact exists_of_toOption_map (by decide +kernel)
  · unfold Ledger.Runs
    decide +kernel

theorem orders_understood_thirdStake :
    Session.ledger <$> process 3 (Client.stake .admin 1 14 70 0) outdated
        = Deed.stake 3 .admin 1 14 70 0 outdated
      ∧ RefusedOnly Refusal.Material (process 3 (Client.stake .admin 1 14 70 0) outdated)
      ∧ process 3 ⟨.program, (Client.stake .admin 1 14 70 0).accounts,
          UInt8.ofNat Request.Kind.stake.code :: Bytes.ofNat 8 70⟩ outdated
        = .error .invalidRequest := by
  have hfits : thirdStake.Fits := ⟨show 70 < Nat.pow 256 8 by decide,
    show 14 < Nat.pow 256 1 by decide, show 0 < Nat.pow 256 1 by decide⟩
  obtain ⟨-, hbuilt, hlength⟩ := orders_understood thirdStake hfits
  obtain ⟨-, hdone⟩ := hbuilt _ rfl
  obtain ⟨hdeed, hrefused⟩ := hdone 3 outdated ready_thirdStake
  exact ⟨hdeed, hrefused, hlength 10 rfl _ (by decide) _ _ _⟩

end House

end DiceHouse
