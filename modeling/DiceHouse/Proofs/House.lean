import Mathlib.Logic.Relation
import DiceHouse.House
import DiceHouse.Proofs.Operation.Administration
import DiceHouse.Proofs.Operation.Cage
import DiceHouse.Proofs.Operation.Play
import DiceHouse.Proofs.Operation.Staking
import DiceHouse.Proofs.SlotHistory

/-!
# The ledgers that a house can come to

A ledger is reachable if it comes about from one on which nothing has happened by instructions to
the house, each in any slot and with any accounts, and by what others do in between: they open
accounts and move tokens of their own, and the slot history moves on. An instruction that is refused
changes nothing; one that is granted is one of twelve things, `Granted`.

What is proved of all reachable ledgers goes by `Reachable.induction`, with one case for each of
them.
-/

namespace DiceHouse

/-! ## Granted instructions -/

/-- What a granted instruction did. -/
inductive House.Granted (accounts : List Access) (l m : Ledger) : Prop where
  | opening {slot : Nat} (g : Operation.Opening slot accounts l m)
  | configuration {new : Settings Address} (g : Operation.Configuration new accounts l m)
  | stake {slot amount square prediction : Nat}
    (g : Operation.Stake slot amount square prediction accounts l m)
  | rearming {slot : Nat} (g : Operation.Rearming slot accounts l m)
  | resolution {slot : Nat} (g : Operation.Resolution slot accounts l m)
  | claim {slot : Nat} (g : Operation.Claim slot accounts l m)
  | bet {slot : Nat} {spot : Spot} {amount : Nat} (g : Operation.Bet slot spot amount accounts l m)
  | settlement (g : Operation.Settlement accounts l m)
  | advance (g : Operation.Advance accounts l m)
  | collection (g : Operation.Collection accounts l m)
  | funding {amount : Nat} (g : Operation.Funding amount accounts l m)
  | forfeiture (g : Operation.Forfeiture accounts l m)

namespace House

variable {slot : Nat} {request : Request} {accounts : List Access} {l : Ledger} {s : Session}

theorem serve_ok (h : serve slot request accounts l = .ok s) : Granted accounts l s.ledger := by
  cases request with
  | openHouse => exact (Operation.openHouse_ok h).elim .opening
  | configure settings => exact (Operation.configure_ok h).elim .configuration
  | stake amount square prediction => exact (Operation.stake_ok h).elim .stake
  | resolve => exact (Operation.resolve_ok h).elim (·.elim .rearming) (·.elim .resolution)
  | claim => exact (Operation.claim_ok h).elim fun g _ => .claim g
  | bet amount kindCode number =>
    simp only [serve, bind_eq_ok_iff, liftM_eq_ok_iff] at h
    obtain ⟨spot, -, h⟩ := h
    exact (Operation.bet_ok h).elim .bet
  | settle => exact (Operation.settle_ok h).elim .settlement
  | advance => exact (Operation.advance_ok h).elim .advance
  | collect => exact (Operation.collect_ok h).elim fun g _ => .collection g
  | fund amount => exact (Operation.fund_ok h).elim .funding
  | forfeit => exact (Operation.forfeit_ok h).elim .forfeiture

/-- An instruction to the house is refused as the request is that it makes. -/
theorem serve_error {i : Instruction} {r : Refusal} (hne : r ≠ .wrongProgram)
    (hdecode : Request.decode i.data = some request) (h : process slot i l = .error r) :
    serve slot request (Access.unify i.accounts) l = .error r := by
  unfold process at h
  simp only [bind_eq_error_iff, demand_eq_error_iff, demand_eq_ok_iff, exists_const, hdecode] at h
  rcases h with ⟨-, hr⟩ | ⟨-, h⟩
  · exact absurd hr.symm hne
  · exact h

/-- An instruction that is granted makes a request, which is. -/
theorem process_serve {i : Instruction} (h : process slot i l = .ok s) :
    ∃ request, Request.decode i.data = some request ∧
      serve slot request (Access.unify i.accounts) l = .ok s := by
  unfold process at h
  simp only [bind_eq_ok_iff, demand_eq_ok_iff, exists_const] at h
  obtain ⟨-, h⟩ := h
  split at h
  · next request hdecode => exact ⟨request, hdecode, h⟩
  · cases h

theorem process_ok {i : Instruction} (h : process slot i l = .ok s) :
    Granted (Access.unify i.accounts) l s.ledger := by
  obtain ⟨request, -, hserve⟩ := process_serve h
  exact serve_ok hserve

/-- A granted request to open the house is an opening. -/
theorem opening_of_process {i : Instruction} (hdecode : Request.decode i.data = some .openHouse)
    (h : process slot i l = .ok s) :
    Nonempty (Operation.Opening slot (Access.unify i.accounts) l s.ledger) := by
  obtain ⟨request, hrequest, hserve⟩ := process_serve h
  cases hdecode.symm.trans hrequest
  exact Operation.openHouse_ok hserve

/-- A granted request to bet is a bet on some spot. -/
theorem bet_of_process {i : Instruction} {amount kindCode number : Nat}
    (hdecode : Request.decode i.data = some (.bet amount kindCode number))
    (h : process slot i l = .ok s) :
    ∃ spot, Nonempty (Operation.Bet slot spot amount (Access.unify i.accounts) l s.ledger) := by
  obtain ⟨request, hrequest, hserve⟩ := process_serve h
  cases hdecode.symm.trans hrequest
  simp only [serve, bind_eq_ok_iff, liftM_eq_ok_iff] at hserve
  obtain ⟨spot, -, hbet⟩ := hserve
  exact ⟨spot, Operation.bet_ok hbet⟩

/-- A granted request to stake is a stake. -/
theorem stake_of_process {i : Instruction} {amount square prediction : Nat}
    (hdecode : Request.decode i.data = some (.stake amount square prediction))
    (h : process slot i l = .ok s) :
    Nonempty (Operation.Stake slot amount square prediction (Access.unify i.accounts) l
      s.ledger) := by
  obtain ⟨request, hrequest, hserve⟩ := process_serve h
  cases hdecode.symm.trans hrequest
  exact Operation.stake_ok hserve

/-- A granted request to resolve puts the seed slot off, or is a resolution. -/
theorem resolve_of_process {i : Instruction} (hdecode : Request.decode i.data = some .resolve)
    (h : process slot i l = .ok s) :
    Nonempty (Operation.Rearming slot (Access.unify i.accounts) l s.ledger) ∨
      Nonempty (Operation.Resolution slot (Access.unify i.accounts) l s.ledger) := by
  obtain ⟨request, hrequest, hserve⟩ := process_serve h
  cases hdecode.symm.trans hrequest
  exact Operation.resolve_ok hserve

/-- A granted request to cash in a ticket is a claim. -/
theorem claim_of_process {i : Instruction} (hdecode : Request.decode i.data = some .claim)
    (h : process slot i l = .ok s) :
    Nonempty (Operation.Claim slot (Access.unify i.accounts) l s.ledger) := by
  obtain ⟨request, hrequest, hserve⟩ := process_serve h
  cases hdecode.symm.trans hrequest
  obtain ⟨g, -⟩ := Operation.claim_ok hserve
  exact ⟨g⟩

/-- Why a call is refused, if it is. -/
def refusal? (l : Ledger) (call : Nat × Instruction) : Option Refusal :=
  match process call.1 call.2 l with
  | .ok _ => none
  | .error refusal => some refusal

theorem process_of_refusal {i : Instruction} {e : Refusal} (h : refusal? l (slot, i) = some e) :
    process slot i l = .error e := by
  unfold refusal? at h
  cases hp : process slot i l with
  | ok s =>
    rw [hp] at h
    cases h
  | error e' =>
    rw [hp] at h
    exact congrArg _ (Option.some.inj h)

/-- What a report says of a call: nothing of one that is refused. -/
def reportOf {α : Type} (report : Request → List Access → Session → Option α) (l : Ledger)
    (call : Nat × Instruction) : Option α :=
  match Request.decode call.2.data, process call.1 call.2 l with
  | some request, .ok s => report request call.2.accounts s
  | _, _ => none

/-- What is so with nothing reported if the ledger stays, and with its report if a request is
granted, is so of every call with its report. -/
theorem step_report {α : Type} {report : Request → List Access → Session → Option α}
    {call : Nat × Instruction} {P : Ledger → Option α → Prop} (hsame : P l none)
    (hserve : ∀ {request s}, serve call.1 request (Access.unify call.2.accounts) l = .ok s →
      P s.ledger (report request call.2.accounts s)) :
    P (step l call) (reportOf report l call) := by
  unfold step reportOf
  cases hp : process call.1 call.2 l with
  | error r => cases Request.decode call.2.data <;> exact hsame
  | ok s =>
    obtain ⟨request, hdecode, h⟩ := process_serve hp
    rw [hdecode]
    exact hserve h

theorem step_cases (l : Ledger) (slot : Nat) (i : Instruction) :
    step l (slot, i) = l ∨ Granted (Access.unify i.accounts) l (step l (slot, i)) := by
  unfold step
  split
  · next s h => exact .inr (process_ok h)
  · exact .inl rfl

end House

/-! ## Signatures -/

/-- No account of the house's own signs: there is no secret key for any of them. -/
def Access.Authentic (accounts : List Access) : Prop :=
  ∀ a ∈ accounts, a.signed = true → a.address.seeds? = none

/-- An account counts under one of its listings. -/
theorem Access.mem_of_mem_unify {accounts : List Access} {a : Access}
    (h : a ∈ Access.unify accounts) : a ∈ accounts := by
  obtain ⟨b, hb, rfl⟩ := List.mem_map.mp h
  cases hf : accounts.find? fun c => c.address = b.address with
  | none =>
    rw [Option.getD_none]
    exact hb
  | some c =>
    rw [Option.getD_some]
    exact List.mem_of_find?_eq_some hf

theorem Access.Authentic.unify {accounts : List Access} (h : Access.Authentic accounts) :
    Access.Authentic (Access.unify accounts) :=
  fun a ha => h a (Access.mem_of_mem_unify ha)

/-- An account counts with the rights under which its address is listed first. -/
theorem Access.address_first (accounts : List Access) (a : Access) :
    ((accounts.find? fun b => b.address = a.address).getD a).address = a.address := by
  cases hfind : accounts.find? fun b => b.address = a.address with
  | none => rfl
  | some b => simpa using List.find?_some hfind

/-- What is so of every listing of an address is so of the one that counts. -/
theorem Access.first_of_forall {accounts : List Access} {a : Access} {p : Access → Prop}
    (h : ∀ b ∈ a :: accounts, b.address = a.address → p b) :
    p ((accounts.find? fun b => b.address = a.address).getD a) := by
  cases hfind : accounts.find? fun b => b.address = a.address with
  | none => exact h a List.mem_cons_self rfl
  | some b =>
    exact h b (List.mem_cons_of_mem _ (List.mem_of_find?_eq_some hfind))
      (by simpa using List.find?_some hfind)

theorem Access.Authentic.ne_of_seeds {accounts : List Access} (h : Access.Authentic accounts)
    {a : Access} (ha : a ∈ accounts) (hs : a.signed = true) {house : Address}
    (hseeds : house.seeds? ≠ none) : a.address ≠ house := by
  intro hc
  exact hseeds (hc ▸ h a ha hs)

/-- Only the first account signs, and it is not one of the house's own. -/
theorem Access.Authentic.of_first {signer : Access} {rest : List Access}
    (hseeds : signer.address.seeds? = none) (hrest : ∀ a ∈ rest, a.signed = false) :
    Access.Authentic (signer :: rest) := by
  intro a ha hs
  rcases List.mem_cons.mp ha with rfl | hmem
  · exact hseeds
  · rw [hrest a hmem] at hs
    cases hs

/-! ## Reachable ledgers -/

/-- What others do to the ledger: the house's own accounts stay, and nothing is taken from a purse
of the house. -/
structure Ledger.Outside (l m : Ledger) : Prop where
  own : ∀ a, a.seeds? ≠ none → Ledger.Agree l m a
  purses : ∀ o k, o.seeds? ≠ none → l.Purse o k →
    m.Purse o k ∧ l.balance (.wallet o k) ≤ m.balance (.wallet o k)

/-- Others may do nothing. -/
theorem Ledger.Outside.refl (l : Ledger) : l.Outside l where
  own a _ := .refl l a
  purses _ _ _ hp := ⟨hp, Nat.le_refl _⟩

theorem Ledger.Outside.load {l m : Ledger} {a : Address} (h : l.Outside m) (ha : a.seeds? ≠ none)
    (kind : Record.Kind) : m.load kind a = l.load kind a := (h.own a ha).load kind

/-- Others put what they like into an account that is neither the house's nor one of its purses. -/
theorem Ledger.outside_put (l : Ledger) {a : Address} (account : Account) (ha : a.seeds? = none)
    (hpurse : ∀ o k, o.seeds? ≠ none → Address.wallet o k ≠ a) : l.Outside (l.put a account) where
  own _ hb := agree_put l account fun hc => hb (hc ▸ ha)
  purses o k ho hp :=
    have hag := agree_put l account (hpurse o k ho)
    ⟨hp.of_agree hag, hag.balance.ge⟩

theorem Ledger.outside_putWallet (l : Ledger) {o : Address} (k : Token) (account : Account)
    (ho : o.seeds? = none) : l.Outside (l.put (.wallet o k) account) := by
  refine outside_put l account rfl fun house token hseeds hc => ?_
  cases hc
  exact hseeds ho

/-- The ledger on which others gave an owner a wallet with so much of a token. -/
def Ledger.withWallet (l : Ledger) (owner : Address) (token : Token) (amount : Nat) : Ledger :=
  l.put (.wallet owner token)
    { Account.untouched with
      owner := .tokenProgram
      contents := .wallet { mint := .mint token, owner, amount } }

theorem Ledger.outside_withWallet (l : Ledger) {owner : Address} (token : Token) (amount : Nat)
    (ho : owner.seeds? = none) : l.Outside (l.withWallet owner token amount) :=
  outside_putWallet l token _ ho

/-- The ledger on which the slot history has come to list these slots, given oldest first. -/
def Ledger.withHistory (l : Ledger) (slots : List SlotHistory.Entry) : Ledger :=
  l.put .slotHashes { Account.untouched with contents := .bytes (SlotHistory.write slots []) }

theorem Ledger.outside_withHistory (l : Ledger) (slots : List SlotHistory.Entry) :
    l.Outside (l.withHistory slots) :=
  outside_put l _ rfl fun _ _ _ hc => nomatch hc

namespace House

/-- The instructions that no account of the house's own has signed. -/
def Authentic (i : Instruction) : Prop := Access.Authentic i.accounts

/-- An instruction to the house, or something that others do. -/
inductive Move (allowed : Instruction → Prop) (outside : Ledger → Ledger → Prop) :
    Ledger → Ledger → Prop where
  | call {l : Ledger} (slot : Nat) {i : Instruction} (h : allowed i) :
    Move allowed outside l (step l (slot, i))
  | other {l m : Ledger} (h : outside l m) : Move allowed outside l m

/-- The ledgers that come about by instructions of some sort and what others do. -/
def Reachable (allowed : Instruction → Prop) (outside : Ledger → Ledger → Prop) (l : Ledger) :
    Prop :=
  ∃ used, Relation.ReflTransGen (Move allowed outside) (Ledger.genesis used) l

variable {allowed : Instruction → Prop} {outside : Ledger → Ledger → Prop} {l : Ledger}

theorem Reachable.genesis (used : List Address) :
    Reachable allowed outside (Ledger.genesis used) := ⟨used, .refl⟩

theorem Reachable.call (h : Reachable allowed outside l) (slot : Nat) {i : Instruction}
    (hi : allowed i) : Reachable allowed outside (step l (slot, i)) :=
  let ⟨used, hr⟩ := h
  ⟨used, hr.tail (.call slot hi)⟩

theorem Reachable.other {m : Ledger} (h : Reachable allowed outside l) (ho : outside l m) :
    Reachable allowed outside m :=
  let ⟨used, hr⟩ := h
  ⟨used, hr.tail (.other ho)⟩

/-- Whatever instructions are run one after another, the ledger stays reachable. -/
theorem Reachable.run (h : Reachable allowed outside l) {calls : List (Nat × Instruction)}
    (hc : ∀ c ∈ calls, allowed c.2) : Reachable allowed outside (House.run l calls) := by
  induction calls generalizing l with
  | nil => exact h
  | cons c calls ih =>
    exact ih (h.call c.1 (hc c List.mem_cons_self)) fun d hd => hc d (List.mem_cons_of_mem _ hd)

/-- What holds at first, is kept by every granted instruction and by what others do, holds of every
reachable ledger. -/
theorem Reachable.induction {inv : Ledger → Prop} (hfirst : ∀ used, inv (Ledger.genesis used))
    (hgranted : ∀ {i : Instruction} {l m : Ledger}, allowed i →
      Granted (Access.unify i.accounts) l m → inv l → inv m)
    (hother : ∀ {l m : Ledger}, outside l m → inv l → inv m)
    (h : Reachable allowed outside l) : inv l := by
  obtain ⟨used, hr⟩ := h
  induction hr with
  | refl => exact hfirst used
  | tail _ hmove ih =>
    cases hmove with
    | @call slot i hi =>
      -- a refused instruction leaves the invariant to the ledger it was refused on
      rcases step_cases _ slot i with hsame | hg
      · rw [hsame]
        exact ih
      · exact hgranted hi hg ih
    | other ho => exact hother ho ih

/-- More moves reach more. -/
theorem Reachable.mono {allowed' : Instruction → Prop} {outside' : Ledger → Ledger → Prop}
    (ha : ∀ i, allowed i → allowed' i) (ho : ∀ l m, outside l m → outside' l m)
    (h : Reachable allowed outside l) : Reachable allowed' outside' l := by
  obtain ⟨used, hr⟩ := h
  refine ⟨used, Relation.ReflTransGen.mono (fun _ _ hmove => ?_) _ _ hr⟩
  cases hmove with
  | call slot hi => exact .call slot (ha _ hi)
  | other hout => exact .other (ho _ _ hout)

end House

end DiceHouse
