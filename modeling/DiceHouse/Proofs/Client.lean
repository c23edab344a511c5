import DiceHouse.Client
import DiceHouse.Proofs.House
import DiceHouse.Proofs.Ledger.Opened

/-!
# The client's orders

An order is one of the client's eleven builders with its arguments. Where an account is listed more
than once it counts as it was listed first; since no order asks for more rights the second time,
every account keeps at least the rights that the order asks for. `Grants` is what the accounts that
count have over those that were asked for, and each check of an account that was asked for passes.
-/

namespace DiceHouse

namespace Client

/-- A builder of instructions with its arguments. -/
inductive Order where
  | openHouse (signer : Address)
  | configure (signer : Address) (settings : Settings Address)
  | stake (signer : Address) (round square amount prediction : Nat)
  | resolve (signer : Address) (round : Nat) (feeCollector : Address)
  | claim (signer : Address) (round : Nat)
  | bet (signer : Address) (kind : Spot.Kind) (number amount : Nat)
  | settle (signer owner : Address) (round : Nat)
  | advance (signer : Address) (round : Nat)
  | collect (signer : Address)
  | fund (signer : Address) (amount : Nat)
  | forfeit (signer owner : Address)

namespace Order

/-- The instruction that is built. -/
def build : Order → Option Instruction
  | .openHouse signer => some (Client.openHouse signer)
  | .configure signer settings => some (Client.configure signer settings)
  | .stake signer round square amount prediction =>
    some (Client.stake signer round square amount prediction)
  | .resolve signer round feeCollector => Client.resolve signer round feeCollector
  | .claim signer round => some (Client.claim signer round)
  | .bet signer kind number amount => some (Client.bet signer kind number amount)
  | .settle signer owner round => some (Client.settle signer owner round)
  | .advance signer round => some (Client.advance signer round)
  | .collect signer => some (Client.collect signer)
  | .fund signer amount => some (Client.fund signer amount)
  | .forfeit signer owner => some (Client.forfeit signer owner)

/-- What is asked of the house. -/
def request : Order → Request
  | .openHouse _ => .openHouse
  | .configure _ settings => .configure (settings.mapNames Address.toKey)
  | .stake _ _ square amount prediction => .stake amount square prediction
  | .resolve _ _ _ => .resolve
  | .claim _ _ => .claim
  | .bet _ kind number amount => .bet amount kind.code number
  | .settle _ _ _ => .settle
  | .advance _ _ => .advance
  | .collect _ => .collect
  | .fund _ amount => .fund amount
  | .forfeit _ _ => .forfeit

/-- Whether the arguments are of their types. -/
def Fits (o : Order) : Prop := o.request.Fits

theorem build_eq_none_iff (o : Order) : o.build = none ↔
    ∃ signer round feeCollector, o = .resolve signer round feeCollector
      ∧ Amount.limit ≤ round + 1 := by
  cases o with
  | resolve signer round feeCollector =>
    simp only [build, Client.resolve]
    split
    · next h => simp [h]
    · next h => simpa using h
  | _ => simp [build]

/-- Every instruction is a request of the house in its bytes. -/
theorem of_build {o : Order} {i : Instruction} (h : o.build = some i) :
    i.program = .program ∧ i.data = o.request.encode := by
  cases o with
  | resolve signer round feeCollector =>
    simp only [build, Client.resolve] at h
    split at h
    · cases h
      exact ⟨rfl, rfl⟩
    · cases h
  | _ =>
    cases h
    exact ⟨rfl, rfl⟩

end Order

end Client

namespace Access

open Client

/-! ## Rights -/

/-- The accounts that were asked for, with at least the rights that were. -/
structure Grants (grant : Access → Access) : Prop where
  address : ∀ a, (grant a).address = a.address
  signed : ∀ a, a.signed = true → (grant a).signed = true
  writable : ∀ a, a.writable = true → (grant a).writable = true

/-- No account is listed first with fewer rights than later. -/
def Steady (accounts : List Access) : Prop :=
  accounts.Pairwise fun first later => first.address = later.address →
    (later.signed = true → first.signed = true)
      ∧ (later.writable = true → first.writable = true)

/-- The account that counts is the same or was listed before. -/
theorem find_address {R : Access → Access → Prop} (hR : ∀ a, R a a) {accounts : List Access}
    (h : accounts.Pairwise fun first later => first.address = later.address → R first later)
    {a : Access} (ha : a ∈ accounts) :
    R ((accounts.find? fun b => b.address = a.address).getD a) a := by
  induction accounts with
  | nil => cases ha
  | cons b rest ih =>
    obtain ⟨hb, hrest⟩ := List.pairwise_cons.mp h
    by_cases haddress : b.address = a.address
    · rw [List.find?_cons_of_pos (by simpa using haddress), Option.getD_some]
      rcases List.mem_cons.mp ha with rfl | ha
      · exact hR a
      · exact hb a ha haddress
    · rw [List.find?_cons_of_neg (by simpa using haddress)]
      rcases List.mem_cons.mp ha with rfl | ha
      · exact absurd rfl haddress
      · exact ih hrest ha

theorem exists_grants {accounts : List Access} (h : Steady accounts) :
    ∃ grant, Grants grant ∧ unify accounts = accounts.map grant := by
  classical
  let first (a : Access) : Access := (accounts.find? fun b => b.address = a.address).getD a
  have hfirst : ∀ a ∈ accounts, (a.signed = true → (first a).signed = true)
      ∧ (a.writable = true → (first a).writable = true) :=
    fun a ha => find_address (fun _ => ⟨id, id⟩) h ha
  -- accounts that are not listed are left as they are
  refine ⟨fun a => if a ∈ accounts then first a else a, ⟨fun a => ?_, fun a ha => ?_,
    fun a ha => ?_⟩, ?_⟩
  · by_cases hmem : a ∈ accounts
    · simp only [if_pos hmem]
      exact address_first accounts a
    · simp only [if_neg hmem]
  · by_cases hmem : a ∈ accounts
    · simp only [if_pos hmem]
      exact (hfirst a hmem).1 ha
    · simpa only [if_neg hmem] using ha
  · by_cases hmem : a ∈ accounts
    · simp only [if_pos hmem]
      exact (hfirst a hmem).2 ha
    · simpa only [if_neg hmem] using ha
  · exact List.map_congr_left fun a ha => (if_pos ha).symm

namespace Grants

variable {grant : Access → Access} {l : Ledger} {a : Address} (h : Grants grant)

include h

theorem address_signs : (grant (signs a)).address = a := h.address _

theorem address_writes : (grant (writes a)).address = a := h.address _

theorem address_reads : (grant (reads a)).address = a := h.address _

theorem signs : (grant (signs a)).requireSigned = .ok () :=
  requireSigned_eq_ok_iff.mpr (h.signed _ rfl)

theorem writes : (grant (writes a)).requireWritable = .ok () :=
  requireWritable_eq_ok_iff.mpr (h.writable _ rfl)

theorem own : (grant (Client.writes a)).requireOwn a = .ok () :=
  requireOwn_eq_ok_iff.mpr ⟨h.writable _ rfl, h.address _⟩

theorem derived_writes : (grant (Client.writes a)).requireDerived a = .ok () :=
  requireDerived_eq_ok_iff.mpr (h.address _)

theorem derived_reads : (grant (reads a)).requireDerived a = .ok () :=
  requireDerived_eq_ok_iff.mpr (h.address _)

theorem named_signs : (grant (Client.signs a)).requireNamed a = .ok () :=
  requireNamed_eq_ok_iff.mpr (h.address _)

theorem named_writes : (grant (Client.writes a)).requireNamed a = .ok () :=
  requireNamed_eq_ok_iff.mpr (h.address _)

theorem named_reads : (grant (reads a)).requireNamed a = .ok () :=
  requireNamed_eq_ok_iff.mpr (h.address _)

theorem program (hrun : (l a).executable = true) : (grant (reads a)).requireProgram l a = .ok () :=
  requireProgram_eq_ok_iff.mpr ⟨h.address _, by rwa [h.address_reads]⟩

theorem fresh (hempty : (l a).contents.isEmpty = true) :
    (grant (Client.writes a)).requireFresh l a = .ok () :=
  requireFresh_eq_ok_iff.mpr ⟨by rwa [h.address_writes], h.writable _ rfl, h.address _⟩

theorem wallet {owner : Address} {token : Token} (hopened : l.Opened owner token) :
    (grant (Client.writes (.wallet owner token))).requireWallet l owner token = .ok () := by
  obtain ⟨w, hw, -, -, hsound, hstate⟩ := hopened
  refine requireWallet_eq_ok_iff.mpr ⟨h.writable _ rfl, h.address _, w, ?_, hsound, hstate⟩
  rwa [h.address_writes]

end Grants

end Access

namespace Client.Order

/-- No order asks for more rights the second time: the signer, who has all of them, stands first,
and no other account is listed to be read before it is listed to be written. -/
theorem steady {o : Order} {i : Instruction} (h : o.build = some i) :
    Access.Steady i.accounts := by
  cases o with
  | resolve signer round feeCollector =>
    simp only [build, Client.resolve] at h
    split at h
    · cases h
      simp [Access.Steady, ask, signs, writes, reads]
    · cases h
  | _ =>
    cases h
    simp [Access.Steady, Client.openHouse, Client.configure, Client.stake, Client.claim,
      Client.bet, Client.settle, Client.advance, Client.collect, Client.fund, Client.forfeit,
      ask, signs, writes, reads]

end Client.Order

end DiceHouse
