import Mathlib.Algebra.BigOperators.Group.Finset.Basic
import DiceHouse.Proofs.Ledger.Agree

/-!
# All records of a kind

The house keeps a seat for every player who bet, a round for every number and a ticket for every
player and round. `seats`, `rounds` and `tickets` gather them: the records of one kind at all the
addresses derived for it, each counted once. Only finitely many accounts ever changed and an account
that never changed holds no record, so the records are a multiset, and sums over all of them make
sense.

What the census says depends on nothing but what is loaded at those addresses: `kept_congr` when all
of them are as before, `kept_update` when all but one are.
-/

namespace DiceHouse

namespace Address

/-- The addresses at which seats are kept. -/
def isSeat : Address → Bool
  | seat _ => true
  | _ => false

/-- The addresses at which rounds are kept. -/
def isRound : Address → Bool
  | round _ => true
  | _ => false

/-- The addresses at which the tickets of a round are kept. -/
def isTicketOf (id : Nat) : Address → Bool
  | ticket _ n => n = id
  | _ => false

theorem isSeat_iff {a : Address} : a.isSeat = true ↔ ∃ owner, a = seat owner := by
  cases a <;> simp [isSeat]

theorem isRound_iff {a : Address} : a.isRound = true ↔ ∃ id, a = round id := by
  cases a <;> simp [isRound]

theorem isTicketOf_iff {a : Address} {id : Nat} :
    a.isTicketOf id = true ↔ ∃ owner, a = ticket owner id := by
  cases a <;> simp [isTicketOf]

theorem isTicketOf_ticket (owner : Address) (id : Nat) : (ticket owner id).isTicketOf id = true :=
  isTicketOf_iff.mpr ⟨owner, rfl⟩

end Address

namespace Ledger

/-- The addresses at which something ever changed. -/
def touched (l : Ledger) : Finset Address := ⟨l.changed.map Prod.fst, l.nodup⟩

/-- The record of a kind at an address, if there is one. -/
def recordAt (l : Ledger) (kind : Record.Kind) (a : Address) : Multiset (kind.Body Address) :=
  match l.load kind a with
  | .ok body => {body}
  | .error _ => 0

/-- All records of a kind at the addresses of some sort. -/
def kept (l : Ledger) (kind : Record.Kind) (sort : Address → Bool) :
    Multiset (kind.Body Address) :=
  ∑ a ∈ l.touched with sort a, l.recordAt kind a

/-- Every player's seat. -/
def seats (l : Ledger) : Multiset (Seat Address) := l.kept .seat Address.isSeat

/-- Every round. -/
def rounds (l : Ledger) : Multiset (Round Address) := l.kept .round Address.isRound

/-- Every ticket of a round that was not cashed in. -/
def tickets (l : Ledger) (id : Nat) : Multiset (Ticket Address) :=
  l.kept .ticket (Address.isTicketOf id)

variable {l m : Ledger} {kind : Record.Kind} {sort : Address → Bool} {a b : Address}
  {body new : kind.Body Address}

theorem recordAt_of_load (h : l.load kind a = .ok body) : l.recordAt kind a = {body} := by
  rw [recordAt, h]

theorem recordAt_of_absent (h : ∀ body, l.load kind a ≠ .ok body) : l.recordAt kind a = 0 := by
  unfold recordAt
  split
  · next body hb => exact absurd hb (h body)
  · rfl

theorem recordAt_congr (h : m.load kind a = l.load kind a) :
    m.recordAt kind a = l.recordAt kind a := by
  unfold recordAt
  rw [h]

/-- No account is the house's from the start. -/
theorem owner_firstAccount (a : Address) : (firstAccount a).owner ≠ .program := by
  cases a <;> simp [firstAccount, Account.untouched]

theorem load_of_not_touched (h : a ∉ l.touched) (body : kind.Body Address) :
    l.load kind a ≠ .ok body := by
  have hfind : l.changed.find? (fun p => p.1 = a) = none := by
    rw [List.find?_eq_none]
    intro p hp hpa
    refine h (List.mem_map.mpr ⟨p, hp, ?_⟩)
    simpa using hpa
  have haccount : l a = firstAccount a := by
    unfold Ledger.account
    rw [hfind]
  rw [load_of_owner_ne (by rw [haccount]; exact owner_firstAccount a)]
  exact fun hc => nomatch hc

/-- No account has a wallet from the start. -/
theorem wallet?_firstAccount (a : Address) (known : List Address) :
    (firstAccount a).contents.wallet? known = none := by
  cases a <;> rfl

/-- No wallet holds too much if none does that ever changed. -/
theorem balance_lt {limit : Nat} {a : Address} (hpos : 0 < limit)
    (h : ∀ p ∈ l.changed, ∀ w ∈ p.2.contents.wallet? l.known, w.amount < limit) :
    l.balance a < limit := by
  unfold balance
  cases hw : l.wallet a with
  | error _ => exact hpos
  | ok w =>
    have hkept : (l a).contents.wallet? l.known = some w := by
      unfold wallet at hw
      split at hw
      · split at hw
        · next w' hw' =>
          cases hw
          exact hw'
        · cases hw
      · cases hw
    unfold account at hkept
    split at hkept
    · next p hp => exact h p (List.mem_of_find?_eq_some hp) w hkept
    · rw [wallet?_firstAccount] at hkept
      cases hkept

/-- The census may look at more addresses than ever changed. -/
theorem kept_eq_sum {s : Finset Address} (h : l.touched ⊆ s) :
    l.kept kind sort = ∑ a ∈ s with sort a, l.recordAt kind a := by
  refine Finset.sum_subset (Finset.filter_subset_filter _ h) fun a ha hna => ?_
  have hs : sort a = true := (Finset.mem_filter.mp ha).2
  refine recordAt_of_absent (load_of_not_touched fun ht => hna ?_)
  exact Finset.mem_filter.mpr ⟨ht, hs⟩

theorem mem_kept : body ∈ l.kept kind sort ↔ ∃ a, sort a = true ∧ l.load kind a = .ok body := by
  unfold kept
  rw [Multiset.mem_sum]
  constructor
  · rintro ⟨a, ha, hb⟩
    refine ⟨a, (Finset.mem_filter.mp ha).2, ?_⟩
    cases hl : l.load kind a with
    | ok body' =>
      rw [recordAt_of_load hl, Multiset.mem_singleton] at hb
      rw [hb]
    | error r =>
      rw [recordAt_of_absent fun body hc => by rw [hl] at hc; cases hc] at hb
      exact absurd hb (Multiset.notMem_zero body)
  · rintro ⟨a, hs, hl⟩
    have ht : a ∈ l.touched := Classical.byContradiction fun hc => load_of_not_touched hc body hl
    refine ⟨a, Finset.mem_filter.mpr ⟨ht, hs⟩, ?_⟩
    rw [recordAt_of_load hl]
    exact Multiset.mem_singleton_self body

theorem kept_congr (h : ∀ a, sort a = true → m.load kind a = l.load kind a) :
    m.kept kind sort = l.kept kind sort := by
  have hl : l.touched ⊆ l.touched ∪ m.touched := Finset.subset_union_left
  have hm : m.touched ⊆ l.touched ∪ m.touched := Finset.subset_union_right
  rw [kept_eq_sum hl, kept_eq_sum hm]
  refine Finset.sum_congr rfl fun a ha => recordAt_congr (h a ?_)
  exact (Finset.mem_filter.mp ha).2

/-- When only one address is read differently, the census changes there and nowhere else. -/
theorem kept_update (hb : sort b = true)
    (h : ∀ a, sort a = true → a ≠ b → m.load kind a = l.load kind a) :
    ∃ rest, l.kept kind sort = l.recordAt kind b + rest ∧
      m.kept kind sort = m.recordAt kind b + rest := by
  -- both are counted over all addresses at which either ledger changed
  have hl : l.touched ⊆ insert b (l.touched ∪ m.touched) :=
    Finset.subset_union_left.trans (Finset.subset_insert b _)
  have hm : m.touched ⊆ insert b (l.touched ∪ m.touched) :=
    Finset.subset_union_right.trans (Finset.subset_insert b _)
  have hmem : b ∈ (insert b (l.touched ∪ m.touched)).filter (sort · = true) :=
    Finset.mem_filter.mpr ⟨Finset.mem_insert_self b _, hb⟩
  refine ⟨∑ a ∈ ((insert b (l.touched ∪ m.touched)).filter (sort · = true)).erase b,
    l.recordAt kind a, ?_, ?_⟩
  · rw [kept_eq_sum hl, Finset.add_sum_erase _ _ hmem]
  · rw [kept_eq_sum hm, ← Finset.add_sum_erase _ _ hmem]
    congr 1
    refine Finset.sum_congr rfl fun a ha => recordAt_congr (h a ?_ (Finset.ne_of_mem_erase ha))
    exact (Finset.mem_filter.mp (Finset.mem_of_mem_erase ha)).2

theorem kept_replace (hb : sort b = true)
    (h : ∀ a, sort a = true → a ≠ b → m.load kind a = l.load kind a)
    (hl : l.load kind b = .ok body) (hm : m.load kind b = .ok new) :
    ∃ rest, l.kept kind sort = body ::ₘ rest ∧ m.kept kind sort = new ::ₘ rest := by
  obtain ⟨rest, h₁, h₂⟩ := kept_update hb h
  rw [recordAt_of_load hl, Multiset.singleton_add] at h₁
  rw [recordAt_of_load hm, Multiset.singleton_add] at h₂
  exact ⟨rest, h₁, h₂⟩

theorem kept_insert (hb : sort b = true)
    (h : ∀ a, sort a = true → a ≠ b → m.load kind a = l.load kind a)
    (hl : ∀ body, l.load kind b ≠ .ok body) (hm : m.load kind b = .ok new) :
    m.kept kind sort = new ::ₘ l.kept kind sort := by
  obtain ⟨rest, h₁, h₂⟩ := kept_update hb h
  rw [recordAt_of_absent hl, zero_add] at h₁
  rw [recordAt_of_load hm, Multiset.singleton_add, ← h₁] at h₂
  exact h₂

theorem kept_erase (hb : sort b = true)
    (h : ∀ a, sort a = true → a ≠ b → m.load kind a = l.load kind a)
    (hl : l.load kind b = .ok body) (hm : ∀ body, m.load kind b ≠ .ok body) :
    l.kept kind sort = body ::ₘ m.kept kind sort := by
  obtain ⟨rest, h₁, h₂⟩ := kept_update hb h
  rw [recordAt_of_absent hm, zero_add] at h₂
  rw [recordAt_of_load hl, Multiset.singleton_add, ← h₂] at h₁
  exact h₁

/-- When only one address is read differently, a sum over all records of a kind changes by what was
there and is there now. -/
theorem sum_kept_update (f : kind.Body Address → Nat) (hb : sort b = true)
    (h : ∀ a, sort a = true → a ≠ b → m.load kind a = l.load kind a) :
    ((m.kept kind sort).map f).sum + ((l.recordAt kind b).map f).sum
      = ((l.kept kind sort).map f).sum + ((m.recordAt kind b).map f).sum := by
  obtain ⟨rest, h₁, h₂⟩ := kept_update hb h
  rw [h₁, h₂, Multiset.map_add, Multiset.map_add, Multiset.sum_add, Multiset.sum_add]
  omega

/-- In a sum over all records of a kind, a record that took the place of another does so too. -/
theorem sum_kept_replace (f : kind.Body Address → Nat) (hb : sort b = true)
    (h : ∀ a, sort a = true → a ≠ b → m.load kind a = l.load kind a)
    (hl : l.load kind b = .ok body) (hm : m.load kind b = .ok new) :
    ((m.kept kind sort).map f).sum + f body = ((l.kept kind sort).map f).sum + f new := by
  obtain ⟨rest, h₁, h₂⟩ := kept_replace hb h hl hm
  rw [h₁, h₂, Multiset.map_cons, Multiset.map_cons, Multiset.sum_cons, Multiset.sum_cons]
  omega

theorem sum_kept_insert (f : kind.Body Address → Nat) (hb : sort b = true)
    (h : ∀ a, sort a = true → a ≠ b → m.load kind a = l.load kind a)
    (hl : ∀ body, l.load kind b ≠ .ok body) (hm : m.load kind b = .ok new) :
    ((m.kept kind sort).map f).sum = ((l.kept kind sort).map f).sum + f new := by
  rw [kept_insert hb h hl hm, Multiset.map_cons, Multiset.sum_cons, Nat.add_comm]

/-- What holds of all records of a kind and of one that is written holds of all afterwards. -/
theorem forall_kept_update {p : kind.Body Address → Prop}
    (h : ∀ a, sort a = true → a ≠ b → m.load kind a = l.load kind a)
    (hm : ∀ body, m.load kind b = .ok body → p body)
    (hall : ∀ body ∈ l.kept kind sort, p body) : ∀ body ∈ m.kept kind sort, p body := by
  intro body hbody
  obtain ⟨a, ha, hload⟩ := mem_kept.mp hbody
  by_cases hab : a = b
  · exact hm body (hab ▸ hload)
  · rw [h a ha hab] at hload
    exact hall body (mem_kept.mpr ⟨a, ha, hload⟩)

/-! ## Seats, rounds and tickets -/

section Kinds

variable {o : Address} {n : Nat}

theorem mem_seats {s : Seat Address} : s ∈ l.seats ↔ ∃ o, l.load .seat (.seat o) = .ok s := by
  refine mem_kept.trans ⟨fun ⟨a, ha, h⟩ => ?_, fun ⟨o, h⟩ => ⟨.seat o, rfl, h⟩⟩
  obtain ⟨o, rfl⟩ := Address.isSeat_iff.mp ha
  exact ⟨o, h⟩

theorem mem_rounds {r : Round Address} : r ∈ l.rounds ↔ ∃ n, l.load .round (.round n) = .ok r := by
  refine mem_kept.trans ⟨fun ⟨a, ha, h⟩ => ?_, fun ⟨n, h⟩ => ⟨.round n, rfl, h⟩⟩
  obtain ⟨n, rfl⟩ := Address.isRound_iff.mp ha
  exact ⟨n, h⟩

theorem mem_tickets {t : Ticket Address} :
    t ∈ l.tickets n ↔ ∃ o, l.load .ticket (.ticket o n) = .ok t := by
  refine mem_kept.trans ⟨fun ⟨a, ha, h⟩ => ?_,
    fun ⟨o, h⟩ => ⟨.ticket o n, Address.isTicketOf_ticket o n, h⟩⟩
  obtain ⟨o, rfl⟩ := Address.isTicketOf_iff.mp ha
  exact ⟨o, h⟩

theorem seats_congr (h : ∀ o, m.load .seat (.seat o) = l.load .seat (.seat o)) :
    m.seats = l.seats := by
  refine kept_congr fun a ha => ?_
  obtain ⟨o, rfl⟩ := Address.isSeat_iff.mp ha
  exact h o

theorem rounds_congr (h : ∀ n, m.load .round (.round n) = l.load .round (.round n)) :
    m.rounds = l.rounds := by
  refine kept_congr fun a ha => ?_
  obtain ⟨n, rfl⟩ := Address.isRound_iff.mp ha
  exact h n

theorem tickets_congr (h : ∀ o, m.load .ticket (.ticket o n) = l.load .ticket (.ticket o n)) :
    m.tickets n = l.tickets n := by
  refine kept_congr fun a ha => ?_
  obtain ⟨o, rfl⟩ := Address.isTicketOf_iff.mp ha
  exact h o

/-! Only one of them was written. -/

theorem isSeat_frame (h : ∀ p, p ≠ o → m.load .seat (.seat p) = l.load .seat (.seat p)) :
    ∀ a, Address.isSeat a = true → a ≠ .seat o → m.load .seat a = l.load .seat a := by
  intro a ha hne
  obtain ⟨p, rfl⟩ := Address.isSeat_iff.mp ha
  exact h p fun hc => hne (hc ▸ rfl)

theorem isRound_frame (h : ∀ k, k ≠ n → m.load .round (.round k) = l.load .round (.round k)) :
    ∀ a, Address.isRound a = true → a ≠ .round n → m.load .round a = l.load .round a := by
  intro a ha hne
  obtain ⟨k, rfl⟩ := Address.isRound_iff.mp ha
  exact h k fun hc => hne (hc ▸ rfl)

/-- In a sum over the rounds, one that took the place of another does so too. -/
theorem sum_rounds_replace (f : Round Address → Nat) {r r' : Round Address}
    (h : ∀ k, k ≠ n → m.load .round (.round k) = l.load .round (.round k))
    (hl : l.load .round (.round n) = .ok r) (hm : m.load .round (.round n) = .ok r') :
    (m.rounds.map f).sum + f r = (l.rounds.map f).sum + f r' :=
  sum_kept_replace f rfl (isRound_frame h) hl hm

theorem sum_rounds_insert (f : Round Address → Nat) {r : Round Address}
    (h : ∀ k, k ≠ n → m.load .round (.round k) = l.load .round (.round k))
    (hl : ∀ r, l.load .round (.round n) ≠ .ok r) (hm : m.load .round (.round n) = .ok r) :
    (m.rounds.map f).sum = (l.rounds.map f).sum + f r :=
  sum_kept_insert f rfl (isRound_frame h) hl hm

theorem isTicketOf_frame
    (h : ∀ p, p ≠ o → m.load .ticket (.ticket p n) = l.load .ticket (.ticket p n)) :
    ∀ a, Address.isTicketOf n a = true → a ≠ .ticket o n →
      m.load .ticket a = l.load .ticket a := by
  intro a ha hne
  obtain ⟨p, rfl⟩ := Address.isTicketOf_iff.mp ha
  exact h p fun hc => hne (hc ▸ rfl)

end Kinds

end Ledger

end DiceHouse
