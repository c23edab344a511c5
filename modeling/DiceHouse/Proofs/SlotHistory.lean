import DiceHouse.Amount
import DiceHouse.SlotHistory
import Mathlib.Data.List.Pairwise

/-!
# The seed does not depend on when it is looked up

Slots come one after another and form a chain; the history shows a window of it that slides forward.
A lookup is trusted only while the window still has a slot from before the seed slot, and then what
it finds is the first slot of the whole chain from the seed slot on. So whoever looks it up, and
whenever, finds the same hash or none, and once the answer has changed it never changes back.

A window that is cut at the seed slot into `old` and `young` tells all of this by which of the two
parts are empty: `Chain.Window.lookup_snapshot`. For bytes that show no chain there is
`exists_lists_of_found`: a hash that was found is listed with a slot from the seed slot on.
-/

namespace DiceHouse.SlotHistory

/-! ## Entries in bytes -/

/-- A number in eight bytes is read as it was written. -/
theorem toNat_word {n : Nat} (h : n < Amount.limit) : Bytes.toNat (Bytes.ofNat 8 n) = n :=
  @Bytes.toNat_ofNat_of_lt 8 n h

/-- A slot with its hash. -/
structure Entry where
  slot : Nat
  hash : Bytes32
  deriving DecidableEq, Repr

namespace Entry

def write (e : Entry) : List UInt8 := Bytes.ofNat 8 e.slot ++ e.hash.toList

def read (bytes : List UInt8) : Entry := ⟨Bytes.toNat (bytes.take 8), Bytes.take32 (bytes.drop 8)⟩

@[simp] theorem length_write (e : Entry) : e.write.length = entryLength := by
  simp [write, entryLength]

theorem toNat_take_write {e : Entry} (h : e.slot < Amount.limit) :
    Bytes.toNat (e.write.take 8) = e.slot := by
  rw [write, List.take_left' (Bytes.length_ofNat 8 e.slot)]
  exact toNat_word h

theorem take32_drop_write (e : Entry) : Bytes.take32 (e.write.drop 8) = e.hash := by
  rw [write, List.drop_left' (Bytes.length_ofNat 8 e.slot), Bytes.take32_toList]

end Entry

/-- The history of these slots, given oldest first, in bytes; anything may follow. -/
def write (entries : List Entry) (rest : List UInt8) : List UInt8 :=
  Bytes.ofNat 8 entries.length ++ (entries.reverse.flatMap Entry.write ++ rest)

/-- Bytes list an entry among so many as their count says. -/
def Lists (data : List UInt8) (e : Entry) : Prop :=
  ∃ k < Bytes.toNat (data.take 8), 8 + entryLength * (k + 1) ≤ data.length ∧
    e = Entry.read ((data.drop (8 + entryLength * k)).take entryLength)

variable {seedSlot n : Nat} {data rest : List UInt8} {candidate : Option Bytes32} {hash : Bytes32}

/-! ## Any bytes -/

/-- What a scan finds is the last hash seen before, or that of an entry from the seed slot on. -/
theorem exists_of_scan_found (h : scan seedSlot n data candidate = .ok (.found hash)) :
    candidate = some hash ∨ ∃ k < n, entryLength * (k + 1) ≤ data.length ∧ ∃ e : Entry,
      e = Entry.read ((data.drop (entryLength * k)).take entryLength) ∧ seedSlot ≤ e.slot ∧
        e.hash = hash := by
  induction n generalizing data candidate with
  | zero => cases candidate <;> cases h
  | succ n ih =>
    unfold scan at h
    dsimp only at h
    split at h
    · cases h
    · next hlong =>
      have hlength : entryLength ≤ data.length := by
        rw [List.length_take] at hlong
        omega
      split at h
      · -- the slot is too old, and the one seen before it is found
        cases candidate with
        | none => cases h
        | some last =>
          cases h
          exact .inl rfl
      · next hyoung =>
        right
        rcases ih h with hlast | ⟨k, hk, hend, e, he, hslot, hhash⟩
        · refine ⟨0, Nat.zero_lt_succ n, ?_, Entry.read (data.take entryLength), ?_,
            Nat.le_of_not_lt hyoung, Option.some.inj hlast⟩
          · rw [Nat.zero_add, Nat.mul_one]
            exact hlength
          · rw [Nat.mul_zero, List.drop_zero]
        · rw [List.length_drop] at hend
          rw [List.drop_drop] at he
          refine ⟨k + 1, Nat.succ_lt_succ hk, ?_, e, ?_, hslot, hhash⟩
          · rw [Nat.mul_succ]
            omega
          · rw [Nat.mul_succ, Nat.add_comm]
            exact he

/-- A hash that was found is listed with a slot from the seed slot on. -/
theorem exists_lists_of_found (h : lookup data seedSlot = .ok (.found hash)) :
    ∃ e, Lists data e ∧ seedSlot ≤ e.slot ∧ e.hash = hash := by
  unfold lookup at h
  dsimp only at h
  split at h
  · cases h
  · next hlong =>
    rcases exists_of_scan_found h with hnone | ⟨k, hk, hend, e, he, hslot, hhash⟩
    · cases hnone
    · rw [List.length_take] at hlong
      rw [List.length_drop] at hend
      rw [List.drop_drop] at he
      exact ⟨e, ⟨k, hk, by omega, he⟩, hslot, hhash⟩

/-! ## Written entries -/

/-- What a scan does with the next entry. -/
theorem scan_entry {e : Entry} (h : e.slot < Amount.limit) :
    scan seedSlot (n + 1) (e.write ++ rest) candidate =
      if e.slot < seedSlot then .ok (candidate.elim .pending .found)
      else scan seedSlot n rest (some e.hash) := by
  have htake : (e.write ++ rest).take entryLength = e.write := List.take_left' e.length_write
  have hdrop : (e.write ++ rest).drop entryLength = rest := List.drop_left' e.length_write
  conv => lhs; unfold scan
  dsimp only
  rw [htake, hdrop, Entry.length_write, if_neg (Nat.lt_irrefl entryLength),
    Entry.toNat_take_write h, Entry.take32_drop_write]
  cases candidate <;> rfl

/-- A scan goes through all slots from the seed slot on and keeps the oldest. -/
theorem scan_young {young : List Entry} (hfits : ∀ e ∈ young, e.slot < Amount.limit)
    (hyoung : ∀ e ∈ young, seedSlot ≤ e.slot) :
    scan seedSlot (young.length + n) (young.reverse.flatMap Entry.write ++ rest) none
      = scan seedSlot n rest (young.head?.map Entry.hash) := by
  induction young generalizing n rest with
  | nil =>
    rw [List.length_nil, Nat.zero_add]
    rfl
  | cons e young ih =>
    have hlength : (e :: young).length + n = young.length + (n + 1) := by
      rw [List.length_cons]
      omega
    have hbytes : (e :: young).reverse.flatMap Entry.write ++ rest
        = young.reverse.flatMap Entry.write ++ (e.write ++ rest) := by
      rw [List.reverse_cons, List.flatMap_append, List.flatMap_singleton, List.append_assoc]
    rw [hlength, hbytes, ih (fun a ha => hfits a (List.mem_cons_of_mem e ha))
        (fun a ha => hyoung a (List.mem_cons_of_mem e ha)),
      scan_entry (hfits e List.mem_cons_self),
      if_neg (Nat.not_lt_of_le (hyoung e List.mem_cons_self))]
    rfl

/-- What slots before the seed slot and slots from it on tell, both given oldest first. -/
def verdict : List Entry → List Entry → Lookup
  | _, [] => .pending
  | [], _ :: _ => .expired
  | _ :: _, e :: _ => .found e.hash

section Verdict

variable {old young : List Entry}

theorem verdict_eq_pending_iff : verdict old young = .pending ↔ young = [] := by
  cases old <;> cases young <;> simp [verdict]

theorem verdict_eq_expired_iff : verdict old young = .expired ↔ old = [] ∧ young ≠ [] := by
  cases old <;> cases young <;> simp [verdict]

theorem verdict_eq_found_iff :
    verdict old young = .found hash ↔ old ≠ [] ∧ ∃ e, young.head? = some e ∧ e.hash = hash := by
  cases old <;> cases young <;> simp [verdict]

end Verdict

/-- A history that is split at the seed slot answers by which of its parts are empty. -/
theorem lookup_write {old young : List Entry} (hcount : (old ++ young).length < Amount.limit)
    (hfits : ∀ e ∈ old ++ young, e.slot < Amount.limit) (hold : ∀ e ∈ old, e.slot < seedSlot)
    (hyoung : ∀ e ∈ young, seedSlot ≤ e.slot) :
    lookup (write (old ++ young) rest) seedSlot = .ok (verdict old young) := by
  have hlength := Bytes.length_ofNat 8 (old ++ young).length
  have htake : (write (old ++ young) rest).take 8 = Bytes.ofNat 8 (old ++ young).length :=
    List.take_left' hlength
  have hdrop : (write (old ++ young) rest).drop 8
      = young.reverse.flatMap Entry.write ++ (old.reverse.flatMap Entry.write ++ rest) := by
    rw [write, List.drop_left' hlength, List.reverse_append, List.flatMap_append,
      List.append_assoc]
  have hsum : (old ++ young).length = young.length + old.length := by
    rw [List.length_append, Nat.add_comm]
  unfold lookup
  dsimp only
  rw [htake, hlength, if_neg (Nat.lt_irrefl 8), toNat_word hcount, hdrop, hsum,
    scan_young (fun e he => hfits e (List.mem_append_right old he)) hyoung]
  cases hreverse : old.reverse with
  | nil =>
    rw [List.reverse_eq_nil_iff.mp hreverse]
    cases young <;> rfl
  | cons e others =>
    -- the newest of the old slots ends the scan
    have he : e ∈ old := List.mem_reverse.mp (hreverse ▸ List.mem_cons_self)
    have hcons : old.length = others.length + 1 := by
      rw [← List.length_reverse, hreverse, List.length_cons]
    rw [List.flatMap_cons, List.append_assoc, hcons,
      scan_entry (hfits e (List.mem_append_left young he)), if_pos (hold e he)]
    cases old with
    | nil => cases he
    | cons => cases young <;> rfl

/-! ## Chains and their windows -/

/-- All slots that were ever produced, oldest first. -/
structure Chain where
  entries : List Entry
  increasing : entries.Pairwise fun a b => a.slot < b.slot
  fits : ∀ e ∈ entries, e.slot < Amount.limit

namespace Chain

/-- The slots that the history still has at some time: a piece of the chain. -/
structure Window (c : Chain) where
  before : List Entry
  entries : List Entry
  after : List Entry
  contiguous : before ++ (entries ++ after) = c.entries
  nonempty : entries ≠ []
  fits : entries.length < Amount.limit

/-- The earliest slot from the seed slot on. -/
structure FirstFrom (c : Chain) (seedSlot : Nat) (e : Entry) : Prop where
  mem : e ∈ c.entries
  reached : seedSlot ≤ e.slot
  earliest : ∀ e' ∈ c.entries, seedSlot ≤ e'.slot → e.slot ≤ e'.slot

variable {c : Chain} {e e' : Entry}

/-- A chain shows each slot once. -/
theorem eq_of_slot (he : e ∈ c.entries) (he' : e' ∈ c.entries) (h : e.slot = e'.slot) : e = e' := by
  obtain ⟨i, hi, rfl⟩ := List.getElem_of_mem he
  obtain ⟨j, hj, rfl⟩ := List.getElem_of_mem he'
  rcases Nat.lt_trichotomy i j with hij | rfl | hji
  · exact absurd h (Nat.ne_of_lt (List.pairwise_iff_getElem.mp c.increasing i j hi hj hij))
  · rfl
  · exact absurd h (Nat.ne_of_gt (List.pairwise_iff_getElem.mp c.increasing j i hj hi hji))

theorem FirstFrom.unique (h : c.FirstFrom seedSlot e) (h' : c.FirstFrom seedSlot e') : e = e' :=
  eq_of_slot h.mem h'.mem
    (Nat.le_antisymm (h.earliest e' h'.mem h'.reached) (h'.earliest e h.mem h.reached))

end Chain

/-- Slots in order, cut at the seed slot. -/
structure Cut (seedSlot : Nat) (entries old young : List Entry) : Prop where
  whole : entries = old ++ young
  older : ∀ e ∈ old, e.slot < seedSlot
  younger : ∀ e ∈ young, seedSlot ≤ e.slot

theorem exists_cut {entries : List Entry} (h : entries.Pairwise fun a b => a.slot < b.slot)
    (seedSlot : Nat) : ∃ old young, Cut seedSlot entries old young := by
  induction entries with
  | nil => exact ⟨[], [], rfl, nofun, nofun⟩
  | cons e entries ih =>
    obtain ⟨hfirst, hrest⟩ := List.pairwise_cons.mp h
    by_cases hslot : e.slot < seedSlot
    · obtain ⟨old, young, rfl, hold, hyoung⟩ := ih hrest
      exact ⟨e :: old, young, rfl, List.forall_mem_cons.mpr ⟨hslot, hold⟩, hyoung⟩
    · -- all slots after one that is not too old are not either
      refine ⟨[], e :: entries, rfl, nofun,
        List.forall_mem_cons.mpr ⟨Nat.le_of_not_lt hslot, fun a ha => ?_⟩⟩
      exact Nat.le_trans (Nat.le_of_not_lt hslot) (Nat.le_of_lt (hfirst a ha))

namespace Cut

variable {entries old young : List Entry}

theorem young_eq_nil_iff (h : Cut seedSlot entries old young) :
    young = [] ↔ ∀ e ∈ entries, e.slot < seedSlot := by
  rw [h.whole]
  constructor
  · rintro rfl e he
    rw [List.append_nil] at he
    exact h.older e he
  · intro hall
    refine List.eq_nil_iff_forall_not_mem.mpr fun e he => ?_
    exact Nat.not_lt_of_le (h.younger e he) (hall e (List.mem_append_right old he))

theorem old_eq_nil_iff (h : Cut seedSlot entries old young) :
    old = [] ↔ ∀ e ∈ entries, seedSlot ≤ e.slot := by
  rw [h.whole]
  constructor
  · rintro rfl e he
    exact h.younger e he
  · intro hall
    refine List.eq_nil_iff_forall_not_mem.mpr fun e he => ?_
    exact Nat.not_lt_of_le (hall e (List.mem_append_left young he)) (h.older e he)

end Cut

namespace Chain.Window

variable {c : Chain} {w w' : c.Window} {e : Entry}

/-- The history in bytes while it has this piece of the chain; anything may follow. -/
def snapshot (w : c.Window) (rest : List UInt8) : List UInt8 := write w.entries rest

/-- One window shows what came later than another does, or no sooner. -/
structure Slides (w w' : c.Window) : Prop where
  starts : w.before.length ≤ w'.before.length
  stops : (w.before ++ w.entries).length ≤ (w'.before ++ w'.entries).length

theorem increasing (w : c.Window) : w.entries.Pairwise fun a b => a.slot < b.slot := by
  have h := c.increasing
  rw [← w.contiguous] at h
  exact (List.pairwise_append.mp (List.pairwise_append.mp h).2.1).1

theorem mem_chain (he : e ∈ w.entries) : e ∈ c.entries := by
  rw [← w.contiguous]
  exact List.mem_append_right _ (List.mem_append_left _ he)

/-- A lookup cuts the window at the seed slot and tells by the parts. -/
theorem lookup_snapshot (w : c.Window) (rest : List UInt8) (seedSlot : Nat) :
    ∃ old young, Cut seedSlot w.entries old young ∧
      lookup (w.snapshot rest) seedSlot = .ok (verdict old young) := by
  obtain ⟨old, young, hcut⟩ := exists_cut w.increasing seedSlot
  have hcount := w.fits
  have hfits : ∀ e ∈ w.entries, e.slot < Amount.limit := fun e he => c.fits e (mem_chain he)
  rw [hcut.whole] at hcount hfits
  refine ⟨old, young, hcut, ?_⟩
  rw [snapshot, hcut.whole]
  exact lookup_write hcount hfits hcut.older hcut.younger

/-- The oldest of the slots from the seed slot on comes first in the whole chain, once a slot before
the seed slot is still there. -/
theorem firstFrom_of_cut {old young : List Entry} (h : Cut seedSlot w.entries old young)
    (hne : old ≠ []) (he : young.head? = some e) : c.FirstFrom seedSlot e := by
  obtain ⟨others, rfl⟩ := List.head?_eq_some_iff.mp he
  have hslot := h.younger e List.mem_cons_self
  have hchain : c.entries = (w.before ++ old) ++ (e :: (others ++ w.after)) := by
    rw [← w.contiguous, h.whole, List.append_assoc, List.append_assoc, List.cons_append]
  have hincreasing := c.increasing
  rw [hchain] at hincreasing
  obtain ⟨hbefore, hafter, -⟩ := List.pairwise_append.mp hincreasing
  refine ⟨?_, hslot, fun a ha hle => ?_⟩
  · rw [hchain]
    exact List.mem_append_right _ List.mem_cons_self
  rw [hchain, List.mem_append, List.mem_append, List.mem_cons] at ha
  obtain (ha | ha) | rfl | ha := ha
  · -- what came before the window is older than one of its old slots
    obtain ⟨last, hlast⟩ := List.exists_mem_of_ne_nil old hne
    have hlt := (List.pairwise_append.mp hbefore).2.2 a ha last hlast
    have := h.older last hlast
    omega
  · exact absurd (h.older a ha) (Nat.not_lt_of_le hle)
  · exact Nat.le_refl _
  · exact Nat.le_of_lt ((List.pairwise_cons.mp hafter).1 a ha)

theorem lookup_eq_pending_iff (w : c.Window) (rest : List UInt8) (seedSlot : Nat) :
    lookup (w.snapshot rest) seedSlot = .ok .pending ↔ ∀ e ∈ w.entries, e.slot < seedSlot := by
  obtain ⟨old, young, hcut, hlookup⟩ := lookup_snapshot w rest seedSlot
  rw [hlookup, Except.ok.injEq, verdict_eq_pending_iff, hcut.young_eq_nil_iff]

theorem lookup_eq_expired_iff (w : c.Window) (rest : List UInt8) (seedSlot : Nat) :
    lookup (w.snapshot rest) seedSlot = .ok .expired ↔ ∀ e ∈ w.entries, seedSlot ≤ e.slot := by
  obtain ⟨old, young, hcut, hlookup⟩ := lookup_snapshot w rest seedSlot
  rw [hlookup, Except.ok.injEq, verdict_eq_expired_iff, ← hcut.old_eq_nil_iff]
  refine and_iff_left_of_imp ?_
  rintro rfl rfl
  exact w.nonempty hcut.whole

theorem lookup_found_iff (w : c.Window) (rest : List UInt8) (seedSlot : Nat) :
    (∃ hash, lookup (w.snapshot rest) seedSlot = .ok (.found hash)) ↔
      (∃ e ∈ w.entries, seedSlot ≤ e.slot) ∧ ∃ e ∈ w.entries, e.slot < seedSlot := by
  obtain ⟨old, young, hcut, hlookup⟩ := lookup_snapshot w rest seedSlot
  have hyoung : (∃ e ∈ w.entries, seedSlot ≤ e.slot) ↔ young ≠ [] := by
    rw [Ne, hcut.young_eq_nil_iff]
    simp
  have hold : (∃ e ∈ w.entries, e.slot < seedSlot) ↔ old ≠ [] := by
    rw [Ne, hcut.old_eq_nil_iff]
    simp
  rw [hlookup, hyoung, hold]
  simp only [Except.ok.injEq, verdict_eq_found_iff]
  cases young <;> simp

/-- A hash that a window shows for a seed slot is that of the chain's first slot from there on. -/
theorem firstFrom_of_found (h : lookup (w.snapshot rest) seedSlot = .ok (.found hash)) :
    ∃ e, c.FirstFrom seedSlot e ∧ e.hash = hash := by
  obtain ⟨old, young, hcut, hlookup⟩ := lookup_snapshot w rest seedSlot
  rw [hlookup, Except.ok.injEq, verdict_eq_found_iff] at h
  obtain ⟨hne, e, he, hhash⟩ := h
  exact ⟨e, firstFrom_of_cut hcut hne he, hhash⟩

/-! ## A window that slides -/

/-- A later window starts no sooner: its slots come no sooner than the oldest of the one before. -/
theorem Slides.exists_older (h : Slides w w') (he : e ∈ w'.entries) :
    ∃ a ∈ w.entries, a.slot ≤ e.slot := by
  have hdrop : c.entries.drop w.before.length = w.entries ++ w.after := by
    rw [← w.contiguous, List.drop_left]
  have hdrop' : c.entries.drop w'.before.length = w'.entries ++ w'.after := by
    rw [← w'.contiguous, List.drop_left]
  have hmem : e ∈ w.entries ++ w.after := by
    rw [← hdrop]
    apply List.drop_subset_drop_left c.entries h.starts
    rw [hdrop']
    exact List.mem_append_left _ he
  have hincreasing := c.increasing.drop (i := w.before.length)
  rw [hdrop] at hincreasing
  rcases List.mem_append.mp hmem with hin | hafter
  · exact ⟨e, hin, Nat.le_refl _⟩
  · obtain ⟨a, ha⟩ := List.exists_mem_of_ne_nil w.entries w.nonempty
    exact ⟨a, ha, Nat.le_of_lt ((List.pairwise_append.mp hincreasing).2.2 a ha e hafter)⟩

/-- A later window stops no sooner: it has a slot that came no sooner than any of the one before. -/
theorem Slides.exists_newer (h : Slides w w') (he : e ∈ w.entries) :
    ∃ a ∈ w'.entries, e.slot ≤ a.slot := by
  have htake : c.entries.take (w.before ++ w.entries).length = w.before ++ w.entries := by
    rw [← w.contiguous, ← List.append_assoc, List.take_left]
  have htake' : c.entries.take (w'.before ++ w'.entries).length = w'.before ++ w'.entries := by
    rw [← w'.contiguous, ← List.append_assoc, List.take_left]
  have hmem : e ∈ w'.before ++ w'.entries := by
    rw [← htake']
    apply List.take_subset_take_left c.entries h.stops
    rw [htake]
    exact List.mem_append_right _ he
  have hincreasing := c.increasing.take (i := (w'.before ++ w'.entries).length)
  rw [htake'] at hincreasing
  rcases List.mem_append.mp hmem with hbefore | hin
  · obtain ⟨a, ha⟩ := List.exists_mem_of_ne_nil w'.entries w'.nonempty
    exact ⟨a, ha, Nat.le_of_lt ((List.pairwise_append.mp hincreasing).2.2 e hbefore a ha)⟩
  · exact ⟨e, hin, Nat.le_refl _⟩

end Chain.Window

/-- How far an answer has come: a slot is awaited, then there, then lost. -/
def Lookup.stage : Lookup → Nat
  | .pending => 0
  | .found _ => 1
  | .expired => 2

theorem Chain.Window.stage_le {c : Chain} {w w' : c.Window} {rest' : List UInt8} {a a' : Lookup}
    (h : w.Slides w') (hw : lookup (w.snapshot rest) seedSlot = .ok a)
    (hw' : lookup (w'.snapshot rest') seedSlot = .ok a') : a.stage ≤ a'.stage := by
  cases a with
  | pending => exact Nat.zero_le _
  | found hash =>
    cases a' with
    | pending =>
      -- the later window has slots as new as the one that was found
      obtain ⟨⟨e, he, hle⟩, -⟩ := (lookup_found_iff w rest seedSlot).mp ⟨hash, hw⟩
      obtain ⟨e', he', hle'⟩ := h.exists_newer he
      have hlt := (lookup_eq_pending_iff w' rest' seedSlot).mp hw' e' he'
      omega
    | found hash' => exact Nat.le_refl _
    | expired => exact Nat.le_succ 1
  | expired =>
    -- a window that lost the seed slot's first slot only loses more
    have hall := (lookup_eq_expired_iff w rest seedSlot).mp hw
    have hexpired := (lookup_eq_expired_iff w' rest' seedSlot).mpr fun e he => by
      obtain ⟨e', he', hle⟩ := h.exists_older he
      exact Nat.le_trans (hall e' he') hle
    rw [hw'] at hexpired
    cases hexpired
    exact Nat.le_refl _

/-- The seed of a slot does not depend on the window that it is looked up in. The lookup finds a
hash just when the window has slots on both sides of the seed slot, and then it is the hash of the
first slot of the whole chain from the seed slot on; it says pending just when all slots of the
window are older, and expired just when none is. Two windows that find a hash find the same one, and
as the window slides on the answer goes from pending to found to expired and never back. -/
theorem seed_fixed (c : Chain) (seedSlot : Nat) :
    (∀ (w : c.Window) (rest : List UInt8),
      ((∃ hash, lookup (w.snapshot rest) seedSlot = .ok (.found hash)) ↔
        (∃ e ∈ w.entries, seedSlot ≤ e.slot) ∧ ∃ e ∈ w.entries, e.slot < seedSlot) ∧
      (∀ hash, lookup (w.snapshot rest) seedSlot = .ok (.found hash) →
        ∃ e, c.FirstFrom seedSlot e ∧ e.hash = hash) ∧
      (lookup (w.snapshot rest) seedSlot = .ok .pending ↔ ∀ e ∈ w.entries, e.slot < seedSlot) ∧
      (lookup (w.snapshot rest) seedSlot = .ok .expired ↔ ∀ e ∈ w.entries, seedSlot ≤ e.slot)) ∧
    (∀ (w w' : c.Window) (rest rest' : List UInt8) (hash hash' : Bytes32),
      lookup (w.snapshot rest) seedSlot = .ok (.found hash) →
      lookup (w'.snapshot rest') seedSlot = .ok (.found hash') → hash = hash') ∧
    ∀ (w w' : c.Window) (rest rest' : List UInt8), w.Slides w' →
      ∃ a a', lookup (w.snapshot rest) seedSlot = .ok a ∧
        lookup (w'.snapshot rest') seedSlot = .ok a' ∧ a.stage ≤ a'.stage := by
  refine ⟨fun w rest => ⟨w.lookup_found_iff rest seedSlot,
    fun hash => Chain.Window.firstFrom_of_found, w.lookup_eq_pending_iff rest seedSlot,
    w.lookup_eq_expired_iff rest seedSlot⟩, ?_, ?_⟩
  · intro w w' rest rest' hash hash' h h'
    obtain ⟨e, he, rfl⟩ := Chain.Window.firstFrom_of_found h
    obtain ⟨e', he', rfl⟩ := Chain.Window.firstFrom_of_found h'
    rw [he.unique he']
  · intro w w' rest rest' hslides
    obtain ⟨old, young, -, h⟩ := w.lookup_snapshot rest seedSlot
    obtain ⟨old', young', -, h'⟩ := w'.lookup_snapshot rest' seedSlot
    exact ⟨_, _, h, h', Chain.Window.stage_le hslides h h'⟩

/-- A chain that skipped most of its slots. -/
def Chain.fourSlots : Chain where
  entries := [⟨99, Bytes.fill32 1⟩, ⟨101, Bytes.fill32 2⟩, ⟨600, Bytes.fill32 3⟩,
    ⟨601, Bytes.fill32 4⟩]
  increasing := by decide
  fits := by decide

/-- Its history before its last slot. -/
def Chain.firstThree : Chain.fourSlots.Window where
  before := []
  entries := [⟨99, Bytes.fill32 1⟩, ⟨101, Bytes.fill32 2⟩, ⟨600, Bytes.fill32 3⟩]
  after := [⟨601, Bytes.fill32 4⟩]
  contiguous := rfl
  nonempty := List.cons_ne_nil _ _
  fits := by decide

/-- Its history when the first slot was dropped for the last. -/
def Chain.lastThree : Chain.fourSlots.Window where
  before := [⟨99, Bytes.fill32 1⟩]
  entries := [⟨101, Bytes.fill32 2⟩, ⟨600, Bytes.fill32 3⟩, ⟨601, Bytes.fill32 4⟩]
  after := []
  contiguous := rfl
  nonempty := List.cons_ne_nil _ _
  fits := by decide

/-- The skipped slot 100 is seeded by slot 101, until slot 99 is lost. -/
theorem seed_fixed_fourSlots :
    lookup (Chain.firstThree.snapshot [0]) 100 = .ok (.found (Bytes.fill32 2)) ∧
      lookup (Chain.lastThree.snapshot []) 100 = .ok .expired ∧
      Chain.firstThree.Slides Chain.lastThree := by
  obtain ⟨hanswers, -, -⟩ := seed_fixed Chain.fourSlots 100
  obtain ⟨hash, hfound⟩ := (hanswers Chain.firstThree [0]).1.mpr
    ⟨⟨⟨101, Bytes.fill32 2⟩, by decide, by decide⟩, ⟨99, Bytes.fill32 1⟩, by decide, by decide⟩
  obtain ⟨e, he, rfl⟩ := (hanswers Chain.firstThree [0]).2.1 hash hfound
  have hfirst : Chain.fourSlots.FirstFrom 100 ⟨101, Bytes.fill32 2⟩ :=
    ⟨by decide, by decide, by decide⟩
  rw [he.unique hfirst] at hfound
  exact ⟨hfound, (hanswers Chain.lastThree []).2.2.2.mpr (by decide), by decide, by decide⟩

end DiceHouse.SlotHistory
