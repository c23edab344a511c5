import DiceHouse.Draw
import DiceHouse.Proofs.Checks
import Mathlib.Data.Int.CardIntervalMod
import Mathlib.Logic.Function.Iterate

/-!
# How fair a draw is

A draw looks at one word after another, each the first word of the digest hashed once more, and ends
with the first that lies below the cap. Nothing of this hangs on which hash it is.

The cap is a whole multiple of the bound, so the words below it fall into classes by their remainder
that all have one size: every number below the bound is hit by equally many words, every square of
the board by as many as any other, and every unit of stake too. Fewer words than the bound and one
more lie above the cap, however large the bound is.
-/

namespace DiceHouse.Draw

variable {hash : Bytes32 → Bytes32} {digest seed : Bytes32} {bound tries n round staked unit : Nat}
  {fault : Fault} {square : Square}

/-! ## The words of a draw -/

/-- The word that a draw looks at after so many rejections. -/
def word (hash : Bytes32 → Bytes32) (digest : Bytes32) (k : Nat) : Nat :=
  firstWord (hash^[k] digest)

/-- A draw ends with the word after so many rejections, the first one below the cap. -/
structure EndsAt (hash : Bytes32 → Bytes32) (digest : Bytes32) (bound k : Nat) : Prop where
  allowed : k ≤ maxRetries
  counts : word hash digest k < cap bound
  rejected : ∀ j < k, cap bound ≤ word hash digest j

theorem word_succ (hash : Bytes32 → Bytes32) (digest : Bytes32) (k : Nat) :
    word hash digest (k + 1) = word hash (hash digest) k := by
  unfold word
  rw [Function.iterate_succ_apply]

theorem firstWord_lt (digest : Bytes32) : firstWord digest < Amount.limit := by
  have hlength : (digest.toList.take 8).length = 8 := by
    rw [List.length_take, Vector.length_toList]
    rfl
  have hlt := Bytes.toNat_lt (digest.toList.take 8)
  rw [hlength] at hlt
  exact hlt

/-- The first word below the cap decides, if there is one among those that may be looked at. -/
theorem drawWithin_eq_ok_iff : drawWithin hash bound tries digest = .ok n ↔
    ∃ k < tries, word hash digest k < cap bound ∧ (∀ j < k, cap bound ≤ word hash digest j) ∧
      n = word hash digest k % bound := by
  induction tries generalizing digest with
  | zero =>
    constructor
    · intro h
      cases h
    · rintro ⟨k, hk, -⟩
      exact absurd hk (Nat.not_lt_zero k)
  | succ tries ih =>
    rw [drawWithin]
    split
    · next hcounts =>
      constructor
      · intro h
        cases h
        exact ⟨0, Nat.succ_pos tries, hcounts, fun j hj => absurd hj (Nat.not_lt_zero j), rfl⟩
      · rintro ⟨k, -, -, hrejected, rfl⟩
        -- the first word counts, so no later one is the first
        rcases Nat.eq_zero_or_pos k with rfl | hpos
        · rfl
        · exact absurd hcounts (Nat.not_lt_of_le (hrejected 0 hpos))
    · next hrejects =>
      rw [ih]
      constructor
      · rintro ⟨k, hk, hcounts, hrejected, rfl⟩
        refine ⟨k + 1, Nat.succ_lt_succ hk, ?_, fun j hj => ?_, ?_⟩
        · rwa [word_succ]
        · cases j with
          | zero => exact Nat.le_of_not_lt hrejects
          | succ j =>
            rw [word_succ]
            exact hrejected j (Nat.lt_of_succ_lt_succ hj)
        · rw [word_succ]
      · rintro ⟨k, hk, hcounts, hrejected, rfl⟩
        cases k with
        | zero => exact absurd hcounts hrejects
        | succ k =>
          rw [word_succ] at hcounts
          refine ⟨k, Nat.lt_of_succ_lt_succ hk, hcounts, fun j hj => ?_, by rw [word_succ]⟩
          rw [← word_succ]
          exact hrejected (j + 1) (Nat.succ_lt_succ hj)

/-- A draw gives up exactly if all words that it may look at are rejected. -/
theorem drawWithin_eq_error_iff : drawWithin hash bound tries digest = .error fault ↔
    fault = .drawExhausted ∧ ∀ k < tries, cap bound ≤ word hash digest k := by
  induction tries generalizing digest with
  | zero =>
    constructor
    · intro h
      exact ⟨(Except.error.inj h).symm, fun k hk => absurd hk (Nat.not_lt_zero k)⟩
    · rintro ⟨rfl, -⟩
      rfl
  | succ tries ih =>
    rw [drawWithin]
    split
    · next hcounts =>
      constructor
      · intro h
        cases h
      · rintro ⟨-, hrejected⟩
        exact absurd hcounts (Nat.not_lt_of_le (hrejected 0 (Nat.succ_pos tries)))
    · next hrejects =>
      rw [ih]
      refine and_congr_right fun _ => ?_
      constructor
      · intro hrejected k hk
        cases k with
        | zero => exact Nat.le_of_not_lt hrejects
        | succ k =>
          rw [word_succ]
          exact hrejected k (Nat.lt_of_succ_lt_succ hk)
      · intro hrejected k hk
        rw [← word_succ]
        exact hrejected (k + 1) (Nat.succ_lt_succ hk)

theorem draw_eq_ok_iff : draw hash digest bound = .ok n ↔
    ∃ k, EndsAt hash digest bound k ∧ n = word hash digest k % bound := by
  unfold draw
  rw [drawWithin_eq_ok_iff]
  constructor
  · rintro ⟨k, hk, hcounts, hrejected, hn⟩
    exact ⟨k, ⟨Nat.le_of_lt_succ hk, hcounts, hrejected⟩, hn⟩
  · rintro ⟨k, ⟨hk, hcounts, hrejected⟩, hn⟩
    exact ⟨k, Nat.lt_succ_of_le hk, hcounts, hrejected, hn⟩

theorem draw_eq_error_iff : draw hash digest bound = .error fault ↔
    fault = .drawExhausted ∧ ∀ k ≤ maxRetries, cap bound ≤ word hash digest k := by
  unfold draw
  rw [drawWithin_eq_error_iff]
  simp only [Nat.lt_succ_iff]

/-! ## Counting words -/

/-- All words of 64 bits. -/
def words : Finset Nat := Finset.range Amount.limit

/-- The words that are rejected under a bound. -/
def rejects (bound : Nat) : Finset Nat := words.filter fun w => cap bound ≤ w

/-- The words that count under a bound and are drawn as this number. -/
def hits (bound n : Nat) : Finset Nat := words.filter fun w => w < cap bound ∧ w % bound = n

theorem cap_le (bound : Nat) : cap bound ≤ Amount.greatest := Nat.div_mul_le_self _ _

theorem mem_hits {w : Nat} : w ∈ hits bound n ↔ w < cap bound ∧ w % bound = n := by
  unfold hits words
  rw [Finset.mem_filter, Finset.mem_range]
  refine and_iff_right_of_imp fun h => ?_
  calc w < cap bound := h.1
    _ ≤ Amount.greatest := cap_le bound
    _ < Amount.limit := by decide

/-- The numbers below the bound are hit alike: the cap is a whole multiple of the bound. -/
theorem card_hits (h : n < bound) : (hits bound n).card = cap bound / bound := by
  have hclass : hits bound n = (Finset.range (cap bound)).filter (· ≡ n [MOD bound]) := by
    ext w
    rw [mem_hits, Finset.mem_filter, Finset.mem_range, Nat.ModEq, Nat.mod_eq_of_lt h]
  have hwhole : cap bound % bound = 0 := Nat.mul_mod_left _ _
  rw [hclass, ← Nat.count_eq_card_filter_range, Nat.count_modEq_card _ (Nat.zero_lt_of_lt h),
    hwhole, if_neg (Nat.not_lt_zero _), Nat.add_zero]

/-- Above the cap there is no room for another multiple of the bound. -/
theorem card_rejects_le (hbound : 0 < bound) : (rejects bound).card ≤ bound := by
  have hinterval : rejects bound = Finset.Ico (cap bound) Amount.limit := by
    ext w
    unfold rejects words
    rw [Finset.mem_filter, Finset.mem_range, Finset.mem_Ico, and_comm]
  have hrest : Amount.greatest < cap bound + bound := Nat.lt_div_mul_add hbound
  have hlimit : Amount.limit = Amount.greatest + 1 := by decide
  rw [hinterval, Nat.card_Ico]
  omega

/-- Every word that a draw looks at is one of them, -/
theorem word_mem_words (hash : Bytes32 → Bytes32) (digest : Bytes32) (k : Nat) :
    word hash digest k ∈ words :=
  Finset.mem_range.mpr (firstWord_lt _)

/-- and each of them begins some digest. -/
theorem exists_firstWord {w : Nat} (h : w ∈ words) : ∃ digest, firstWord digest = w := by
  refine ⟨Bytes.take32 (Bytes.ofNat 8 w ++ List.replicate 24 0), ?_⟩
  have hwhole : (Bytes.ofNat 8 w ++ List.replicate 24 0).length = 32 := by
    rw [List.length_append, Bytes.length_ofNat, List.length_replicate]
  have hfirst : (Bytes.ofNat 8 w ++ List.replicate 24 0).take 8 = Bytes.ofNat 8 w :=
    List.take_left' (Bytes.length_ofNat 8 w)
  unfold firstWord
  rw [Bytes.toList_take32_of_length hwhole, hfirst]
  exact Bytes.toNat_ofNat_of_lt (Finset.mem_range.mp h)

/-! ## The draws of a round -/

/-- The digest that the square of a round is drawn from. -/
def squareDigest (seed : Bytes32) (round : Nat) : Bytes32 :=
  Keccak256.digest (seed.toList ++ Bytes.ofNat 8 round)

/-- The digest that the unit of the jackpot is drawn from. -/
def jackpotDigest (seed : Bytes32) (round : Nat) : Bytes32 :=
  Keccak256.digest (seed.toList ++ Bytes.ofNat 8 round ++ jackpotTag)

theorem draw_eq_ok_iff_mem_hits : draw hash digest bound = .ok n ↔
    ∃ k, EndsAt hash digest bound k ∧ word hash digest k ∈ hits bound n := by
  rw [draw_eq_ok_iff]
  refine exists_congr fun k => and_congr_right fun hends => ?_
  rw [mem_hits, eq_comm]
  exact (and_iff_right hends.counts).symm

/-- A square is drawn as its number. -/
theorem square_eq_ok_iff : Draw.square seed round = .ok square ↔
    draw rehash (squareDigest seed round) squareCount = .ok square.val := by
  unfold Draw.square
  rw [bind_eq_ok_iff]
  constructor
  · rintro ⟨n, hn, h⟩
    have hlt : n < squareCount := drawWithin_lt (by decide) hn
    rw [pure_eq_ok_iff] at h
    rw [← h, Fin.val_ofNat, Nat.mod_eq_of_lt hlt]
    exact hn
  · intro h
    refine ⟨square.val, h, ?_⟩
    rw [pure_eq_ok_iff]
    exact Fin.ofNat_val_eq_self square

theorem jackpot_of_pos (h : 0 < staked) :
    Draw.jackpot seed round staked = draw rehash (jackpotDigest seed round) staked :=
  if_neg h.ne'

/-- Draws are fair. Whatever the hash, the digest and the bound are, a draw tells the remainder of
the first word below the cap among the first and the sixteen after it, and gives up exactly if all
of these are rejected; what it tells is below the bound. Every word that it looks at has 64 bits,
and every such word can come. Each number below the bound is hit by equally many of them, and no
more than the bound are rejected. So each square of the board is hit by as many words as any other,
and so is each unit of the stake on a square. -/
theorem draws_fair (hash : Bytes32 → Bytes32) (digest : Bytes32) (hbound : 0 < bound) :
    (∀ n, draw hash digest bound = .ok n ↔
      ∃ k, EndsAt hash digest bound k ∧ n = word hash digest k % bound) ∧
    (∀ fault, draw hash digest bound = .error fault ↔
      fault = .drawExhausted ∧ ∀ k ≤ maxRetries, cap bound ≤ word hash digest k) ∧
    (∀ n, draw hash digest bound = .ok n → n < bound) ∧
    (∀ k, word hash digest k ∈ words) ∧ (∀ w ∈ words, ∃ digest, firstWord digest = w) ∧
    (∀ n < bound, (hits bound n).card = cap bound / bound) ∧
    (rejects bound).card ≤ bound ∧
    (∀ seed round square,
      (Draw.square seed round = .ok square ↔
        ∃ k, EndsAt rehash (squareDigest seed round) squareCount k ∧
          word rehash (squareDigest seed round) k ∈ hits squareCount square) ∧
      (hits squareCount square).card = cap squareCount / squareCount) ∧
    ∀ seed round staked unit, unit < staked →
      (Draw.jackpot seed round staked = .ok unit ↔
        ∃ k, EndsAt rehash (jackpotDigest seed round) staked k ∧
          word rehash (jackpotDigest seed round) k ∈ hits staked unit) ∧
      (hits staked unit).card = cap staked / staked := by
  refine ⟨fun n => draw_eq_ok_iff, fun fault => draw_eq_error_iff, ?_, word_mem_words hash digest,
    fun w hw => exists_firstWord hw, fun n hn => card_hits hn, card_rejects_le hbound, ?_, ?_⟩
  · intro n h
    exact drawWithin_lt hbound h
  · intro seed round square
    refine ⟨?_, card_hits square.isLt⟩
    rw [square_eq_ok_iff, draw_eq_ok_iff_mem_hits]
  · intro seed round staked unit hunit
    refine ⟨?_, card_hits hunit⟩
    rw [jackpot_of_pos (Nat.zero_lt_of_lt hunit), draw_eq_ok_iff_mem_hits]

/-- A draw whose first word is the greatest of all, and is rejected. -/
theorem draws_fair_secondTry :
    draw (fun _ => Bytes.fill32 3) (Bytes.fill32 255) 36 = .ok 15 ∧
      (hits 36 15).card = 512409557603043100 ∧ (rejects 36).card ≤ 36 := by
  obtain ⟨hok, -, -, -, -, hhits, hrejects, -⟩ :=
    draws_fair (fun _ => Bytes.fill32 3) (Bytes.fill32 255) (Nat.succ_pos 35)
  have hends : EndsAt (fun _ => Bytes.fill32 3) (Bytes.fill32 255) 36 1 := by
    refine ⟨by decide, by decide, fun j hj => ?_⟩
    obtain rfl : j = 0 := by omega
    decide
  exact ⟨(hok 15).mpr ⟨1, hends, by decide⟩, hhits 15 (by decide), hrejects⟩

end DiceHouse.Draw
