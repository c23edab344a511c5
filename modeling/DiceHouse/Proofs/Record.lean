import DiceHouse.Proofs.Layout
import DiceHouse.Record

/-!
# Records in bytes

Every kind of record is a codec. A record whose numbers fit their fields is read as it was written.
A byte string holds a record of a kind exactly if it starts with the kind's tag and has its length,
whatever else is in it; what was read is written back byte for byte, with zeros in the places that
mean nothing. Those places are the seven bytes after the tag and the padding between the fields,
listed here by their offsets.
-/

namespace DiceHouse.Record

/-- The offsets in a kind's fields at which no field stands. -/
def Kind.Padding : Kind → Nat → Prop
  | .settings, i => 98 ≤ i
  | .ticket, i => 625 ≤ i
  | .round, i => 907 ≤ i ∧ i < 912
  | .table, i => 20 ≤ i ∧ i < 24
  -- the wagers stand from 40 on, 16 bytes each, and use 10 of them
  | .seat, i => 40 ≤ i ∧ i < 1400 ∧ 10 ≤ (i - 40) % 16
  | .board, _ | .treasury, _ => False

/-- The places of a kind's records that mean nothing. -/
def Kind.Idle (k : Kind) (i : Nat) : Prop :=
  1 ≤ i ∧ i < headerLength ∨ headerLength ≤ i ∧ k.Padding (i - headerLength)

/-! ## Fields -/

section Fields

open Layout Layouts

variable {idle : Nat → Prop}

@[simp] theorem size_word : word.size = 8 := rfl

@[simp] theorem size_byte : byte.size = 1 := rfl

@[simp] theorem size_sumMask : sumMask.size = 2 := rfl

@[simp] theorem size_winner : winner.size = 1 := rfl

@[simp] theorem size_wager : wager.size = 16 := rfl

theorem restores_word (busy : ∀ i < 8, ¬ idle i) : word.Restores idle := restores_nat busy

theorem restores_byte (busy : ∀ i < 1, ¬ idle i) : byte.Restores idle := restores_nat busy

theorem restores_sumMask (busy : ∀ i < 2, ¬ idle i) : sumMask.Restores idle := restores_nat busy

theorem restores_words {n : Nat} (busy : ∀ i < n * 8, ¬ idle i) :
    (row n word).Restores idle := by
  refine Restores.row fun k hk => restores_word fun i hi => busy _ ?_
  rw [size_word]
  omega

theorem restores_bytes {n : Nat} (busy : ∀ i < n, ¬ idle i) : (row n byte).Restores idle := by
  refine Restores.row fun k hk => restores_byte fun i hi => busy _ ?_
  rw [size_byte]
  omega

/-- The byte of the winning square: the one number that is no square stands for none. -/
theorem restores_winner (busy : ∀ i < 1, ¬ idle i) : winner.Restores idle := by
  have hbyte : byte.Restores idle := restores_byte busy
  have write_read (bytes : List UInt8) :
      winner.write (winner.read bytes) = byte.write (byte.read bytes) := by
    show byte.write ((if byte.read bytes = noWinner then none else some _).getD noWinner) = _
    by_cases hnone : byte.read bytes = noWinner
    · rw [if_pos hnone, Option.getD_none, hnone]
    · rw [if_neg hnone, Option.getD_some]
  refine ⟨fun {bytes} h => ?_, fun {bytes i} h hi hbusy => ?_,
    fun _ _ hi hidle => absurd hidle (busy _ hi)⟩
  · show (if byte.read bytes = noWinner then none else some _).getD 0 < noWinner
    by_cases hnone : byte.read bytes = noWinner
    · rw [if_pos hnone]
      decide
    · have hlt : byte.read bytes < 256 := hbyte.fits h
      rw [if_neg hnone, Option.getD_some]
      unfold noWinner at *
      omega
  · rw [write_read]
    exact hbyte.kept h hi hbusy

/-! ## Records of each kind -/

theorem restores_board : Layouts.board.Restores Kind.board.Padding := by
  refine ((restores_word ?_).seq <| (restores_word ?_).seq <| (restores_word ?_).seq <|
    (restores_word ?_).seq <| restores_word ?_).via fun _ => rfl
  all_goals exact fun _ _ => id

theorem restores_settings : Layouts.settings.Restores Kind.settings.Padding := by
  refine (Restores.seq (Restores.via ((restores_bytes32 ?_).seq <| (restores_bytes32 ?_).seq <|
    (restores_word ?_).seq <| (restores_word ?_).seq <| (restores_word ?_).seq <|
    (restores_word ?_).seq <| (restores_byte ?_).seq <| restores_byte ?_) fun _ => rfl)
    (restores_gap ?_)).via fun _ => rfl
  all_goals
    intro i hi
    simp only [Kind.Padding, size_via, size_seq, size_bytes32, size_word, size_byte]
    omega

theorem restores_ticket : Layouts.ticket.Restores Kind.ticket.Padding := by
  refine ((restores_bytes32 ?_).seq <| (restores_word ?_).seq <| (restores_words ?_).seq <|
    (restores_words ?_).seq <| (restores_word ?_).seq <| (restores_byte ?_).seq <|
    restores_gap ?_).via fun _ => rfl
  all_goals
    intro i hi
    simp only [Kind.Padding, size_bytes32, size_word, size_row, size_byte, squareCount] at hi ⊢
    omega

theorem restores_round : Layouts.round.Restores Kind.round.Padding := by
  refine ((restores_word ?_).seq <| (restores_words ?_).seq <| (restores_words ?_).seq <|
    (restores_words ?_).seq <| (restores_bytes32 ?_).seq <| (restores_winner ?_).seq <|
    (restores_byte ?_).seq <| (restores_byte ?_).seq <| (restores_gap ?_).seq <|
    (restores_word ?_).seq <| (restores_bytes32 ?_).seq <| (restores_bytes32 ?_).seq <|
    (restores_word ?_).seq <| (restores_word ?_).seq <| (restores_word ?_).seq <|
    (restores_word ?_).seq <| (restores_word ?_).seq <| (restores_word ?_).seq <|
    (restores_word ?_).seq <| restores_word ?_).via fun _ => rfl
  all_goals
    intro i hi
    simp only [Kind.Padding, size_word, size_row, size_bytes32, size_winner, size_byte, size_gap,
      squareCount] at hi ⊢
    omega

theorem restores_treasury : Layouts.treasury.Restores Kind.treasury.Padding := by
  refine ((restores_word ?_).seq <| (restores_word ?_).seq <| (restores_word ?_).seq <|
    restores_word ?_).via fun _ => rfl
  all_goals exact fun _ _ => id

theorem restores_table : Layouts.table.Restores Kind.table.Padding := by
  refine ((restores_word ?_).seq <| (restores_word ?_).seq <| (restores_byte ?_).seq <|
    (restores_byte ?_).seq <| (restores_byte ?_).seq <| (restores_byte ?_).seq <|
    (restores_gap ?_).seq <| (restores_bytes ?_).seq <| (restores_word ?_).seq <|
    (restores_word ?_).seq <| (restores_word ?_).seq <| (restores_word ?_).seq <|
    (restores_word ?_).seq <| restores_word ?_).via fun _ => rfl
  all_goals
    intro i hi
    simp only [Kind.Padding, size_word, size_byte, size_gap, size_row, logLength] at hi ⊢
    omega

theorem restores_wager {idle : Nat → Prop} (busy : ∀ i < 10, ¬ idle i)
    (free : ∀ i < 6, idle (10 + i)) : Layouts.wager.Restores idle := by
  refine ((restores_word fun i hi => busy i (by omega)).seq <|
    (restores_byte fun i hi => ?_).seq <| (restores_byte fun i hi => ?_).seq <|
    restores_gap fun i hi => ?_).via fun _ => rfl
  all_goals simp only [size_word, size_byte]
  · exact busy _ (by omega)
  · exact busy _ (by omega)
  · have hfree := free i hi
    rwa [show 10 + i = 8 + (1 + (1 + i)) by omega] at hfree

theorem restores_seat : Layouts.seat.Restores Kind.seat.Padding := by
  refine ((restores_bytes32 ?_).seq <| (restores_word ?_).seq <|
    (Restores.row fun k hk => restores_wager ?_ ?_).seq <|
    (((restores_byte ?_).seq <| (restores_byte ?_).seq <| (restores_sumMask ?_).seq <|
      (restores_sumMask ?_).seq <| restores_sumMask ?_).via fun _ => rfl).seq <|
    (restores_word ?_).seq <| (restores_word ?_).seq <| (restores_word ?_).seq <|
    (restores_word ?_).seq <| restores_word ?_).via fun _ => rfl
  all_goals
    intro i hi
    simp only [Kind.Padding, size_bytes32, size_word, size_row, size_wager, size_byte, size_sumMask,
      spotCount] at *
    omega

/-- Every kind's fields restore what is not padding. -/
theorem Kind.restores (k : Kind) : k.layout.Restores k.Padding := by
  cases k with
  | board => exact restores_board
  | settings => exact restores_settings
  | ticket => exact restores_ticket
  | round => exact restores_round
  | treasury => exact restores_treasury
  | table => exact restores_table
  | seat => exact restores_seat

end Fields

/-! ## Whole records -/

theorem decode_eq_some_iff {k : Kind} {bytes : List UInt8} {body : k.Body Key} :
    decode k bytes = some body ↔ bytes.length = k.length
      ∧ bytes.head? = some (UInt8.ofNat k.tag) ∧ readFields k bytes = body := by
  unfold decode
  split
  · next h => simp [h.1, h.2]
  · next h =>
    refine iff_of_false (fun hnone => nomatch hnone) fun hbody => ?_
    exact h ⟨hbody.1, hbody.2.1⟩

/-- No two kinds share a tag. -/
theorem Kind.tag_inj {k k' : Kind} (h : UInt8.ofNat k.tag = UInt8.ofNat k'.tag) : k = k' := by
  cases k <;> cases k' <;> first | rfl | exact absurd h (by decide)

theorem fits_of_decode {k : Kind} {bytes : List UInt8} {body : k.Body Key}
    (h : decode k bytes = some body) : k.layout.Fits body := by
  obtain ⟨hlen, -, rfl⟩ := decode_eq_some_iff.mp h
  refine k.restores.fits ?_
  rw [List.length_drop, hlen, Kind.length]
  omega

theorem getElem?_encode_field (k : Kind) (body : k.Body Key) (i : Nat) :
    (encode k body)[headerLength + i]? = (k.layout.write body)[i]? := by
  have hheader : (UInt8.ofNat k.tag :: List.replicate (headerLength - 1) 0).length
      = headerLength := rfl
  unfold encode
  rw [← List.cons_append, List.getElem?_append_right (by omega), hheader,
    Nat.add_sub_cancel_left]

theorem getElem?_encode_header (k : Kind) (body : k.Body Key) {i : Nat} (hpos : 1 ≤ i)
    (hi : i < headerLength) : (encode k body)[i]? = some 0 := by
  obtain ⟨j, rfl⟩ := Nat.exists_eq_add_of_le' hpos
  unfold encode
  rw [List.getElem?_cons_succ, List.getElem?_append_left]
  · exact List.getElem?_replicate_of_lt (by omega)
  · rw [List.length_replicate]
    omega

/-- What was read is written back as it was, with zeros where nothing stands. -/
theorem getElem?_encode_of_decode {k : Kind} {bytes : List UInt8} {body : k.Body Key}
    (h : decode k bytes = some body) {i : Nat} (hi : i < bytes.length) :
    (¬ k.Idle i → (encode k body)[i]? = bytes[i]?)
      ∧ (k.Idle i → (encode k body)[i]? = some 0) := by
  obtain ⟨hlen, hhead, rfl⟩ := decode_eq_some_iff.mp h
  rw [hlen, Kind.length] at hi
  have hfields : k.layout.size ≤ (bytes.drop headerLength).length := by
    rw [List.length_drop, hlen, Kind.length]
    omega
  rcases Nat.lt_or_ge i headerLength with hheader | hfield
  · rcases Nat.eq_zero_or_pos i with rfl | hpos
    · refine ⟨fun _ => ?_, fun hidle => ?_⟩
      · rw [List.head?_eq_getElem?] at hhead
        rw [hhead]
        rfl
      · rcases hidle with hidle | hidle
        · exact absurd hidle.1 (by decide)
        · exact absurd hidle.1 (by decide)
    · exact ⟨fun hbusy => absurd (.inl ⟨hpos, hheader⟩) hbusy,
        fun _ => getElem?_encode_header k _ hpos hheader⟩
  · obtain ⟨j, rfl⟩ := Nat.exists_eq_add_of_le hfield
    have hj : j < k.layout.size := Nat.lt_of_add_lt_add_left hi
    have hidle : k.Idle (headerLength + j) ↔ k.Padding j := by
      rw [Kind.Idle, Nat.add_sub_cancel_left]
      constructor
      · rintro (⟨-, hlt⟩ | ⟨-, hpad⟩)
        · exact absurd hfield (Nat.not_le_of_lt hlt)
        · exact hpad
      · exact fun hpad => .inr ⟨hfield, hpad⟩
    rw [getElem?_encode_field, hidle]
    refine ⟨fun hbusy => ?_, fun hpad => k.restores.zero _ hj hpad⟩
    rw [readFields, k.restores.kept hfields hj hbusy, List.getElem?_drop]

/-- Records of a kind and byte strings determine each other. A record is read as it was written
exactly if its numbers fit their fields. A byte string holds a record of the kind exactly if it
starts with the kind's tag and has its length; the record fits, is written back with the same byte
in every place that means something and zero in every other, and is of no other kind. -/
theorem record_codec (k : Kind) :
    (∀ body, k.layout.Fits body ↔ decode k (encode k body) = some body)
    ∧ ∀ bytes : List UInt8,
      ((∃ body, decode k bytes = some body)
        ↔ bytes[0]? = some (UInt8.ofNat k.tag) ∧ bytes.length = 8 + k.layout.size)
      ∧ ∀ body, decode k bytes = some body →
        k.layout.Fits body
        ∧ (∀ i < bytes.length, ¬ k.Idle i → (encode k body)[i]? = bytes[i]?)
        ∧ (∀ i < bytes.length, k.Idle i → (encode k body)[i]? = some 0)
        ∧ ∀ k' body', decode k' bytes = some body' → k' = k := by
  refine ⟨fun body => ⟨decode_encode k, fits_of_decode⟩, fun bytes => ⟨?_, fun body hbody => ?_⟩⟩
  · simp only [decode_eq_some_iff, List.head?_eq_getElem?, Kind.length]
    constructor
    · rintro ⟨body, hlen, htag, -⟩
      exact ⟨htag, hlen⟩
    · rintro ⟨htag, hlen⟩
      exact ⟨_, hlen, htag, rfl⟩
  · refine ⟨fits_of_decode hbody, fun i hi => (getElem?_encode_of_decode hbody hi).1,
      fun i hi => (getElem?_encode_of_decode hbody hi).2, fun k' body' hother => ?_⟩
    have htag := (decode_eq_some_iff.mp hbody).2.1
    have htag' := (decode_eq_some_iff.mp hother).2.1
    exact Kind.tag_inj (Option.some.inj (htag'.symm.trans htag))

example : Kind.every.map Kind.length = [48, 112, 640, 1056, 40, 144, 1456] := by decide

/-- A table's record with a one in every byte after the tag. -/
def allOnes : List UInt8 := UInt8.ofNat Kind.table.tag :: List.replicate 143 1

theorem record_codec_allOnes : ∃ body, decode .table allOnes = some body
    ∧ Kind.table.layout.Fits body ∧ (encode .table body)[27]? = some 1
    ∧ (encode .table body)[28]? = some 0 ∧ decode .seat allOnes = none := by
  have hcodec := (record_codec .table).2 allOnes
  have hlen : allOnes.length = 144 := by rw [allOnes, List.length_cons, List.length_replicate]
  obtain ⟨body, hbody⟩ := hcodec.1.mpr ⟨rfl, hlen⟩
  obtain ⟨hfits, hkept, hzero, hkind⟩ := hcodec.2 body hbody
  refine ⟨body, hbody, hfits, ?_, ?_, ?_⟩
  · have hbusy : ¬ Kind.table.Idle 27 := by
      simp only [Kind.Idle, Kind.Padding, headerLength]
      omega
    rw [hkept 27 (by omega) hbusy]
    rfl
  · exact hzero 28 (by omega) (.inr ⟨by decide, by simp only [Kind.Padding, headerLength]; omega⟩)
  · cases hseat : decode .seat allOnes with
    | none => rfl
    | some body' => exact absurd (hkind _ _ hseat) (by decide)

end DiceHouse.Record
