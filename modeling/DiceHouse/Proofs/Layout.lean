import DiceHouse.Layout

/-!
# What layouts restore

A layout reads its values as they were written. Here is the other direction: what was read from any
long enough byte string is written back byte for byte, apart from the places that mean nothing, and
those are zeros whenever a value is written. `Layout.Restores` says so for a set of idle places; it
is put together the way layouts are, from the set to its parts: a gap must lie inside the set, a
number or a string outside it, and a sequence or a row hands each part the places it occupies.
-/

namespace DiceHouse.Layout

variable {α β : Type} {a : Layout α} {b : Layout β} {idle : Nat → Prop}

/-- Reading and writing back keeps every place of the form that is not idle; idle places are
written as zeros. -/
structure Restores (a : Layout α) (idle : Nat → Prop) : Prop where
  fits : ∀ {bytes}, a.size ≤ bytes.length → a.Fits (a.read bytes)
  kept : ∀ {bytes i}, a.size ≤ bytes.length → i < a.size → ¬ idle i →
    (a.write (a.read bytes))[i]? = bytes[i]?
  zero : ∀ x {i}, i < a.size → idle i → (a.write x)[i]? = some 0

/-! ## Sizes -/

@[simp] theorem size_nat (w : Nat) : (nat w).size = w := rfl

@[simp] theorem size_bytes32 : bytes32.size = 32 := rfl

@[simp] theorem size_gap (n : Nat) : (gap n).size = n := rfl

@[simp] theorem size_seq (a : Layout α) (b : Layout β) : (a.seq b).size = a.size + b.size := rfl

@[simp] theorem size_via (a : Layout α) (toForm : β → α) (ofForm : α → β)
    (h : ∀ b, ofForm (toForm b) = b) : (a.via toForm ofForm h).size = a.size := rfl

@[simp] theorem size_row (n : Nat) (a : Layout α) : (row n a).size = n * a.size := rfl

/-! ## Leaves -/

/-- A form without idle places restores the bytes that it stands in. -/
theorem restores_of_take (busy : ∀ i < a.size, ¬ idle i)
    (fits : ∀ {bytes}, a.size ≤ bytes.length → a.Fits (a.read bytes))
    (same : ∀ {bytes}, a.size ≤ bytes.length → a.write (a.read bytes) = bytes.take a.size) :
    a.Restores idle where
  fits := fits
  kept hlen hi _ := by rw [same hlen, List.getElem?_take_of_lt hi]
  zero _ _ hi h := absurd h (busy _ hi)

theorem restores_nat {w : Nat} (busy : ∀ i < w, ¬ idle i) : (nat w).Restores idle := by
  have hlen {bytes : List UInt8} (h : w ≤ bytes.length) : (bytes.take w).length = w :=
    List.length_take_of_le h
  refine restores_of_take busy (fun {bytes} h => ?_) (fun {bytes} h => ?_)
  · show Bytes.toNat (bytes.take w) < Nat.pow 256 w
    have hlt := Bytes.toNat_lt (bytes.take w)
    rwa [hlen h] at hlt
  · show Bytes.ofNat w (Bytes.toNat (bytes.take w)) = bytes.take w
    have hback := Bytes.ofNat_toNat (bytes.take w)
    rwa [hlen h] at hback

theorem write_bytes32 (k : Bytes32) : bytes32.write k = k.toList := rfl

theorem read_bytes32 (bytes : List UInt8) : bytes32.read bytes = Bytes.take32 bytes := rfl

theorem restores_bytes32 (busy : ∀ i < 32, ¬ idle i) : bytes32.Restores idle := by
  refine restores_of_take busy (fun _ => trivial) (fun {bytes} h => ?_)
  rw [write_bytes32, read_bytes32, size_bytes32]
  exact Bytes.toList_take32 h

theorem restores_gap {n : Nat} (free : ∀ i < n, idle i) : (gap n).Restores idle where
  fits _ := trivial
  kept _ hi h := absurd (free _ hi) h
  zero _ _ hi _ := by
    show (List.replicate n (0 : UInt8))[_]? = some 0
    exact List.getElem?_replicate_of_lt hi

/-! ## Compounds -/

theorem Restores.seq (ha : a.Restores idle) (hb : b.Restores fun i => idle (a.size + i)) :
    (a.seq b).Restores idle := by
  have left {p : α × β} {i : Nat} (hi : i < a.size) :
      ((a.seq b).write p)[i]? = (a.write p.1)[i]? := by
    show (a.write p.1 ++ b.write p.2)[i]? = _
    rw [List.getElem?_append_left (by rwa [a.length_write])]
  have right {p : α × β} {i : Nat} (hi : a.size ≤ i) :
      ((a.seq b).write p)[i]? = (b.write p.2)[i - a.size]? := by
    show (a.write p.1 ++ b.write p.2)[i]? = _
    rw [List.getElem?_append_right (by rwa [a.length_write]), a.length_write]
  have room {bytes : List UInt8} (h : a.size + b.size ≤ bytes.length) :
      a.size ≤ bytes.length ∧ b.size ≤ (bytes.drop a.size).length := by
    rw [List.length_drop]
    omega
  refine ⟨fun h => ⟨ha.fits (room h).1, hb.fits (room h).2⟩, fun {bytes i} h hi hbusy => ?_,
    fun p i hi hidle => ?_⟩
  all_goals rw [size_seq] at hi
  · by_cases hleft : i < a.size
    · rw [left hleft]
      exact ha.kept (room h).1 hleft hbusy
    · obtain ⟨j, rfl⟩ := Nat.exists_eq_add_of_le (Nat.le_of_not_lt hleft)
      rw [right (Nat.le_of_not_lt hleft), Nat.add_sub_cancel_left]
      have hj := hb.kept (room h).2 (Nat.lt_of_add_lt_add_left hi) hbusy
      rwa [List.getElem?_drop] at hj
  · by_cases hleft : i < a.size
    · rw [left hleft]
      exact ha.zero p.1 hleft hidle
    · obtain ⟨j, rfl⟩ := Nat.exists_eq_add_of_le (Nat.le_of_not_lt hleft)
      rw [right (Nat.le_of_not_lt hleft), Nat.add_sub_cancel_left]
      exact hb.zero p.2 (Nat.lt_of_add_lt_add_left hi) hidle

/-- A disguise that loses nothing in either direction restores what the form under it does. -/
theorem Restores.via (ha : a.Restores idle) {toForm : β → α} {ofForm : α → β}
    {h : ∀ b, ofForm (toForm b) = b} (hform : ∀ x, toForm (ofForm x) = x) :
    (a.via toForm ofForm h).Restores idle where
  fits {bytes} hlen := by
    show a.Fits (toForm (ofForm (a.read bytes)))
    rw [hform]
    exact ha.fits hlen
  kept {bytes i} hlen hi hbusy := by
    show (a.write (toForm (ofForm (a.read bytes))))[i]? = _
    rw [hform]
    exact ha.kept hlen hi hbusy
  zero x _ hi hidle := ha.zero (toForm x) hi hidle

/-- A place of a row is a place of one of its cells. -/
theorem getElem?_write_row {n k j : Nat} (v : Vector α n) (hk : k < n) (hj : j < a.size) :
    ((row n a).write v)[k * a.size + j]? = (a.write v[k])[j]? := by
  obtain ⟨tail, htail⟩ := drop_flatMap_write a [] v.toList k (by simpa using hk)
  rw [List.append_nil, Vector.getElem_toList] at htail
  show (v.toList.flatMap a.write)[k * a.size + j]? = _
  rw [← List.getElem?_drop, htail, List.getElem?_append_left (by rwa [a.length_write])]

theorem Restores.row {n : Nat} (ha : ∀ k < n, a.Restores fun i => idle (k * a.size + i)) :
    (Layout.row n a).Restores idle := by
  have room {bytes : List UInt8} {k : Nat} (h : n * a.size ≤ bytes.length) (hk : k < n) :
      a.size ≤ (bytes.drop (k * a.size)).length := by
    have hcells : (k + 1) * a.size ≤ n * a.size := Nat.mul_le_mul_right _ hk
    rw [Nat.succ_mul] at hcells
    rw [List.length_drop]
    omega
  -- a place of the row, as a place of one of its cells
  have place {i : Nat} (hi : i < n * a.size) : ∃ k < n, ∃ j < a.size, i = k * a.size + j := by
    have hpos : 0 < a.size := Nat.pos_of_lt_mul_left hi
    exact ⟨i / a.size, Nat.div_lt_of_lt_mul (by rwa [Nat.mul_comm]), i % a.size,
      Nat.mod_lt i hpos, (Nat.div_add_mod' i a.size).symm⟩
  refine ⟨fun {bytes} h k hk => ?_, fun {bytes i} h hi hbusy => ?_, fun v i hi hidle => ?_⟩
  · show a.Fits (Vector.ofFn fun i : Fin n => a.read (bytes.drop (i * a.size)))[k]
    rw [Vector.getElem_ofFn]
    exact (ha k hk).fits (room h hk)
  · obtain ⟨k, hk, j, hj, rfl⟩ := place hi
    rw [getElem?_write_row _ hk hj]
    show (a.write (Vector.ofFn fun i : Fin n => a.read (bytes.drop (i * a.size)))[k])[j]? = _
    rw [Vector.getElem_ofFn, (ha k hk).kept (room h hk) hj hbusy, List.getElem?_drop]
  · obtain ⟨k, hk, j, hj, rfl⟩ := place hi
    rw [getElem?_write_row v hk hj]
    exact (ha k hk).zero _ hj hidle

end DiceHouse.Layout
