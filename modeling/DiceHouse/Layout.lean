import DiceHouse.Bytes

/-!
# Layouts

A layout writes values of a type in a fixed number of bytes and reads them back from the front of a
byte string. It knows which values fit; those are read as they were written, whatever follows them.
Layouts of whole records are put together from numbers, 32-byte strings, gaps, rows of equal cells
and sequences.
-/

namespace DiceHouse

/-- A fixed-size byte form of a type. -/
structure Layout (α : Type) where
  size : Nat
  /-- The values that the form can hold. -/
  Fits : α → Prop
  write : α → List UInt8
  read : List UInt8 → α
  length_write : ∀ a, (write a).length = size
  read_write : ∀ {a}, Fits a → ∀ rest, read (write a ++ rest) = a

namespace Layout

variable {α β : Type}

/-- A number in `w` bytes, least significant first. -/
def nat (w : Nat) : Layout Nat where
  size := w
  Fits n := n < Nat.pow 256 w
  write := Bytes.ofNat w
  read bs := Bytes.toNat (bs.take w)
  length_write := Bytes.length_ofNat w
  read_write h rest := by
    rw [List.take_left' (Bytes.length_ofNat w _), Bytes.toNat_ofNat_of_lt h]

/-- A string of 32 bytes. -/
def bytes32 : Layout Bytes32 where
  size := 32
  Fits _ := True
  write k := k.toList
  read := Bytes.take32
  length_write k := by simp
  read_write {k} _ rest := Bytes.take32_append k rest

/-- So many bytes that mean nothing. -/
def gap (n : Nat) : Layout Unit where
  size := n
  Fits _ := True
  write _ := List.replicate n 0
  read _ := ()
  length_write _ := List.length_replicate
  read_write _ _ := rfl

/-- One form after another. -/
def seq (a : Layout α) (b : Layout β) : Layout (α × β) where
  size := a.size + b.size
  Fits p := a.Fits p.1 ∧ b.Fits p.2
  write p := a.write p.1 ++ b.write p.2
  read bs := (a.read bs, b.read (bs.drop a.size))
  length_write p := by rw [List.length_append, a.length_write, b.length_write]
  read_write h rest := by
    rw [List.append_assoc, a.read_write h.1, List.drop_left' (a.length_write _), b.read_write h.2]

/-- The form of a value that is another value in disguise. -/
def via (a : Layout α) (toForm : β → α) (ofForm : α → β) (h : ∀ b, ofForm (toForm b) = b) :
    Layout β where
  size := a.size
  Fits b := a.Fits (toForm b)
  write b := a.write (toForm b)
  read bs := ofForm (a.read bs)
  length_write b := a.length_write _
  read_write hb rest := by rw [a.read_write hb, h]

/-- The value of a byte string that is neither shorter nor longer than the form. -/
def parse? (a : Layout α) (bytes : List UInt8) : Option α :=
  if bytes.length = a.size then some (a.read bytes) else none

theorem parse?_write (a : Layout α) {x : α} (h : a.Fits x) : a.parse? (a.write x) = some x := by
  have hread := a.read_write h []
  rw [List.append_nil] at hread
  rw [parse?, if_pos (a.length_write x), hread]

/-! ## Rows -/

theorem drop_flatMap_write (a : Layout α) (rest : List UInt8) :
    ∀ (l : List α) (i : Nat) (h : i < l.length),
      ∃ tail, (l.flatMap a.write ++ rest).drop (i * a.size) = a.write l[i] ++ tail
  | [], _, h => absurd h (Nat.not_lt_zero _)
  | x :: l, 0, _ => ⟨l.flatMap a.write ++ rest, by simp⟩
  | x :: l, i + 1, h => by
    obtain ⟨tail, ht⟩ := drop_flatMap_write a rest l i (Nat.lt_of_succ_lt_succ h)
    refine ⟨tail, ?_⟩
    rw [List.flatMap_cons, List.append_assoc, Nat.succ_mul, Nat.add_comm, ← List.drop_drop,
      List.drop_left' (a.length_write x), ht, List.getElem_cons_succ]

theorem length_flatMap_write (a : Layout α) :
    ∀ l : List α, (l.flatMap a.write).length = l.length * a.size
  | [] => by simp
  | x :: l => by
    rw [List.flatMap_cons, List.length_append, a.length_write, length_flatMap_write a l,
      List.length_cons, Nat.succ_mul, Nat.add_comm]

/-- A row of equal cells. -/
def row (n : Nat) (a : Layout α) : Layout (Vector α n) where
  size := n * a.size
  Fits v := ∀ i (h : i < n), a.Fits v[i]
  write v := v.toList.flatMap a.write
  read bs := Vector.ofFn fun i => a.read (bs.drop (i * a.size))
  length_write v := by rw [length_flatMap_write, Vector.length_toList]
  read_write {v} h rest := by
    ext i hi
    obtain ⟨tail, ht⟩ := drop_flatMap_write a rest v.toList i (by simpa using hi)
    rw [Vector.getElem_ofFn, ht, Vector.getElem_toList, a.read_write (h i hi)]

end Layout

end DiceHouse
