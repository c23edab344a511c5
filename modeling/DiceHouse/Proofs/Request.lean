import DiceHouse.Proofs.Layout
import DiceHouse.Proofs.Record
import DiceHouse.Request

/-!
# The length of arguments

A request that takes arguments takes exactly their bytes: with any other number of bytes after its
kind there is no request, and with that number there is one.
-/

namespace DiceHouse.Request

/-- How many bytes the arguments of a kind have, if it takes any. -/
def Kind.argumentLength? : Kind → Option Nat
  | .configure => some 98
  | .stake | .bet => some 10
  | .fund => some 8
  | _ => none

theorem parse?_isSome_iff {α : Type} (a : Layout α) (bytes : List UInt8) :
    (a.parse? bytes).isSome = true ↔ bytes.length = a.size := by
  unfold Layout.parse?
  split
  · next h => simp [h]
  · next h => simp [h]

/-- There is a request of the kind for every string of arguments, or for those of its length. -/
theorem Kind.parse?_isSome_iff (k : Kind) (args : List UInt8) :
    (k.parse? args).isSome = true ↔ ∀ n, k.argumentLength? = some n → args.length = n := by
  have hparse {α : Type} (a : Layout α) (f : α → Request) :
      ((a.parse? args).map f).isSome = true ↔ ∀ n, some a.size = some n → args.length = n := by
    rw [Option.isSome_map, Request.parse?_isSome_iff]
    exact ⟨fun h n hn => h.trans (Option.some.inj hn), fun h => h _ rfl⟩
  cases k with
  | configure => exact hparse Record.Layouts.settingsFields _
  | stake => exact hparse amountArguments _
  | bet => exact hparse amountArguments _
  | fund => exact hparse amountArgument _
  | _ => exact iff_of_true rfl fun n h => nomatch h

theorem decode_cons (k : Kind) (args : List UInt8) :
    decode (UInt8.ofNat k.code :: args) = k.parse? args := by
  have hcode : (UInt8.ofNat k.code).toNat = k.code := Nat.mod_eq_of_lt k.code_lt
  rw [decode, hcode, Kind.ofCode?_code, Option.bind_some]

end DiceHouse.Request
