import DiceHouse.Proofs.House.Run

/-!
# What happens to the staking rounds

The board, the rounds and the treasury are the records of the staking rounds. `StakingMove` says
what one granted instruction is to them: five of the twelve kinds write to them, and the others
leave all three as they are.
-/

namespace DiceHouse.House

variable {accounts : List Access} {l m : Ledger}

/-- What a granted instruction is to the board, the rounds and the treasury. -/
inductive StakingMove (accounts : List Access) (l m : Ledger) : Prop where
  | same (hboard : m.load .board .board = l.load .board .board)
    (hrounds : ∀ n, m.load .round (.round n) = l.load .round (.round n))
    (htreasury : m.load .treasury .treasury = l.load .treasury .treasury)
  | opened {slot : Nat} (g : Operation.Opening slot accounts l m)
  | staked {slot amount square prediction : Nat}
    (g : Operation.Stake slot amount square prediction accounts l m)
  | rearmed {slot : Nat} (g : Operation.Rearming slot accounts l m)
  | drawn {slot : Nat} (g : Operation.Resolution slot accounts l m)
  | cashed {slot : Nat} (g : Operation.Claim slot accounts l m)

theorem Granted.stakingMove (g : Granted accounts l m) : StakingMove accounts l m := by
  cases g with
  | opening g => exact .opened g
  | configuration g =>
    exact .same ((g.rest _ (by simp)).load _) (fun _ => (g.rest _ (by simp)).load _)
      ((g.rest _ (by simp)).load _)
  | stake g => exact .staked g
  | rearming g => exact .rearmed g
  | resolution g => exact .drawn g
  | claim g => exact .cashed g
  | bet g =>
    exact .same (g.records _ _ (by simp) (by simp) (by simp))
      (fun _ => g.records _ _ (by simp) (by simp) (by simp))
      (g.records _ _ (by simp) (by simp) (by simp))
  | settlement g =>
    exact .same ((g.rest _ (by simp) (by simp)).load _)
      (fun _ => (g.rest _ (by simp) (by simp)).load _) ((g.rest _ (by simp) (by simp)).load _)
  | advance g =>
    exact .same ((g.rest _ (by simp)).load _) (fun _ => (g.rest _ (by simp)).load _)
      ((g.rest _ (by simp)).load _)
  | collection g =>
    exact .same (g.records _ _ (by simp)) (fun _ => g.records _ _ (by simp))
      (g.records _ _ (by simp))
  | funding g =>
    exact .same (g.records _ _ (by simp) (by simp)) (fun _ => g.records _ _ (by simp) (by simp))
      (g.records _ _ (by simp) (by simp))
  | forfeiture g =>
    exact .same ((g.rest _ (by simp) (by simp)).load _)
      (fun _ => (g.rest _ (by simp) (by simp)).load _) ((g.rest _ (by simp) (by simp)).load _)

theorem stakingMove_outside (ho : l.Outside m) : StakingMove accounts l m :=
  .same (ho.load (by simp [Address.seeds?]) _) (fun _ => ho.load (by simp [Address.seeds?]) _)
    (ho.load (by simp [Address.seeds?]) _)

theorem Run.stakingMove {allowed : Instruction → Prop} (run : Run allowed Ledger.Outside)
    (k : Nat) : ∃ accounts, StakingMove accounts (run.ledger k) (run.ledger (k + 1)) := by
  rcases run.granted_or_outside k with ⟨accounts, hg⟩ | ho
  · exact ⟨accounts, hg.stakingMove⟩
  · exact ⟨[], stakingMove_outside ho⟩

end DiceHouse.House
