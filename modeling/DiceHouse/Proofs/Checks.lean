import DiceHouse.Operation.Guard

/-!
# Chains of checks

An operation is a chain of checks and computations, and it is granted exactly when each link of the
chain is. The lemmas here open such a chain from the front: a granted chain becomes the values that
its links gave, each with the equation that says so.
-/

namespace DiceHouse

section Except

variable {ε ε' α β : Type}

/-- A chain is granted exactly when its first link is, and the rest is with what that gave. -/
theorem bind_eq_ok_iff {x : Except ε α} {f : α → Except ε β} {b : β} :
    (x >>= f) = .ok b ↔ ∃ a, x = .ok a ∧ f a = .ok b := by
  cases x <;> simp [bind, Except.bind]

/-- A chain is refused by its first link, or by the rest after what that gave. -/
theorem bind_eq_error_iff {x : Except ε α} {f : α → Except ε β} {e : ε} :
    (x >>= f) = .error e ↔ x = .error e ∨ ∃ a, x = .ok a ∧ f a = .error e := by
  cases x <;> simp [bind, Except.bind]

theorem map_eq_ok_iff {x : Except ε α} {f : α → β} {b : β} :
    (f <$> x) = .ok b ↔ ∃ a, x = .ok a ∧ f a = b := by
  cases x <;> simp [Functor.map, Except.map]

theorem pure_eq_ok_iff {a b : α} : (pure a : Except ε α) = .ok b ↔ a = b := by
  simp [pure, Except.pure]

theorem pure_ne_error {a : α} {e : ε} : (pure a : Except ε α) ≠ .error e := by
  simp [pure, Except.pure]

theorem ok_bind {a : α} {f : α → Except ε β} : ((Except.ok a : Except ε α) >>= f) = f a := rfl

theorem error_bind {e : ε} {f : α → Except ε β} :
    ((Except.error e : Except ε α) >>= f) = .error e := rfl

theorem liftM_ok {a : α} : (liftM (Except.ok a : Except Fault α) : Except Refusal α) = .ok a := rfl

/-- What is refused with another reason is granted alike. -/
theorem liftM_eq_ok_iff {x : Except Fault α} {a : α} :
    (liftM x : Except Refusal α) = .ok a ↔ x = .ok a := by
  cases x with
  | ok b => exact ⟨fun h => congrArg _ (Except.ok.inj h), fun h => congrArg _ (Except.ok.inj h)⟩
  | error f => exact ⟨fun h => (nomatch h), fun h => (nomatch h)⟩

/-- A fault of the game refuses as itself. -/
theorem liftM_eq_error_iff {x : Except Fault α} {e : Refusal} :
    (liftM x : Except Refusal α) = .error e ↔ ∃ f, x = .error f ∧ Refusal.fault f = e := by
  cases x with
  | ok b => exact ⟨fun h => (nomatch h), fun ⟨_, h, _⟩ => nomatch h⟩
  | error f =>
    constructor
    · intro h
      exact ⟨f, rfl, Except.error.inj h⟩
    · rintro ⟨g, hg, rfl⟩
      cases hg
      rfl

/-- A computed result. -/
theorem eq_ok_of_toOption {x : Except ε α} {a : α} (h : x.toOption = some a) : x = .ok a := by
  cases x with
  | error e => cases h
  | ok b => exact congrArg _ (Option.some.inj h)

/-- What holds when a fold begins and is kept by its steps holds when it ends. It may speak of the
elements that are still to come. -/
theorem foldlM_induction {step : β → α → Except ε β} (inv : List α → β → Prop)
    (hstep : ∀ a rest b b', inv (a :: rest) b → step b a = .ok b' → inv rest b') :
    ∀ {as : List α} {b c : β}, inv as b → as.foldlM step b = .ok c → inv [] c
  | [], b, c, hb, h => by
    rw [List.foldlM_nil, pure_eq_ok_iff] at h
    exact h ▸ hb
  | a :: as, b, c, hb, h => by
    rw [List.foldlM_cons, bind_eq_ok_iff] at h
    obtain ⟨b', hb', hc⟩ := h
    exact foldlM_induction inv hstep (hstep a as b b' hb hb') hc

/-- A fold comes to its end if none of its steps is refused where something holds that each of them
keeps. -/
theorem foldlM_progress {step : β → α → Except ε β} (inv : List α → β → Prop)
    (hstep : ∀ a rest b, inv (a :: rest) b → ∃ b', step b a = .ok b' ∧ inv rest b') :
    ∀ {as : List α} {b : β}, inv as b → ∃ c, as.foldlM step b = .ok c ∧ inv [] c
  | [], b, hb => ⟨b, rfl, hb⟩
  | a :: as, b, hb => by
    obtain ⟨b', hfirst, hb'⟩ := hstep a as b hb
    obtain ⟨c, hrest, hc⟩ := foldlM_progress inv hstep hb'
    refine ⟨c, ?_, hc⟩
    rw [List.foldlM_cons, hfirst, ok_bind]
    exact hrest

/-! Reasons of refusal. -/

/-- Refused, if at all, for a reason of this sort. -/
def RefusedOnly (reason : ε → Prop) (x : Except ε α) : Prop := ∀ e, x = .error e → reason e

variable {reason : ε → Prop} {x : Except ε α} {f : α → Except ε β}

theorem refusedOnly_pure (a : α) : RefusedOnly reason (pure a : Except ε α) :=
  fun _ h => absurd h pure_ne_error

/-- What comes after a link of a chain may rely on what that link gave. -/
theorem RefusedOnly.bind_of_ok (hx : RefusedOnly reason x)
    (hf : ∀ a, x = .ok a → RefusedOnly reason (f a)) : RefusedOnly reason (x >>= f) := by
  intro e h
  rcases bind_eq_error_iff.mp h with hfirst | ⟨a, ha, hrest⟩
  · exact hx e hfirst
  · exact hf a ha e hrest

theorem RefusedOnly.bind (hx : RefusedOnly reason x) (hf : ∀ a, RefusedOnly reason (f a)) :
    RefusedOnly reason (x >>= f) :=
  hx.bind_of_ok fun a _ => hf a

theorem RefusedOnly.mono {weaker : ε → Prop} (h : ∀ e, reason e → weaker e)
    (hx : RefusedOnly reason x) : RefusedOnly weaker x :=
  fun e he => h e (hx e he)

/-- A fold is refused by one of its steps. -/
theorem refusedOnly_foldlM {step : β → α → Except ε β}
    (hstep : ∀ b a, RefusedOnly reason (step b a)) (as : List α) (b : β) :
    RefusedOnly reason (as.foldlM step b) := by
  induction as generalizing b with
  | nil => exact refusedOnly_pure b
  | cons a as ih =>
    rw [List.foldlM_cons]
    exact (hstep b a).bind ih

/-! Checks before writes. -/

section Performs

variable {σ : Type}

/-- A procedure that writes as it goes leaves what a chain of checks gives, or is refused as the
chain is and has written nothing. -/
def Performs (p : ExceptT ε (StateM σ) Unit) (before : σ) (chain : Except ε σ) : Prop :=
  p.run.run before =
    match chain with
    | .ok after => (.ok (), after)
    | .error e => (.error e, before)

theorem Performs.get {p : σ → ExceptT ε (StateM σ) Unit} {before : σ} {chain : Except ε σ}
    (h : Performs (p before) before chain) : Performs (MonadState.get >>= p) before chain := h

/-- A check is passed by both or refuses both, and then nothing was written. -/
theorem Performs.bind {x : Except ε α} {p : α → ExceptT ε (StateM σ) Unit}
    {chain : α → Except ε σ} {before : σ} (h : ∀ a, Performs (p a) before (chain a)) :
    Performs (liftM x >>= p) before (x >>= chain) := by
  cases x with
  | error e => rfl
  | ok a => exact h a

end Performs

end Except

theorem demand_of_true {c : Prop} [Decidable c] {r : Refusal} (h : c) : demand c r = .ok () :=
  demand_eq_ok_iff.mpr h

theorem demand_eq_error_iff {c : Prop} [Decidable c] {r e : Refusal} :
    demand c r = .error e ↔ ¬c ∧ r = e := by
  unfold demand
  split <;> simp_all

namespace Access

variable {a : Access} {l : Ledger} {name : Address} {u : Unit}

theorem requireSigned_eq_ok_iff : a.requireSigned = .ok u ↔ a.signed = true := demand_eq_ok_iff

theorem requireWritable_eq_ok_iff : a.requireWritable = .ok u ↔ a.writable = true :=
  demand_eq_ok_iff

theorem requireDerived_eq_ok_iff : a.requireDerived name = .ok u ↔ a.address = name :=
  demand_eq_ok_iff

theorem requireNamed_eq_ok_iff : a.requireNamed name = .ok u ↔ a.address = name :=
  demand_eq_ok_iff

theorem requireProgram_eq_ok_iff :
    a.requireProgram l name = .ok u ↔ a.address = name ∧ (l a.address).executable = true := by
  unfold requireProgram
  simp only [bind_eq_ok_iff, exists_const, requireNamed_eq_ok_iff, demand_eq_ok_iff]

theorem requireFresh_eq_ok_iff :
    a.requireFresh l name = .ok u ↔
      (l a.address).contents.isEmpty = true ∧ a.writable = true ∧ a.address = name := by
  unfold requireFresh requireEmpty
  simp only [bind_eq_ok_iff, exists_const, requireWritable_eq_ok_iff,
    requireDerived_eq_ok_iff, demand_eq_ok_iff]

theorem requireOwn_eq_ok_iff :
    a.requireOwn name = .ok u ↔ a.writable = true ∧ a.address = name := by
  unfold requireOwn
  simp only [bind_eq_ok_iff, exists_const, requireWritable_eq_ok_iff,
    requireDerived_eq_ok_iff]

theorem requireWallet_eq_ok_iff {owner : Address} {token : Token} :
    a.requireWallet l owner token = .ok u ↔
      a.writable = true ∧ a.address = .wallet owner token ∧
        ∃ w, l.wallet a.address = .ok w ∧ w.Sound ∧ w.stateCode ≠ 0 := by
  unfold requireWallet Ledger.requireWallet
  simp only [bind_eq_ok_iff, exists_const, requireWritable_eq_ok_iff, demand_eq_ok_iff]

end Access

end DiceHouse
