import DiceHouse.Operation.Administration
import DiceHouse.Proofs.Ledger.Spares

/-!
# What opening and configuring the house change

The house opens once: it puts its five first records where none were. Configuring touches the
settings alone.
-/

namespace DiceHouse.Operation

/-- A granted opening of the house. -/
structure Opening (slot : Nat) (accounts : List Access) (l m : Ledger) where
  signer : Access
  listed : signer ∈ accounts
  signed : signer.signed = true
  admin : signer.address = .admin
  board_absent : ∀ body, l.load .board .board ≠ .ok body
  round_absent : ∀ body, l.load .round (.round 1) ≠ .ok body
  table_absent : ∀ body, l.load .table .table ≠ .ok body
  settings_absent : ∀ body, l.load .settings .settings ≠ .ok body
  treasury_absent : ∀ body, l.load .treasury .treasury ≠ .ok body
  board : Board
  first : firstBoard slot = .ok board
  expiresAt : Nat
  expiry : Amount.add board.finish Board.claimPeriod = .ok expiresAt
  board_after : m.load .board .board = .ok board
  settings_after : m.load .settings .settings = .ok (Settings.initial .admin)
  treasury_after : m.load .treasury .treasury = .ok Treasury.blank
  round_after : m.load .round (.round 1) = .ok (Round.start .system 1 0 expiresAt .admin)
  table_after : m.load .table .table = .ok (Table.blank.setPhase .comeOut)
  rest : ∀ b, b ≠ .board → b ≠ .settings → b ≠ .treasury → b ≠ .round 1 → b ≠ .table →
    Ledger.Agree l m b
  spares : ∀ v, l.Spares m v

theorem carryover_firstBoard {slot : Nat} {board : Board} (h : firstBoard slot = .ok board) :
    board.carryover = 0 := by
  unfold firstBoard at h
  simp only [bind_eq_ok_iff, pure_eq_ok_iff] at h
  obtain ⟨finish, -, rfl⟩ := h
  rfl

theorem round_firstBoard {slot : Nat} {board : Board} (h : firstBoard slot = .ok board) :
    board.round = 1 := by
  unfold firstBoard at h
  simp only [bind_eq_ok_iff, pure_eq_ok_iff] at h
  obtain ⟨finish, -, rfl⟩ := h
  rfl

theorem openHouse_ok {slot : Nat} {accounts : List Access} {l : Ledger} {s : Session}
    (h : openHouse slot accounts l = .ok s) : Nonempty (Opening slot accounts l s.ledger) := by
  unfold openHouse at h
  split at h
  · next signer board settings treasury round table system =>
    simp only [bind_eq_ok_iff, Access.requireSigned_eq_ok_iff, Access.requireNamed_eq_ok_iff,
      Access.requireFresh_eq_ok_iff, Access.requireProgram_eq_ok_iff, liftM_eq_ok_iff,
      exists_const, pure_eq_ok_iff] at h
    obtain ⟨hsigned, hadmin, ⟨hboard_empty, -, hboard⟩, ⟨hsettings_empty, -, hsettings⟩,
      ⟨htreasury_empty, -, htreasury⟩, ⟨hround_empty, -, hround⟩,
      ⟨htable_empty, -, htable⟩, -, s₁, h₁, first, hfirst, s₂, h₂, s₃, h₃, s₄, h₄, expiresAt, hexpiry, s₅, h₅, rfl⟩ := h
    rw [hboard] at hboard_empty h₁ h₂
    rw [hround] at hround_empty h₄ h₅
    rw [htable] at htable_empty h₅
    rw [hsettings] at hsettings_empty h₂
    rw [htreasury] at htreasury_empty h₃
    rw [hadmin] at h₁ h₂ h₃ h₄ h₅
    obtain ⟨-, -, ho₁, hr₁⟩ := Session.create_ok h₁
    obtain ⟨-, hl₂, -, hr₂⟩ := Session.create_ok h₂
    obtain ⟨-, hl₃, -, hr₃⟩ := Session.create_ok h₃
    obtain ⟨-, -, ho₄, hr₄⟩ := Session.create_ok h₄
    obtain ⟨-, hl₅, -, hr₅⟩ := Session.create_ok h₅
    have hl₁ : (s₁.store .board .board first).ledger.load .board .board = .ok first :=
      Ledger.load_store _ .board _ first ho₁
    have hl₄ := Ledger.load_store s₄.ledger .round (.round 1)
      (Round.start .system 1 0 expiresAt .admin) ho₄
    have hrest : ∀ b, b ≠ .board → b ≠ .settings → b ≠ .treasury → b ≠ .round 1 → b ≠ .table →
        Ledger.Agree l s₅.ledger b := by
      intro b hb hs ht hr htb
      exact (((((((hr₁ b hb).trans (Ledger.agree_store _ _ _ hb)).trans (hr₂ b hs)).trans
        (hr₃ b ht)).trans (hr₄ b hr)).trans (Ledger.agree_store _ _ _ hr)).trans (hr₅ b htb))
    refine ⟨{
      signer, listed := List.mem_cons_self, signed := hsigned, admin := hadmin
      board_absent := fun body => Ledger.load_of_isEmpty hboard_empty
      round_absent := fun body => Ledger.load_of_isEmpty hround_empty
      table_absent := fun body => Ledger.load_of_isEmpty htable_empty
      settings_absent := fun body => Ledger.load_of_isEmpty hsettings_empty
      treasury_absent := fun body => Ledger.load_of_isEmpty htreasury_empty
      board := first, first := hfirst, expiresAt, expiry := hexpiry
      board_after := ?_, settings_after := ?_, treasury_after := ?_, round_after := ?_
      table_after := hl₅, rest := hrest, spares := fun v => .of_agree fun b => ?_ }⟩
    · rw [Session.ledger_note, (hr₅ .board (by simp)).load, Session.ledger_store,
        (Ledger.agree_store _ _ _ (by simp)).load, (hr₄ .board (by simp)).load,
        (hr₃ .board (by simp)).load, (hr₂ .board (by simp)).load, hl₁]
    · rw [Session.ledger_note, (hr₅ .settings (by simp)).load, Session.ledger_store,
        (Ledger.agree_store _ _ _ (by simp)).load, (hr₄ .settings (by simp)).load,
        (hr₃ .settings (by simp)).load, hl₂]
    · rw [Session.ledger_note, (hr₅ .treasury (by simp)).load, Session.ledger_store,
        (Ledger.agree_store _ _ _ (by simp)).load, (hr₄ .treasury (by simp)).load, hl₃]
    · rw [Session.ledger_note, (hr₅ (.round 1) (by simp)).load, Session.ledger_store, hl₄]
    · -- the five accounts that were opened were empty before
      by_cases hempty : (l b).contents.isEmpty = true
      · exact .inl fun w hw => absurd hw (Ledger.wallet_of_isEmpty hempty)
      · have hne : ∀ a, (l a).contents.isEmpty = true → b ≠ a := fun a ha hc => hempty (hc ▸ ha)
        exact .inr (hrest b (hne _ hboard_empty) (hne _ hsettings_empty) (hne _ htreasury_empty)
          (hne _ hround_empty) (hne _ htable_empty))
  · cases h

/-- A granted change of the settings. -/
structure Configuration (new : Settings Address) (accounts : List Access) (l m : Ledger) where
  signer : Access
  listed : signer ∈ accounts
  signed : signer.signed = true
  current : Settings Address
  current_load : l.load .settings .settings = .ok current
  authority : current.admin = signer.address
  sound : new.Sound
  settings_after : m.load .settings .settings = .ok new
  rest : ∀ b, b ≠ .settings → Ledger.Agree l m b

theorem configure_ok {new : Settings Address} {accounts : List Access} {l : Ledger} {s : Session}
    (h : configure new accounts l = .ok s) :
    Nonempty (Configuration new accounts l s.ledger) := by
  unfold configure Settings.validate at h
  split at h
  · next signer settings =>
    simp only [bind_eq_ok_iff, Access.requireSigned_eq_ok_iff, Access.requireOwn_eq_ok_iff,
      liftM_eq_ok_iff, require_eq_ok_iff, exists_const, pure_eq_ok_iff] at h
    obtain ⟨hsigned, ⟨-, hsettings⟩, current, hcurrent, hauthority, valid, ⟨hsound, rfl⟩, rfl⟩ := h
    rw [hsettings] at hcurrent
    simp only [Session.ledger_note, Session.ledger_store, hsettings]
    exact ⟨{
      signer, listed := List.mem_cons_self, signed := hsigned
      current, current_load := hcurrent, authority := hauthority, sound := hsound
      settings_after := Ledger.load_store l .settings _ new (Ledger.owner_of_load hcurrent)
      rest := fun b hb => Ledger.agree_store _ _ _ hb }⟩
  · cases h

end DiceHouse.Operation
