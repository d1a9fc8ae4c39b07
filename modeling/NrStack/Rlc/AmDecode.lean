/-
  Decoding the PDUs an AM entity receives, whatever their bytes: no read ends the process, and the
  numbers that come out fit their fields.
-/
import NrStack.Rlc.AmControl

namespace NrStack.Rlc.Am

variable {cfg : Config}

variable {d : PduDecoder} {bs : List Bool}

lemma readDataHeader_cases (hcfg : cfg.Legal) (h : d.At bs) :
    readDataHeader cfg d = .error .err ∨
      ∃ si sn so d', readDataHeader cfg d = .ok (si, sn, so, d') ∧ sn < cfg.snModulus := by
  rw [readDataHeader]
  rcases PduDecoder.read_cases h (w := 2) (by omega) with herr | ⟨si, d₁, hread, -, h₁, -⟩
  · rw [herr]
    exact .inl rfl
  rw [hread]
  rcases PduDecoder.readWhen_cases h₁ (w := 2) (by omega) (cfg.snFieldLength == 18) with
    herr | ⟨r, d₂, bs₂, hread₂, -, h₂, -⟩
  · exact .inl (by simp only [bind, Except.bind, herr])
  rcases PduDecoder.read_cases h₂ hcfg.snFieldLength_le with herr | ⟨sn, d₃, hread₃, hsn, h₃, -⟩
  · exact .inl (by simp only [bind, Except.bind, hread₂, herr])
  rcases PduDecoder.readWhen_cases h₃ (w := 16) (by omega) (si &&& 2 != 0) with
    herr | ⟨so, d₄, bs₄, hread₄, -, h₄, -⟩
  · exact .inl (by simp only [bind, Except.bind, hread₂, hread₃, herr])
  · refine .inr ⟨si, sn, so, d₄, ?_, by rw [hcfg.modulus]; exact hsn⟩
    simp only [bind, Except.bind, hread₂, hread₃, hread₄]
    rfl

/-! ## Control PDUs of arbitrary bytes -/

/-- What a decoded NACK keeps to. -/
structure Nack.InRange (snModulus : Nat) (n : Nack) : Prop where
  sn_lt : n.nackSn < snModulus
  soEnd_ge : -1 ≤ n.soEnd

lemma readNack_cases (hcfg : cfg.Legal) (h : d.At bs) :
    readNack cfg d = .error .err ∨ ∃ nack e1 d' bs', readNack cfg d = .ok (nack, e1, d') ∧
      d'.At bs' ∧ nack.InRange cfg.snModulus := by
  rw [readNack]
  rcases PduDecoder.read_cases h hcfg.snFieldLength_le with herr | ⟨sn, d₁, r₁, hsn, h₁, -⟩
  · rw [herr]
    exact .inl rfl
  rcases PduDecoder.read_cases h₁ (w := 1) (by omega) with herr | ⟨e1, d₂, r₂, -, h₂, -⟩
  · exact .inl (by simp only [bind, Except.bind, r₁, herr])
  rcases PduDecoder.read_cases h₂ (w := 1) (by omega) with herr | ⟨e2, d₃, r₃, -, h₃, -⟩
  · exact .inl (by simp only [bind, Except.bind, r₁, r₂, herr])
  rcases PduDecoder.read_cases h₃ (w := 1) (by omega) with herr | ⟨e3, d₄, r₄, -, h₄, -⟩
  · exact .inl (by simp only [bind, Except.bind, r₁, r₂, r₃, herr])
  rcases PduDecoder.read_cases h₄ (w := if cfg.snFieldLength = 18 then 3 else 1)
    (by split <;> omega) with herr | ⟨r, d₅, r₅, -, h₅, -⟩
  · exact .inl (by simp only [bind, Except.bind, r₁, r₂, r₃, r₄, herr])
  rcases PduDecoder.readWhen_cases h₅ (w := 16) (by omega) (e2 != 0) with
    herr | ⟨soStart, d₆, bs₆, r₆, -, h₆, -⟩
  · exact .inl (by simp only [bind, Except.bind, r₁, r₂, r₃, r₄, r₅, herr])
  rcases PduDecoder.readWhen_cases h₆ (w := 16) (by omega) (e2 != 0) with
    herr | ⟨soEnd, d₇, bs₇, r₇, -, h₇, -⟩
  · exact .inl (by simp only [bind, Except.bind, r₁, r₂, r₃, r₄, r₅, r₆, herr])
  rcases PduDecoder.readWhen_cases h₇ (w := 8) (by omega) (e3 != 0) with
    herr | ⟨range, d₈, bs₈, r₈, -, h₈, -⟩
  · exact .inl (by simp only [bind, Except.bind, r₁, r₂, r₃, r₄, r₅, r₆, r₇, herr])
  · refine .inr ⟨⟨sn, soStart, if e2 = 0 ∨ soEnd = 0xffff then -1 else soEnd,
      if e3 = 0 then 1 else range⟩, e1 != 0, d₈, bs₈, ?_, h₈, by rw [hcfg.modulus]; exact hsn, ?_⟩
    · simp only [bind, Except.bind, r₁, r₂, r₃, r₄, r₅, r₆, r₇, r₈]
      rfl
    · show -1 ≤ (if e2 = 0 ∨ soEnd = 0xffff then (-1 : Int) else soEnd)
      split <;> omega

lemma readNacks_cases (hcfg : cfg.Legal) (fuel : Nat) :
    ∀ (e1 : Bool) {d : PduDecoder} {bs : List Bool}, d.At bs →
      readNacks cfg fuel e1 d = .error .err ∨ ∃ nacks, readNacks cfg fuel e1 d = .ok nacks ∧
        ∀ n ∈ nacks, n.InRange cfg.snModulus := by
  induction fuel with
  | zero =>
    intro e1 d bs h
    cases e1 with
    | false => exact .inr ⟨[], rfl, nofun⟩
    | true => exact .inl rfl
  | succ fuel ih =>
    intro e1 d bs h
    cases e1 with
    | false => exact .inr ⟨[], rfl, nofun⟩
    | true =>
      rw [readNacks]
      rcases readNack_cases hcfg h with herr | ⟨nack, e1', d', bs', hread, h', hok⟩
      · rw [herr]
        exact .inl rfl
      rcases ih e1' h' with herr | ⟨nacks, hrest, hall⟩
      · exact .inl (by simp only [bind, Except.bind, hread, herr])
      · refine .inr ⟨nack :: nacks, ?_, ?_⟩
        · simp only [bind, Except.bind, hread, hrest]
          rfl
        · intro n hn
          rcases List.mem_cons.mp hn with rfl | hn
          · exact hok
          · exact hall n hn

/-- **Decoding a status PDU, whatever the bytes**: an error, or numbers that fit their fields. -/
theorem readStatus_cases (hcfg : cfg.Legal) (buffer : List UInt8) :
    readStatus cfg buffer = .error .err ∨ ∃ s, readStatus cfg buffer = .ok s ∧
      s.ackSn < cfg.snModulus ∧ ∀ n ∈ s.nacks, n.InRange cfg.snModulus := by
  have h := PduDecoder.At.init buffer
  rw [readStatus]
  rcases PduDecoder.read_cases h (w := 1) (by omega) with herr | ⟨dc, d₁, r₁, -, h₁, -⟩
  · rw [herr]
    exact .inl rfl
  rcases PduDecoder.read_cases h₁ (w := 3) (by omega) with herr | ⟨cpt, d₂, r₂, -, h₂, -⟩
  · exact .inl (by simp only [bind, Except.bind, r₁, herr])
  simp only [bind, Except.bind, r₁, r₂]
  split
  · exact .inl rfl
  rcases PduDecoder.read_cases h₂ hcfg.snFieldLength_le with herr | ⟨ack, d₃, r₃, hack, h₃, -⟩
  · exact .inl (by simp only [herr])
  rcases PduDecoder.read_cases h₃ (w := 1) (by omega) with herr | ⟨e1, d₄, r₄, -, h₄, -⟩
  · exact .inl (by simp only [r₃, herr])
  rcases PduDecoder.read_cases h₄ (w := if cfg.snFieldLength = 18 then 1 else 7)
    (by split <;> omega) with herr | ⟨r, d₅, r₅, -, h₅, -⟩
  · exact .inl (by simp only [r₃, r₄, herr])
  rcases readNacks_cases hcfg buffer.length (e1 != 0) h₅ with herr | ⟨nacks, hnacks, hall⟩
  · exact .inl (by simp only [r₃, r₄, r₅, herr])
  · refine .inr ⟨⟨ack, nacks⟩, ?_, by rw [hcfg.modulus]; exact hack, hall⟩
    simp only [pure, Except.pure, r₃, r₄, r₅, hnacks]

lemma readStatus_ackSn_lt (hcfg : cfg.Legal) {buffer : List UInt8} {s : StatusPdu}
    (hread : readStatus cfg buffer = .ok s) : s.ackSn < cfg.snModulus := by
  rcases readStatus_cases hcfg buffer with herr | ⟨s', hread', hack, -⟩
  · rw [hread] at herr
    cases herr
  · rw [hread] at hread'
    cases hread'
    exact hack

end NrStack.Rlc.Am
