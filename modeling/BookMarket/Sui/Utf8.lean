import BookMarket.Sui.Text

/-!
# What the UTF-8 check accepts

`internalCheckUtf8` is an automaton over bytes.  Well-formed UTF-8, on the other hand,
is what one gets by encoding characters, that is Unicode scalar values, one after the
other.  The two agree.

* `WellFormedUtf8` — the bytes are the encoding of some characters.
* `run_encode` — the automaton reads every character.
* `exists_encode` — what it reads begins with a character.
* `internalCheckUtf8_iff` — **the check accepts exactly the well-formed texts.**
-/

namespace BookMarket

/-- The bytes are the encoding of some characters. -/
def WellFormedUtf8 (bytes : List UInt8) : Prop :=
  ∃ chars : List Char, bytes = chars.flatMap String.utf8EncodeChar

namespace Utf8State

/-- The automaton on a text. -/
def run (s : Utf8State) (bytes : List UInt8) : Utf8State := bytes.foldl step s

theorem run_append (s : Utf8State) (xs ys : List UInt8) : s.run (xs ++ ys) = (s.run xs).run ys :=
  List.foldl_append

theorem run_fail (bytes : List UInt8) : run .fail bytes = .fail := by
  induction bytes with
  | nil => rfl
  | cons b bytes ih => exact ih

/-! ## The automaton on numbers -/

/-- The byte a continuation has to be in, and the state after it. -/
def expected : Utf8State → Option (ℕ × ℕ × Utf8State)
  | .start | .fail => none
  | .need1 => some (0x80, 0xBF, .start)
  | .need2 => some (0x80, 0xBF, .need1)
  | .need3 => some (0x80, 0xBF, .need2)
  | .afterE0 => some (0xA0, 0xBF, .need1)
  | .afterED => some (0x80, 0x9F, .need1)
  | .afterF0 => some (0x90, 0xBF, .need2)
  | .afterF4 => some (0x80, 0x8F, .need2)

/-- The state after the first byte of a character. -/
def lead (b : ℕ) : Utf8State :=
  if b ≤ 0x7F then .start
  else if 0xC2 ≤ b ∧ b ≤ 0xDF then .need1
  else if b = 0xE0 then .afterE0
  else if b = 0xED then .afterED
  else if 0xE1 ≤ b ∧ b ≤ 0xEF then .need2
  else if b = 0xF0 then .afterF0
  else if 0xF1 ≤ b ∧ b ≤ 0xF3 then .need3
  else if b = 0xF4 then .afterF4
  else .fail

theorem step_start (b : UInt8) : step .start b = lead b.toNat := by
  simp [step, lead, UInt8.le_iff_toNat_le, ← UInt8.toNat_inj]

theorem step_expected {s s' : Utf8State} {lo hi : ℕ} (h : s.expected = some (lo, hi, s'))
    (b : UInt8) : s.step b = if lo ≤ b.toNat ∧ b.toNat ≤ hi then s' else .fail := by
  cases s <;> cases h <;> simp [step, UInt8.le_iff_toNat_le]

/-- A continuation that is read is followed by something that is read. -/
theorem run_cons_of_expected {s s' : Utf8State} {lo hi : ℕ} (h : s.expected = some (lo, hi, s'))
    {b : ℕ} (hlo : lo ≤ b) (hhi : b ≤ hi) (hb : b < 256) (bytes : List UInt8) :
    s.run (UInt8.ofNat b :: bytes) = s'.run bytes := by
  rw [run, List.foldl_cons, step_expected h, UInt8.toNat_ofNat_of_lt' hb, if_pos ⟨hlo, hhi⟩]
  rfl

/-- And one that has to be there is there. -/
theorem exists_of_run_expected {s s' : Utf8State} {lo hi : ℕ}
    (h : s.expected = some (lo, hi, s')) {bytes : List UInt8} (hrun : s.run bytes = .start) :
    ∃ b rest, bytes = b :: rest ∧ lo ≤ b.toNat ∧ b.toNat ≤ hi ∧ s'.run rest = .start := by
  cases bytes with
  | nil =>
    obtain rfl : s = .start := hrun
    cases h
  | cons b rest =>
    rw [run, List.foldl_cons, step_expected h] at hrun
    split at hrun
    · next hb => exact ⟨b, rest, rfl, hb.1, hb.2, hrun⟩
    · rw [← run, run_fail] at hrun
      cases hrun

/-! ## Characters are read -/

theorem run_lead {b : ℕ} (hb : b < 256) (bytes : List UInt8) :
    run .start (UInt8.ofNat b :: bytes) = (lead b).run bytes := by
  rw [run, List.foldl_cons, step_start, UInt8.toNat_ofNat_of_lt' hb]
  rfl

theorem lead_need2 {b : ℕ} (h : 0xE1 ≤ b ∧ b ≤ 0xEF) (hne : b ≠ 0xED) : lead b = .need2 := by
  rw [lead, if_neg (by omega), if_neg (by omega), if_neg (by omega), if_neg hne, if_pos h]

theorem lead_need3 {b : ℕ} (h : 0xF1 ≤ b ∧ b ≤ 0xF3) : lead b = .need3 := by
  rw [lead, if_neg (by omega), if_neg (by omega), if_neg (by omega), if_neg (by omega),
    if_neg (by omega), if_neg (by omega), if_pos h]

/-- A character of three bytes is read when its second byte is in the range its first
one asks for, -/
theorem run_three {s : Utf8State} {lo hi b₀ b₁ b₂ : ℕ} (hlead : lead b₀ = s)
    (hs : s.expected = some (lo, hi, .need1)) (h₀ : b₀ < 256) (h₁ : lo ≤ b₁ ∧ b₁ ≤ hi)
    (hhi : hi < 256) (h₂ : 0x80 ≤ b₂ ∧ b₂ ≤ 0xBF) :
    run .start [UInt8.ofNat b₀, UInt8.ofNat b₁, UInt8.ofNat b₂] = .start := by
  rw [run_lead h₀, hlead, run_cons_of_expected hs h₁.1 h₁.2 (by omega),
    run_cons_of_expected (s := .need1) rfl h₂.1 h₂.2 (by omega)]
  rfl

/-- and so is one of four. -/
theorem run_four {s : Utf8State} {lo hi b₀ b₁ b₂ b₃ : ℕ} (hlead : lead b₀ = s)
    (hs : s.expected = some (lo, hi, .need2)) (h₀ : b₀ < 256) (h₁ : lo ≤ b₁ ∧ b₁ ≤ hi)
    (hhi : hi < 256) (h₂ : 0x80 ≤ b₂ ∧ b₂ ≤ 0xBF) (h₃ : 0x80 ≤ b₃ ∧ b₃ ≤ 0xBF) :
    run .start [UInt8.ofNat b₀, UInt8.ofNat b₁, UInt8.ofNat b₂, UInt8.ofNat b₃] = .start := by
  rw [run_lead h₀, hlead, run_cons_of_expected hs h₁.1 h₁.2 (by omega),
    run_cons_of_expected (s := .need2) rfl h₂.1 h₂.2 (by omega),
    run_cons_of_expected (s := .need1) rfl h₃.1 h₃.2 (by omega)]
  rfl

/-- **The automaton reads every character.** -/
theorem run_encode (c : Char) : run .start (String.utf8EncodeChar c) = .start := by
  have hvalid : c.val.toNat < 0xd800 ∨ (0xdfff < c.val.toNat ∧ c.val.toNat < 0x110000) := c.valid
  unfold String.utf8EncodeChar
  generalize c.val.toNat = v at hvalid
  dsimp only
  split
  · rw [run_lead (by omega), lead, if_pos (by omega)]
    rfl
  split
  · rw [run_lead (by omega), lead, if_neg (by omega), if_pos (by omega),
      run_cons_of_expected (s := .need1) rfl (by omega) (by omega) (by omega)]
    rfl
  split
  · -- three bytes: overlong forms and surrogates are excluded by the second
    by_cases hE0 : v < 0x1000
    · rw [show v / 4096 % 0x10 + 0xe0 = 0xE0 by omega]
      exact run_three (s := .afterE0) rfl rfl (by omega) (by omega) (by omega) (by omega)
    by_cases hED : 0xD000 ≤ v ∧ v < 0xE000
    · rw [show v / 4096 % 0x10 + 0xe0 = 0xED by omega]
      exact run_three (s := .afterED) rfl rfl (by omega) (by omega) (by omega) (by omega)
    exact run_three (s := .need2) (lead_need2 (by omega) (by omega)) rfl (by omega) (by omega)
      (by omega) (by omega)
  · -- four bytes: here it is overlong forms and numbers that are too large
    by_cases hF0 : v < 0x40000
    · rw [show v / 262144 % 0x08 + 0xf0 = 0xF0 by omega]
      exact run_four (s := .afterF0) rfl rfl (by omega) (by omega) (by omega) (by omega) (by omega)
    by_cases hF4 : 0x100000 ≤ v
    · rw [show v / 262144 % 0x08 + 0xf0 = 0xF4 by omega]
      exact run_four (s := .afterF4) rfl rfl (by omega) (by omega) (by omega) (by omega) (by omega)
    exact run_four (s := .need3) (lead_need3 (by omega)) rfl (by omega) (by omega) (by omega)
      (by omega) (by omega)

/-! ## What is read begins with a character -/

/-- The character with a given number. -/
theorem exists_char {v : ℕ} (h : v < 0xd800 ∨ (0xdfff < v ∧ v < 0x110000)) :
    ∃ c : Char, c.val.toNat = v := by
  have hv : v < UInt32.size := by
    rw [UInt32.size]
    omega
  exact ⟨⟨UInt32.ofNatLT v hv, h⟩, UInt32.toNat_ofNatLT⟩

theorem ofNat_eq {n : ℕ} {b : UInt8} (h : n = b.toNat) : UInt8.ofNat n = b := by
  rw [h, UInt8.ofNat_toNat]

/-! Bytes in the right ranges are a character. -/

theorem encode_one {b : UInt8} (h : b.toNat ≤ 0x7F) : ∃ c, String.utf8EncodeChar c = [b] := by
  obtain ⟨c, hc⟩ := exists_char (v := b.toNat) (by omega)
  refine ⟨c, ?_⟩
  simp only [String.utf8EncodeChar, hc]
  rw [if_pos h, UInt8.ofNat_toNat]

theorem encode_two {b₀ b₁ : UInt8} (h₀ : 0xC2 ≤ b₀.toNat ∧ b₀.toNat ≤ 0xDF)
    (h₁ : 0x80 ≤ b₁.toNat ∧ b₁.toNat ≤ 0xBF) : ∃ c, String.utf8EncodeChar c = [b₀, b₁] := by
  obtain ⟨c, hc⟩ := exists_char (v := (b₀.toNat - 0xC0) * 64 + (b₁.toNat - 0x80)) (by omega)
  refine ⟨c, ?_⟩
  simp only [String.utf8EncodeChar, hc]
  rw [if_neg (by omega), if_pos (by omega), ofNat_eq (b := b₀) (by omega),
    ofNat_eq (b := b₁) (by omega)]

/-- Three bytes must not be overlong, nor a surrogate. -/
theorem encode_three (b₀ b₁ b₂ : UInt8) (h₀ : 0xE0 ≤ b₀.toNat ∧ b₀.toNat ≤ 0xEF)
    (h₁ : 0x80 ≤ b₁.toNat ∧ b₁.toNat ≤ 0xBF) (h₂ : 0x80 ≤ b₂.toNat ∧ b₂.toNat ≤ 0xBF)
    (hE0 : b₀.toNat = 0xE0 → 0xA0 ≤ b₁.toNat) (hED : b₀.toNat = 0xED → b₁.toNat ≤ 0x9F) :
    ∃ c, String.utf8EncodeChar c = [b₀, b₁, b₂] := by
  obtain ⟨c, hc⟩ := exists_char
    (v := (b₀.toNat - 0xE0) * 4096 + (b₁.toNat - 0x80) * 64 + (b₂.toNat - 0x80)) (by omega)
  refine ⟨c, ?_⟩
  simp only [String.utf8EncodeChar, hc]
  rw [if_neg (by omega), if_neg (by omega), if_pos (by omega), ofNat_eq (b := b₀) (by omega),
    ofNat_eq (b := b₁) (by omega), ofNat_eq (b := b₂) (by omega)]

/-- Four bytes must not be overlong, nor too large. -/
theorem encode_four (b₀ b₁ b₂ b₃ : UInt8) (h₀ : 0xF0 ≤ b₀.toNat ∧ b₀.toNat ≤ 0xF4)
    (h₁ : 0x80 ≤ b₁.toNat ∧ b₁.toNat ≤ 0xBF) (h₂ : 0x80 ≤ b₂.toNat ∧ b₂.toNat ≤ 0xBF)
    (h₃ : 0x80 ≤ b₃.toNat ∧ b₃.toNat ≤ 0xBF) (hF0 : b₀.toNat = 0xF0 → 0x90 ≤ b₁.toNat)
    (hF4 : b₀.toNat = 0xF4 → b₁.toNat ≤ 0x8F) :
    ∃ c, String.utf8EncodeChar c = [b₀, b₁, b₂, b₃] := by
  obtain ⟨c, hc⟩ := exists_char (v := (b₀.toNat - 0xF0) * 262144 + (b₁.toNat - 0x80) * 4096 +
    (b₂.toNat - 0x80) * 64 + (b₃.toNat - 0x80)) (by omega)
  refine ⟨c, ?_⟩
  simp only [String.utf8EncodeChar, hc]
  rw [if_neg (by omega), if_neg (by omega), if_neg (by omega), ofNat_eq (b := b₀) (by omega),
    ofNat_eq (b := b₁) (by omega), ofNat_eq (b := b₂) (by omega), ofNat_eq (b := b₃) (by omega)]

/-! What follows a first byte makes a character with it. -/

theorem read_two {b : UInt8} {bytes : List UInt8} (h : run .need1 bytes = .start)
    (hb : 0xC2 ≤ b.toNat ∧ b.toNat ≤ 0xDF) :
    ∃ c rest, b :: bytes = String.utf8EncodeChar c ++ rest ∧ run .start rest = .start := by
  obtain ⟨b₁, rest, rfl, hlo, hhi, hrest⟩ := exists_of_run_expected (s := .need1) rfl h
  obtain ⟨c, hc⟩ := encode_two hb ⟨hlo, hhi⟩
  exact ⟨c, rest, by rw [hc]; rfl, hrest⟩

/-- The range of the second byte has to exclude what the first one does not. -/
theorem read_three {s : Utf8State} {lo hi : ℕ} (hs : s.expected = some (lo, hi, .need1))
    (hlo : 0x80 ≤ lo) (hhi : hi ≤ 0xBF) {b : UInt8} {bytes : List UInt8}
    (h : s.run bytes = .start) (hb : 0xE0 ≤ b.toNat ∧ b.toNat ≤ 0xEF)
    (hE0 : b.toNat = 0xE0 → 0xA0 ≤ lo) (hED : b.toNat = 0xED → hi ≤ 0x9F) :
    ∃ c rest, b :: bytes = String.utf8EncodeChar c ++ rest ∧ run .start rest = .start := by
  obtain ⟨b₁, rest₁, rfl, hlo₁, hhi₁, h₁⟩ := exists_of_run_expected hs h
  obtain ⟨b₂, rest, rfl, hlo₂, hhi₂, hrest⟩ := exists_of_run_expected (s := .need1) rfl h₁
  obtain ⟨c, hc⟩ := encode_three b b₁ b₂ hb (by omega) ⟨hlo₂, hhi₂⟩ (by omega) (by omega)
  exact ⟨c, rest, by rw [hc]; rfl, hrest⟩

theorem read_four {s : Utf8State} {lo hi : ℕ} (hs : s.expected = some (lo, hi, .need2))
    (hlo : 0x80 ≤ lo) (hhi : hi ≤ 0xBF) {b : UInt8} {bytes : List UInt8}
    (h : s.run bytes = .start) (hb : 0xF0 ≤ b.toNat ∧ b.toNat ≤ 0xF4)
    (hF0 : b.toNat = 0xF0 → 0x90 ≤ lo) (hF4 : b.toNat = 0xF4 → hi ≤ 0x8F) :
    ∃ c rest, b :: bytes = String.utf8EncodeChar c ++ rest ∧ run .start rest = .start := by
  obtain ⟨b₁, rest₁, rfl, hlo₁, hhi₁, h₁⟩ := exists_of_run_expected hs h
  obtain ⟨b₂, rest₂, rfl, hlo₂, hhi₂, h₂⟩ := exists_of_run_expected (s := .need2) rfl h₁
  obtain ⟨b₃, rest, rfl, hlo₃, hhi₃, hrest⟩ := exists_of_run_expected (s := .need1) rfl h₂
  obtain ⟨c, hc⟩ := encode_four b b₁ b₂ b₃ hb (by omega) ⟨hlo₂, hhi₂⟩ ⟨hlo₃, hhi₃⟩
    (by omega) (by omega)
  exact ⟨c, rest, by rw [hc]; rfl, hrest⟩

/-- **What the automaton reads begins with a character.** -/
theorem exists_encode {b : UInt8} {bytes : List UInt8} (h : run .start (b :: bytes) = .start) :
    ∃ c rest, b :: bytes = String.utf8EncodeChar c ++ rest ∧ run .start rest = .start := by
  rw [run, List.foldl_cons, step_start] at h
  change (lead b.toNat).run bytes = .start at h
  -- one case for each range of the first byte
  rw [lead] at h
  split at h
  · next hb =>
    obtain ⟨c, hc⟩ := encode_one hb
    exact ⟨c, bytes, by rw [hc]; rfl, h⟩
  split at h
  · next hb => exact read_two h hb
  split at h
  · exact read_three rfl (by decide) (by decide) h (by omega) (by omega) (by omega)
  split at h
  · exact read_three rfl (by decide) (by decide) h (by omega) (by omega) (by omega)
  split at h
  · exact read_three rfl (by decide) (by decide) h (by omega) (by omega) (by omega)
  split at h
  · exact read_four rfl (by decide) (by decide) h (by omega) (by omega) (by omega)
  split at h
  · exact read_four rfl (by decide) (by decide) h (by omega) (by omega) (by omega)
  split at h
  · exact read_four rfl (by decide) (by decide) h (by omega) (by omega) (by omega)
  · rw [run_fail] at h
    cases h

/-- So it is a sequence of characters, -/
theorem wellFormed_of_run {bytes : List UInt8} (h : run .start bytes = .start) :
    WellFormedUtf8 bytes := by
  -- the characters are taken off one after the other
  induction hn : bytes.length using Nat.strongRecOn generalizing bytes with
  | _ n ih =>
    cases bytes with
    | nil => exact ⟨[], rfl⟩
    | cons b bytes =>
      obtain ⟨c, rest, heq, hrest⟩ := exists_encode h
      have hlen : rest.length < n := by
        have hpos : 0 < (String.utf8EncodeChar c).length :=
          List.length_pos_iff.2 String.utf8EncodeChar_ne_nil
        rw [← hn, heq, List.length_append]
        omega
      obtain ⟨chars, rfl⟩ := ih _ hlen hrest rfl
      exact ⟨c :: chars, heq⟩

/-- and every such sequence is read. -/
theorem run_of_wellFormed {bytes : List UInt8} (h : WellFormedUtf8 bytes) :
    run .start bytes = .start := by
  obtain ⟨chars, rfl⟩ := h
  induction chars with
  | nil => rfl
  | cons c chars ih => rw [List.flatMap_cons, run_append, run_encode, ih]

end Utf8State

/-- **The check accepts exactly the well-formed texts.** -/
theorem internalCheckUtf8_iff (bytes : List UInt8) :
    internalCheckUtf8 bytes = true ↔ WellFormedUtf8 bytes := by
  have hcheck : internalCheckUtf8 bytes = true ↔ Utf8State.run .start bytes = .start :=
    decide_eq_true_iff
  rw [hcheck]
  exact ⟨Utf8State.wellFormed_of_run, Utf8State.run_of_wellFormed⟩

end BookMarket
