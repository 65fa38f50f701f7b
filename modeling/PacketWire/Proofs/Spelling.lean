import Mathlib.Tactic.IntervalCases
import PacketWire.Utf8

/-!
# Reading and writing UTF-8 undo each other

A character is spelled by one to four digits: the first byte holds the leading digit and says how
many more there are, every other byte holds six bits. `Spells` lists the forms with the bounds
that make a value's form its only one. The characters that a text writes are spelled so, and the
machine that reads accepts these forms and no others; both directions of the inverse follow
character by character.
-/

namespace PacketWire.Utf8

/-- The value of a character and the bytes that spell it. -/
inductive Spells : Nat → Bytes → Prop
  | one {a : Nat} (small : a < 128) : Spells a [UInt8.ofNat a]
  | two {a b : Nat} (needed : 2 ≤ a) (leads : a < 32) (six : b < 64) :
      Spells (a * 64 + b) [UInt8.ofNat (a + 192), UInt8.ofNat (b + 128)]
  | three {a b c : Nat} (leads : a < 16) (six : b < 64) (six' : c < 64)
      (needed : a = 0 → 32 ≤ b) (noSurrogate : a = 13 → b < 32) :
      Spells ((a * 64 + b) * 64 + c)
        [UInt8.ofNat (a + 224), UInt8.ofNat (b + 128), UInt8.ofNat (c + 128)]
  | four {a b c d : Nat} (leads : a < 5) (six : b < 64) (six' : c < 64) (six'' : d < 64)
      (needed : a = 0 → 16 ≤ b) (inRange : a = 4 → b < 16) :
      Spells (((a * 64 + b) * 64 + c) * 64 + d)
        [UInt8.ofNat (a + 240), UInt8.ofNat (b + 128), UInt8.ofNat (c + 128),
          UInt8.ofNat (d + 128)]

/-- Every character is spelled by the bytes that are written for it. -/
theorem spells_utf8EncodeChar (c : Char) : Spells c.toNat (String.utf8EncodeChar c) := by
  have valid : c.toNat < 0xd800 ∨ 0xdfff < c.toNat ∧ c.toNat < 0x110000 := c.valid
  simp only [String.utf8EncodeChar, show c.val.toNat = c.toNat from rfl]
  generalize c.toNat = v at valid
  split
  · exact .one (by omega)
  split
  · rw [show v / 64 % 32 = v / 64 by omega]
    have form := Spells.two (a := v / 64) (b := v % 64) (by omega) (by omega) (by omega)
    rwa [show v / 64 * 64 + v % 64 = v by omega] at form
  split
  · rw [show v / 4096 % 16 = v / 4096 by omega]
    have form := Spells.three (a := v / 4096) (b := v / 64 % 64) (c := v % 64) (by omega)
      (by omega) (by omega) (by omega) (by omega)
    rwa [show (v / 4096 * 64 + v / 64 % 64) * 64 + v % 64 = v by omega] at form
  · rw [show v / 262144 % 8 = v / 262144 by omega]
    have form := Spells.four (a := v / 262144) (b := v / 4096 % 64) (c := v / 64 % 64) (d := v % 64)
      (by omega) (by omega) (by omega) (by omega) (by omega) (by omega)
    rwa [show ((v / 262144 * 64 + v / 4096 % 64) * 64 + v / 64 % 64) * 64 + v % 64 = v by omega]
      at form

namespace Spells

variable {value : Nat} {word : Bytes}

theorem isValidChar (h : Spells value word) : value.isValidChar := by
  rw [Nat.isValidChar]
  cases h <;> omega

theorem length_pos (h : Spells value word) : 0 < word.length := by
  cases h <;> simp

/-- What spells a character is what is written for it. -/
theorem utf8EncodeChar_eq (h : Spells value word) :
    String.utf8EncodeChar (Char.ofNat value) = word := by
  have same : (Char.ofNat value).val.toNat = value := by
    rw [Char.ofNat, dif_pos h.isValidChar]
    rfl
  simp only [String.utf8EncodeChar, same]
  clear same
  cases h with
  | one small => rw [if_pos (by omega)]
  | @two a b needed leads six =>
      rw [if_neg (by omega), if_pos (by omega), show (a * 64 + b) / 64 % 32 = a by omega,
        show (a * 64 + b) % 64 = b by omega]
  | @three a b c leads six six' needed noSurrogate =>
      rw [if_neg (by omega), if_neg (by omega), if_pos (by omega)]
      rw [show ((a * 64 + b) * 64 + c) / 4096 % 16 = a by omega,
        show ((a * 64 + b) * 64 + c) / 64 % 64 = b by omega,
        show ((a * 64 + b) * 64 + c) % 64 = c by omega]
  | @four a b c d leads six six' six'' needed inRange =>
      rw [if_neg (by omega), if_neg (by omega), if_neg (by omega)]
      rw [show (((a * 64 + b) * 64 + c) * 64 + d) / 262144 % 8 = a by omega,
        show (((a * 64 + b) * 64 + c) * 64 + d) / 4096 % 64 = b by omega,
        show (((a * 64 + b) * 64 + c) * 64 + d) / 64 % 64 = c by omega,
        show (((a * 64 + b) * 64 + c) * 64 + d) % 64 = d by omega]

end Spells

/-! ### The machine on one character -/

variable {index : Nat} {before : List Char}

theorem begin?_two {a : Nat} (needed : 2 ≤ a) (leads : a < 32) :
    begin? index (UInt8.ofNat (a + 192)) = some ⟨index, 1, 1, 128, 191, a⟩ := by
  interval_cases a <;> rfl

theorem begin?_three {a : Nat} (leads : a < 16) :
    begin? index (UInt8.ofNat (a + 224)) =
      some ⟨index, 1, 2, if a = 0 then 160 else 128, if a = 13 then 159 else 191, a⟩ := by
  interval_cases a <;> rfl

theorem begin?_four {a : Nat} (leads : a < 5) :
    begin? index (UInt8.ofNat (a + 240)) =
      some ⟨index, 1, 3, if a = 0 then 144 else 128, if a = 4 then 143 else 191, a⟩ := by
  interval_cases a <;> rfl

theorem begin?_bounds {byte : UInt8} {u : Unfinished} (h : begin? index byte = some u) :
    194 ≤ byte.toNat ∧ byte.toNat < 245 := by
  simp only [begin?, UInt8.lt_iff_toNat_lt, ← UInt8.toNat_inj, UInt8.reduceToNat] at h
  split_ifs at h <;> omega

/-- From `0x80` on, a first byte that begins anything leads a form with more bytes. -/
theorem exists_of_begin? {byte : UInt8} {u : Unfinished} (h : begin? index byte = some u) :
    (∃ a, 2 ≤ a ∧ a < 32 ∧ byte = UInt8.ofNat (a + 192)) ∨
      (∃ a, a < 16 ∧ byte = UInt8.ofNat (a + 224)) ∨ ∃ a, a < 5 ∧ byte = UInt8.ofNat (a + 240) := by
  obtain ⟨low, high⟩ := begin?_bounds h
  have written {n : Nat} (same : byte.toNat = n) : byte = UInt8.ofNat n := by
    rw [← same, UInt8.ofNat_toNat]
  by_cases two : byte.toNat < 224
  · exact .inl ⟨byte.toNat - 192, by omega, by omega, written (by omega)⟩
  by_cases three : byte.toNat < 240
  · exact .inr (.inl ⟨byte.toNat - 224, by omega, written (by omega)⟩)
  · exact .inr (.inr ⟨byte.toNat - 240, by omega, written (by omega)⟩)

theorem scan_one {a : Nat} (small : a < 128) (rest : Bytes) :
    scan index none before (UInt8.ofNat a :: rest) =
      scan (index + 1) none (Char.ofNat a :: before) rest := by
  have value : (UInt8.ofNat a).toNat = a := by simp; omega
  rw [scan, if_pos (by rw [UInt8.lt_iff_toNat_lt, value]; exact small), value]

theorem scan_begin {byte : UInt8} {u : Unfinished} (h : begin? index byte = some u)
    (rest : Bytes) :
    scan index none before (byte :: rest) = scan (index + 1) (some u) before rest := by
  have := (begin?_bounds h).1
  have large : ¬ byte < 0x80 := by
    simp only [UInt8.lt_iff_toNat_lt, UInt8.reduceToNat]
    omega
  simp only [scan, if_neg large, h]

/-- A digit within the bounds is taken up. -/
theorem scan_digit {u : Unfinished} {b : Nat} (low : u.low.toNat ≤ b + 128)
    (high : b + 128 ≤ u.high.toNat) (six : b < 64) (rest : Bytes) :
    scan index (some u) before (UInt8.ofNat (b + 128) :: rest) =
      if u.owed = 1 then scan (index + 1) none (Char.ofNat (u.value * 64 + b) :: before) rest
      else scan (index + 1)
        (some ⟨u.start, u.taken + 1, u.owed - 1, 128, 191, u.value * 64 + b⟩) before rest := by
  have value : (UInt8.ofNat (b + 128)).toNat = b + 128 := by simp; omega
  have inside : ¬ (UInt8.ofNat (b + 128) < u.low || u.high < UInt8.ofNat (b + 128)) = true := by
    simp only [Bool.or_eq_true, decide_eq_true_eq, UInt8.lt_iff_toNat_lt, value]
    omega
  rw [scan, if_neg inside, value, show (b + 128) % 64 = b by omega]

/-- Inside a character only a digit within the bounds lets the reading succeed. -/
theorem exists_of_scan {u : Unfinished} {bytes : Bytes} {chars : List Char}
    (low : 128 ≤ u.low.toNat) (high : u.high.toNat ≤ 191)
    (h : scan index (some u) before bytes = .ok chars) :
    ∃ b rest, bytes = UInt8.ofNat (b + 128) :: rest ∧ b < 64 ∧ u.low.toNat ≤ b + 128 ∧
      b + 128 ≤ u.high.toNat := by
  cases bytes with
  | nil => cases h
  | cons byte rest =>
      rw [scan] at h
      dsimp only at h
      split at h
      · cases h
      · rename_i inside
        simp only [Bool.or_eq_true, decide_eq_true_eq, UInt8.lt_iff_toNat_lt, not_or] at inside
        refine ⟨byte.toNat - 128, rest, ?_, by omega, by omega, by omega⟩
        rw [show byte.toNat - 128 + 128 = byte.toNat by omega, UInt8.ofNat_toNat]

/-- The machine takes up a character that is spelled. -/
theorem scan_of_spells {value : Nat} {word : Bytes} (h : Spells value word) (rest : Bytes) :
    scan index none before (word ++ rest) =
      scan (index + word.length) none (Char.ofNat value :: before) rest := by
  cases h with
  | one small => exact scan_one small rest
  | two needed leads six =>
      simp only [List.cons_append, List.nil_append]
      rw [scan_begin (begin?_two needed leads), scan_digit (by simp) (by simp; omega) six]
      rfl
  | three leads six six' needed noSurrogate =>
      simp only [List.cons_append, List.nil_append]
      rw [scan_begin (begin?_three leads),
        scan_digit (by dsimp; split <;> simp; omega) (by dsimp; split <;> simp <;> omega) six,
        if_neg (by simp),
        scan_digit (by simp) (by simp; omega) six']
      rfl
  | four leads six six' six'' needed inRange =>
      simp only [List.cons_append, List.nil_append]
      rw [scan_begin (begin?_four leads),
        scan_digit (by dsimp; split <;> simp; omega) (by dsimp; split <;> simp <;> omega) six,
        if_neg (by simp), scan_digit (by simp) (by simp; omega) six', if_neg (by simp),
        scan_digit (by simp) (by simp; omega) six'']
      rfl

/-- Where a byte begins a character and the reading succeeds, the character is spelled. -/
theorem spells_of_begin? {byte : UInt8} {u : Unfinished} {bytes : Bytes} {chars : List Char}
    (begun : begin? index byte = some u) (h : scan (index + 1) (some u) before bytes = .ok chars) :
    ∃ value word rest, Spells value word ∧ byte :: bytes = word ++ rest := by
  obtain ⟨a, needed, leads, rfl⟩ | ⟨a, leads, rfl⟩ | ⟨a, leads, rfl⟩ := exists_of_begin? begun
  · obtain rfl := Option.some.inj (begun.symm.trans (begin?_two needed leads))
    obtain ⟨b, rest, rfl, six, -, -⟩ := exists_of_scan (by simp) (by simp) h
    exact ⟨_, _, rest, .two needed leads six, rfl⟩
  · obtain rfl := Option.some.inj (begun.symm.trans (begin?_three leads))
    obtain ⟨b, rest, rfl, six, low, high⟩ :=
      exists_of_scan (by dsimp; split <;> simp) (by dsimp; split <;> simp) h
    rw [scan_digit low high six, if_neg (by simp)] at h
    obtain ⟨c, rest, rfl, six', -, -⟩ := exists_of_scan (by simp) (by simp) h
    refine ⟨_, _, rest, .three leads six six' ?_ ?_, rfl⟩
    · rintro rfl
      simpa using low
    · rintro rfl
      simpa [Nat.lt_succ_iff] using high
  · obtain rfl := Option.some.inj (begun.symm.trans (begin?_four leads))
    obtain ⟨b, rest, rfl, six, low, high⟩ :=
      exists_of_scan (by dsimp; split <;> simp) (by dsimp; split <;> simp) h
    rw [scan_digit low high six, if_neg (by simp)] at h
    obtain ⟨c, rest, rfl, six', -, -⟩ := exists_of_scan (by simp) (by simp) h
    rw [scan_digit (by simp) (by simp; omega) six', if_neg (by simp)] at h
    obtain ⟨d, rest, rfl, six'', -, -⟩ := exists_of_scan (by simp) (by simp) h
    refine ⟨_, _, rest, .four leads six six' six'' ?_ ?_, rfl⟩
    · rintro rfl
      simpa using low
    · rintro rfl
      simpa [Nat.lt_succ_iff] using high

/-- What the machine accepts begins with a character that is spelled, or is at its end. -/
theorem spells_of_scan {bytes : Bytes} {chars : List Char}
    (h : scan index none before bytes = .ok chars) :
    bytes = [] ∧ chars = before.reverse ∨
      ∃ value word rest, Spells value word ∧ bytes = word ++ rest := by
  cases bytes with
  | nil =>
      cases h
      exact .inl ⟨rfl, rfl⟩
  | cons byte rest =>
      refine .inr ?_
      by_cases small : byte.toNat < 128
      · refine ⟨_, _, rest, .one small, ?_⟩
        rw [UInt8.ofNat_toNat]
        rfl
      have large : ¬ byte < 0x80 := by
        simpa only [UInt8.lt_iff_toNat_lt, UInt8.reduceToNat] using small
      rw [scan, if_neg large] at h
      cases begun : begin? index byte with
      | none =>
          rw [begun] at h
          cases h
      | some u =>
          rw [begun] at h
          exact spells_of_begin? begun h

/-! ### Whole texts -/

theorem scan_flatMap (chars : List Char) (index : Nat) (before : List Char) :
    scan index none before (chars.flatMap String.utf8EncodeChar) =
      .ok (before.reverse ++ chars) := by
  induction chars generalizing index before with
  | nil => simp [scan]
  | cons c chars ih =>
      rw [List.flatMap_cons, scan_of_spells (spells_utf8EncodeChar c), ih, Char.ofNat_toNat]
      simp

theorem eq_of_scan {bytes : Bytes} {chars : List Char}
    (h : scan index none before bytes = .ok chars) :
    ∃ text, chars = before.reverse ++ text ∧ bytes = text.flatMap String.utf8EncodeChar := by
  induction size : bytes.length using Nat.strongRecOn generalizing index before bytes with
  | ind _ ih =>
      obtain ⟨rfl, rfl⟩ | ⟨value, word, rest, spelled, rfl⟩ := spells_of_scan h
      · exact ⟨[], by simp, rfl⟩
      · rw [scan_of_spells spelled] at h
        have shorter : rest.length < (word ++ rest).length := by
          have := spelled.length_pos
          rw [List.length_append]
          omega
        obtain ⟨text, rfl, rfl⟩ := ih _ (size ▸ shorter) h rfl
        exact ⟨Char.ofNat value :: text, by simp, by simp [spelled.utf8EncodeChar_eq]⟩

/-- A text is read back from what is written for it. -/
theorem decode_encode (text : String) : decode (encode text) = .ok text := by
  rw [decode, decodeChars, encode, scan_flatMap]
  simp [Except.map]

/-- A byte string that writes a text is what is written for that text. -/
theorem encode_of_decode {bytes : Bytes} {text : String} (h : decode bytes = .ok text) :
    encode text = bytes := by
  rw [decode, decodeChars] at h
  cases scanned : scan 0 none [] bytes with
  | error cause =>
      rw [scanned] at h
      cases h
  | ok chars =>
      rw [scanned] at h
      obtain rfl := Except.ok.inj h
      obtain ⟨chars, rfl, rfl⟩ := eq_of_scan scanned
      simp [encode]

/-- The bytes of a text are counted by its size, however many characters it has. -/
theorem length_encode (text : String) : (encode text).length = text.utf8ByteSize := by
  rw [← String.size_toByteArray, ← String.utf8Encode_toList, List.utf8Encode,
    List.size_toByteArray, encode]

end PacketWire.Utf8
