import DoorAccess.Text.Utf8

/-!
Decoding undoes encoding. A character of two or more bytes is announced by its first byte, and each
of the bytes after it adds six bits.
-/
namespace DoorAccess.Text.Utf8

/-- A byte behind the first one: it carries the last six bits. -/
def tail (n : Nat) : UInt8 := UInt8.ofNat (n % 0x40 + 0x80)

theorem toNat_tail (n : Nat) : (tail n).toNat = n % 0x40 + 0x80 := by
  rw [tail, UInt8.toNat_ofNat']
  omega

theorem toNat_ofNat_of_lt {n : Nat} (h : n < 0x100) : (UInt8.ofNat n).toNat = n := by
  rw [UInt8.toNat_ofNat']
  omega

/-- A character is no half of a surrogate pair. -/
theorem toNat_lt (c : Char) : c.toNat < 0xD800 ∨ (0xDFFF < c.toNat ∧ c.toNat < 0x110000) :=
  c.valid

theorem tail_low (n : Nat) : 0x80 ≤ (tail n).toNat := by
  rw [toNat_tail]
  omega

theorem tail_high (n : Nat) : (tail n).toNat ≤ 0xBF := by
  rw [toNat_tail]
  omega

theorem start_lead {b : UInt8} {q : Pending} (high : 0x80 ≤ b.toNat) (h : lead b = some q) :
    start b = ([], some q) := by
  have large : ¬ b < 0x80 := by
    rw [UInt8.lt_iff_toNat_lt]
    exact Nat.not_lt.mpr high
  simp only [start, large, if_false, h]

/-- The first byte of two, and the bits it carries. -/
theorem lead_two {k : Nat} (low : 2 ≤ k) (high : k < 0x20) :
    lead (UInt8.ofNat (k + 0xC0)) = some ⟨1, 0x80, 0xBF, k⟩ := by
  have value := toNat_ofNat_of_lt (show k + 0xC0 < 0x100 by omega)
  simp only [lead, UInt8.le_iff_toNat_le, value, UInt8.reduceToNat]
  rw [if_pos (by omega), Nat.add_sub_cancel]

theorem lead_three {k : Nat} {second : UInt8} (high : k < 0x10)
    (low : k = 0 → 0xA0 ≤ second.toNat) (gap : k = 0xD → second.toNat ≤ 0x9F)
    (from80 : 0x80 ≤ second.toNat) (toBF : second.toNat ≤ 0xBF) :
    ∃ q, lead (UInt8.ofNat (k + 0xE0)) = some q ∧ q.owed = 2 ∧ q.code = k ∧ q.low ≤ second ∧
      second ≤ q.high := by
  have value := toNat_ofNat_of_lt (show k + 0xE0 < 0x100 by omega)
  simp only [lead, UInt8.le_iff_toNat_le, ← UInt8.toNat_inj, value, UInt8.reduceToNat]
  rw [if_neg (by omega)]
  by_cases zero : k = 0
  · subst k
    exact ⟨_, if_pos rfl, rfl, rfl, low rfl, toBF⟩
  · rw [if_neg (by omega)]
    by_cases thirteen : k = 0xD
    · subst k
      exact ⟨_, if_pos rfl, rfl, rfl, from80, gap rfl⟩
    · rw [if_neg (by omega), if_pos (by omega), Nat.add_sub_cancel]
      exact ⟨_, rfl, rfl, rfl, from80, toBF⟩

theorem lead_four {k : Nat} {second : UInt8} (high : k < 5)
    (low : k = 0 → 0x90 ≤ second.toNat) (last : k = 4 → second.toNat ≤ 0x8F)
    (from80 : 0x80 ≤ second.toNat) (toBF : second.toNat ≤ 0xBF) :
    ∃ q, lead (UInt8.ofNat (k + 0xF0)) = some q ∧ q.owed = 3 ∧ q.code = k ∧ q.low ≤ second ∧
      second ≤ q.high := by
  have value := toNat_ofNat_of_lt (show k + 0xF0 < 0x100 by omega)
  simp only [lead, UInt8.le_iff_toNat_le, ← UInt8.toNat_inj, value, UInt8.reduceToNat]
  rw [if_neg (by omega), if_neg (by omega), if_neg (by omega), if_neg (by omega)]
  by_cases zero : k = 0
  · subst k
    exact ⟨_, if_pos rfl, rfl, rfl, low rfl, toBF⟩
  · rw [if_neg (by omega)]
    by_cases four : k = 4
    · subst k
      rw [if_neg (by omega)]
      exact ⟨_, if_pos rfl, rfl, rfl, from80, last rfl⟩
    · rw [if_pos (by omega), Nat.add_sub_cancel]
      exact ⟨_, rfl, rfl, rfl, from80, toBF⟩

theorem scanFrom_lead {b : UInt8} {q : Pending} (bs : Bytes) (high : 0x80 ≤ b.toNat)
    (h : lead b = some q) : scanFrom none (b :: bs) = scanFrom (some q) bs := by
  simp only [scanFrom, step, start_lead high h, List.nil_append]

/-- A byte that is in range adds its six bits, and ends the character if it is the last one owed. -/
theorem scanFrom_tail (q : Pending) {n : Nat} (bs : Bytes) (low : q.low.toNat ≤ (tail n).toNat)
    (high : (tail n).toNat ≤ q.high.toNat) :
    scanFrom (some q) (tail n :: bs) =
      if q.owed ≤ 1 then some (Char.ofNat (q.code * 64 + n % 64)) :: scanFrom none bs
      else scanFrom (some ⟨q.owed - 1, 0x80, 0xBF, q.code * 64 + n % 64⟩) bs := by
  rw [← UInt8.le_iff_toNat_le] at low high
  simp only [scanFrom, step, low, high, and_self, if_true, toNat_tail, Nat.add_sub_cancel]
  split <;> rfl

theorem scanFrom_last (code n : Nat) (bs : Bytes) :
    scanFrom (some ⟨1, 0x80, 0xBF, code⟩) (tail n :: bs) =
      some (Char.ofNat (code * 64 + n % 64)) :: scanFrom none bs := by
  rw [scanFrom_tail ⟨1, 0x80, 0xBF, code⟩ bs (tail_low n) (tail_high n), if_pos (Nat.le_refl 1)]

theorem scanFrom_more {q : Pending} {owed n : Nat} (bs : Bytes) (owes : q.owed = owed + 2)
    (low : q.low.toNat ≤ (tail n).toNat) (high : (tail n).toNat ≤ q.high.toNat) :
    scanFrom (some q) (tail n :: bs) =
      scanFrom (some ⟨owed + 1, 0x80, 0xBF, q.code * 64 + n % 64⟩) bs := by
  rw [scanFrom_tail q bs low high, if_neg (by omega), owes]
  rfl

theorem scanFrom_middle (owed code n : Nat) (bs : Bytes) :
    scanFrom (some ⟨owed + 2, 0x80, 0xBF, code⟩) (tail n :: bs) =
      scanFrom (some ⟨owed + 1, 0x80, 0xBF, code * 64 + n % 64⟩) bs :=
  scanFrom_more (q := ⟨owed + 2, 0x80, 0xBF, code⟩) bs rfl (tail_low n) (tail_high n)

/-- The bytes of a character, by its number. -/
def charBytes (n : Nat) : Bytes :=
  if n ≤ 0x7F then [UInt8.ofNat n]
  else if n ≤ 0x7FF then [UInt8.ofNat (n / 64 % 0x20 + 0xC0), tail n]
  else if n ≤ 0xFFFF then [UInt8.ofNat (n / 4096 % 0x10 + 0xE0), tail (n / 64), tail n]
  else [UInt8.ofNat (n / 262144 % 0x08 + 0xF0), tail (n / 4096), tail (n / 64), tail n]

theorem utf8EncodeChar_eq (c : Char) : String.utf8EncodeChar c = charBytes c.toNat := rfl

/-- The bytes of a character are read as this character, in the four lengths there are. -/
theorem scan_encode_char (c : Char) (bs : Bytes) :
    scan (String.utf8EncodeChar c ++ bs) = some c :: scan bs := by
  have valid := toNat_lt c
  obtain ⟨n, value⟩ : ∃ n, c.toNat = n := ⟨_, rfl⟩
  have same : c = Char.ofNat n := by rw [← value, Char.ofNat_toNat]
  rw [value] at valid
  rw [utf8EncodeChar_eq, value, charBytes, same]
  by_cases one : n ≤ 0x7F
  · have small : UInt8.ofNat n < 0x80 := by
      rw [UInt8.lt_iff_toNat_lt, toNat_ofNat_of_lt (by omega)]
      exact Nat.lt_succ_of_le one
    simp only [one, if_true, scan, List.cons_append, List.nil_append, scanFrom, step, start, small,
      toNat_ofNat_of_lt (show n < 0x100 by omega)]
  · rw [if_neg one]
    by_cases two : n ≤ 0x7FF
    · have first := lead_two (k := n / 64 % 0x20) (by omega) (by omega)
      have high := toNat_ofNat_of_lt (show n / 64 % 0x20 + 0xC0 < 0x100 by omega)
      have bits : n / 64 % 0x20 * 64 + n % 64 = n := by omega
      rw [if_pos two, scan, List.cons_append, scanFrom_lead _ (by omega) first, List.cons_append,
        scanFrom_last, bits]
      rfl
    · rw [if_neg two]
      by_cases three : n ≤ 0xFFFF
      · have second := toNat_tail (n / 64)
        obtain ⟨q, first, owes, code, low, toHigh⟩ := lead_three (k := n / 4096 % 0x10)
          (by omega) (by omega) (by omega) (tail_low (n / 64)) (tail_high (n / 64))
        have high := toNat_ofNat_of_lt (show n / 4096 % 0x10 + 0xE0 < 0x100 by omega)
        have bits : (n / 4096 % 0x10 * 64 + n / 64 % 64) * 64 + n % 64 = n := by omega
        rw [if_pos three, scan, List.cons_append, scanFrom_lead _ (by omega) first,
          List.cons_append, scanFrom_more _ owes low toHigh, List.cons_append, scanFrom_last, code,
          bits]
        rfl
      · have second := toNat_tail (n / 4096)
        obtain ⟨q, first, owes, code, low, toHigh⟩ := lead_four (k := n / 262144 % 0x08)
          (by omega) (by omega) (by omega) (tail_low (n / 4096)) (tail_high (n / 4096))
        have high := toNat_ofNat_of_lt (show n / 262144 % 0x08 + 0xF0 < 0x100 by omega)
        have bits : ((n / 262144 % 0x08 * 64 + n / 4096 % 64) * 64 + n / 64 % 64) * 64 + n % 64 =
            n := by omega
        rw [if_neg three, scan, List.cons_append, scanFrom_lead _ (by omega) first,
          List.cons_append, scanFrom_more _ owes low toHigh, List.cons_append,
          scanFrom_middle, List.cons_append, scanFrom_last, code, bits]
        rfl

theorem scan_encode (cs : List Char) : scan (encode cs) = cs.map some := by
  induction cs with
  | nil => rfl
  | cons c cs ih =>
      change scan (String.utf8EncodeChar c ++ encode cs) = _
      rw [scan_encode_char, ih, List.map_cons]

theorem decode?_encode (cs : List Char) : decode? (encode cs) = some cs := by
  rw [decode?, scan_encode]
  induction cs with
  | nil => rfl
  | cons c cs ih => simp [List.mapM_cons, ih]

theorem decodeLossy_encode (cs : List Char) : decodeLossy (encode cs) = cs := by
  rw [decodeLossy, scan_encode, List.map_map]
  exact List.map_id cs

/-- Only a character of one byte has a small byte. -/
theorem mem_charBytes {n : Nat} {b : UInt8} (h : b ∈ charBytes n) :
    0x80 ≤ b.toNat ∨ b.toNat = n := by
  have first {k : Nat} (above : 0x80 ≤ k) (below : k < 0x100) : 0x80 ≤ (UInt8.ofNat k).toNat := by
    rwa [toNat_ofNat_of_lt below]
  rw [charBytes] at h
  split at h
  · rw [List.mem_singleton.mp h]
    exact .inr (toNat_ofNat_of_lt (by omega))
  · refine .inl ?_
    split at h
    · simp only [List.mem_cons, List.not_mem_nil, or_false] at h
      rcases h with rfl | rfl
      · exact first (by omega) (by omega)
      · exact tail_low _
    · split at h
      · simp only [List.mem_cons, List.not_mem_nil, or_false] at h
        rcases h with rfl | rfl | rfl
        · exact first (by omega) (by omega)
        · exact tail_low _
        · exact tail_low _
      · simp only [List.mem_cons, List.not_mem_nil, or_false] at h
        rcases h with rfl | rfl | rfl | rfl
        · exact first (by omega) (by omega)
        · exact tail_low _
        · exact tail_low _
        · exact tail_low _

/-- A byte below 0x80 is a character of its own, never a part of another one. -/
theorem mem_of_mem_encode {b : UInt8} {cs : List Char} (small : b.toNat < 0x80)
    (h : b ∈ encode cs) : Char.ofNat b.toNat ∈ cs := by
  obtain ⟨c, member, byte⟩ := List.mem_flatMap.mp h
  rw [utf8EncodeChar_eq] at byte
  cases mem_charBytes byte with
  | inl large => exact absurd large (Nat.not_le.mpr small)
  | inr same => rwa [same, Char.ofNat_toNat]

end DoorAccess.Text.Utf8
