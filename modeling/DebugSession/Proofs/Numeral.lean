import DebugSession.Literal

namespace DebugSession.Decimal

theorem isDigit_of_mem_toDigits {n : Nat} {c : Char} (hc : c ∈ Nat.toDigits 10 n) :
    c.isDigit = true :=
  Nat.isDigit_of_mem_toDigits (by decide) (by decide) hc

theorem toDigits_eq_cons (n : Nat) :
    ∃ c r, Nat.toDigits 10 n = c :: r ∧ c.isDigit = true ∧ ∀ d ∈ r, d.isDigit = true := by
  obtain ⟨c, r, heq⟩ := List.exists_cons_of_ne_nil (Nat.toDigits_ne_nil (n := n) (b := 10))
  have hall (d : Char) (hd : d ∈ c :: r) : d.isDigit = true := by
    rw [← heq] at hd
    exact isDigit_of_mem_toDigits hd
  exact ⟨c, r, heq, hall c List.mem_cons_self, fun d hd => hall d (List.mem_cons_of_mem c hd)⟩

theorem readNat_toDigits (n : Nat) : readNat (Nat.toDigits 10 n) = some n := by
  have hdigits : (Nat.toDigits 10 n).all Char.isDigit = true :=
    List.all_eq_true.mpr fun c hc => isDigit_of_mem_toDigits hc
  have hvalue : (Nat.toDigits 10 n).foldl (fun m c => 10 * m + digitValue c) 0 = n :=
    Nat.ofDigitChars_eq_foldl.symm.trans Nat.ofDigitChars_ten_toDigits
  have hempty : (Nat.toDigits 10 n).isEmpty = false := by
    rw [List.isEmpty_eq_false_iff]
    exact Nat.toDigits_ne_nil
  rw [readNat, hdigits, hempty, hvalue]
  rfl

theorem readNat_cons_of_not_isDigit {c : Char} (r : List Char) (hc : c.isDigit = false) :
    readNat (c :: r) = none := by
  simp [readNat, hc]

theorem readUnsigned_of_digit (bound : Nat) {c : Char} (r : List Char) (hc : c.isDigit = true) :
    readUnsigned bound (c :: r) = (readNat (c :: r)).filter (· < bound) := by
  unfold readUnsigned
  split
  · next heq =>
      obtain ⟨rfl, -⟩ := List.cons.inj heq
      cases hc
  · rfl

theorem readSigned_of_digit (bound : Nat) {c : Char} (r : List Char) (hc : c.isDigit = true) :
    readSigned bound (c :: r) = (readUnsigned bound (c :: r)).map Int.ofNat := by
  unfold readSigned
  split
  · next heq =>
      obtain ⟨rfl, -⟩ := List.cons.inj heq
      cases hc
  · rfl

theorem readUnsigned_toDigits (bound n : Nat) :
    readUnsigned bound (Nat.toDigits 10 n) = if n < bound then some n else none := by
  obtain ⟨c, r, heq, hc, -⟩ := toDigits_eq_cons n
  rw [heq, readUnsigned_of_digit bound r hc, ← heq, readNat_toDigits]
  by_cases hn : n < bound <;> simp [Option.filter, hn]

theorem readSigned_toDigits (bound n : Nat) :
    readSigned bound (Nat.toDigits 10 n) = if n < bound then some (n : Int) else none := by
  obtain ⟨c, r, heq, hc, -⟩ := toDigits_eq_cons n
  rw [heq, readSigned_of_digit bound r hc, ← heq, readUnsigned_toDigits]
  by_cases hn : n < bound <;> simp [hn]

/-- The bound itself is reached only below zero. -/
theorem readSigned_neg_toDigits (bound n : Nat) :
    readSigned bound ('-' :: Nat.toDigits 10 n) = if n ≤ bound then some (-n : Int) else none := by
  rw [readSigned, readNat_toDigits]
  rfl

theorem lt_of_readUnsigned {bound n : Nat} {s : List Char} (h : readUnsigned bound s = some n) :
    n < bound := by
  unfold readUnsigned at h
  split at h <;> exact of_decide_eq_true (Option.filter_eq_some_iff.mp h).2

/-- What is read without a sign is read with one too, within the bound. -/
theorem readSigned_of_readUnsigned {wide bound n : Nat} {s : List Char}
    (h : readUnsigned wide s = some n) (hn : n < bound) : readSigned bound s = some (n : Int) := by
  unfold readSigned
  split
  · next r =>
      have hnone : readUnsigned wide ('-' :: r) = none := by
        rw [readUnsigned, readNat_cons_of_not_isDigit r (by decide)]
        · rfl
        · simp
      rw [hnone] at h
      cases h
  · have hread : readUnsigned bound s = some n := by
      unfold readUnsigned at h ⊢
      split at h <;>
      · obtain ⟨hnat, -⟩ := Option.filter_eq_some_iff.mp h
        exact Option.filter_eq_some_iff.mpr ⟨hnat, decide_eq_true hn⟩
    rw [hread]
    rfl

theorem range_of_readSigned {bound : Nat} (hbound : 0 < bound) {s : List Char} {n : Int}
    (h : readSigned bound s = some n) : -bound ≤ n ∧ n < bound := by
  unfold readSigned at h
  split at h
  · next r =>
      obtain ⟨m, -, hm⟩ := Option.bind_eq_some_iff.mp h
      by_cases hle : m ≤ bound
      · rw [if_pos hle, Option.some.injEq] at hm
        omega
      · rw [if_neg hle] at hm
        cases hm
  · obtain ⟨m, hread, rfl⟩ := Option.map_eq_some_iff.mp h
    have hlt := lt_of_readUnsigned hread
    simp only [Int.ofNat_eq_natCast]
    omega

theorem hexValue_digitChar {d : Nat} (hd : d < 16) : hexValue (Nat.digitChar d) = some d := by
  revert d
  decide

theorem foldlM_toDigits_sixteen (n : Nat) :
    (Nat.toDigits 16 n).foldlM (fun n c => (hexValue c).map (16 * n + ·)) 0 = some n := by
  induction n using Nat.strongRecOn with
  | ind n ih =>
    by_cases hn : n < 16
    · rw [Nat.toDigits_of_lt_base hn]
      simp [hexValue_digitChar hn]
    · have hlast : n % 16 < 16 := Nat.mod_lt n (by decide)
      rw [Nat.toDigits_of_base_le (by decide) (by omega), List.foldlM_append, ih (n / 16) (by omega)]
      simp [hexValue_digitChar hlast]
      omega

theorem readHexDigits_toDigits {bound n : Nat} (hn : n < bound) :
    readHexDigits bound (Nat.toDigits 16 n) = some n := by
  have hempty : (Nat.toDigits 16 n).isEmpty = false := by
    rw [List.isEmpty_eq_false_iff]
    exact Nat.toDigits_ne_nil
  simp [readHexDigits, hempty, foldlM_toDigits_sixteen, hn]

theorem readHex_toDigits {bound n : Nat} (hn : n < bound) :
    readHex bound (Nat.toDigits 16 n) = some n := by
  unfold readHex
  split
  · next heq =>
      -- what starts with a sign is no run of digits
      have hread := foldlM_toDigits_sixteen n
      rw [heq] at hread
      cases hread
  · exact readHexDigits_toDigits hn

theorem lt_of_readHex {bound n : Nat} {s : List Char} (h : readHex bound s = some n) :
    n < bound := by
  have hdigits (s : List Char) (hs : readHexDigits bound s = some n) : n < bound := by
    unfold readHexDigits at hs
    by_cases hempty : s.isEmpty
    · simp [hempty] at hs
    · simp only [hempty] at hs
      obtain ⟨m, -, hm⟩ := Option.bind_eq_some_iff.mp hs
      by_cases hlt : m < bound
      · simp only [hlt] at hm
        obtain rfl := Option.some.inj hm
        exact hlt
      · simp [hlt] at hm
  unfold readHex at h
  split at h <;> exact hdigits _ h

end DebugSession.Decimal
