import DebugSession.Text.Letter
import Mathlib.Data.List.TakeWhile

namespace DebugSession.Text

section Runs

variable {p : Char → Bool} {s rest : List Char} (hs : ∀ c ∈ s, p c) (hend : ∀ c ∈ rest.head?, ¬p c)
include hs hend

/-- A run reaches to the first character that does not belong to it. -/
theorem takeWhile_run : (s ++ rest).takeWhile p = s := by
  rw [List.takeWhile_append_of_pos hs]
  cases rest with
  | nil => rw [List.takeWhile_nil, List.append_nil]
  | cons c r => rw [List.takeWhile_cons_of_neg (hend c rfl), List.append_nil]

theorem dropWhile_run : (s ++ rest).dropWhile p = rest := by
  rw [List.dropWhile_append_of_pos hs]
  cases rest with
  | nil => rfl
  | cons c r => exact List.dropWhile_cons_of_neg (hend c rfl)

end Runs

theorem not_within_of_disjoint {xs ys : List (Nat × Nat)}
    (h : ∀ x ∈ xs, ∀ y ∈ ys, x.2 < y.1 ∨ y.2 < x.1) {c : Char} (hc : within xs c = true) :
    within ys c = false := by
  obtain ⟨x, hx, hcx⟩ := List.any_eq_true.mp hc
  refine List.any_eq_false.mpr fun y hy hcy => ?_
  simp only [Bool.and_eq_true, decide_eq_true_eq] at hcx hcy
  have hxy := h x hx y hy
  omega

theorem not_blank_of_isDigit {c : Char} (hc : c.isDigit = true) : isBlank c = false := by
  have hwithin : within [(0x30, 0x39)] c = true := by
    simpa [within, Char.isDigit, UInt32.le_iff_toNat_le] using hc
  exact not_within_of_disjoint (by decide) hwithin

def strip (s : List Char) : List Char := s.filter (!isBlank ·)

theorem strip_cons_of_blank {c : Char} (hc : isBlank c = true) (s : List Char) :
    strip (c :: s) = strip s :=
  List.filter_cons_of_neg (by simp [hc])

theorem strip_cons {c : Char} (hc : isBlank c = false) (s : List Char) :
    strip (c :: s) = c :: strip s :=
  List.filter_cons_of_pos (by simp [hc])

theorem strip_append (s t : List Char) : strip (s ++ t) = strip s ++ strip t :=
  List.filter_append s t

theorem strip_reverse (s : List Char) : strip s.reverse = (strip s).reverse :=
  List.filter_reverse

theorem strip_eq_self {s : List Char} (hs : ∀ c ∈ s, isBlank c = false) : strip s = s :=
  List.filter_eq_self.mpr fun c hc => by simp [hs c hc]

theorem strip_of_blank {s : List Char} (hs : ∀ c ∈ s, isBlank c) : strip s = [] :=
  List.filter_eq_nil_iff.mpr fun c hc => by simp [hs c hc]

theorem not_blank_of_mem_strip {s : List Char} {c : Char} (hc : c ∈ strip s) : isBlank c = false := by
  simpa using (List.mem_filter.mp hc).2

theorem strip_trimStart (s : List Char) : strip (trimStart s) = strip s := by
  have hblank : strip (s.takeWhile isBlank) = [] :=
    strip_of_blank fun c hc => List.all_eq_true.mp List.all_takeWhile c hc
  calc strip (trimStart s) = strip (s.takeWhile isBlank) ++ strip (s.dropWhile isBlank) := by
        rw [hblank, List.nil_append, trimStart]
    _ = strip s := by rw [← strip_append, List.takeWhile_append_dropWhile]

theorem strip_trim (s : List Char) : strip (trim s) = strip s := by
  have hend (t : List Char) : strip (trimEnd t) = strip t := by
    rw [trimEnd, strip_reverse, ← trimStart, strip_trimStart, strip_reverse, List.reverse_reverse]
  rw [trim, hend, strip_trimStart]

section Padding

variable {s left right : List Char}

theorem trimStart_padded (hleft : ∀ c ∈ left, isBlank c) (hs : ∀ c ∈ s.head?, ¬isBlank c) :
    trimStart (left ++ s) = s :=
  dropWhile_run hleft hs

theorem trimEnd_padded (hright : ∀ c ∈ right, isBlank c) (hs : ∀ c ∈ s.getLast?, ¬isBlank c) :
    trimEnd (s ++ right) = s := by
  have hreverse : (right.reverse ++ s.reverse).dropWhile isBlank = s.reverse :=
    dropWhile_run (fun c hc => hright c (List.mem_reverse.mp hc)) (by rwa [List.head?_reverse])
  rw [trimEnd, List.reverse_append, hreverse, List.reverse_reverse]

/-- Blanks around a text that neither starts nor ends with one. -/
theorem trim_padded (hne : s ≠ []) (hhead : ∀ c ∈ s.head?, ¬isBlank c)
    (hlast : ∀ c ∈ s.getLast?, ¬isBlank c) (hleft : ∀ c ∈ left, isBlank c)
    (hright : ∀ c ∈ right, isBlank c) : trim (left ++ s ++ right) = s := by
  have hhead' : ∀ c ∈ (s ++ right).head?, ¬isBlank c := by
    cases s with
    | nil => exact absurd rfl hne
    | cons c r => exact hhead
  rw [trim, List.append_assoc, trimStart_padded hleft hhead', trimEnd_padded hright hlast]

theorem trim_strip (s : List Char) : trim (strip s) = strip s := by
  have hblank : ∀ c ∈ strip s, ¬isBlank c := fun c hc => by simp [not_blank_of_mem_strip hc]
  have hstart : trimStart (strip s) = strip s :=
    trimStart_padded (List.forall_mem_nil _) fun c hc => hblank c (List.mem_of_mem_head? hc)
  have hend : trimEnd (strip s ++ []) = strip s :=
    trimEnd_padded (List.forall_mem_nil _) fun c hc => hblank c (List.mem_of_mem_getLast? hc)
  rw [List.append_nil] at hend
  rw [trim, hstart, hend]

end Padding

end DebugSession.Text
