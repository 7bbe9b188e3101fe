import DebugSession.Proofs.Numeral
import DebugSession.Proofs.Spelling
import DebugSession.Value.Navigation

namespace DebugSession

open Text Decimal

namespace Decimal

theorem not_blank_of_readNat {s : List Char} {n : Nat} (h : readNat s = some n) :
    ∀ c ∈ s, isBlank c = false := by
  unfold readNat at h
  split at h
  · next hs =>
      simp only [Bool.and_eq_true, List.all_eq_true] at hs
      exact fun c hc => not_blank_of_isDigit (hs.2 c hc)
  · cases h

theorem not_blank_of_readUnsigned {bound n : Nat} {s : List Char}
    (h : readUnsigned bound s = some n) : ∀ c ∈ s, isBlank c = false := by
  unfold readUnsigned at h
  split at h
  · have hdigits := not_blank_of_readNat (Option.filter_eq_some_iff.mp h).1
    exact List.forall_mem_cons.mpr ⟨by decide, hdigits⟩
  · exact not_blank_of_readNat (Option.filter_eq_some_iff.mp h).1

end Decimal

namespace AccessPath

theorem splitCommas_eq (s : List Char) : splitCommas s = s.splitOn ',' := by
  fun_induction splitCommas s with
  | case1 => rfl
  | case2 r ih => rw [ih, List.splitOn_cons_eq_if_modifyHead, if_pos (beq_self_eq_true ',')]
  | case3 c r hc hnil ih => exact absurd (ih.symm.trans hnil) (List.splitOn_ne_nil ',' r)
  | case4 c r hc s rest hcons ih =>
      rw [List.splitOn_cons_eq_if_modifyHead, if_neg (by simpa using hc), ← ih, hcons]
      rfl

theorem unbracket_wrap (t : List Char) : unbracket (wrap t) = some t := by
  rw [wrap, unbracket, if_pos (by simp), List.dropLast_concat]

theorem indices_wrap (bound : Nat) (t : List Char) : indices bound (wrap t) =
    (t.splitOn ',').mapM fun part => readUnsigned bound (trim part) := by
  rw [indices, unbracket_wrap, Option.bind_some, splitCommas_eq]

theorem splitOn_strip (t : List Char) : (strip t).splitOn ',' = (t.splitOn ',').map strip := by
  have hcomma : isBlank ',' = false := by decide
  induction t with
  | nil => rfl
  | cons c r ih =>
      obtain ⟨part, rest, hparts⟩ := List.exists_cons_of_ne_nil (List.splitOn_ne_nil ',' r)
      rw [hparts, List.map_cons] at ih
      rw [List.splitOn_cons_eq_if_modifyHead, hparts]
      by_cases hc : c = ','
      · subst hc
        rw [strip_cons hcomma, List.splitOn_cons_eq_if_modifyHead, ih, if_pos (beq_self_eq_true ','),
          if_pos (beq_self_eq_true ',')]
        rfl
      · rw [if_neg (by simpa using hc), List.modifyHead_cons, List.map_cons]
        -- a blank is no comma, so the parts stay apart without it
        by_cases hblank : isBlank c = true
        · rw [strip_cons_of_blank hblank, strip_cons_of_blank hblank, ih]
        · have hblank : isBlank c = false := by simpa using hblank
          rw [strip_cons hblank, strip_cons hblank, List.splitOn_cons_eq_if_modifyHead, ih,
            if_neg (by simpa using hc)]
          rfl

/-- No blank stands within a number of an index. -/
def Whole (t : List Char) : Prop := ∀ part ∈ t.splitOn ',', ∀ c ∈ trim part, isBlank c = false

theorem mapM_some {α β : Type} {f : α → Option β} {xs : List α} {ys : List β}
    (h : xs.mapM f = some ys) : ∀ x ∈ xs, ∃ y, f x = some y := by
  induction xs generalizing ys with
  | nil => nofun
  | cons x xs ih =>
      rw [List.mapM_cons] at h
      obtain ⟨y, hy, h⟩ := Option.bind_eq_some_iff.mp h
      obtain ⟨ys', hys, -⟩ := Option.bind_eq_some_iff.mp h
      exact List.forall_mem_cons.mpr ⟨⟨y, hy⟩, ih hys⟩

theorem mapM_congr {α β : Type} {f g : α → Option β} {xs : List α} (h : ∀ x ∈ xs, f x = g x) :
    xs.mapM f = xs.mapM g := by
  induction xs with
  | nil => rfl
  | cons x xs ih =>
      obtain ⟨hx, hxs⟩ := List.forall_mem_cons.mp h
      rw [List.mapM_cons, List.mapM_cons, hx, ih hxs]

/-- An index has no blank within its numbers. -/
theorem whole_of_indices {bound : Nat} {t : List Char} {is : List Nat}
    (h : indices bound (wrap t) = some is) : Whole t := by
  rw [indices_wrap] at h
  intro part hpart
  obtain ⟨n, hn⟩ := mapM_some h part hpart
  exact not_blank_of_readUnsigned hn

theorem indices_strip (bound : Nat) {t : List Char} (ht : Whole t) :
    indices bound (wrap (strip t)) = indices bound (wrap t) := by
  rw [indices_wrap, indices_wrap, splitOn_strip, List.mapM_map]
  refine mapM_congr fun part hpart => ?_
  have hpart : strip part = trim part := by rw [← strip_trim, strip_eq_self (ht part hpart)]
  rw [Function.comp_apply, trim_strip, hpart]

/-- What is read with its blanks is read without them, and only a blank within a number makes the
difference. -/
theorem indices_iff {bound : Nat} {t : List Char} {is : List Nat} :
    indices bound (wrap t) = some is ↔ indices bound (wrap (strip t)) = some is ∧ Whole t := by
  constructor
  · intro h
    have ht : Whole t := whole_of_indices h
    exact ⟨(indices_strip bound ht).trans h, ht⟩
  · rintro ⟨h, ht⟩
    exact (indices_strip bound ht).symm.trans h

def brackets (is : List Nat) : List Char := wrap ([','].intercalate (is.map (Nat.toDigits 10)))

theorem indices_brackets {bound : Nat} {is : List Nat} (hne : is ≠ []) (his : ∀ i ∈ is, i < bound) :
    indices bound (brackets is) = some is := by
  have hdigits (i : Nat) : ∀ c ∈ Nat.toDigits 10 i, isBlank c = false :=
    fun c hc => not_blank_of_isDigit (isDigit_of_mem_toDigits hc)
  have hcomma : ∀ digits ∈ is.map (Nat.toDigits 10), ',' ∉ digits := by
    intro digits hmem hc
    obtain ⟨i, -, rfl⟩ := List.mem_map.mp hmem
    exact absurd (isDigit_of_mem_toDigits hc) (by decide)
  rw [brackets, indices_wrap, List.splitOn_intercalate ',' hcomma (by simpa using hne),
    List.mapM_map]
  clear hne hcomma
  induction is with
  | nil => rfl
  | cons i is ih =>
      obtain ⟨hi, hrest⟩ := List.forall_mem_cons.mp his
      have hread : readUnsigned bound (trim (Nat.toDigits 10 i)) = some i := by
        rw [← strip_eq_self (hdigits i), trim_strip, strip_eq_self (hdigits i),
          readUnsigned_toDigits, if_pos hi]
      rw [List.mapM_cons, Function.comp_apply, hread, ih hrest]
      rfl

end AccessPath

end DebugSession
