import DebugSession.TypeNames
import DebugSession.Proofs.RoundTrip

namespace DebugSession.TypeNames

open Text

def endsEarly (quote : Char) : List Char → Bool
  | [] => false
  | c :: r =>
    if c == quote then true
    else if c == '\\' then
      match r with
      | [] => false
      | _ :: r => endsEarly quote r
    else endsEarly quote r

section Scan

variable {quote : Char}

theorem quoted_quote (r : List Char) : (quoted quote (quote :: r)).2 = r := by
  unfold quoted
  simp

theorem quoted_cons {c : Char} (hquote : c ≠ quote) (hslash : c ≠ '\\') (r : List Char) :
    (quoted quote (c :: r)).2 = (quoted quote r).2 := by
  rw [quoted.eq_def]
  simp [hquote, hslash]

theorem quoted_escaped (hquote : quote ≠ '\\') (c : Char) (r : List Char) :
    (quoted quote ('\\' :: c :: r)).2 = (quoted quote r).2 := by
  rw [quoted.eq_def]
  simp [hquote.symm]

theorem quoted_concat (hquote : quote ≠ '\\') (body : List Char) :
    (quoted quote (body ++ [quote])).2 = [] ↔ endsEarly quote body = false := by
  fun_induction endsEarly quote body with
  | case1 => simp [quoted_quote]
  | case2 c r hc =>
    rw [beq_iff_eq.mp hc, List.cons_append, quoted_quote]
    simp
  | case3 c hc hslash =>
    rw [beq_iff_eq.mp hslash, List.cons_append, List.nil_append, quoted_escaped hquote]
    simp [quoted]
  | case4 c hc hslash d r ih =>
    rw [beq_iff_eq.mp hslash, List.cons_append, List.cons_append, quoted_escaped hquote, ih]
  | case5 c r hc hslash ih =>
    rw [List.cons_append, quoted_cons (by simpa using hc) (by simpa using hslash), ih]

theorem endsEarly_cons {c : Char} (hslash : c ≠ '\\') (r : List Char) :
    endsEarly quote (c :: r) = (c == quote || endsEarly quote r) := by
  rw [endsEarly.eq_def]
  by_cases hc : c = quote <;> simp [hc, hslash]

theorem endsEarly_escaped (hquote : quote ≠ '\\') (c : Char) (r : List Char) :
    endsEarly quote ('\\' :: c :: r) = endsEarly quote r := by
  rw [endsEarly.eq_def]
  simp [hquote.symm]

/-- Rendering escapes neither quote, so that written text ends early at every quote it holds. -/
theorem endsEarly_escape (hquote : escapeLetter quote = none) (s : List Char) :
    endsEarly quote (escape s) = true ↔ quote ∈ s := by
  have hslash : quote ≠ '\\' := by
    rintro rfl
    cases hquote
  induction s with
  | nil => simp [escape, endsEarly]
  | cons c r ih =>
    rw [escape, List.flatMap_cons, ← escape, List.mem_cons, escapeChar]
    cases hc : escapeLetter c with
    | some letter =>
      have hne : quote ≠ c := by
        rintro rfl
        rw [hc] at hquote
        cases hquote
      simp only [List.cons_append, List.nil_append]
      rw [endsEarly_escaped hslash]
      exact ih.trans (or_iff_right hne).symm
    | none =>
      have hcs : c ≠ '\\' := by
        rintro rfl
        cases hc
      simp only [List.cons_append, List.nil_append]
      rw [endsEarly_cons hcs, Bool.or_eq_true, beq_iff_eq, eq_comm]
      exact or_congr_right ih

end Scan

theorem split_eq_nil {s : List Char} : split s = [] ↔ s = [] := by
  constructor
  · intro h
    cases s with
    | nil => rfl
    | cons c r =>
      rw [split] at h
      split at h
      · cases h
      · split at h <;> cases h
  · rintro rfl
    rw [split]

theorem split_quote {quote : Char} (hquote : quote = '"' ∨ quote = '\'') (r : List Char) :
    split (quote :: r) = .quoted (quote :: (quoted quote r).1) :: split (quoted quote r).2 := by
  rw [split]
  obtain rfl | rfl := hquote <;> rfl

/-- The scan takes the whole expression for one quoted text. -/
def OneLiteral (e : List Char) : Prop := split e = [.quoted e]

theorem oneLiteral_wrap {quote : Char} (hquote : quote = '"' ∨ quote = '\'') (body : List Char) :
    OneLiteral (quote :: (body ++ [quote])) ↔ endsEarly quote body = false := by
  have hslash : quote ≠ '\\' := by
    obtain rfl | rfl := hquote <;> decide
  rw [OneLiteral, split_quote hquote, ← quoted_concat hslash]
  constructor
  · intro h
    exact split_eq_nil.mp (List.cons.inj h).2
  · intro h
    have happend := quoted_append quote (body ++ [quote])
    rw [h, List.append_nil] at happend
    rw [h, happend, split_eq_nil.mpr rfl]

theorem split_text (s : List Char) : (split s).flatMap Piece.text = s := by
  fun_induction split s with
  | case1 => rfl
  | case2 c r hc ih => rw [List.flatMap_cons, ih, Piece.text, List.cons_append, quoted_append]
  | case3 c r hc hname ih =>
    rw [List.flatMap_cons, ih, Piece.text, List.cons_append, List.takeWhile_append_dropWhile]
  | case4 c r hc hname ih => rw [List.flatMap_cons, ih, Piece.text, List.singleton_append]

theorem text_ne_nil {s : List Char} {p : Piece} (hp : p ∈ split s) : p.text ≠ [] := by
  fun_induction split s with
  | case1 => cases hp
  | case2 c r hc ih | case3 c r hc hname ih | case4 c r hc hname ih =>
    obtain rfl | hp := List.mem_cons.mp hp
    · simp [Piece.text]
    · exact ih hp

theorem segments_ne_nil (s : List Char) : segments s ≠ [] := by
  fun_induction segments s <;> simp_all

theorem joinDots_nil_cons {parts : List (List Char)} (h : parts ≠ []) :
    joinDots ([] :: parts) = '.' :: joinDots parts := by
  cases parts with
  | nil => exact absurd rfl h
  | cons s rest => rfl

theorem joinDots_cons_cons (c : Char) (s : List Char) (parts : List (List Char)) :
    joinDots ((c :: s) :: parts) = c :: joinDots (s :: parts) := by
  cases parts <;> rfl

theorem joinDots_segments (s : List Char) : joinDots (segments s) = s := by
  fun_induction segments s with
  | case1 => rfl
  | case2 r ih => rw [joinDots_nil_cons (segments_ne_nil r), ih]
  | case3 c r hc hnil ih => exact absurd hnil (segments_ne_nil r)
  | case4 c r hc t rest heq ih => rw [joinDots_cons_cons, ← heq, ih]

def Piece.isName : Piece → Bool
  | name _ => true
  | _ => false

def named (written : List Char) : List Piece → Bool
  | [] => false
  | p :: ps => (p.isName && !followsPoint written) || named (p.text.reverse ++ written) ps

def Untouched (e : String) : Prop :=
  ∀ (m : Type → Type) [Monad m] [LawfulMonad m] (ask : String → m (Option String)),
    qualify ask e = pure e

section Names

variable {m : Type → Type} [Monad m] [LawfulMonad m] (ask : String → m (Option String))

theorem qualifyPiece_of_not_named {written : List Char} {p : Piece}
    (h : (p.isName && !followsPoint written) = false) :
    qualifyPiece ask written p = pure (p.text.reverse ++ written) := by
  cases p with
  | quoted t => rfl
  | other c => rfl
  | name t =>
    have hpoint : followsPoint written = true := by simpa [Piece.isName] using h
    simp [qualifyPiece, hpoint, Piece.text]

theorem foldlM_of_not_named {ps : List Piece} {written : List Char}
    (h : named written ps = false) :
    ps.foldlM (qualifyPiece ask) written = pure ((ps.flatMap Piece.text).reverse ++ written) := by
  induction ps generalizing written with
  | nil => simp
  | cons p ps ih =>
    obtain ⟨hp, hps⟩ := Bool.or_eq_false_iff.mp h
    rw [List.foldlM_cons, qualifyPiece_of_not_named ask hp, pure_bind, ih hps]
    simp

def refusing : String → Option (Option String) := fun _ => none

/-- The whole name is what is asked for first. -/
theorem resolveName_refusing {t : List Char} (ht : t ≠ []) : resolveName refusing t = none := by
  have hlen : (segments t).length = (segments t).length - 1 + 1 := by
    have hpos := List.length_pos_iff.mpr (segments_ne_nil t)
    omega
  have hstart : joinDots ((segments t).take ((segments t).length - 1 + 1)) = t := by
    rw [← hlen, List.take_length, joinDots_segments]
  have hempty : t.isEmpty = false := List.isEmpty_eq_false_iff.mpr ht
  rw [resolveName, hlen, resolveSegments]
  simp only [hstart, hempty]
  rfl

theorem foldlM_refusing {ps : List Piece} (hps : ∀ p ∈ ps, p.text ≠ []) {written : List Char}
    (h : named written ps = true) : ps.foldlM (qualifyPiece refusing) written = none := by
  induction ps generalizing written with
  | nil => cases h
  | cons p ps ih =>
    obtain ⟨hp, hps⟩ := List.forall_mem_cons.mp hps
    rw [List.foldlM_cons]
    by_cases hname : (p.isName && !followsPoint written) = true
    · cases p with
      | quoted t => cases hname
      | other c => cases hname
      | name t =>
        have hpoint : followsPoint written = false := by simpa [Piece.isName] using hname
        have hpiece : qualifyPiece refusing written (.name t) = none := by
          simp [qualifyPiece, hpoint, resolveName_refusing (t := t) hp]
        rw [hpiece]
        rfl
    · rw [Bool.not_eq_true] at hname
      rw [named, hname, Bool.false_or] at h
      rw [qualifyPiece_of_not_named refusing hname]
      exact ih hps h

end Names

theorem untouched_iff {e : String} : Untouched e ↔ named [] (split e.toList) = false := by
  constructor
  · intro h
    refine Bool.eq_false_iff.mpr fun hnamed => ?_
    have hsome := h Option refusing
    rw [qualify, foldlM_refusing (fun p hp => text_ne_nil hp) hnamed] at hsome
    cases hsome
  · intro h m _ _ ask
    rw [qualify, foldlM_of_not_named ask h, pure_bind, split_text]
    simp

theorem OneLiteral.untouched {e : String} (h : OneLiteral e.toList) : Untouched e := by
  rw [untouched_iff, h]
  rfl

end DebugSession.TypeNames

namespace DebugSession.Literal

open Text TypeNames

def IsQuoted : Literal → Prop
  | text _ | char _ => True
  | _ => False

def HoldsQuote : Literal → Prop
  | text s => '"' ∈ s.toList
  | char c => c = '\''
  | _ => False

theorem wrap_of_parse {s : List Char} {l : Literal} (h : parse s = some l) (hl : l.IsQuoted) :
    ∃ quote body, s = quote :: (body ++ [quote]) ∧ (quote = '"' ∨ quote = '\'') := by
  cases shape_of_parse h with
  | text hs ht => exact ⟨'"', _, hs, .inl rfl⟩
  | char hs hc => exact ⟨'\'', _, hs, .inr rfl⟩
  | null | bool | pointer | int | uint | float => exact hl.elim

theorem oneLiteral_expression {l : Literal} (hl : l.IsQuoted) :
    OneLiteral l.expression ↔ ¬l.HoldsQuote := by
  cases l with
  | text s =>
    have hends := @endsEarly_escape '"' rfl s.toList
    rw [expression, List.cons_append, oneLiteral_wrap (.inl rfl), HoldsQuote, ← hends,
      Bool.not_eq_true]
  | char c =>
    have hends := @endsEarly_escape '\'' rfl [c]
    rw [escape, List.flatMap_singleton, List.mem_singleton] at hends
    rw [expression, List.cons_append, oneLiteral_wrap (.inr rfl), HoldsQuote, eq_comm (a := c),
      ← hends, Bool.not_eq_true]
  | null | bool | int | uint | float | pointer | other => exact hl.elim

/-- A quoted literal is one quoted text for the scan exactly when no quote without a backslash
stands in its body; no resolver is asked anything about it exactly when no name stands outside what
the scan takes for quoted text, points apart; and rendering gives one quoted text exactly for what
does not hold its own quote. -/
theorem one_literal_iff {e : String} {l : Literal} (hread : parse e.toList = some l)
    (hl : l.IsQuoted) :
    (∃ quote body, e.toList = quote :: (body ++ [quote]) ∧
        (OneLiteral e.toList ↔ endsEarly quote body = false)) ∧
      (OneLiteral e.toList → Untouched e) ∧
      (Untouched e ↔ named [] (split e.toList) = false) ∧
      (OneLiteral l.toExpression.toList ↔ ¬l.HoldsQuote) := by
  obtain ⟨quote, body, heq, hquote⟩ := wrap_of_parse hread hl
  refine ⟨⟨quote, body, heq, ?_⟩, OneLiteral.untouched, untouched_iff, ?_⟩
  · rw [heq, oneLiteral_wrap hquote]
  · rw [toList_toExpression, oneLiteral_expression hl]

theorem one_literal_escaped :
    parse "\"say \\\"Foo\\\"\"".toList = some (text "say \"Foo\"") ∧
      Untouched "\"say \\\"Foo\\\"\"" := by
  have hread : parse "\"say \\\"Foo\\\"\"".toList = some (text "say \"Foo\"") :=
    (parse_text_wrap "say \\\"Foo\\\"".toList).trans (by simp [parseText, unescape, escapedChar])
  have hone : OneLiteral "\"say \\\"Foo\\\"\"".toList :=
    (oneLiteral_wrap (.inl rfl) "say \\\"Foo\\\"".toList).mpr (by simp [endsEarly])
  exact ⟨hread, (one_literal_iff hread trivial).2.1 hone⟩

theorem split_say_Foo : split "\"say \"Foo\"\"".toList =
    [.quoted "\"say \"".toList, .name "Foo".toList, .quoted "\"\"".toList] := by
  have hstart : isLetter 'F' = true := by decide
  have hword : isDotted 'o' = true := by decide
  have hquote : isDotted '"' = false := by decide +kernel
  simp [split, quoted, hstart, hword, hquote]

/-- The same text as it is rendered: the scan asks for a name inside it. -/
theorem rendering_asks :
    parse "\"say \"Foo\"\"".toList = some (text "say \"Foo\"") ∧
      (text "say \"Foo\"").toExpression = "\"say \"Foo\"\"" ∧
      ¬OneLiteral "\"say \"Foo\"\"".toList ∧ ¬Untouched "\"say \"Foo\"\"" := by
  have hrender : (text "say \"Foo\"").toExpression = "\"say \"Foo\"\"" := by
    simp [toExpression, expression, escape, escapeChar, escapeLetter]
  have hread := Stable.parse_toExpression (l := text "say \"Foo\"") trivial
  rw [hrender] at hread
  refine ⟨hread, hrender, ?_, ?_⟩
  · rw [OneLiteral, split_say_Foo]
    simp
  · rw [untouched_iff, split_say_Foo]
    simp [named, Piece.isName, followsPoint, Piece.text, isBlank, within, blank]

end DebugSession.Literal
