import DebugSession.Proofs.Numeral

namespace DebugSession.Literal

open Text Decimal

/-- The literals that reading returns as they were: every number is within its range, and an
unsigned one is beyond the signed range. -/
def Stable : Literal → Prop
  | null | bool _ | char _ | text _ => True
  | int n => -intBound ≤ n ∧ n < intBound
  | uint n => intBound ≤ n ∧ n < wordBound
  | pointer a => a < wordBound
  | float _ | other _ => False

theorem unquote_wrap (quote : Char) (body : List Char) :
    unquote quote (quote :: (body ++ [quote])) = some body := by
  simp [unquote]

theorem unquote_of_ne {quote c : Char} (hc : c ≠ quote) (r : List Char) :
    unquote quote (c :: r) = none := by
  simp [unquote, hc]

theorem eq_wrap_of_unquote {quote : Char} {s body : List Char} (h : unquote quote s = some body) :
    s = quote :: (body ++ [quote]) := by
  cases s with
  | nil => cases h
  | cons c r =>
    rw [unquote] at h
    by_cases hends : (c == quote && r.getLast? == some quote) = true
    · rw [if_pos hends, Option.some.injEq] at h
      simp only [Bool.and_eq_true, beq_iff_eq] at hends
      obtain ⟨rfl, hlast⟩ := hends
      obtain ⟨ys, rfl⟩ := List.getLast?_eq_some_iff.mp hlast
      rw [← h, List.dropLast_concat]
    · rw [if_neg hends] at h
      cases h

/-- A text whose first character starts no keyword is read by its shape. -/
theorem parse_cons {c : Char} (r : List Char) (hn : c ≠ 'n') (ht : c ≠ 't') (hf : c ≠ 'f') :
    parse (c :: r) = parseUnnamed (c :: r) := by
  simp [parse, hn, ht, hf]

theorem parse_text_wrap (body : List Char) : parse ('"' :: (body ++ ['"'])) = parseText body := by
  rw [parse_cons _ (by decide) (by decide) (by decide)]
  unfold parseUnnamed
  rw [unquote_wrap]

theorem parse_char_wrap (body : List Char) :
    parse ('\'' :: (body ++ ['\''])) = parseChar body := by
  rw [parse_cons _ (by decide) (by decide) (by decide)]
  unfold parseUnnamed
  rw [unquote_wrap, unquote_of_ne (by decide)]

theorem parse_hex (digits : List Char) :
    parse ('0' :: 'x' :: digits) = (readHex wordBound digits).map pointer := by
  rw [parse_cons _ (by decide) (by decide) (by decide)]
  unfold parseUnnamed
  rw [unquote_of_ne (by decide), unquote_of_ne (by decide)]
  rfl

/-- A text that starts like no keyword, no quoted text and no pointer is read as a number. -/
theorem parse_number {c : Char} {r : List Char} (hname : c ≠ 'n' ∧ c ≠ 't' ∧ c ≠ 'f')
    (hquote : c ≠ '"' ∧ c ≠ '\'') (hhex : ∀ digits, c :: r ≠ '0' :: 'x' :: digits) :
    parse (c :: r) = parseNumber (c :: r) := by
  rw [parse_cons r hname.1 hname.2.1 hname.2.2]
  unfold parseUnnamed
  rw [unquote_of_ne hquote.1, unquote_of_ne hquote.2]
  split
  · next heq => cases heq
  · next heq => cases heq
  · next digits _ _ heq => exact absurd heq (hhex digits)
  · rfl

theorem parse_minus (r : List Char) : parse ('-' :: r) = parseNumber ('-' :: r) :=
  parse_number (by decide) (by decide) (by simp)

theorem parse_toDigits (n : Nat) : parse (Nat.toDigits 10 n) = parseNumber (Nat.toDigits 10 n) := by
  obtain ⟨c, r, heq, hc, hr⟩ := toDigits_eq_cons n
  have hne (d : Char) (hd : d.isDigit = false) : c ≠ d := by
    rintro rfl
    rw [hc] at hd
    cases hd
  have hhex (digits : List Char) : c :: r ≠ '0' :: 'x' :: digits := by
    rintro ⟨⟩
    have hx := hr 'x' List.mem_cons_self
    cases hx
  rw [heq]
  exact parse_number ⟨hne _ (by decide), hne _ (by decide), hne _ (by decide)⟩
    ⟨hne _ (by decide), hne _ (by decide)⟩ hhex

theorem parseNumber_of_signed {s : List Char} {n : Int} (h : readSigned intBound s = some n) :
    parseNumber s = some (int n) := by
  simp only [parseNumber, h]

theorem parseNumber_of_unsigned {s : List Char} {n : Nat} (hsigned : readSigned intBound s = none)
    (h : readUnsigned wordBound s = some n) : parseNumber s = some (uint n) := by
  simp only [parseNumber, hsigned, h]

theorem parse_text (s : String) : parse (text s).expression = some (text s) := by
  rw [expression, List.cons_append, parse_text_wrap, parseText, unescape_escape]
  simp

theorem parse_char (c : Char) : parse (char c).expression = some (char c) := by
  have hescape : escapeChar c = escape [c] := (List.flatMap_singleton escapeChar c).symm
  rw [expression, List.cons_append, parse_char_wrap, parseChar, hescape, unescape_escape]

theorem parse_pointer {a : Nat} (ha : a < wordBound) :
    parse (pointer a).expression = some (pointer a) := by
  rw [expression, parse_hex, readHex_toDigits ha]
  rfl

theorem parse_int {n : Int} (hlow : -intBound ≤ n) (hhigh : n < intBound) :
    parse (int n).expression = some (int n) := by
  rw [expression, intText]
  by_cases hn : n < 0
  · have hread := readSigned_neg_toDigits intBound n.natAbs
    rw [if_pos (by omega), show (-(n.natAbs : Int)) = n by omega] at hread
    rw [if_pos hn, parse_minus, parseNumber_of_signed hread]
  · have hread := readSigned_toDigits intBound n.natAbs
    rw [if_pos (by omega), show (n.natAbs : Int) = n by omega] at hread
    rw [if_neg hn, parse_toDigits, parseNumber_of_signed hread]

/-- Within the signed range the sign of an unsigned number is forgotten. -/
theorem parse_uint_of_lt {n : Nat} (hn : n < intBound) :
    parse (uint n).expression = some (int n) := by
  have hread := readSigned_toDigits intBound n
  rw [if_pos hn] at hread
  rw [expression, parse_toDigits, parseNumber_of_signed hread]

theorem parse_uint_of_le {n : Nat} (hlow : intBound ≤ n) (hhigh : n < wordBound) :
    parse (uint n).expression = some (uint n) := by
  have hsigned := readSigned_toDigits intBound n
  have hread := readUnsigned_toDigits wordBound n
  rw [if_neg (by omega)] at hsigned
  rw [if_pos hhigh] at hread
  rw [expression, parse_toDigits, parseNumber_of_unsigned hsigned hread]

theorem Stable.parse_expression {l : Literal} (h : l.Stable) : parse l.expression = some l := by
  cases l with
  | null => rfl
  | bool b => cases b <;> rfl
  | int n => exact parse_int h.1 h.2
  | uint n => exact parse_uint_of_le h.1 h.2
  | char c => exact parse_char c
  | text s => exact parse_text s
  | pointer a => exact parse_pointer h
  | float x => exact h.elim
  | other s => exact h.elim

inductive Shape (s : List Char) : Literal → Prop
  | null : Shape s null
  | bool (b : Bool) : Shape s (bool b)
  | text {body t : List Char} (hs : s = '"' :: (body ++ ['"'])) (ht : unescape body = some t) :
      Shape s (text (String.ofList t))
  | char {body : List Char} {c : Char} (hs : s = '\'' :: (body ++ ['\'']))
      (hc : unescape body = some [c]) : Shape s (char c)
  | pointer {digits : List Char} {a : Nat} (hs : s = '0' :: 'x' :: digits)
      (ha : readHex wordBound digits = some a) : Shape s (pointer a)
  | int {n : Int} (hn : readSigned intBound s = some n) : Shape s (int n)
  | uint {n : Nat} (hsigned : readSigned intBound s = none)
      (hn : readUnsigned wordBound s = some n) : Shape s (uint n)
  | float (x : Float) : Shape s (float x)

theorem shape_of_parseNumber {s : List Char} {l : Literal} (h : parseNumber s = some l) :
    Shape s l := by
  unfold parseNumber at h
  split at h
  · next n hn =>
      rw [← Option.some.inj h]
      exact .int hn
  · next hsigned =>
    split at h
    · next n hn =>
        rw [← Option.some.inj h]
        exact .uint hsigned hn
    · split at h
      · split at h
        · obtain ⟨x, -, rfl⟩ := Option.map_eq_some_iff.mp h
          exact .float x
        · cases h
      · cases h

theorem shape_of_parseUnnamed {s : List Char} {l : Literal} (h : parseUnnamed s = some l) :
    Shape s l := by
  unfold parseUnnamed at h
  split at h
  · next body hbody =>
      obtain ⟨t, ht, rfl⟩ := Option.map_eq_some_iff.mp h
      exact .text (eq_wrap_of_unquote hbody) ht
  · next body _ hbody =>
      unfold parseChar at h
      split at h
      · next c hc =>
          rw [← Option.some.inj h]
          exact .char (eq_wrap_of_unquote hbody) hc
      · cases h
  · obtain ⟨a, ha, rfl⟩ := Option.map_eq_some_iff.mp h
    exact .pointer rfl ha
  · exact shape_of_parseNumber h

theorem shape_of_parse {s : List Char} {l : Literal} (h : parse s = some l) : Shape s l := by
  unfold parse at h
  split at h
  · rw [← Option.some.inj h]
    exact .null
  · split at h
    · rw [← Option.some.inj h]
      exact .bool true
    · split at h
      · rw [← Option.some.inj h]
        exact .bool false
      · exact shape_of_parseUnnamed h

theorem stable_of_shape {s : List Char} {l : Literal} (h : Shape s l) (hfloat : ∀ x, l ≠ float x) :
    l.Stable := by
  cases h with
  | null => trivial
  | bool b => trivial
  | text hs ht => trivial
  | char hs hc => trivial
  | pointer hs ha => exact lt_of_readHex ha
  | int hn => exact range_of_readSigned (by decide) hn
  | uint hsigned hn =>
    refine ⟨Nat.le_of_not_lt fun hlt => ?_, lt_of_readUnsigned hn⟩
    rw [readSigned_of_readUnsigned hn hlt] at hsigned
    cases hsigned
  | float x => exact absurd rfl (hfloat x)

@[simp]
theorem toList_toExpression (l : Literal) : l.toExpression.toList = l.expression :=
  String.toList_ofList

theorem Stable.parse_toExpression {l : Literal} (h : l.Stable) :
    parse l.toExpression.toList = some l := by
  rw [toList_toExpression, h.parse_expression]

/-- Stable literals read back as themselves, so no two of them share a rendering, and a small
unsigned number reads back as a signed one. What was read once reads the same from its rendering,
unless it was a float. -/
theorem reads_back :
    (∀ l : Literal, l.Stable → parse l.toExpression.toList = some l) ∧
      (∀ n : Nat, n < intBound → parse (uint n).toExpression.toList = some (int n)) ∧
      (∀ l l' : Literal, l.Stable → l'.Stable → l.toExpression = l'.toExpression → l = l') ∧
      (∀ s : String, unescape (escapeString s).toList = some s.toList) ∧
      ∀ (e : List Char) (l : Literal), parse e = some l → (∀ x, l ≠ float x) →
        parse l.toExpression.toList = some l := by
  refine ⟨fun l hl => hl.parse_toExpression, fun n hn => ?_, fun l l' hl hl' heq => ?_,
    fun s => ?_, fun e l hparse hfloat => ?_⟩
  · rw [toList_toExpression, parse_uint_of_lt hn]
  · have hread := hl.parse_toExpression
    rw [heq, hl'.parse_toExpression] at hread
    exact (Option.some.inj hread).symm
  · rw [escapeString, String.toList_ofList, unescape_escape]
  · exact (stable_of_shape (shape_of_parse hparse) hfloat).parse_toExpression

theorem reads_back_quoted :
    parse (text "say \"\\\n").toExpression.toList = some (text "say \"\\\n") ∧
      parse (uint 7).toExpression.toList = some (int 7) ∧
      parse "+7".toList = some (int 7) ∧ parse (int 7).toExpression.toList = some (int 7) := by
  obtain ⟨hstable, huint, -, -, hread⟩ := reads_back
  have hplus : parse "+7".toList = some (int 7) := rfl
  exact ⟨hstable _ trivial, huint 7 (by decide), hplus, hread _ _ hplus fun x => Literal.noConfusion⟩

end DebugSession.Literal
