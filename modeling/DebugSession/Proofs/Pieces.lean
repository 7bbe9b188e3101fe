import DebugSession.Proofs.Blanks
import DebugSession.Proofs.Quotation

namespace DebugSession.TypeNames

open Text

inductive Body (quote : Char) : List Char → Prop
  | nil : Body quote []
  | plain {c : Char} {r : List Char} (hquote : c ≠ quote) (hslash : c ≠ '\\') (hr : Body quote r) :
      Body quote (c :: r)
  | escaped (c : Char) {r : List Char} (hr : Body quote r) : Body quote ('\\' :: c :: r)

/-- What follows an opening quote: text up to and with the closing quote, and the rest. Without a
closing quote there is no rest, and a backslash may be the last character. -/
inductive Closes (quote : Char) : List Char → List Char → Prop
  | closed {body : List Char} (hbody : Body quote body) (rest : List Char) :
      Closes quote (body ++ [quote]) rest
  | unclosed {body : List Char} (hbody : Body quote body) : Closes quote body []
  | cut {body : List Char} (hbody : Body quote body) : Closes quote (body ++ ['\\']) []

inductive Consists : List Char → List Piece → Prop
  | nil : Consists [] []
  | quoted {quote : Char} {text rest : List Char} {ps : List Piece}
      (hquote : quote = '"' ∨ quote = '\'') (htext : Closes quote text rest)
      (hrest : Consists rest ps) : Consists (quote :: text ++ rest) (.quoted (quote :: text) :: ps)
  | name {c : Char} {text rest : List Char} {ps : List Piece} (hstart : isLetter c ∨ c = '_')
      (htext : ∀ d ∈ text, isDotted d) (hend : ∀ d ∈ rest.head?, ¬isDotted d)
      (hrest : Consists rest ps) : Consists (c :: text ++ rest) (.name (c :: text) :: ps)
  | other {c : Char} {rest : List Char} {ps : List Piece} (hquote : c ≠ '"' ∧ c ≠ '\'')
      (hstart : ¬(isLetter c ∨ c = '_')) (hrest : Consists rest ps) :
      Consists (c :: rest) (.other c :: ps)

section Quotes

variable {quote : Char}

theorem Closes.plain {c : Char} {text rest : List Char} (hquote : c ≠ quote) (hslash : c ≠ '\\')
    (h : Closes quote text rest) : Closes quote (c :: text) rest := by
  cases h with
  | closed hbody => exact .closed (.plain hquote hslash hbody) rest
  | unclosed hbody => exact .unclosed (.plain hquote hslash hbody)
  | cut hbody => exact .cut (.plain hquote hslash hbody)

theorem Closes.escaped (c : Char) {text rest : List Char} (h : Closes quote text rest) :
    Closes quote ('\\' :: c :: text) rest := by
  cases h with
  | closed hbody => exact .closed (.escaped c hbody) rest
  | unclosed hbody => exact .unclosed (.escaped c hbody)
  | cut hbody => exact .cut (.escaped c hbody)

theorem closes_quoted (quote : Char) (s : List Char) :
    Closes quote (quoted quote s).1 (quoted quote s).2 := by
  fun_induction quoted quote s with
  | case1 => exact .unclosed .nil
  | case2 c r hc =>
      rw [beq_iff_eq.mp hc]
      exact .closed .nil r
  | case3 c hc hslash =>
      rw [beq_iff_eq.mp hslash]
      exact .cut .nil
  | case4 c hc hslash d r body rest heq ih =>
      rw [heq] at ih
      rw [beq_iff_eq.mp hslash]
      exact ih.escaped d
  | case5 c r hc hslash body rest heq ih =>
      rw [heq] at ih
      exact ih.plain (by simpa using hc) (by simpa using hslash)

theorem quoted_body (hquote : quote ≠ '\\') {body : List Char} (hbody : Body quote body)
    (s : List Char) :
    quoted quote (body ++ s) = (body ++ (quoted quote s).1, (quoted quote s).2) := by
  induction hbody with
  | nil => rfl
  | plain hc hslash _ ih =>
      rw [List.cons_append, quoted.eq_def]
      simp [hc, hslash, ih]
  | escaped c _ ih =>
      rw [List.cons_append, List.cons_append, quoted.eq_def]
      simp [hquote.symm, ih]

theorem Closes.quoted_eq (hquote : quote ≠ '\\') {text rest : List Char}
    (h : Closes quote text rest) : quoted quote (text ++ rest) = (text, rest) := by
  cases h with
  | closed hbody =>
      rw [List.append_assoc, quoted_body hquote hbody, quoted.eq_def]
      simp
  | unclosed hbody =>
      rw [quoted_body hquote hbody, quoted.eq_def]
      simp
  | cut hbody =>
      rw [List.append_assoc, quoted_body hquote hbody, quoted.eq_def]
      simp [hquote.symm]

end Quotes

theorem ne_slash {quote : Char} (h : quote = '"' ∨ quote = '\'') : quote ≠ '\\' := by
  obtain rfl | rfl := h <;> decide

theorem not_isLetter_quote {quote : Char} (h : quote = '"' ∨ quote = '\'') :
    isLetter quote = false := by
  obtain rfl | rfl := h <;> decide +kernel

theorem split_name {c : Char} (hstart : isLetter c ∨ c = '_') (r : List Char) :
    split (c :: r) = .name (c :: r.takeWhile isDotted) :: split (r.dropWhile isDotted) := by
  have hquote : ¬(c = '"' ∨ c = '\'') := by
    intro hquote
    have hletter := not_isLetter_quote hquote
    obtain rfl | rfl := hquote <;> simp [hletter] at hstart
  rw [split]
  simp_all

theorem split_other {c : Char} (hquote : c ≠ '"' ∧ c ≠ '\'') (hstart : ¬(isLetter c ∨ c = '_'))
    (r : List Char) : split (c :: r) = .other c :: split r := by
  rw [split]
  simp_all

theorem consists_split (s : List Char) : Consists s (split s) := by
  fun_induction split s with
  | case1 => exact .nil
  | case2 c r hc ih =>
      have h := Consists.quoted (by simpa using hc) (closes_quoted c r) ih
      rwa [List.cons_append, quoted_append] at h
  | case3 c r hc hname ih =>
      have hend : ∀ d ∈ (r.dropWhile isDotted).head?, ¬isDotted d := by
        intro d hd hdotted
        have h := List.head?_dropWhile_not isDotted r
        rw [Option.mem_def.mp hd] at h
        simp [hdotted] at h
      have htext : ∀ d ∈ r.takeWhile isDotted, isDotted d := fun d hd => List.mem_takeWhile_imp hd
      have h := Consists.name (by simpa using hname) htext hend ih
      rwa [List.cons_append, List.takeWhile_append_dropWhile] at h
  | case4 c r hc hname ih => exact .other (by simpa using hc) (by simpa using hname) ih

/-- An expression consists of just the pieces that it is split into. -/
theorem consists_iff {s : List Char} {ps : List Piece} : Consists s ps ↔ split s = ps := by
  constructor
  · intro h
    induction h with
    | nil => rw [split]
    | quoted hquote htext _ ih =>
        rw [List.cons_append, split_quote hquote, htext.quoted_eq (ne_slash hquote), ih]
    | name hstart htext hend _ ih =>
        rw [List.cons_append, split_name hstart, takeWhile_run htext hend,
          dropWhile_run htext hend, ih]
    | other hquote hstart _ ih => rw [split_other hquote hstart, ih]
  · rintro rfl
    exact consists_split s

section Positions

variable (text : Array Char)

/-- Where the search for a closing quote ends: at the quote or past the last character. A backslash
at the end leads one further. -/
def closing (quote : Char) (i : Nat) : Nat :=
  if h : i < text.size then
    if text[i] == quote then i
    else if text[i] == '\\' then closing quote (i + 2)
    else closing quote (i + 1)
  else i
  termination_by text.size - i

def nameEnd (i : Nat) : Nat :=
  if h : i < text.size then
    if isDotted text[i] then nameEnd (i + 1) else i
  else i
  termination_by text.size - i

def pieceEnd (i : Nat) (h : i < text.size) : Nat :=
  if text[i] == '"' || text[i] == '\'' then min (closing text text[i] (i + 1) + 1) text.size
  else if isLetter text[i] || text[i] == '_' then nameEnd text i
  else i + 1

def Piece.ofText (c : Char) (t : List Char) : Piece :=
  if c == '"' || c == '\'' then .quoted t
  else if isLetter c || c == '_' then .name t
  else .other c

theorem le_closing (quote : Char) (i : Nat) : i ≤ closing text quote i := by
  fun_induction closing text quote i <;> omega

theorem le_nameEnd (i : Nat) : i ≤ nameEnd text i := by
  fun_induction nameEnd text i <;> omega

theorem nameEnd_le {i : Nat} (hi : i ≤ text.size) : nameEnd text i ≤ text.size := by
  fun_induction nameEnd text i <;> omega

theorem isDotted_of_starts {c : Char} (h : (isLetter c || c == '_') = true) : isDotted c = true := by
  rw [Bool.or_eq_true] at h
  obtain h | h := h <;> simp [isDotted, isWord, isLetterOrNumber, h]

/-- A piece is not empty and ends within the text. -/
theorem pieceEnd_bounds (i : Nat) (h : i < text.size) :
    i < pieceEnd text i h ∧ pieceEnd text i h ≤ text.size := by
  unfold pieceEnd
  split
  · have hle := le_closing text text[i] (i + 1)
    omega
  · split
    · next hstart =>
        have hnext : nameEnd text i = nameEnd text (i + 1) := by
          rw [nameEnd]
          simp [h, isDotted_of_starts hstart]
        have hle := le_nameEnd text (i + 1)
        exact ⟨by omega, nameEnd_le text h.le⟩
    · omega

def piecesFrom (i : Nat) : List Piece :=
  if h : i < text.size then
    .ofText text[i] (text.extract i (pieceEnd text i h)).toList :: piecesFrom (pieceEnd text i h)
  else []
  termination_by text.size - i
  decreasing_by
    have hbounds := pieceEnd_bounds text i h
    omega

variable {text}

theorem drop_eq_cons {i : Nat} (h : i < text.size) :
    text.toList.drop i = text[i] :: text.toList.drop (i + 1) := by
  rw [List.drop_eq_getElem_cons (by simpa using h), Array.getElem_toList]

theorem drop_eq_nil {i : Nat} (h : ¬i < text.size) : text.toList.drop i = [] :=
  List.drop_eq_nil_of_le (by simpa using h)

theorem extract_eq_cons {i stop : Nat} (h : i < text.size) (hstop : i < stop) :
    (text.extract i stop).toList = text[i] :: (text.extract (i + 1) stop).toList := by
  simp only [Array.toList_extract, List.extract]
  rw [drop_eq_cons h, show stop - i = stop - (i + 1) + 1 by omega, List.take_succ_cons]

theorem extract_eq_nil {i : Nat} (h : ¬i < text.size) (stop : Nat) :
    (text.extract i stop).toList = [] := by
  simp only [Array.toList_extract, List.extract, drop_eq_nil h, List.take_nil]

theorem extract_self (i : Nat) : (text.extract i i).toList = [] := by
  simp only [Array.toList_extract, List.extract, Nat.sub_self, List.take_zero]

theorem quoted_drop (quote : Char) (i : Nat) :
    quoted quote (text.toList.drop i) =
      ((text.extract i (min (closing text quote i + 1) text.size)).toList,
        text.toList.drop (min (closing text quote i + 1) text.size)) := by
  fun_induction closing text quote i with
  | case1 i h hc =>
      rw [drop_eq_cons h, Nat.min_eq_left h, extract_eq_cons h (by omega), extract_self, quoted.eq_def]
      simp [hc]
  | case2 i h hc hslash ih =>
      have hle := le_closing text quote (i + 2)
      rw [drop_eq_cons h, extract_eq_cons h (by omega)]
      by_cases hnext : i + 1 < text.size
      · rw [drop_eq_cons hnext, extract_eq_cons hnext (by omega), quoted.eq_def]
        simp [hc, hslash, ih]
      · rw [drop_eq_nil hnext, extract_eq_nil hnext, drop_eq_nil (by omega), quoted.eq_def]
        simp [hc, hslash]
  | case3 i h hc hslash ih =>
      have hle := le_closing text quote (i + 1)
      rw [drop_eq_cons h, extract_eq_cons h (by omega), quoted.eq_def]
      simp [hc, hslash, ih]
  | case4 i h =>
      rw [drop_eq_nil h, extract_eq_nil h, drop_eq_nil (by omega), quoted]

theorem takeWhile_drop (i : Nat) :
    (text.toList.drop i).takeWhile isDotted = (text.extract i (nameEnd text i)).toList := by
  fun_induction nameEnd text i with
  | case1 i h hc ih =>
      have hle := le_nameEnd text (i + 1)
      rw [drop_eq_cons h, extract_eq_cons h (by omega), List.takeWhile_cons_of_pos hc, ih]
  | case2 i h hc => rw [drop_eq_cons h, extract_self, List.takeWhile_cons_of_neg hc]
  | case3 i h => rw [drop_eq_nil h, extract_self, List.takeWhile_nil]

theorem dropWhile_drop (i : Nat) :
    (text.toList.drop i).dropWhile isDotted = text.toList.drop (nameEnd text i) := by
  fun_induction nameEnd text i with
  | case1 i h hc ih => rw [drop_eq_cons h, List.dropWhile_cons_of_pos hc, ih]
  | case2 i h hc => rw [drop_eq_cons h, List.dropWhile_cons_of_neg hc]
  | case3 i h => rw [drop_eq_nil h, List.dropWhile_nil]

/-- Going from position to position finds the pieces of the expression. -/
theorem piecesFrom_eq (i : Nat) : piecesFrom text i = split (text.toList.drop i) := by
  fun_induction piecesFrom text i with
  | case1 i h ih =>
      rw [ih]
      by_cases hquote : (text[i] == '"' || text[i] == '\'') = true
      · have hle := le_closing text text[i] (i + 1)
        have hend : pieceEnd text i h = min (closing text text[i] (i + 1) + 1) text.size := if_pos hquote
        rw [Piece.ofText, if_pos hquote, hend, extract_eq_cons h (by omega), drop_eq_cons h,
          split_quote (by simpa using hquote), quoted_drop]
      · by_cases hstart : (isLetter text[i] || text[i] == '_') = true
        · have hend : pieceEnd text i h = nameEnd text i := by
            rw [pieceEnd, if_neg hquote, if_pos hstart]
          have hdotted := isDotted_of_starts hstart
          have htake : (text.toList.drop i).takeWhile isDotted = _ := takeWhile_drop i
          have hdrop : (text.toList.drop i).dropWhile isDotted = _ := dropWhile_drop i
          rw [drop_eq_cons h, List.takeWhile_cons_of_pos hdotted] at htake
          rw [drop_eq_cons h, List.dropWhile_cons_of_pos hdotted] at hdrop
          rw [Piece.ofText, if_neg hquote, if_pos hstart, hend, drop_eq_cons h,
            split_name (by simpa using hstart), htake, hdrop]
        · have hend : pieceEnd text i h = i + 1 := by
            rw [pieceEnd, if_neg hquote, if_neg hstart]
          rw [Piece.ofText, if_neg hquote, if_neg hstart, hend, drop_eq_cons h,
            split_other (by simpa using hquote) (by simpa using hstart)]
  | case2 i h => rw [drop_eq_nil h, split]

end Positions

end DebugSession.TypeNames
