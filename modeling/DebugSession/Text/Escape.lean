namespace DebugSession.Text

def escapeLetter : Char → Option Char
  | '\\' => some '\\'
  | '\x07' => some 'a'
  | '\x08' => some 'b'
  | '\x0c' => some 'f'
  | '\x0b' => some 'v'
  | '\n' => some 'n'
  | '\r' => some 'r'
  | '\t' => some 't'
  | _ => none

def escapedChar : Char → Option Char
  | '\\' => some '\\'
  | 'a' => some '\x07'
  | 'b' => some '\x08'
  | 'f' => some '\x0c'
  | 'v' => some '\x0b'
  | 'n' => some '\n'
  | 'r' => some '\r'
  | 't' => some '\t'
  | '0' => some '\x00'
  | '\'' => some '\''
  | '"' => some '"'
  | _ => none

def escapeChar (c : Char) : List Char :=
  match escapeLetter c with
  | some l => ['\\', l]
  | none => [c]

def escape (s : List Char) : List Char := s.flatMap escapeChar

def unescape : List Char → Option (List Char)
  | [] => some []
  | ['\\'] => none
  | '\\' :: l :: r => do
    let c ← escapedChar l
    return c :: (← unescape r)
  | c :: r => (unescape r).map (c :: ·)

def escapeString (s : String) : String := String.ofList (escape s.toList)

theorem escapedChar_of_escapeLetter {c l : Char} (h : escapeLetter c = some l) :
    escapedChar l = some c := by
  unfold escapeLetter at h
  split at h <;> simp_all <;> subst h <;> rfl

theorem unescape_escape (s : List Char) : unescape (escape s) = some s := by
  induction s with
  | nil => rfl
  | cons c r ih =>
    rw [escape, List.flatMap_cons, ← escape, escapeChar]
    cases hc : escapeLetter c with
    | some l => simp [unescape, escapedChar_of_escapeLetter hc, ih]
    | none =>
      have hb : c ≠ '\\' := by rintro rfl; simp [escapeLetter] at hc
      rw [List.singleton_append, unescape.eq_4, ih]
      · rfl
      · intro h _; exact hb h
      · intro l r' h _; exact hb h

end DebugSession.Text
