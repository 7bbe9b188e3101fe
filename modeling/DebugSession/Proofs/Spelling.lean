import DebugSession.AccessPath
import DebugSession.Proofs.Blanks

namespace DebugSession

open Text

namespace AccessPath

def naming (alnum : Char → Bool) (c : Char) : Bool := alnum c || c == '_'

/-- The least that is asked of letters and numbers. -/
structure Lettering (alnum : Char → Bool) : Prop where
  blank : ∀ c, isBlank c → alnum c = false
  point : alnum '.' = false
  opening : alnum '[' = false
  closing : alnum ']' = false
  underscore : alnum '_' = false

theorem lettering_unicode : Lettering isLetterOrNumber where
  blank c hc := by
    have hletter : within alphabetic c = false := not_within_of_disjoint (by decide +kernel) hc
    have hnumber : within numeric c = false := not_within_of_disjoint (by decide +kernel) hc
    rw [isLetterOrNumber, isLetter, hletter, hnumber, Bool.or_false]
  point := by decide +kernel
  opening := by decide +kernel
  closing := by decide +kernel
  underscore := by decide +kernel

structure IsName (word : Char → Bool) (s : List Char) : Prop where
  ne_nil : s ≠ []
  word : ∀ c ∈ s, word c
  start : ∀ c ∈ s.head?, ¬c.isDigit

theorem isName_iff {word : Char → Bool} {s : List Char} : isName word s = true ↔ IsName word s := by
  cases s with
  | nil => exact ⟨nofun, fun h => absurd rfl h.ne_nil⟩
  | cons c r =>
      simp only [isName, Bool.and_eq_true, Bool.not_eq_true', List.all_eq_true]
      constructor
      · rintro ⟨hdigit, hword⟩
        exact ⟨List.cons_ne_nil c r, hword, by simp [hdigit]⟩
      · exact fun h => ⟨by simpa using h.start, h.word⟩

def wrap (t : List Char) : List Char := '[' :: (t ++ [']'])

inductive Part
  | member (name : List Char)
  | index (text : List Char)

namespace Part

variable (word : Char → Bool)

def Proper : Part → Prop
  | member name => IsName word name
  | index text => ']' ∉ text

def text : Part → List Char
  | member name => '.' :: name
  | index text => wrap text

def step : Part → List Char
  | member name => name
  | index text => strip (wrap text)

end Part

def Spells (word : Char → Bool) (s root : List Char) (steps : List (List Char)) : Prop :=
  IsName word root ∧ ∃ parts : List Part, (∀ p ∈ parts, p.Proper word) ∧
    s = root ++ parts.flatMap Part.text ∧ steps = parts.map Part.step

theorem strip_wrap (t : List Char) : strip (wrap t) = wrap (strip t) := by
  have hopening : isBlank '[' = false := by decide
  have hclosing : isBlank ']' = false := by decide
  rw [wrap, strip_cons hopening, strip_append, strip_cons hclosing]
  rfl

/-- The scan keeps the closing bracket with the text before it. -/
theorem filter_concat (t : List Char) :
    '[' :: (t ++ [']']).filter (!isBlank ·) = strip (wrap t) := by
  rw [strip_wrap, List.filter_append]
  rfl

theorem bracketed_concat {t : List Char} (ht : ']' ∉ t) (rest : List Char) :
    bracketed (t ++ ']' :: rest) = some (t ++ [']'], rest) := by
  induction t with
  | nil => rfl
  | cons c t ih =>
      obtain ⟨hc, ht⟩ := not_or.mp (mt List.mem_cons.mpr ht)
      rw [List.cons_append, bracketed, if_neg (by simpa using Ne.symm hc), ih ht]
      rfl

theorem eq_concat_of_bracketed {s body rest : List Char} (h : bracketed s = some (body, rest)) :
    ∃ t, ']' ∉ t ∧ body = t ++ [']'] := by
  induction s generalizing body rest with
  | nil => cases h
  | cons c r ih =>
      rw [bracketed] at h
      split at h
      · next hc =>
          obtain ⟨rfl, -⟩ := Prod.mk.inj (Option.some.inj h)
          exact ⟨[], List.not_mem_nil, by rw [beq_iff_eq.mp hc]; rfl⟩
      · next hc =>
          obtain ⟨⟨body', rest'⟩, hr, heq⟩ := Option.map_eq_some_iff.mp h
          obtain ⟨t, ht, rfl⟩ := ih hr
          obtain ⟨rfl, -⟩ := Prod.mk.inj heq
          exact ⟨c :: t, by simp [ht, eq_comm, beq_eq_false_iff_ne.mp (Bool.not_eq_true _ ▸ hc)], rfl⟩

section

variable {word : Char → Bool} (hpoint : word '.' = false) (hopening : word '[' = false)
include hpoint hopening

/-- A name ends where a point or a bracket comes. -/
theorem not_word_head (parts : List Part) : ∀ c ∈ (parts.flatMap Part.text).head?, ¬word c := by
  cases parts with
  | nil => nofun
  | cons p ps => cases p <;> simp [Part.text, wrap, hpoint, hopening]

theorem parseSteps_flatMap {parts : List Part} (hparts : ∀ p ∈ parts, p.Proper word) :
    parseSteps word (parts.flatMap Part.text) = some (parts.map Part.step) := by
  induction parts with
  | nil => rw [List.flatMap_nil, parseSteps]; rfl
  | cons p parts ih =>
      obtain ⟨hp, hrest⟩ := List.forall_mem_cons.mp hparts
      cases p with
      | member name =>
          have hname : IsName word name := hp
          rw [List.flatMap_cons, Part.text, List.cons_append, parseSteps,
            takeWhile_run hname.word (not_word_head hpoint hopening parts),
            dropWhile_run hname.word (not_word_head hpoint hopening parts),
            if_pos (isName_iff.mpr hname), ih hrest]
          rfl
      | index text =>
          have htext : ']' ∉ text := hp
          have hbracketed := bracketed_concat htext (parts.flatMap Part.text)
          rw [List.flatMap_cons, Part.text, wrap, List.cons_append, List.append_assoc, parseSteps]
          split
          · next body rest h =>
              obtain ⟨rfl, rfl⟩ := Prod.mk.inj (Option.some.inj (h.symm.trans hbracketed))
              dsimp only
              rw [ih hrest, filter_concat]
              rfl
          · next h => cases h.symm.trans hbracketed

end

theorem parts_of_parseSteps {word : Char → Bool} {s : List Char} {steps : List (List Char)}
    (h : parseSteps word s = some steps) : ∃ parts : List Part, (∀ p ∈ parts, p.Proper word) ∧
      s = parts.flatMap Part.text ∧ steps = parts.map Part.step := by
  -- along the scan: what it has read before a part is put back in front of the rest
  fun_induction parseSteps word s generalizing steps with
  | case1 =>
      obtain rfl := Option.some.inj h
      exact ⟨[], List.forall_mem_nil _, rfl, rfl⟩
  | case2 r hname ih =>
      obtain ⟨rest, hrest, rfl⟩ := Option.map_eq_some_iff.mp h
      obtain ⟨parts, hparts, htext, rfl⟩ := ih hrest
      refine ⟨.member (r.takeWhile word) :: parts, ?_, ?_, rfl⟩
      · exact List.forall_mem_cons.mpr ⟨isName_iff.mp hname, hparts⟩
      · rw [List.flatMap_cons, Part.text, ← htext, List.cons_append,
          List.takeWhile_append_dropWhile]
  | case3 r hname => cases h
  | case4 r body rest hbody hle ih =>
      obtain ⟨rest', hrest, rfl⟩ := Option.map_eq_some_iff.mp h
      obtain ⟨parts, hparts, htext, rfl⟩ := ih hrest
      obtain ⟨t, ht, rfl⟩ := eq_concat_of_bracketed hbody
      refine ⟨.index t :: parts, List.forall_mem_cons.mpr ⟨ht, hparts⟩, ?_, ?_⟩
      · rw [List.flatMap_cons, Part.text, wrap, ← htext, List.cons_append, bracketed_append hbody]
      · rw [List.map_cons, Part.step, filter_concat]
  | case5 r hbody => cases h
  | case6 s hnil hpoint hopening => cases h

/-- Reading accepts the spellings of paths and nothing else. -/
theorem parse_eq_some {word : Char → Bool} (hpoint : word '.' = false)
    (hopening : word '[' = false) {s root : List Char} {steps : List (List Char)} :
    parse word s = some (root, steps) ↔ Spells word s root steps := by
  constructor
  · intro h
    unfold parse at h
    split at h
    · next hname =>
        obtain ⟨steps', hsteps, heq⟩ := Option.map_eq_some_iff.mp h
        obtain ⟨rfl, rfl⟩ := Prod.mk.inj heq
        obtain ⟨parts, hparts, htext, rfl⟩ := parts_of_parseSteps hsteps
        refine ⟨isName_iff.mp hname, parts, hparts, ?_, rfl⟩
        rw [← htext, List.takeWhile_append_dropWhile]
    · cases h
  · rintro ⟨hname, parts, hparts, rfl, rfl⟩
    have hend := not_word_head hpoint hopening parts
    rw [parse, takeWhile_run hname.word hend, dropWhile_run hname.word hend,
      if_pos (isName_iff.mpr hname), parseSteps_flatMap hpoint hopening hparts]
    rfl

end AccessPath

end DebugSession
