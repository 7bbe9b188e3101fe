import DebugSession.Evaluator
import DebugSession.Proofs.Subscript
import DebugSession.Simulation.Debuggee
import Mathlib.Data.List.Forall2

namespace DebugSession

open Text Decimal

namespace AccessPath

inductive Step
  | member (name : List Char)
  | index (is : List Nat)

namespace Step

def name : Step → List Char
  | member name => name
  | index is => brackets is

def Padded (i : Nat) (field : List Char) : Prop :=
  ∃ left right : List Char, (∀ c ∈ left, isBlank c) ∧ (∀ c ∈ right, isBlank c) ∧
    field = left ++ Nat.toDigits 10 i ++ right

inductive Written (word : Char → Bool) : Step → Part → Prop
  | member {name : List Char} (hname : IsName word name) :
      Written word (member name) (.member name)
  | index {is : List Nat} {fields : List (List Char)} (hne : is ≠ [])
      (his : ∀ i ∈ is, i < indexBound) (hfields : List.Forall₂ Padded is fields) :
      Written word (index is) (.index ([','].intercalate fields))

theorem mem_padded {i : Nat} {field : List Char} (h : Padded i field) :
    ∀ c ∈ field, isBlank c ∨ c.isDigit := by
  obtain ⟨left, right, hleft, hright, rfl⟩ := h
  intro c hc
  rcases List.mem_append.mp hc with hc | hc
  · exact (List.mem_append.mp hc).imp (hleft c) isDigit_of_mem_toDigits
  · exact .inl (hright c hc)

theorem strip_padded {i : Nat} {field : List Char} (h : Padded i field) :
    strip field = Nat.toDigits 10 i := by
  obtain ⟨left, right, hleft, hright, rfl⟩ := h
  have hdigits : strip (Nat.toDigits 10 i) = Nat.toDigits 10 i :=
    strip_eq_self fun c hc => not_blank_of_isDigit (isDigit_of_mem_toDigits hc)
  rw [strip_append, strip_append, strip_of_blank hleft, strip_of_blank hright, hdigits,
    List.append_nil, List.nil_append]

theorem mem_intercalate {fields : List (List Char)} {c : Char}
    (hc : c ∈ [','].intercalate fields) : c = ',' ∨ ∃ field ∈ fields, c ∈ field := by
  induction fields with
  | nil => cases hc
  | cons field fields ih =>
      cases fields with
      | nil => exact .inr ⟨field, List.mem_cons_self, by simpa using hc⟩
      | cons next fields =>
          rw [List.intercalate_cons_cons, List.append_assoc, List.mem_append] at hc
          rcases hc with hc | hc
          · exact .inr ⟨field, List.mem_cons_self, hc⟩
          · rcases List.mem_cons.mp hc with rfl | hc
            · exact .inl rfl
            · refine (ih hc).imp_right fun ⟨other, hother, hc⟩ => ?_
              exact ⟨other, List.mem_cons_of_mem field hother, hc⟩

theorem strip_intercalate (fields : List (List Char)) :
    strip ([','].intercalate fields) = [','].intercalate (fields.map strip) := by
  have hcomma : strip [','] = [','] := by decide
  induction fields with
  | nil => rfl
  | cons field fields ih =>
      cases fields with
      | nil => simp
      | cons next fields =>
          rw [List.intercalate_cons_cons, strip_append, strip_append, hcomma, ih]
          exact List.intercalate_cons_cons.symm

theorem mem_fields {is : List Nat} {fields : List (List Char)} (h : List.Forall₂ Padded is fields)
    {field : List Char} (hfield : field ∈ fields) : ∀ c ∈ field, isBlank c ∨ c.isDigit := by
  induction h with
  | nil => cases hfield
  | cons hpadded hrest ih =>
      rcases List.mem_cons.mp hfield with rfl | hfield
      · exact mem_padded hpadded
      · exact ih hfield

variable {word : Char → Bool}

theorem Written.proper {step : Step} {part : Part} (h : Written word step part) :
    part.Proper word := by
  cases h with
  | member hname => exact hname
  | index hne his hfields =>
      intro hc
      rcases mem_intercalate hc with heq | ⟨field, hfield, hc⟩
      · cases heq
      · exact absurd (mem_fields hfields hfield ']' hc) (by decide)

theorem Written.step_eq {step : Step} {part : Part} (h : Written word step part) :
    part.step = step.name := by
  cases h with
  | member hname => rfl
  | @index is fields hne his hfields =>
      have hstrip : fields.map strip = is.map (Nat.toDigits 10) := by
        clear hne his
        induction hfields with
        | nil => rfl
        | cons hpadded hrest ih => rw [List.map_cons, List.map_cons, strip_padded hpadded, ih]
      rw [Part.step, strip_wrap, strip_intercalate, hstrip]
      rfl

end Step

/-- A path of a name and steps, whatever blanks stand around its numbers. -/
def Leads (word : Char → Bool) (s root : List Char) (steps : List Step) : Prop :=
  IsName word root ∧ ∃ parts : List Part, List.Forall₂ (Step.Written word) steps parts ∧
    s = root ++ parts.flatMap Part.text

section

variable {word : Char → Bool} {s root : List Char} {steps : List Step}

theorem Leads.spells (h : Leads word s root steps) :
    Spells word s root (steps.map Step.name) := by
  obtain ⟨hroot, parts, hparts, rfl⟩ := h
  refine ⟨hroot, parts, ?_, rfl, ?_⟩
  · induction hparts with
    | nil => exact List.forall_mem_nil _
    | cons hpart hrest ih => exact List.forall_mem_cons.mpr ⟨hpart.proper, ih⟩
  · induction hparts with
    | nil => rfl
    | cons hpart hrest ih => rw [List.map_cons, List.map_cons, hpart.step_eq, ih]

theorem Leads.indices (h : Leads word s root steps) {is : List Nat} (his : .index is ∈ steps) :
    is ≠ [] ∧ ∀ i ∈ is, i < indexBound := by
  obtain ⟨-, parts, hparts, -⟩ := h
  induction hparts with
  | nil => cases his
  | cons hpart hrest ih =>
      rcases List.mem_cons.mp his with rfl | his
      · cases hpart with
        | index hne hbound => exact ⟨hne, hbound⟩
      · exact ih his

end

section

variable {alnum : Char → Bool} (halnum : Lettering alnum)
include halnum

theorem not_blank_of_naming {c : Char} (hc : naming alnum c = true) : ¬isBlank c := by
  intro hblank
  rcases Bool.or_eq_true_iff.mp hc with hc | hc
  · rw [halnum.blank c hblank] at hc
    cases hc
  · rw [beq_iff_eq.mp hc] at hblank
    exact absurd hblank (by decide)

theorem IsName.not_blank {name : List Char} (hname : IsName (naming alnum) name) :
    ∀ c ∈ name, ¬isBlank c :=
  fun c hc => not_blank_of_naming halnum (hname.word c hc)

theorem Part.Proper.getLast? {p : Part} (hp : p.Proper (naming alnum)) :
    ∃ c, p.text.getLast? = some c ∧ ¬isBlank c := by
  cases p with
  | member name =>
      have hname : IsName (naming alnum) name := hp
      obtain ⟨d, r, rfl⟩ := List.exists_cons_of_ne_nil hname.ne_nil
      have hlast := List.getLast?_eq_some_getLast (List.cons_ne_nil d r)
      refine ⟨_, ?_, hname.not_blank halnum _ (List.mem_of_getLast? hlast)⟩
      rw [Part.text, List.getLast?_cons_cons, hlast]
  | index text =>
      refine ⟨']', ?_, by decide⟩
      rw [Part.text, wrap, ← List.cons_append, List.getLast?_concat]

/-- Neither end of a path is blank. -/
theorem Spells.ends {s root : List Char} {steps : List (List Char)}
    (h : Spells (naming alnum) s root steps) :
    s ≠ [] ∧ (∀ c ∈ s.head?, ¬isBlank c) ∧ ∀ c ∈ s.getLast?, ¬isBlank c := by
  obtain ⟨hroot, parts, hparts, rfl, -⟩ := h
  have hblank := hroot.not_blank halnum
  refine ⟨by simp [hroot.ne_nil], ?_, ?_⟩
  · obtain ⟨c, r, rfl⟩ := List.exists_cons_of_ne_nil hroot.ne_nil
    rintro d ⟨⟩
    exact hblank c List.mem_cons_self
  · have hlast : ∀ c ∈ root.getLast?, ¬isBlank c := fun c hc =>
      hblank c (List.mem_of_mem_getLast? hc)
    -- what has been read so far grows by one part, so it never ends with a blank
    clear hroot hblank
    induction parts generalizing root with
    | nil => rwa [List.flatMap_nil, List.append_nil]
    | cons p parts ih =>
        obtain ⟨hp, hrest⟩ := List.forall_mem_cons.mp hparts
        obtain ⟨d, hd, hblank⟩ := Part.Proper.getLast? halnum hp
        rw [List.flatMap_cons, ← List.append_assoc]
        refine ih hrest fun c hc => ?_
        rw [List.getLast?_append, hd] at hc
        obtain rfl : d = c := by simpa using hc
        exact hblank

end

end AccessPath

open AccessPath

variable {m : Type → Type} [Monad m] (A : Adapter m)

def Reference.take (r : Reference) : Step → Eval m (Option Reference)
  | .member name => r.child A (String.ofList name)
  | .index is => do
    let v ← r.value A
    if ← A.isNull r.context v then return none
    if ← A.isArray r.context v then return some (← A.arrayElement r.context v is)
    if ← A.isClassInstance r.context v then
      let type ← A.valueType r.context v
      A.member (← (childContext A r.context : m EvaluationContext)) type v
        (String.ofList (brackets is))
    else return none

def arrive (expression : String) : Option Reference → Eval m Reference
  | some r => pure r
  | none => throw (.unresolvedName expression)

variable [LawfulMonad m]

theorem child_brackets (r : Reference) {is : List Nat} (hne : is ≠ [])
    (his : ∀ i ∈ is, i < indexBound) :
    r.child A (String.ofList (brackets is)) = r.take A (.index is) := by
  have hindices : Reference.parseIndices (String.ofList (brackets is)) = .ok is := by
    rw [Reference.parseIndices, String.toList_ofList, indices_brackets hne his]
  have hlift : (liftM (Except.ok is : Except EvalError (List Nat)) : Eval m (List Nat)) = pure is :=
    rfl
  simp only [Reference.child, hindices, hlift, pure_bind]
  rfl

theorem followSteps_eq (expression : String) (r : Reference) (names : List String) :
    followSteps A expression r names = r.childAtPath A names >>= arrive expression := by
  induction names generalizing r with
  | nil =>
      rw [followSteps, Reference.childAtPath, pure_bind]
      rfl
  | cons name names ih =>
      rw [followSteps, Reference.childAtPath, bind_assoc]
      refine bind_congr fun found => ?_
      cases found with
      | none =>
          rw [pure_bind]
          rfl
      | some c => exact ih c

/-- What is no literal is looked for by its first name, and its steps are taken from there. -/
theorem evaluateWith_spelled {alnum : Char → Bool} (halnum : Lettering alnum)
    {text root left right : List Char} {steps : List (List Char)}
    (htext : Spells (naming alnum) text root steps) (hliteral : Literal.parse text = none)
    (hleft : ∀ c ∈ left, isBlank c) (hright : ∀ c ∈ right, isBlank c) (ctx : EvaluationContext) :
    NameResolving.evaluateWith A (naming alnum) ctx (String.ofList (left ++ text ++ right)) = (do
      let r ← resolveIdentifier A ctx (String.ofList root)
      arrive (String.ofList text) (← r.childAtPath A (steps.map String.ofList))) := by
  obtain ⟨hne, hhead, hlast⟩ := htext.ends halnum
  have htrim : trim (String.ofList (left ++ text ++ right)).toList = text := by
    rw [String.toList_ofList, trim_padded hne hhead hlast hleft hright]
  have hpoint : naming alnum '.' = false := by simp [naming, halnum.point]
  have hopening : naming alnum '[' = false := by simp [naming, halnum.opening]
  have hparse := (parse_eq_some hpoint hopening).mpr htext
  simp only [NameResolving.evaluateWith, htrim, hliteral, hparse]
  exact bind_congr fun r => followSteps_eq A _ r _

/-- A text is read as a path exactly when it is the spelling of one. A path of a name, members and
indices that is no literal is evaluated by looking for the name and going on through its steps under
their names without blanks. The step of an index asks an array for the element at just that index,
and a step that finds nothing is reported with the whole expression, blanks around it aside. -/
theorem evaluates_paths {alnum : Char → Bool} (halnum : AccessPath.Lettering alnum) :
    (∀ s root steps, AccessPath.parse (naming alnum) s = some (root, steps) ↔
      Spells (naming alnum) s root steps) ∧
    ∀ text root steps left right, Leads (naming alnum) text root steps →
      Literal.parse text = none → (∀ c ∈ left, isBlank c) → (∀ c ∈ right, isBlank c) →
      ∀ (m : Type → Type) [Monad m] [LawfulMonad m] (A : Adapter m) (ctx : EvaluationContext),
        NameResolving.evaluateWith A (naming alnum) ctx (String.ofList (left ++ text ++ right)) =
          (do
            let r ← resolveIdentifier A ctx (String.ofList root)
            match ← r.childAtPath A (steps.map fun step => String.ofList step.name) with
            | some c => pure c
            | none => throw (.unresolvedName (String.ofList text))) ∧
        ∀ step ∈ steps, ∀ r : Reference, r.child A (String.ofList step.name) = r.take A step := by
  refine ⟨fun s root steps => parse_eq_some ?_ ?_, ?_⟩
  · simp [naming, halnum.point]
  · simp [naming, halnum.opening]
  · intro text root steps left right hleads hliteral hleft hright m _ _ A ctx
    refine ⟨?_, ?_⟩
    · rw [evaluateWith_spelled A halnum hleads.spells hliteral hleft hright ctx, List.map_map]
      rfl
    · intro step hstep r
      cases step with
      | member name => rfl
      | index is =>
          obtain ⟨hne, his⟩ := hleads.indices hstep
          exact child_brackets A r hne his

section Rows

def rows : World (Simulation.Memory × Unit) :=
  { host := ({
      cells := #[.array [1, 2] "int[]", .array [3, 4] "int", .array [5, 6] "int",
        .literal (.int 10), .literal (.int 20), .literal (.int 30), .literal (.int 40)]
      frame := { locals := [⟨"rows", 0, {}⟩] } }, ()) }

theorem leads_rows : Leads Text.isWord "rows[ 1 ,0\t]".toList "rows".toList [.index [1, 0]] := by
  have hspace : ∀ c ∈ [' '], isBlank c := List.forall_mem_singleton.mpr (by decide)
  have htab : ∀ c ∈ ['\t'], isBlank c := List.forall_mem_singleton.mpr (by decide)
  have hpadded : List.Forall₂ Step.Padded [1, 0] [" 1 ".toList, "0\t".toList] :=
    .cons ⟨[' '], [' '], hspace, hspace, by decide⟩
      (.cons ⟨[], ['\t'], List.forall_mem_nil _, htab, by decide⟩ .nil)
  exact ⟨isName_iff.mp (by decide +kernel), [.index " 1 ,0\t".toList],
    .cons (.index (by decide) (by decide) hpadded) .nil, by decide⟩

/-- The first number of the second row. -/
theorem evaluates_rows :
    (Act.run (NameResolving.evaluate (Simulation.debuggee default) default " rows[ 1 ,0\t] ").run
      { thread := .caller 0 } rows).1 =
        .ok (.ok ⟨default, "[1,0]", { arrayElement := true }, .slot ⟨1⟩⟩) := by
  have hspace : ∀ c ∈ [' '], isBlank c := List.forall_mem_singleton.mpr (by decide)
  obtain ⟨hpath, -⟩ := (evaluates_paths lettering_unicode).2 _ _ _ [' '] [' '] leads_rows
    (by decide +kernel) hspace hspace _ (Simulation.debuggee default) default
  have htext : " rows[ 1 ,0\t] " = String.ofList ([' '] ++ "rows[ 1 ,0\t]".toList ++ [' ']) := by
    decide +kernel
  have hword : Text.isWord = naming isLetterOrNumber := rfl
  rw [NameResolving.evaluate, htext, hword, hpath]
  decide +kernel

end Rows

end DebugSession
