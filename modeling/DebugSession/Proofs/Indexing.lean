import DebugSession.Proofs.RoundTrip
import DebugSession.Proofs.Route
import DebugSession.Proofs.Run
import DebugSession.Simulation.Debuggee

namespace DebugSession

open Act Text AccessPath

theorem Literal.parse_subscript {c : Char} {r : List Char} (hc : isWord c = true)
    (hdigit : c.isDigit = false) (hlast : (c :: r).getLast? = some ']') :
    Literal.parse (c :: r) = none := by
  have hkeyword (s : List Char) (hs : s.getLast? ≠ some ']') : ((c :: r) == s) = false := by
    rw [beq_eq_false_iff_ne]
    rintro heq
    exact hs (heq ▸ hlast)
  have hother (d : Char) (hd : isWord d = false) : c ≠ d := by
    rintro rfl
    rw [hd] at hc
    cases hc
  have hminus : c ≠ '-' := hother '-' (by decide +kernel)
  have hplus : c ≠ '+' := hother '+' (by decide +kernel)
  have hpoint : c ≠ '.' := hother '.' (by decide +kernel)
  have hzero : c ≠ '0' := by
    rintro rfl
    cases hdigit
  have hunsigned (bound : Nat) : Decimal.readUnsigned bound (c :: r) = none := by
    unfold Decimal.readUnsigned
    split
    · next heq => exact absurd (List.cons.inj heq).1 hplus
    · rw [Decimal.readNat_cons_of_not_isDigit r hdigit]
      rfl
  have hsigned : Decimal.readSigned intBound (c :: r) = none := by
    unfold Decimal.readSigned
    split
    · next heq => exact absurd (List.cons.inj heq).1 hminus
    · rw [hunsigned]
      rfl
  have hnumber : parseNumber (c :: r) = none := by
    simp [parseNumber, hsigned, hunsigned, hdigit, hminus, hpoint]
  have hunnamed : parseUnnamed (c :: r) = none := by
    unfold parseUnnamed
    rw [unquote_of_ne (hother '"' (by decide +kernel)),
      unquote_of_ne (hother '\'' (by decide +kernel))]
    split
    · next heq => cases heq
    · next heq => cases heq
    · next heq => exact absurd (List.cons.inj heq).1 hzero
    · exact hnumber
  simp only [parse, hkeyword "null".toList (by decide), hkeyword "true".toList (by decide),
    hkeyword "false".toList (by decide), hunnamed, Bool.false_eq_true, if_false]

variable {σ : Type} {A : Adapter (Act σ)} {r : Reference} {v : TargetValue} {c : Scope}
  {w w' : World σ}

namespace Reference

/-- The value of a reference is read and found to be an array. Each question may change the
world. -/
def ReadsArray (A : Adapter (Act σ)) (r : Reference) (v : TargetValue) (c : Scope)
    (w w' : World σ) : Prop :=
  ∃ w₁ w₂, run (r.value A).run c w = (.ok (.ok v), w₁) ∧
    run (A.isNull r.context v) c w₁ = (.ok false, w₂) ∧
    run (A.isArray r.context v) c w₂ = (.ok true, w')

def invalidIndex (t : List Char) : EvalError :=
  .evaluation s!"Invalid array index '{String.ofList (wrap t)}'"

def elementAt (A : Adapter (Act σ)) (r : Reference) (v : TargetValue) (t : List Char) :
    Eval (Act σ) Reference := do
  let is ← (parseIndices (String.ofList (wrap t)) : Except EvalError (List Nat))
  A.arrayElement r.context v is

theorem run_child_array (harray : r.ReadsArray A v c w w') (t : List Char) :
    run (r.child A (String.ofList (wrap t))).run c w = run (some <$> r.elementAt A v t).run c w' := by
  obtain ⟨w₁, w₂, hvalue, hnull, hisArray⟩ := harray
  rw [child, run_evaluated, hvalue]
  dsimp only
  rw [run_evaluated, run_lifted, hnull]
  dsimp only
  rw [if_neg Bool.false_ne_true, run_evaluated, run_lifted, hisArray]
  dsimp only
  rw [if_pos rfl, elementAt, map_bind]
  simp only [map_eq_pure_bind]

theorem elementAt_of_some {t : List Char} {is : List Nat}
    (his : indices indexBound (wrap t) = some is) :
    r.elementAt A v t = A.arrayElement r.context v is := by
  have hlift : (liftM (parseIndices (String.ofList (wrap t))) : Eval (Act σ) (List Nat)) =
      pure is := by
    rw [parseIndices, String.toList_ofList, his]
    rfl
  rw [elementAt, hlift, pure_bind]

theorem elementAt_of_none {t : List Char} (his : indices indexBound (wrap t) = none) :
    r.elementAt A v t = throw (invalidIndex t) := by
  have hlift : (liftM (parseIndices (String.ofList (wrap t))) : Eval (Act σ) (List Nat)) =
      throw (invalidIndex t) := by
    rw [parseIndices, String.toList_ofList, his]
    rfl
  rw [elementAt, hlift]
  rfl

theorem childAtPath_singleton (name : String) : r.childAtPath A [name] = r.child A name := by
  rw [childAtPath]
  refine (bind_congr fun found => ?_).trans (bind_pure _)
  cases found <;> rfl

end Reference

section

variable {ctx : EvaluationContext} {name t : List Char} {w₁ w₂ : World σ}
  (hname : IsName isWord name) (ht : ']' ∉ t)
  (hfound : run (resolveIdentifier A ctx (String.ofList name)).run c w = (.ok (.ok r), w₁))
  (harray : r.ReadsArray A v c w₁ w₂)
include hname ht

theorem spells_subscript : Spells isWord (name ++ wrap t) name [wrap (strip t)] := by
  refine ⟨hname, [.index t], List.forall_mem_singleton.mpr ht, ?_, ?_⟩
  · rw [List.flatMap_singleton, Part.text]
  · rw [List.map_singleton, Part.step, strip_wrap]

omit ht in
theorem parse_name_subscript : Literal.parse (name ++ wrap t) = none := by
  obtain ⟨d, name, rfl⟩ := List.exists_cons_of_ne_nil hname.ne_nil
  have hsplit : d :: name ++ wrap t = (d :: name ++ '[' :: t) ++ [']'] := by simp [wrap]
  have hlast : (d :: (name ++ wrap t)).getLast? = some ']' := by
    rw [← List.cons_append, hsplit, List.getLast?_concat]
  exact Literal.parse_subscript (hname.word d List.mem_cons_self) (by simpa using hname.start) hlast

include hfound harray

/-- The blanks of an index in an expression are gone before it is read. -/
theorem run_evaluate_subscript :
    run (NameResolving.evaluate A ctx (String.ofList (name ++ wrap t))).run c w =
      run (r.elementAt A v (strip t)).run c w₂ := by
  have hevaluate := evaluateWith_spelled A lettering_unicode (spells_subscript hname ht)
    (parse_name_subscript hname) (List.forall_mem_nil _) (List.forall_mem_nil _) ctx
  have harrives (a : Eval (Act σ) Reference) (expression : String) :
      (some <$> a) >>= arrive expression = a := by
    rw [bind_map_left]
    exact bind_pure a
  rw [List.nil_append, List.append_nil] at hevaluate
  have hword : isWord = naming isLetterOrNumber := rfl
  rw [NameResolving.evaluate, hword, hevaluate, run_evaluated, hfound]
  dsimp only
  rw [List.map_singleton, Reference.childAtPath_singleton, run_evaluated,
    Reference.run_child_array harray, ← run_evaluated, harrives]

/-- By expression and by step, an array is asked for the same element or the text is refused, if no
blank stands within a number or if the text without its blanks is no index either. In the one case
left, the expression leads to the element at the numbers without their blanks, which the step
refuses. -/
theorem indexing_agrees_unless_torn :
    let found :=
      run (NameResolving.evaluate A ctx (String.ofList (name ++ wrap t))).run c w
    let stepped := run (r.child A (String.ofList (wrap t))).run c w₁
    (Whole t ∨ indices indexBound (wrap (strip t)) = none →
      (∃ is, indices indexBound (wrap t) = some is ∧
        found = run (A.arrayElement r.context v is).run c w₂ ∧
        stepped = run (some <$> A.arrayElement r.context v is).run c w₂) ∨
      indices indexBound (wrap t) = none ∧
        found = (.ok (.error (Reference.invalidIndex (strip t))), w₂) ∧
        stepped = (.ok (.error (Reference.invalidIndex t)), w₂)) ∧
    ∀ is, ¬Whole t → indices indexBound (wrap (strip t)) = some is →
      indices indexBound (wrap t) = none ∧
      found = run (A.arrayElement r.context v is).run c w₂ ∧
      stepped = (.ok (.error (Reference.invalidIndex t)), w₂) := by
  intro found stepped
  have hfinds : found = run (r.elementAt A v (strip t)).run c w₂ :=
    run_evaluate_subscript hname ht hfound harray
  have hsteps : stepped = run (some <$> r.elementAt A v t).run c w₂ :=
    Reference.run_child_array harray t
  have hrefused (h : indices indexBound (wrap t) = none) :
      stepped = (.ok (.error (Reference.invalidIndex t)), w₂) := by
    rw [hsteps, Reference.elementAt_of_none h]
    rfl
  refine ⟨fun hagrees => ?_, fun is htorn his => ?_⟩
  -- an index with its blanks is one without them; the converse is what may fail
  · cases his : indices indexBound (wrap t) with
    | some is =>
        refine .inl ⟨is, rfl, ?_, ?_⟩
        · rw [hfinds, Reference.elementAt_of_some (indices_iff.mp his).1]
        · rw [hsteps, Reference.elementAt_of_some his]
    | none =>
        have hnone : indices indexBound (wrap (strip t)) = none :=
          hagrees.elim (fun hwhole => (indices_strip indexBound hwhole).trans his) id
        refine .inr ⟨rfl, ?_, hrefused his⟩
        rw [hfinds, Reference.elementAt_of_none hnone]
        rfl
  · have hnone : indices indexBound (wrap t) = none := by
      cases h : indices indexBound (wrap t) with
      | none => rfl
      | some js => exact absurd (indices_iff.mp h).2 htorn
    exact ⟨hnone, by rw [hfinds, Reference.elementAt_of_some his], hrefused hnone⟩

end

namespace Thirteen

abbrev adapter : Adapter (Simulation.Program Unit) := Simulation.debuggee default

def inspector : Scope := { thread := .caller 0 }

def world : World (Simulation.Memory × Unit) :=
  { host := ({
      cells := #[.array (List.range' 1 13) "int"] ++
        (Array.range 13).map fun n => .literal (.int n)
      frame := { locals := [⟨"xs", 0, {}⟩] } }, ()) }

def array : Reference := ⟨default, "xs", { localVariable := true }, .slot ⟨0⟩⟩

def found : World (Simulation.Memory × Unit) :=
  (run (resolveIdentifier adapter default "xs").run inspector world).2

def read : World (Simulation.Memory × Unit) := (run (array.value adapter).run inspector found).2

theorem finds :
    run (resolveIdentifier adapter default "xs").run inspector world = (.ok (.ok array), found) :=
  Prod.ext (by decide +kernel) rfl

theorem readsArray : array.ReadsArray adapter ⟨0⟩ inspector found read :=
  ⟨read, read, Prod.ext (by decide +kernel) rfl, Prod.ext (by decide +kernel) rfl,
    Prod.ext (by decide +kernel) rfl⟩

/-- A blank before a number makes no difference. -/
theorem indexes_whole :
    (run (NameResolving.evaluate adapter default "xs[ 12]").run inspector world).1 =
      .ok (.ok ⟨default, "[12]", { arrayElement := true }, .slot ⟨1⟩⟩) ∧
    (run (array.child adapter "[ 12]").run inspector found).1 =
      .ok (.ok (some ⟨default, "[12]", { arrayElement := true }, .slot ⟨1⟩⟩)) := by
  have hname : IsName isWord "xs".toList := isName_iff.mp (by decide +kernel)
  have hclosing : ']' ∉ " 12".toList := by decide
  have hindex : indices indexBound (wrap " 12".toList) = some [12] := by decide +kernel
  have hexpression : "xs[ 12]" = String.ofList ("xs".toList ++ wrap " 12".toList) := by
    decide +kernel
  have hstep : "[ 12]" = String.ofList (wrap " 12".toList) := by decide +kernel
  have hfinds : run (resolveIdentifier adapter default (String.ofList "xs".toList)).run inspector
      world = (.ok (.ok array), found) := by rw [String.ofList_toList, finds]
  obtain ⟨is, his, hfound, hstepped⟩ | ⟨hnone, -⟩ :=
    (indexing_agrees_unless_torn hname hclosing hfinds readsArray).1 (.inl (whole_of_indices hindex))
  · obtain rfl : is = [12] := Option.some.inj (his.symm.trans hindex)
    rw [hexpression, hstep, hfound, hstepped]
    constructor
    · decide +kernel
    · decide +kernel
  · cases hnone.symm.trans hindex

/-- A blank within a number is lost in an expression, and the step refuses it. -/
theorem indexes_torn :
    run (resolveIdentifier adapter default "xs").run inspector world = (.ok (.ok array), found) ∧
    array.ReadsArray adapter ⟨0⟩ inspector found read ∧
    (run (NameResolving.evaluate adapter default "xs[1 2]").run inspector world).1 =
      .ok (.ok ⟨default, "[12]", { arrayElement := true }, .slot ⟨1⟩⟩) ∧
    (run (array.child adapter "[1 2]").run inspector found).1 =
      .ok (.error (.evaluation "Invalid array index '[1 2]'")) := by
  refine ⟨finds, readsArray, ?_, ?_⟩
  · decide +kernel
  · decide +kernel

end Thirteen

end DebugSession
