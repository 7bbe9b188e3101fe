import DebugSession.Proofs.Yield
import DebugSession.Simulation.Host
import DebugSession.Value.Tree
import Mathlib.Data.List.Basic

namespace DebugSession

open Act

variable {σ α β γ : Type}

namespace Reference

def castText (h : Host σ) (r : Reference) (text : String) : Eval (Act σ) TargetValue := do
  let ctx := r.context
  (h.debuggee.awaitInvocations : Act σ Unit)
  let type ← r.type h.debuggee
  let options := { ctx.options with expectedType := some type, allowMethods := true }
  let evaluated ← (h.evaluatorOf ctx.evaluator).evaluate ctx text options
  h.debuggee.cast ctx (← evaluated.value h.debuggee) type

theorem assignText_eq (h : Host σ) (r : Reference) (text : String) :
    r.assignText h text = r.castText h text >>= r.assign h.debuggee := by
  simp only [assignText, castText, bind_assoc]

def logged (h : Host σ) (r : Reference) : Except EvalError β → Act σ Unit
  | .ok _ => pure ()
  | .error e => r.reportAssignment h e

theorem assignAndShow_eq (h : Host σ) (r : Reference) (text : String) :
    r.assignAndShow h text = (do
      let assigned ← (r.assignText h text).run
      r.logged h assigned
      let rendered ← (r.canonicalText h).run
      r.logged h rendered
      return rendered.toOption.getD text) := by
  rw [assignAndShow]
  refine bind_congr fun assigned => ?_
  cases assigned with
  | ok _ =>
      rw [logged, pure_bind]
      refine bind_congr fun rendered => ?_
      cases rendered <;> rfl
  | error e =>
      refine bind_congr fun _ => bind_congr fun rendered => ?_
      cases rendered <;> rfl

end Reference

structure Place (σ α : Type) where
  sound : σ → Prop
  content : σ → α
  denotes : σ → TargetValue → α

namespace Place

variable (p : Place σ α) (id : NodeId)

structure Kept (w w' : World σ) : Prop where
  sound : p.sound w'.host
  node : w'.nodes[id.index]? = w.nodes[id.index]?
  content : p.content w'.host = p.content w.host

def KeptBy (a : Act σ β) : Prop :=
  ∀ c w, p.sound w.host → Yields a c w fun _ w' => p.Kept id w w'

variable {p id}

theorem Kept.trans {w w' w'' : World σ} (h : p.Kept id w w') (h' : p.Kept id w' w'') :
    p.Kept id w w'' :=
  ⟨h'.sound, h'.node.trans h.node, h'.content.trans h.content⟩

namespace KeptBy

theorem pure (x : β) : p.KeptBy id (Pure.pure x : Act σ β) :=
  fun _ _ hw => Yields.pure ⟨hw, rfl, rfl⟩

theorem bind {a : Act σ β} {f : β → Act σ γ} (ha : p.KeptBy id a) (hf : ∀ x, p.KeptBy id (f x)) :
    p.KeptBy id (a >>= f) := fun c w hw =>
  (ha c w hw).bind fun x w' hw' => (hf x c w' hw'.sound).mono fun _ _ h => hw'.trans h

theorem lifted {a : Act σ β} (ha : p.KeptBy id a) : p.KeptBy id (liftM a : Eval (Act σ) β).run := by
  intro c w hw
  obtain ⟨x, w', hrun, hw'⟩ := ha c w hw
  exact ⟨.ok x, w', by rw [run_lifted, hrun], hw'⟩

theorem attempt {a : Eval (Act σ) β} {f : β → Eval (Act σ) γ} (ha : p.KeptBy id a.run)
    (hf : ∀ x, p.KeptBy id (f x).run) : p.KeptBy id (a >>= f).run := by
  rw [ExceptT.run_bind]
  refine ha.bind fun out => ?_
  cases out with
  | ok x => exact hf x
  | error e => exact pure _

end KeptBy

end Place

namespace Reference

/-- A reference to a place, and a node of it that nobody else edits. All that an assignment calls
comes to an end, with success or failure. Reading finds what the place holds, a successful write
changes it to what the written value denotes, and nothing else changes it. -/
structure Placed (h : Host σ) (id : NodeId) (p : Place σ α) (r : Reference) : Prop where
  awaitInvocations : p.KeptBy id h.debuggee.awaitInvocations
  type : p.KeptBy id (r.type h.debuggee).run
  evaluate : ∀ text options, p.KeptBy id
    ((h.evaluatorOf r.context.evaluator).evaluate r.context text options).run
  evaluated : ∀ r' : Reference, p.KeptBy id (r'.value h.debuggee).run
  cast : ∀ v type, p.KeptBy id (h.debuggee.cast r.context v type).run
  assign : ∀ v c w, p.sound w.host → Yields (r.assign h.debuggee v).run c w fun out w' =>
    p.sound w'.host ∧ w'.nodes[id.index]? = w.nodes[id.index]? ∧ p.content w'.host = match out with
      | .ok () => p.denotes w.host v
      | .error _ => p.content w.host
  value : ∀ c w, p.sound w.host → Yields (r.value h.debuggee).run c w fun out w' =>
    p.Kept id w w' ∧ ∀ v, out = .ok v → p.denotes w'.host v = p.content w'.host
  toExpression : ∀ v, p.KeptBy id
    ((h.evaluatorOf r.context.evaluator).toExpression r.context v).run
  write : ∀ k isError text, p.KeptBy id (h.write k isError text)

namespace Placed

variable {h : Host σ} {id : NodeId} {p : Place σ α} {r : Reference} (hr : r.Placed h id p)
include hr

theorem castText (text : String) : p.KeptBy id (r.castText h text).run := by
  refine hr.awaitInvocations.lifted.attempt fun _ => hr.type.attempt fun type => ?_
  exact (hr.evaluate text _).attempt fun evaluated =>
    (hr.evaluated evaluated).attempt fun v => hr.cast v type

theorem logged (out : Except EvalError β) : p.KeptBy id (r.logged h out) := by
  cases out with
  | ok _ => exact Place.KeptBy.pure ()
  | error e =>
      refine Place.KeptBy.bind (fun _ w hw => ⟨_, w, rfl, hw, rfl, rfl⟩) fun router => ?_
      simp only [OutputRouter.write]
      cases router.writer .log with
      | none => exact Place.KeptBy.pure ()
      | some k => exact hr.write k false _

/-- An assignment that fails changes nothing, wherever it fails. -/
theorem assignText (text : String) (c : Scope) (w : World σ) (hw : p.sound w.host) :
    Yields (r.assignText h text).run c w fun assigned w' =>
      p.sound w'.host ∧ w'.nodes[id.index]? = w.nodes[id.index]? ∧ match assigned with
        | .ok () => ∃ v w₀, run (r.castText h text).run c w = (.ok (.ok v), w₀) ∧
            p.content w'.host = p.denotes w₀.host v
        | .error _ => p.content w'.host = p.content w.host := by
  obtain ⟨out, w₀, hcast, hw₀⟩ := hr.castText text c w hw
  rw [assignText_eq, ExceptT.run_bind]
  refine Yields.step hcast ?_
  cases out with
  | error e => exact Yields.pure ⟨hw₀.sound, hw₀.node, hw₀.content⟩
  | ok v =>
      -- only the write is left, and up to it the place is kept
      refine (hr.assign v c w₀ hw₀.sound).mono fun assigned w' hw' => ?_
      obtain ⟨hsound, hnode, hcontent⟩ := hw'
      refine ⟨hsound, hnode.trans hw₀.node, ?_⟩
      cases assigned with
      | ok _ => exact ⟨v, w₀, hcast, hcontent⟩
      | error e => exact hcontent.trans hw₀.content

/-- What is rendered is what the place holds. -/
theorem canonicalText (c : Scope) (w : World σ) (hw : p.sound w.host) :
    Yields (r.canonicalText h).run c w fun rendered w' => p.Kept id w w' ∧
      ∀ shown, rendered = .ok shown → ∃ v w₀,
        run (r.value h.debuggee).run c w = (.ok (.ok v), w₀) ∧
        p.denotes w₀.host v = p.content w.host ∧
        run ((h.evaluatorOf r.context.evaluator).toExpression r.context v).run c w₀ =
          (.ok (.ok shown), w') := by
  obtain ⟨out, w₀, hvalue, hw₀, hdenotes⟩ := hr.value c w hw
  rw [Reference.canonicalText, ExceptT.run_bind]
  refine Yields.step hvalue ?_
  cases out with
  | error e => exact Yields.pure ⟨hw₀, nofun⟩
  | ok v =>
      obtain ⟨rendered, w', hrender, hw'⟩ := hr.toExpression v c w₀ hw₀.sound
      refine ⟨rendered, w', hrender, hw₀.trans hw', fun shown hshown => ?_⟩
      exact ⟨v, w₀, hvalue, (hdenotes v rfl).trans hw₀.content, hshown ▸ hrender⟩

end Placed

end Reference

/-- What a node should show after an edit: the text of what is held, and where there is none, the
text given if it was accepted and else what it has shown so far. -/
def Node.dueText (n : Node) (text : String) :
    Except EvalError Unit → Except EvalError String → String
  | _, .ok shown => shown
  | .ok (), .error _ => text
  | .error _, .error _ => n.value

theorem Node.dueText_iff (n : Node) (text : String) (assigned : Except EvalError Unit)
    (rendered : Except EvalError String) :
    rendered.toOption.getD text = n.dueText text assigned rendered ↔
      assigned.isOk ∨ rendered.isOk ∨ text = n.value := by
  cases rendered with
  | ok shown => exact ⟨fun _ => .inr (.inl rfl), fun _ => rfl⟩
  | error e =>
      cases assigned with
      | ok _ => exact ⟨fun _ => .inl rfl, fun _ => rfl⟩
      | error e' =>
          refine ⟨fun heq => .inr (.inr heq), ?_⟩
          rintro (hok | hok | heq)
          · cases hok
          · cases hok
          · exact heq

namespace NodeId

variable (h : Host σ) (id : NodeId)

/-- The edit of a node. The place holds the cast value if the assignment succeeded as a whole, and
else what it held. The node shows what is rendered of the place then, or the given text. -/
structure Edited (p : Place σ α) (r : Reference) (text : String) (c : Scope) (w w' : World σ)
    (assigned : Except EvalError Unit) (rendered : Except EvalError String) : Prop where
  returns : run (id.setValue h text) c w = (.ok (.ok ()), w')
  stages : ∃ w₁ w₂ w₃, run (r.assignText h text).run c w = (.ok assigned, w₁) ∧
    run (r.logged h assigned) c w₁ = (.ok (), w₂) ∧
    run (r.canonicalText h).run c w₂ = (.ok rendered, w₃) ∧
    ∀ shown, rendered = .ok shown → ∃ v w₀,
      run (r.value h.debuggee).run c w₂ = (.ok (.ok v), w₀) ∧
      p.denotes w₀.host v = p.content w'.host ∧
      run ((h.evaluatorOf r.context.evaluator).toExpression r.context v).run c w₀ =
        (.ok (.ok shown), w₃)
  place : match assigned with
    | .ok () => ∃ v w₀, run (r.castText h text).run c w = (.ok (.ok v), w₀) ∧
        p.content w'.host = p.denotes w₀.host v
    | .error _ => p.content w'.host = p.content w.host
  shows : ∀ n, w.nodes[id.index]? = some n →
    w'.nodes[id.index]? = some { n with value := rendered.toOption.getD text }

variable {h id} {p : Place σ α} {r : Reference} {c : Scope} {w : World σ} {n : Node}

theorem run_node_bind {f : Node → Act σ β} (hn : w.nodes[id.index]? = some n) :
    run (node id >>= f) c w = run (f n) c w := by
  have hnode : run (node id : Act σ Node) c w = (.ok n, w) := by
    change ((.ok (w.nodes.getD id.index default), w) : Except Panic Node × World σ) = _
    rw [Array.getD_eq_getD_getElem?, hn]
    rfl
  rw [run_bind, hnode]

theorem run_setValue_refused (hn : w.nodes[id.index]? = some n)
    (href : n.editable = false ∨ n.source = none) (text : String) :
    run (id.setValue h text) c w = (.ok (.error .notEditable), w) := by
  rw [setValue, run_node_bind hn]
  by_cases heditable : n.editable = true
  · have hsource : n.source = none := href.resolve_left (by simp [heditable])
    rw [if_neg (by simp [heditable]), hsource]
    rfl
  · rw [if_pos (by simpa using heditable)]
    rfl

theorem run_setValue {source : ChildSource} (hn : w.nodes[id.index]? = some n)
    (heditable : n.editable = true) (hsource : n.source = some source) (text : String) :
    run (id.setValue h text) c w = match run (source.setValue h n.path text).run c w with
      | (.ok (.ok shown), w') => (.ok (.ok ()),
          { w' with nodes := w'.nodes.modify id.index ({ · with value := shown }) })
      | (.ok (.error e), w') => (.ok (.error (.assignment e)), w')
      | (.error p, w') => (.error p, w') := by
  rw [setValue, run_node_bind hn, if_neg (by simp [heditable]), hsource]
  dsimp only
  rw [run_bind]
  rcases run (source.setValue h n.path text).run c w with ⟨p | e | shown, w'⟩ <;> rfl

theorem Edited.shows_dueText_iff {text : String} {w' : World σ} {assigned : Except EvalError Unit}
    {rendered : Except EvalError String}
    (hedited : id.Edited h p r text c w w' assigned rendered)
    (hn : w.nodes[id.index]? = some n) :
    w'.nodes[id.index]? = some { n with value := n.dueText text assigned rendered } ↔
      assigned.isOk ∨ rendered.isOk ∨ text = n.value := by
  rw [hedited.shows n hn, ← n.dueText_iff]
  simp only [Option.some.injEq, Node.mk.injEq, true_and, and_true]

theorem edited (hr : r.Placed h id p) (hw : p.sound w.host) (hn : w.nodes[id.index]? = some n)
    (heditable : n.editable = true) (hsource : n.source = some (.reference r)) (text : String) :
    ∃ assigned rendered w', id.Edited h p r text c w w' assigned rendered := by
  obtain ⟨assigned, w₁, hassign, hsound, hnode, hplace⟩ := hr.assignText text c w hw
  obtain ⟨⟨⟩, w₂, hlog, hw₂⟩ := hr.logged assigned c w₁ hsound
  obtain ⟨rendered, w₃, hrender, hw₃, hshown⟩ := hr.canonicalText c w₂ hw₂.sound
  obtain ⟨⟨⟩, w₄, hlog', hw₄⟩ := hr.logged rendered c w₃ hw₃.sound
  have hrest : p.Kept id w₂ w₄ := hw₃.trans hw₄
  have hcontent : p.content w₄.host = p.content w₁.host := (hw₂.trans hrest).content
  have hshow : run (r.assignAndShow h text) c w = (.ok (rendered.toOption.getD text), w₄) := by
    rw [Reference.assignAndShow_eq, run_bind, hassign]
    dsimp only
    rw [run_bind, hlog]
    dsimp only
    rw [run_bind, hrender]
    dsimp only
    rw [run_bind, hlog']
    rfl
  have hset := run_setValue (h := h) (c := c) hn heditable hsource text
  rw [ChildSource.setValue, run_lifted, hshow] at hset
  refine ⟨assigned, rendered, _, hset, ⟨w₁, w₂, w₃, hassign, hlog, hrender, ?_⟩, ?_, ?_⟩
  · intro shown hs
    obtain ⟨v, w₀, hvalue, hdenotes, hexpression⟩ := hshown shown hs
    exact ⟨v, w₀, hvalue, hdenotes.trans hrest.content.symm, hexpression⟩
  · cases assigned with
    | ok _ =>
        obtain ⟨v, w₀, hcast, hheld⟩ := hplace
        exact ⟨v, w₀, hcast, hcontent.trans hheld⟩
    | error e => exact hcontent.trans hplace
  · intro n' hn'
    rw [Array.getElem?_modify, if_pos rfl, (hw₂.trans hrest).node, hnode, hn']
    rfl

/-- An edit through a reference ends well, and the debuggee has a new value only if the assignment
succeeded as a whole. The node shows what it should unless the assignment failed and what is held
cannot be rendered either; then a rejected text is shown, and only if it is what the node has shown
before does that make no difference. Any other source that fails leaves the world as it is, and a
node that is not editable or has no source does nothing at all. -/
theorem edit_shows_place (hr : r.Placed h id p) :
    (∀ text c w n, p.sound w.host → w.nodes[id.index]? = some n → n.editable = true →
      n.source = some (.reference r) → ∃ assigned rendered w',
        id.Edited h p r text c w w' assigned rendered ∧
        (w'.nodes[id.index]? = some { n with value := n.dueText text assigned rendered } ↔
          assigned.isOk ∨ rendered.isOk ∨ text = n.value)) ∧
    (∀ (id' : NodeId) s text c w n e w', w.nodes[id'.index]? = some n → n.editable = true →
      n.source = some (.external s) →
      run ((h.source s).setValue n.path text).run c w = (.ok (.error e), w') →
      run (id'.setValue h text) c w = (.ok (.error (.assignment e)), w')) ∧
    ∀ (id' : NodeId) text c w n, w.nodes[id'.index]? = some n →
      n.editable = false ∨ n.source = none →
      run (id'.setValue h text) c w = (.ok (.error .notEditable), w) := by
  refine ⟨?_, ?_, ?_⟩
  · intro text c w n hw hn heditable hsource
    obtain ⟨assigned, rendered, w', hedited⟩ := edited (c := c) hr hw hn heditable hsource text
    exact ⟨assigned, rendered, w', hedited, hedited.shows_dueText_iff hn⟩
  · intro id' s text c w n e w' hn heditable hsource hfails
    rw [run_setValue hn heditable hsource, ChildSource.setValue, hfails]
  · intro id' text c w n hn href
    exact run_setValue_refused hn href text

end NodeId

namespace Register

abbrev Program := Act (Simulation.Memory × Nat)

def evaluator : Evaluator Program where
  evaluate := fun ctx text _ =>
    match Decimal.readNat text.toList with
    | some n => return .literal ctx text ⟨n⟩
    | none => throw (.unresolvedName text)
  toExpression := fun _ v =>
    if v.handle < 10 then return toString v.handle else throw (.evaluation "too wide")

def host : Host (Simulation.Memory × Nat) :=
  { Simulation.host default with
    debuggee := { Simulation.debuggee default with
      readSlot := fun _ _ => do return ⟨(← (Act.host : Program _)).2⟩
      slotType := fun _ _ => return ⟨0⟩
      writeSlot := fun _ _ v => (modifyHost fun s => (s.1, v.handle) : Program Unit)
      cast := fun _ v _ => if v.handle < 100 then return v else throw (.evaluation "too large")
      awaitInvocations := return () }
    evaluator := fun _ => evaluator
    write := fun _ _ _ => return () }

def place : Reference :=
  ⟨{ (default : EvaluationContext) with evaluator := .provided 0 }, "digit", {}, .slot ⟨0⟩⟩

def number : Place (Simulation.Memory × Nat) Nat where
  sound _ := True
  content s := s.2
  denotes _ v := v.handle

theorem placed (id : NodeId) : place.Placed host id number where
  awaitInvocations := Place.KeptBy.pure ()
  type := Place.KeptBy.pure _
  evaluate text options := by
    change number.KeptBy id (evaluator.evaluate place.context text options).run
    rw [evaluator]
    dsimp only
    cases Decimal.readNat text.toList with
    | some n => exact Place.KeptBy.pure _
    | none => exact Place.KeptBy.pure _
  evaluated r' := by
    rw [Reference.value]
    cases r'.origin with
    | slot s => exact fun c w hw => ⟨_, w, rfl, hw, rfl, rfl⟩
    | literal v => exact Place.KeptBy.pure _
  cast v type := by
    change number.KeptBy id (ExceptT.run (if v.handle < 100 then pure v
      else throw (.evaluation "too large") : Eval Program TargetValue))
    by_cases hv : v.handle < 100
    · rw [if_pos hv]
      exact Place.KeptBy.pure _
    · rw [if_neg hv]
      exact Place.KeptBy.pure _
  assign v c w hw := ⟨.ok (), _, rfl, hw, rfl, rfl⟩
  value c w hw := ⟨.ok ⟨w.host.2⟩, w, rfl, ⟨hw, rfl, rfl⟩, fun v hv => by cases hv; rfl⟩
  toExpression v := by
    change number.KeptBy id (evaluator.toExpression place.context v).run
    rw [evaluator]
    dsimp only
    by_cases hv : v.handle < 10
    · rw [if_pos hv]
      exact Place.KeptBy.pure _
    · rw [if_neg hv]
      exact Place.KeptBy.pure _
  write k isError text := Place.KeptBy.pure ()

def inspector : Scope := { thread := .caller 0 }

def digit : Node := .primitive (some (.reference place)) (.root "digit") "int" "?" true

def seven : World (Simulation.Memory × Nat) := { host := (default, 7), nodes := #[digit] }

/-- A rejected text is not shown where the digit can be. -/
theorem rejected_text_kept_back : ∃ assigned rendered w',
    (⟨0⟩ : NodeId).Edited host number place "nope" inspector seven w' assigned rendered ∧
    w'.nodes[0]? = some { digit with value := digit.dueText "nope" assigned rendered } ∧
    digit.dueText "nope" assigned rendered = "7" := by
  obtain ⟨assigned, rendered, w', hedited, hdue⟩ := (NodeId.edit_shows_place (placed ⟨0⟩)).1
    "nope" inspector seven digit trivial rfl rfl rfl
  have hvalue : (run (NodeId.setValue host ⟨0⟩ "nope") inspector seven).2.nodes[0]? =
      some { digit with value := "7" } := by decide +kernel
  rw [hedited.returns] at hvalue
  have hshown : rendered.toOption.getD "nope" = "7" :=
    congrArg Node.value (Option.some.inj ((hedited.shows digit rfl).symm.trans hvalue))
  cases rendered with
  | error e =>
      have htext : "nope" = "7" := hshown
      exact absurd htext (by decide)
  | ok shown => exact ⟨assigned, .ok shown, w', hedited, hdue.mpr (.inr (.inl rfl)), hshown⟩

end Register

namespace Unshown

def alone : Simulation.Surroundings Unit :=
  { (default : Simulation.Surroundings Unit) with report := fun _ => return () }

abbrev host : Host (Simulation.Memory × Unit) := Simulation.host alone

def place : Reference := ⟨default, "y", { localVariable := true }, .slot ⟨0⟩⟩

def one : Node := .primitive (some (.reference place)) (.root "y") "int" "1" true

def world : World (Simulation.Memory × Unit) :=
  { host := ({
      cells := #[.literal (.int 1)]
      slots := #[⟨"y", 0, {}⟩]
      frame := { locals := [⟨"y", 0, {}⟩] }
      faults := [("to_literal", .internal "no literals")] }, ())
    nodes := #[one] }

def rejected : World (Simulation.Memory × Unit) :=
  (run (place.assignText host "nope").run Register.inspector world).2

/-- Neither is the text accepted nor can the value be rendered, and the node shows the text. -/
theorem rejected_text_shown :
    (run (place.assignText host "nope").run Register.inspector world).1 =
      .ok (.error (.unresolvedName "nope")) ∧
    (run (place.canonicalText host).run Register.inspector rejected).1 =
      .ok (.error (.internal "no literals")) ∧
    (run (NodeId.setValue host ⟨0⟩ "nope") Register.inspector world).1 = .ok (.ok ()) ∧
    world.nodes[0]? = some one ∧ one.value = "1" ∧
    (run (NodeId.setValue host ⟨0⟩ "nope") Register.inspector world).2.nodes[0]? =
      some { one with value := "nope" } := by
  refine ⟨?_, ?_, ?_, rfl, rfl, ?_⟩
  · decide +kernel
  · decide +kernel
  · decide +kernel
  · decide +kernel

end Unshown

end DebugSession
