import DebugSession.Proofs.Paging

namespace DebugSession

open Act

variable {σ : Type}

inductive MemberCall
  | child (name : String)
  | children

inductive MemberAnswer
  | child (r : Except ValueError (Option NodeId))
  | children (ids : List NodeId)

def World.named (w : World σ) (ids : List NodeId) (name : String) : Option NodeId :=
  ids.find? fun id => (w.nodes.getD id.index default).name == name

namespace MemberCall

def perform (h : Host σ) (id : NodeId) : MemberCall → Act σ MemberAnswer
  | child name => return .child (← id.child h name)
  | children => return .children (← id.children h)

def answer (w : World σ) (ids : List NodeId) : MemberCall → MemberAnswer
  | child name => .child (.ok (w.named ids name))
  | children => .children ids

end MemberCall

structure Visit (σ : Type) where
  scope : Scope
  call : MemberCall
  before : World σ
  outcome : Except Panic MemberAnswer
  after : World σ

/-- A node that is no array, with where its source, if it has one, notes the requests it is sent. -/
structure Family (σ : Type) where
  id : NodeId
  source : Option ChildSource
  path : ValuePath
  requests : σ → List ChildRange

namespace Family

variable (F : Family σ) (h : Host σ)

def Keeps (w : World σ) (children : Option (Array NodeId)) : Prop :=
  ∃ n, w.nodes[F.id.index]? = some n ∧ n.isArray = false ∧ n.source = F.source ∧
    n.path = F.path ∧ n.children = children

def ask : Act σ (Except EvalError (List NodeId)) :=
  match F.source with
  | some source => (source.children h F.path .all).run
  | none => return .ok []

def request : List ChildRange := if F.source.isSome then [.all] else []

/-- A source answers each request, with an error or with any children. It may do what it likes
otherwise, but leaves the node as it is. -/
def Served : Prop :=
  ∀ source, F.source = some source → ∀ c w, F.Keeps w none → ∃ r w',
    run (source.children h F.path .all).run c w = (.ok r, w') ∧
      F.requests w'.host = F.requests w.host ++ [.all] ∧ F.Keeps w' none

def visit (w : World σ) (c : Scope) (call : MemberCall) : Visit σ :=
  ⟨c, call, w, (run (call.perform h F.id) c w).1, (run (call.perform h F.id) c w).2⟩

def visits : World σ → List (Scope × MemberCall) → List (Visit σ)
  | _, [] => []
  | w, (c, call) :: rest => F.visit h w c call :: visits (F.visit h w c call).after rest

end Family

namespace Visit

variable (F : Family σ) (h : Host σ) (v : Visit σ)

structure Rests (ids : List NodeId) : Prop where
  still : v.after = v.before
  outcome : v.outcome = .ok (v.call.answer v.before ids)

/-- A look for a child that is in vain, since the children could not be fetched. -/
structure Fails : Prop where
  named : ∃ name, v.call = .child name
  told : ∃ e w x, run (F.ask h) v.scope v.before = (.ok (.error e), w) ∧
    v.outcome = .ok (.child (.ok (some x))) ∧ v.after.nodes[x.index]? = some (.error "" e.message)
  requests : F.requests v.after.host = F.requests v.before.host ++ [.all]
  keeps : F.Keeps v.after none
  count : (v.after.nodes.getD F.id.index default).cachedChildCount = 0

/-- The fetch that counts: one that succeeded, or the one of a look at all children. -/
structure Settles (ids : List NodeId) : Prop where
  fetched : ∃ r w, run (F.ask h) v.scope v.before = (.ok r, w) ∧ match r with
    | .ok items => ids = items
    | .error e => v.call = .children ∧
        ∃ x, ids = [x] ∧ v.after.nodes[x.index]? = some (.error "" e.message)
  requests : F.requests v.after.host = F.requests v.before.host ++ F.request
  keeps : F.Keeps v.after (some ids.toArray)
  outcome : v.outcome = .ok (v.call.answer v.after ids)

end Visit

theorem NodeId.run_findNamed (ids : List NodeId) (name : String) (c : Scope) (w : World σ) :
    run (NodeId.findNamed ids name) c w = (.ok (w.named ids name), w) := by
  induction ids with
  | nil => rfl
  | cons x rest ih =>
      have hname : run (do return (← node x).name == name : Act σ Bool) c w =
          (.ok ((w.nodes.getD x.index default).name == name), w) := rfl
      rw [findNamed, List.findM?, run_bind, hname, World.named, List.find?_cons]
      cases (w.nodes.getD x.index default).name == name with
      | true => rfl
      | false => exact ih

namespace Family

variable {F : Family σ} {h : Host σ} {c : Scope} {w w' : World σ} {cs : Array NodeId}

def keeping (F : Family σ) (w : World σ) (cs : Array NodeId) : World σ :=
  { w with nodes := w.nodes.modify F.id.index ({ · with children := some cs }) }

theorem Keeps.keeping {children : Option (Array NodeId)} (hw : F.Keeps w children)
    (cs : Array NodeId) : F.Keeps (F.keeping w cs) (some cs) := by
  obtain ⟨n, hn, harray, hsource, hpath, -⟩ := hw
  refine ⟨{ n with children := some cs }, ?_, harray, hsource, hpath, rfl⟩
  rw [Family.keeping, Array.getElem?_modify, if_pos rfl, hn]
  rfl

theorem Keeps.extended {children : Option (Array NodeId)} (hw : F.Keeps w children) (m : Node) :
    F.Keeps (Listing.extended w m) children := by
  obtain ⟨n, hn, hfamily⟩ := hw
  exact ⟨n, Listing.getElem?_extended hn m, hfamily⟩

theorem Keeps.count (hw : F.Keeps w none) :
    (w.nodes.getD F.id.index default).cachedChildCount = 0 := by
  obtain ⟨n, hn, -, -, -, hchildren⟩ := hw
  rw [Array.getD_eq_getD_getElem?, hn, Option.getD_some, Node.cachedChildCount, hchildren]
  rfl

/-- What calls find out about the node first. -/
theorem Keeps.node {children : Option (Array NodeId)} (hw : F.Keeps w children) (h : Host σ)
    (c : Scope) : ∃ n, run (Act.node F.id) c w = (.ok n, w) ∧ n.isArray = false ∧
      NodeId.fetch h n .all = F.ask h ∧ n.children = children := by
  obtain ⟨n, hn, harray, hsource, hpath, hchildren⟩ := hw
  refine ⟨n, ?_, harray, ?_, hchildren⟩
  · change (Except.ok (w.nodes.getD F.id.index default), w) = _
    rw [Array.getD_eq_getD_getElem?, hn]
    rfl
  · rw [NodeId.fetch, hsource, hpath]
    rfl

theorem Keeps.run_perform (hw : F.Keeps w (some cs)) (call : MemberCall) (c : Scope) :
    run (call.perform h F.id) c w = (.ok (call.answer w cs.toList), w) := by
  obtain ⟨n, hnode, harray, -, hchildren⟩ := hw.node h c
  cases call with
  | child name =>
      rw [MemberCall.perform, run_bind, NodeId.child, run_bind, hnode]
      simp only [harray, hchildren, Bool.false_eq_true, if_false]
      rw [run_bind, NodeId.run_findNamed]
      rfl
  | children =>
      rw [MemberCall.perform, run_bind, NodeId.children, run_bind, hnode]
      simp only [harray, Bool.false_eq_true, if_false]
      rw [NodeId.members, hchildren]
      rfl

theorem Keeps.run_child (hw : F.Keeps w none) (name : String) (c : Scope) :
    run (F.id.child h name) c w = match run (F.ask h) c w with
      | (.error p, w') => (.error p, w')
      | (.ok (.ok items), w') =>
        (.ok (.ok ((F.keeping w' items.toArray).named items name)), F.keeping w' items.toArray)
      | (.ok (.error e), w') =>
        (.ok (.ok (some ⟨w'.nodes.size⟩)), Listing.extended w' (.error "" e.message)) := by
  obtain ⟨n, hnode, harray, hfetch, hchildren⟩ := hw.node h c
  rw [NodeId.child, run_bind, hnode]
  simp only [harray, hchildren, hfetch, Bool.false_eq_true, if_false]
  rw [run_bind]
  rcases run (F.ask h) c w with ⟨p | e | items, w'⟩
  · rfl
  · rfl
  · have hkeep : run (F.id.keep items.toArray) c w' = (.ok (), F.keeping w' items.toArray) := rfl
    dsimp only
    rw [run_bind, hkeep]
    dsimp only
    rw [run_bind, NodeId.run_findNamed]
    rfl

theorem Keeps.run_children (hw : F.Keeps w none) (c : Scope) :
    run (F.id.children h) c w = match run (F.ask h) c w with
      | (.error p, w') => (.error p, w')
      | (.ok (.ok items), w') => (.ok items, F.keeping w' items.toArray)
      | (.ok (.error e), w') => (.ok [⟨w'.nodes.size⟩],
          F.keeping (Listing.extended w' (.error "" e.message)) #[⟨w'.nodes.size⟩]) := by
  obtain ⟨n, hnode, harray, hfetch, hchildren⟩ := hw.node h c
  rw [NodeId.children, run_bind, hnode]
  simp only [harray, Bool.false_eq_true, if_false]
  rw [NodeId.members]
  simp only [hchildren, hfetch]
  rw [run_bind]
  rcases run (F.ask h) c w with ⟨p | e | items, w'⟩ <;> rfl

theorem asked (hF : F.Served h) (hw : F.Keeps w none) (c : Scope) :
    ∃ r w', run (F.ask h) c w = (.ok r, w') ∧
      F.requests w'.host = F.requests w.host ++ F.request ∧ F.Keeps w' none := by
  cases hsource : F.source with
  | some source =>
      obtain ⟨r, w', hrun, hrequests, hw'⟩ := hF source hsource c w hw
      refine ⟨r, w', ?_, ?_, hw'⟩
      · simp only [ask, hsource]
        exact hrun
      · simp only [request, hsource]
        exact hrequests
  | none =>
      refine ⟨.ok [], w, ?_, ?_, hw⟩
      · simp only [ask, hsource]
        rfl
      · simp [request, hsource]

theorem request_of_error {e : EvalError} (hask : run (F.ask h) c w = (.ok (.error e), w')) :
    F.request = [.all] := by
  cases hsource : F.source with
  | some source => simp [request, hsource]
  | none =>
      simp only [ask, hsource] at hask
      cases hask

theorem Keeps.rests (hw : F.Keeps w (some cs)) (c : Scope) (call : MemberCall) :
    (F.visit h w c call).Rests cs.toList := by
  have hrun := hw.run_perform (h := h) call c
  exact ⟨congrArg Prod.snd hrun, congrArg Prod.fst hrun⟩

theorem Keeps.looks (hF : F.Served h) (hw : F.Keeps w none) (c : Scope) (name : String) :
    (F.visit h w c (.child name)).Fails F h ∨
      ∃ ids, (F.visit h w c (.child name)).Settles F h ids := by
  obtain ⟨r, w₁, hask, hrequests, hw₁⟩ := asked hF hw c
  have hrun := hw.run_child (h := h) name c
  rw [hask] at hrun
  cases r with
  | error e =>
      have hvisit : F.visit h w c (.child name) = ⟨c, .child name, w,
          .ok (.child (.ok (some ⟨w₁.nodes.size⟩))), Listing.extended w₁ (.error "" e.message)⟩ := by
        rw [visit, MemberCall.perform, run_bind, hrun]
        rfl
      rw [request_of_error hask] at hrequests
      rw [hvisit]
      refine .inl ⟨⟨name, rfl⟩, ⟨e, w₁, _, hask, rfl, Array.getElem?_push_size⟩, hrequests, ?_, ?_⟩
      · exact hw₁.extended _
      · exact (hw₁.extended _).count
  | ok items =>
      have hvisit : F.visit h w c (.child name) = ⟨c, .child name, w,
          .ok (.child (.ok ((F.keeping w₁ items.toArray).named items name))),
          F.keeping w₁ items.toArray⟩ := by
        rw [visit, MemberCall.perform, run_bind, hrun]
        rfl
      rw [hvisit]
      exact .inr ⟨items, ⟨.ok items, w₁, hask, rfl⟩, hrequests, hw₁.keeping _, rfl⟩

theorem Keeps.collects (hF : F.Served h) (hw : F.Keeps w none) (c : Scope) :
    ∃ ids, (F.visit h w c .children).Settles F h ids := by
  obtain ⟨r, w₁, hask, hrequests, hw₁⟩ := asked hF hw c
  have hrun := hw.run_children (h := h) c
  rw [hask] at hrun
  cases r with
  | error e =>
      have hvisit : F.visit h w c .children = ⟨c, .children, w, .ok (.children [⟨w₁.nodes.size⟩]),
          F.keeping (Listing.extended w₁ (.error "" e.message)) #[⟨w₁.nodes.size⟩]⟩ := by
        rw [visit, MemberCall.perform, run_bind, hrun]
        rfl
      rw [hvisit]
      refine ⟨[⟨w₁.nodes.size⟩], ⟨.error e, w₁, hask, rfl, _, rfl, ?_⟩, hrequests,
        (hw₁.extended _).keeping _, rfl⟩
      -- The error is a new node, so it is not the one that keeps it.
      obtain ⟨n, hn, -⟩ := hw₁
      have hlt := (Array.getElem?_eq_some_iff.mp hn).1
      change ((w₁.nodes.push _).modify F.id.index _)[w₁.nodes.size]? = _
      rw [Array.getElem?_modify, if_neg (Nat.ne_of_lt hlt)]
      exact Array.getElem?_push_size
  | ok items =>
      have hvisit : F.visit h w c .children =
          ⟨c, .children, w, .ok (.children items), F.keeping w₁ items.toArray⟩ := by
        rw [visit, MemberCall.perform, run_bind, hrun]
        rfl
      rw [hvisit]
      exact ⟨items, ⟨.ok items, w₁, hask, rfl⟩, hrequests, hw₁.keeping _, rfl⟩

theorem Keeps.counts (hF : F.Served h) (hw : F.Keeps w none) (c : Scope) (call : MemberCall) :
    (F.visit h w c call).Fails F h ∨ ∃ ids, (F.visit h w c call).Settles F h ids := by
  cases call with
  | child name => exact hw.looks hF c name
  | children => exact .inr (hw.collects hF c)

theorem visits_cons (w : World σ) (k : Scope × MemberCall) (rest : List (Scope × MemberCall)) :
    F.visits h w (k :: rest) =
      F.visit h w k.1 k.2 :: F.visits h (F.visit h w k.1 k.2).after rest := rfl

theorem Keeps.rest (hw : F.Keeps w (some cs)) (calls : List (Scope × MemberCall)) :
    ∀ v ∈ F.visits h w calls, v.Rests cs.toList ∧ v.before = w := by
  induction calls with
  | nil => exact List.forall_mem_nil _
  | cons k rest ih =>
      have hrests := hw.rests (h := h) k.1 k.2
      have hstill : (F.visit h w k.1 k.2).after = w := hrests.still
      rw [visits_cons, hstill]
      exact List.forall_mem_cons.mpr ⟨⟨hrests, rfl⟩, ih⟩

/-- Whatever is called: children that are there from the outset are all that is ever seen. Otherwise
looks for single children fail, each with a fetch of its own, up to the fetch that counts, and from
then on its result is all that is ever seen. -/
theorem settles_once (hF : F.Served h) {children : Option (Array NodeId)}
    (hw : F.Keeps w children) (calls : List (Scope × MemberCall)) :
    ∃ vain settled, F.visits h w calls = vain ++ settled ∧ (∀ v ∈ vain, v.Fails F h) ∧
      match children with
      | some cs => vain = [] ∧ ∀ v ∈ settled, v.Rests cs.toList ∧ v.before = w
      | none => ∀ v rest, settled = v :: rest → ∃ ids, v.Settles F h ids ∧
          ∀ u ∈ rest, u.Rests ids ∧ u.before = v.after := by
  cases children with
  | some cs => exact ⟨[], _, rfl, List.forall_mem_nil _, rfl, hw.rest calls⟩
  | none =>
      induction calls generalizing w with
      | nil => exact ⟨[], [], rfl, List.forall_mem_nil _, fun _ _ hcons => by cases hcons⟩
      | cons k rest ih =>
          rw [visits_cons]
          rcases hw.counts hF k.1 k.2 with hfails | ⟨ids, hsettles⟩
          · obtain ⟨vain, settled, hvisits, hvain, hsettled⟩ := ih hfails.keeps
            refine ⟨F.visit h w k.1 k.2 :: vain, settled, ?_, ?_, hsettled⟩
            · rw [hvisits, List.cons_append]
            · exact List.forall_mem_cons.mpr ⟨hfails, hvain⟩
          · refine ⟨[], _, rfl, List.forall_mem_nil _, ?_⟩
            rintro _ _ ⟨⟩
            exact ⟨ids, hsettles, hsettles.keeps.rest rest⟩

end Family

namespace Simulation

def numberedObject : Family (Memory × List ChildRange) where
  id := ⟨0⟩
  source := some (.external ⟨0⟩)
  path := .root "n"
  requests := (·.2)

theorem numberedObject_served : numberedObject.Served (host noting) := by
  rintro source ⟨⟩ c w ⟨n, hn, hfamily⟩
  have hrun := run_numbered (.root "n") .all c w
  cases hfault : w.host.1.faults.lookup "source" with
  | some e =>
      rw [hfault] at hrun
      exact ⟨_, _, hrun, rfl, n, hn, hfamily⟩
  | none =>
      rw [hfault] at hrun
      refine ⟨_, _, hrun, rfl, n, ?_, hfamily⟩
      obtain ⟨hlt, -⟩ := Array.getElem?_eq_some_iff.mp hn
      exact (Array.getElem?_append_left hlt).trans hn

def refusing : World (Memory × List ChildRange) :=
  { host := ({ faults := [("source", .notSupported "gone")] }, [])
    nodes := #[.object (some (.external ⟨0⟩)) (.root "n") "Foo" "n" none] }

def looks : List (Scope × MemberCall) :=
  [(⟨.caller 0, [], []⟩, .child "f1"), (⟨.caller 0, [], []⟩, .children),
    (⟨.caller 0, [], []⟩, .child "f1")]

theorem refused_settles_once : numberedObject.Served (host noting) ∧
    numberedObject.Keeps refusing none ∧
    ∃ vain settled, numberedObject.visits (host noting) refusing looks = vain ++ settled ∧
      (∀ v ∈ vain, v.Fails numberedObject (host noting)) ∧
      ∀ v rest, settled = v :: rest → ∃ ids, v.Settles numberedObject (host noting) ids ∧
        ∀ u ∈ rest, u.Rests ids ∧ u.before = v.after := by
  have hkeeps : numberedObject.Keeps refusing none := ⟨_, rfl, rfl, rfl, rfl, rfl⟩
  exact ⟨numberedObject_served, hkeeps,
    Family.settles_once numberedObject_served hkeeps looks⟩

end Simulation

end DebugSession
