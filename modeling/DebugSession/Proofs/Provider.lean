import DebugSession.Proofs.Resolution

namespace DebugSession

open Act

/-- What an extension is looked up by is never blank, for it starts with a point. -/
theorem SourceLocation.filter_fileExtension (l : SourceLocation) :
    l.fileExtension.filter (!·.isEmpty) = l.fileExtension := by
  cases hext : l.fileExtension with
  | none => rfl
  | some ext =>
      have hne : ext ≠ "" := by
        rintro rfl
        simp only [fileExtension, bind, Option.bind_eq_some_iff] at hext
        obtain ⟨-, -, cs, -, heq⟩ := hext
        have hcs := congrArg String.toList (Option.some.inj heq)
        simp at hcs
      simp [Option.filter, hne]

inductive Lookup
  | install (provider : Option CallbackId)
  | find (frame : StackFrame)
  | evaluator (frame : StackFrame)

/-- A provider, if there is one, and the extensions that were looked up since it was installed, in
the order in which they came first. -/
structure Installation where
  provider : Option CallbackId := none
  looked : List String := []

namespace Lookup

@[reducible] def Answer : Lookup → Type
  | install _ => Unit
  | find _ => Option EvaluatorId
  | evaluator _ => EvaluatorId

def isInstall : Lookup → Bool
  | install _ => true
  | find _ | evaluator _ => false

def extension? : Lookup → Option String
  | install _ => none
  | find f | evaluator f => f.info.location.fileExtension

end Lookup

namespace Installation

variable (i : Installation)

def fresh (ext : Option String) : List String := ext.toList.filter (· ∉ i.looked)

def look (ext : Option String) : Installation := { i with looked := i.looked ++ i.fresh ext }

def after (x : Lookup) : Installation :=
  match x with
  | .install provider => { provider := provider }
  | .find _ | .evaluator _ => i.look x.extension?

def inForce (past : List Lookup) : Installation := past.foldl after {}

def asks (provider : Option CallbackId) (exts : List String) : List (CallbackId × String) :=
  provider.toList.flatMap fun k => exts.map (k, ·)

theorem asks_append (provider : Option CallbackId) (exts exts' : List String) :
    asks provider (exts ++ exts') = asks provider exts ++ asks provider exts' := by
  cases provider <;> simp [asks]

variable {i}

theorem fresh_of_mem {ext : String} (hext : ext ∈ i.looked) : i.fresh (some ext) = [] := by
  simp [fresh, hext]

theorem fresh_of_not_mem {ext : String} (hext : ext ∉ i.looked) : i.fresh (some ext) = [ext] := by
  simp [fresh, hext]

theorem look_of_fresh {ext : Option String} (hext : i.fresh ext = []) : i.look ext = i := by
  rw [look, hext, List.append_nil]

theorem mem_look (ext : Option String) (e : String) :
    e ∈ (i.look ext).looked ↔ e ∈ i.looked ∨ ext = some e := by
  simp only [look, fresh, List.mem_append, List.mem_filter, Option.mem_toList]
  by_cases he : e ∈ i.looked <;> simp [he]

theorem nodup_look (hi : i.looked.Nodup) (ext : Option String) : (i.look ext).looked.Nodup := by
  have hfresh : (i.fresh ext).Nodup := by
    cases ext with
    | none => exact List.nodup_nil
    | some ext => exact (List.nodup_cons.mpr ⟨List.not_mem_nil, List.nodup_nil⟩).filter _
  refine List.nodup_append.mpr ⟨hi, hfresh, fun e he e' he' => ?_⟩
  rintro rfl
  simpa [he] using (List.mem_filter.mp he').2

theorem after_of_not_install {x : Lookup} (hx : x.isInstall = false) :
    i.after x = i.look x.extension? := by
  cases x with
  | install provider => cases hx
  | find f | evaluator f => rfl

theorem provider_foldl {within : List Lookup} (hwithin : ∀ x ∈ within, x.isInstall = false) :
    (within.foldl after i).provider = i.provider := by
  induction within generalizing i with
  | nil => rfl
  | cons x rest ih =>
      obtain ⟨hx, hrest⟩ := List.forall_mem_cons.mp hwithin
      rw [List.foldl_cons, ih hrest, after_of_not_install hx]
      rfl

/-- Whoever was installed last is in force. -/
theorem inForce_provider {before within : List Lookup} {provider : Option CallbackId}
    (hwithin : ∀ x ∈ within, x.isInstall = false) :
    (inForce (before ++ .install provider :: within)).provider = provider := by
  rw [inForce, List.foldl_append, List.foldl_cons, provider_foldl hwithin]
  rfl

end Installation

/-- A session, the one answer that each provider has for each extension, and where the host notes
what providers were asked for. -/
structure Supplier (σ : Type) where
  session : SessionId
  answer : CallbackId → String → Option EvaluatorId
  asked : σ → List (CallbackId × String)

namespace Supplier

variable {σ : Type} (S : Supplier σ) (h : Host σ)

def Keeps (w : World σ) (r : EvaluatorRegistry) : Prop :=
  ∃ x, w.sessions[S.session.index]? = some x ∧ x.evaluators = r

/-- Every provider answers in its one way. It may do what it likes otherwise, but leaves alone what
the session has for evaluators. -/
def Serves : Prop :=
  ∀ k ext c w r, S.Keeps w r → ∃ w',
    run (h.provideEvaluator k ext) c w = (.ok (S.answer k ext), w') ∧ S.Keeps w' r ∧
      S.asked w'.host = S.asked w.host ++ [(k, ext)]

def supplied (i : Installation) (ext : Option String) : Option EvaluatorId :=
  i.provider.bind fun k => ext.bind (S.answer k)

def due (i : Installation) : (x : Lookup) → x.Answer
  | .install _ => ()
  | .find f => S.supplied i f.info.location.fileExtension
  | .evaluator f => (S.supplied i f.info.location.fileExtension).getD .nameResolving

def perform : (x : Lookup) → Act σ x.Answer
  | .install provider => S.session.setEvaluatorProvider provider
  | .find f => S.session.findEvaluator h f.info.location.fileExtension
  | .evaluator f => S.session.evaluatorFor h f.info.location.fileExtension

def after (w : World σ) (calls : List (Scope × Lookup)) : World σ :=
  calls.foldl (fun w x => (run (S.perform h x.2) x.1 w).2) w

def Knows (i : Installation) (w : World σ) : Prop :=
  ∃ m, S.Keeps w ⟨i.provider, m⟩ ∧ ∀ ext, m.find? ext =
    i.provider.bind fun k => if ext ∈ i.looked then some (S.answer k ext) else none

variable {S h} {w : World σ} {r : EvaluatorRegistry} {i : Installation}

theorem Keeps.session (hw : S.Keeps w r) (c : Scope) :
    ∃ x, run (Act.session S.session) c w = (.ok x, w) ∧ x.evaluators = r := by
  obtain ⟨x, hx, hr⟩ := hw
  refine ⟨x, ?_, hr⟩
  change (Except.ok (w.sessions.getD S.session.index default), w) = _
  rw [Array.getD_eq_getD_getElem?, hx]
  rfl

theorem Keeps.modify (hw : S.Keeps w r) (f : EvaluatorRegistry → EvaluatorRegistry) (c : Scope) :
    ∃ w', run (modifySession S.session fun x => { x with evaluators := f x.evaluators }) c w =
        (.ok (), w') ∧ S.Keeps w' (f r) ∧ w'.host = w.host := by
  obtain ⟨x, hx, rfl⟩ := hw
  refine ⟨_, rfl, ⟨{ x with evaluators := f x.evaluators }, ?_, rfl⟩, rfl⟩
  simp [Array.getElem?_modify, hx]

theorem Knows.install (hw : S.Knows i w) (provider : Option CallbackId) (c : Scope) :
    ∃ w', run (S.session.setEvaluatorProvider provider) c w = (.ok (), w') ∧
      S.Knows { provider := provider } w' ∧ w'.host = w.host := by
  obtain ⟨m, hm, -⟩ := hw
  obtain ⟨w', hrun, hw', hhost⟩ := hm.modify (fun _ => { provider := provider }) c
  refine ⟨w', hrun, ⟨{}, hw', fun ext => ?_⟩, hhost⟩
  cases provider <;> rfl

theorem Knows.store {k : CallbackId} (hk : i.provider = some k) {m : Memory EvaluatorId}
    (hm : S.Keeps w ⟨i.provider, m⟩)
    (hfind : ∀ ext, m.find? ext = if ext ∈ i.looked then some (S.answer k ext) else none)
    {ext : String} (hext : ext ∉ i.looked) (c : Scope) :
    ∃ w', run (modifySession S.session fun x => { x with evaluators :=
        { x.evaluators with known := x.evaluators.known.store ext (S.answer k ext) } }) c w =
          (.ok (), w') ∧
      S.Keeps w' ⟨some k, m.store ext (S.answer k ext)⟩ ∧ S.Knows (i.look (some ext)) w' ∧
      w'.host = w.host := by
  obtain ⟨w', hrun, hw', hhost⟩ := hm.modify
    (fun r => { r with known := r.known.store ext (S.answer k ext) }) c
  refine ⟨w', hrun, hk ▸ hw', ⟨m.store ext (S.answer k ext), hw', fun e => ?_⟩, hhost⟩
  rw [Memory.find?_store, hfind]
  by_cases he : e = ext
  · subst he
    simp [Installation.look, Installation.fresh, hk, hext]
  · by_cases hmem : e ∈ i.looked <;>
      simp [Installation.look, Installation.fresh_of_not_mem hext, hk, he, hmem]

/-- One lookup: what is remembered under the extension, or else the answer of the provider. -/
theorem Knows.find (hS : S.Serves h) (hw : S.Knows i w) {ext : Option String}
    (hext : ext.filter (!·.isEmpty) = ext) (c : Scope) :
    ∃ w', run (S.session.findEvaluator h ext) c w = (.ok (S.supplied i ext), w') ∧
      S.Knows (i.look ext) w' ∧
      S.asked w'.host = S.asked w.host ++ Installation.asks i.provider (i.fresh ext) := by
  have hsame := hw
  obtain ⟨m, hm, hfind⟩ := hw
  simp only [SessionId.findEvaluator, keeping]
  rw [run_withReader]
  generalize { c with entered := S.session :: c.entered } = c
  obtain ⟨x, hx, hr⟩ := hm.session c
  simp only [run_bind, hx, hr, hext]
  cases hk : i.provider with
  | none =>
      refine ⟨w, by simp [supplied, hk]; rfl, ⟨m, hm, fun e => ?_⟩, ?_⟩
      · simp [hfind, Installation.look, hk]
      · simp [Installation.asks]
  | some k =>
      simp only [hk, Option.bind_some] at hfind
      cases ext with
      | none =>
          have hfresh : i.fresh none = [] := rfl
          rw [Installation.look_of_fresh hfresh]
          exact ⟨w, by simp [supplied, hk]; rfl, hsame, by simp [Installation.asks, hfresh]⟩
      | some ext =>
          have hsupplied : S.supplied i (some ext) = S.answer k ext := by simp [supplied, hk]
          by_cases hmem : ext ∈ i.looked
          · have hfresh : i.fresh (some ext) = [] := Installation.fresh_of_mem hmem
            rw [Installation.look_of_fresh hfresh]
            refine ⟨w, ?_, hsame, by simp [Installation.asks, hfresh]⟩
            simp only [hfind, if_pos hmem, hsupplied]
            rfl
          · obtain ⟨w₁, hask, hw₁, hasked⟩ := hS k ext c w _ hm
            obtain ⟨w₂, hstore, hkept, hw₂, hhost⟩ := Knows.store hk hw₁ hfind hmem c
            obtain ⟨y, hy, hr'⟩ := hkept.session c
            refine ⟨w₂, ?_, hw₂, ?_⟩
            · simp only [run_bind, hfind, if_neg hmem, hask, hstore, hy, hr', Memory.find?_store,
                hsupplied]
              simp
              rfl
            · rw [hhost, hasked, Installation.fresh_of_not_mem hmem]
              rfl

/-- One call of any kind, with what the provider in force is asked for. -/
theorem Knows.perform (hS : S.Serves h) (hw : S.Knows i w) (x : Lookup) (c : Scope) :
    ∃ w', run (S.perform h x) c w = (.ok (S.due i x), w') ∧ S.Knows (i.after x) w' ∧
      S.asked w'.host =
        S.asked w.host ++ Installation.asks i.provider (i.fresh x.extension?) := by
  cases x with
  | install provider =>
      obtain ⟨w', hrun, hw', hhost⟩ := hw.install provider c
      have hnone : Installation.asks i.provider (i.fresh none) = [] := by
        simp [Installation.asks, Installation.fresh]
      exact ⟨w', hrun, hw', by rw [hhost, Lookup.extension?, hnone, List.append_nil]⟩
  | find f => exact hw.find hS f.info.location.filter_fileExtension c
  | evaluator f =>
      obtain ⟨w', hrun, hw'⟩ := hw.find hS f.info.location.filter_fileExtension c
      refine ⟨w', ?_, hw'⟩
      simp only [Supplier.perform, SessionId.evaluatorFor, run_bind, hrun]
      rfl

theorem after_cons (w : World σ) (c : Scope) (x : Lookup) (rest : List (Scope × Lookup)) :
    S.after h w ((c, x) :: rest) = S.after h (run (S.perform h x) c w).2 rest := rfl

theorem after_append (w : World σ) (calls rest : List (Scope × Lookup)) :
    S.after h w (calls ++ rest) = S.after h (S.after h w calls) rest := List.foldl_append

theorem Knows.after (hS : S.Serves h) (hw : S.Knows i w) (calls : List (Scope × Lookup)) :
    S.Knows ((calls.map (·.2)).foldl Installation.after i) (S.after h w calls) := by
  induction calls generalizing i w with
  | nil => exact hw
  | cons x rest ih =>
      obtain ⟨w', hrun, hw', -⟩ := hw.perform hS x.2 x.1
      rw [Supplier.after_cons, hrun]
      exact ih hw'

/-- During an installation its provider alone is asked, and for each extension once. -/
theorem Knows.asked_within (hS : S.Serves h) (hw : S.Knows i w) (hi : i.looked.Nodup)
    {calls : List (Scope × Lookup)} (hcalls : ∀ x ∈ calls, x.2.isInstall = false) :
    ∃ exts : List String,
      S.asked (S.after h w calls).host = S.asked w.host ++ Installation.asks i.provider exts ∧
      (i.looked ++ exts).Nodup ∧
      ∀ e, e ∈ i.looked ++ exts ↔ e ∈ i.looked ∨ ∃ x ∈ calls, x.2.extension? = some e := by
  -- What was looked up grows with each call, and every later call is new against all of it.
  induction calls generalizing i w with
  | nil =>
      refine ⟨[], ?_, by simpa using hi, fun e => by simp⟩
      simp [Installation.asks, Supplier.after]
  | cons x rest ih =>
      obtain ⟨c, x⟩ := x
      obtain ⟨hx, hrest⟩ := List.forall_mem_cons.mp hcalls
      obtain ⟨w', hrun, hw', hasked⟩ := hw.perform hS x c
      rw [Installation.after_of_not_install hx] at hw'
      obtain ⟨exts, hasked', hnodup, hmem⟩ := ih hw' (Installation.nodup_look hi _) hrest
      refine ⟨i.fresh x.extension? ++ exts, ?_, ?_, fun e => ?_⟩
      · rw [after_cons, hrun, hasked', hasked, Installation.asks_append, List.append_assoc]
        rfl
      · rw [← List.append_assoc]
        exact hnodup
      · rw [← List.append_assoc]
        refine (hmem e).trans ?_
        simp only [Installation.mem_look, or_assoc, List.mem_cons, exists_eq_or_imp]

/-- Calls to a session that never had a provider. Whatever came before, a lookup answers with what
the provider in force has for the extension, and with nothing if there is no provider or no
extension; the library's own evaluator stands in for nothing. From one installation to the next,
only its provider is asked, once for each extension that is looked up. -/
theorem lookups_follow_provider (hS : S.Serves h) (hw : S.Keeps w {})
    (past : List (Scope × Lookup)) :
    (∀ c x, (run (S.perform h x) c (S.after h w past)).1 =
      .ok (S.due (Installation.inForce (past.map (·.2))) x)) ∧
    (∀ before c provider within, past = before ++ (c, .install provider) :: within →
      (∀ x ∈ within, x.2.isInstall = false) →
      (Installation.inForce (past.map (·.2))).provider = provider ∧
      ∃ exts : List String,
        S.asked (S.after h w past).host =
          S.asked (S.after h w before).host ++ Installation.asks provider exts ∧
        exts.Nodup ∧ ∀ e, e ∈ exts ↔ ∃ x ∈ within, x.2.extension? = some e) ∧
    ((∀ x ∈ past, x.2.isInstall = false) →
      (Installation.inForce (past.map (·.2))).provider = none ∧
      S.asked (S.after h w past).host = S.asked w.host) := by
  have hknows : S.Knows {} w := ⟨{}, hw, fun ext => rfl⟩
  refine ⟨fun c x => ?_, ?_, fun hpast => ?_⟩
  · obtain ⟨w', hrun, -⟩ := (hknows.after hS past).perform hS x c
    exact congrArg (·.1) hrun
  · rintro before c provider within rfl hwithin
    obtain ⟨w', hrun, hw', hasked⟩ :=
      (hknows.after hS before).perform hS (.install provider) c
    obtain ⟨exts, hasked', hnodup, hmem⟩ := hw'.asked_within hS List.nodup_nil hwithin
    refine ⟨?_, exts, ?_, hnodup, fun e => (hmem e).trans (by simp [Installation.after])⟩
    · rw [List.map_append, List.map_cons]
      exact Installation.inForce_provider (List.forall_mem_map.mpr hwithin)
    · rw [after_append, after_cons, hrun, hasked', hasked]
      simp [Installation.asks, Installation.fresh, Lookup.extension?, Installation.after]
  · obtain ⟨exts, hasked, -⟩ := hknows.asked_within hS List.nodup_nil hpast
    refine ⟨Installation.provider_foldl (List.forall_mem_map.mpr hpast), ?_⟩
    rw [hasked]
    exact List.append_nil _

abbrev Requests := Simulation.Memory × List (CallbackId × String)

def monoglot : Supplier Requests where
  session := ⟨0⟩
  answer k ext := if ext = ".cs" then some (.provided k.raw) else none
  asked := (·.2)

def monoglotHost : Host Requests :=
  { Simulation.host default with
    provideEvaluator := fun k ext => do
      modifyHost fun x => (x.1, x.2 ++ [(k, ext)])
      return monoglot.answer k ext }

def unequipped : World Requests :=
  { host := (default, []), sessions := #[Session.new default ⟨0⟩] }

theorem monoglot_serves : monoglot.Serves monoglotHost := fun k ext _ w _ hw =>
  ⟨{ w with host := (w.host.1, w.host.2 ++ [(k, ext)]) }, rfl, hw, rfl⟩

def frameIn (file : String) : StackFrame :=
  ⟨⟨0, { file := some file }, ""⟩, 0, {}, ⟨0⟩, none⟩

def swaps : List (Scope × Lookup) :=
  [.find (frameIn "a.cs"), .install (some ⟨1⟩), .find (frameIn "a.cs"), .evaluator (frameIn "b.vb"),
    .find (frameIn "c.vb"), .install (some ⟨1⟩), .evaluator (frameIn "b.cs"), .find (frameIn "a"),
    .install (some ⟨2⟩)].map (ExpressionResolver.caller, ·)

theorem lookups_after_swaps : monoglot.Serves monoglotHost ∧ monoglot.Keeps unequipped {} ∧
    (run (monoglot.perform monoglotHost (.find (frameIn "b.cs"))) ExpressionResolver.caller
      (monoglot.after monoglotHost unequipped swaps)).1 = .ok (some (.provided 2)) ∧
    monoglot.asked (monoglot.after monoglotHost unequipped swaps).host =
      [(⟨1⟩, ".cs"), (⟨1⟩, ".vb"), (⟨1⟩, ".cs")] := by
  have hkeeps : monoglot.Keeps unequipped {} := ⟨_, rfl, rfl⟩
  have hdue : monoglot.due (Installation.inForce (swaps.map (·.2))) (.find (frameIn "b.cs")) =
      some (.provided 2) := by decide +kernel
  refine ⟨monoglot_serves, hkeeps, ?_, by decide +kernel⟩
  exact ((lookups_follow_provider monoglot_serves hkeeps swaps).1 ExpressionResolver.caller
    (.find (frameIn "b.cs"))).trans (congrArg Except.ok hdue)

end Supplier

end DebugSession
