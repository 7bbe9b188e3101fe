import DebugSession.Proofs.Coherence

namespace DebugSession

abbrev Leases := List (BreakEventId × BindingHandle)

namespace Exchange

def refusesRemoval (x : Exchange) : Bool :=
  match x.request, x.answer with
  | .remove _, .error _ => true
  | _, _ => false

/-- Bindings end when that is asked for, and no two have the same handle. -/
structure Orderly (xs : List Exchange) : Prop where
  removed : ∀ x ∈ xs, x.refusesRemoval = false
  fresh : (xs.filterMap issued).Nodup

theorem Orderly.of_lead {xs ys : List Exchange} (hys : Orderly ys) (hxs : xs <+: ys) :
    Orderly xs where
  removed := fun x hx => hys.removed x (hxs.subset hx)
  fresh := hys.fresh.sublist (hxs.sublist.filterMap issued)

def lease (live : Leases) (x : Exchange) : Leases :=
  match x.request, x.answer with
  | .insert e, .ok b => live ++ [(e.id, b.handle)]
  | .remove handle, _ => live.filter (·.2 != handle)
  | _, _ => live

def leases (live : Leases) (xs : List Exchange) : Leases := xs.foldl lease live

theorem lease_insert (live : Leases) (e : BreakEvent) (x : Except EngineError Binding) :
    lease live ⟨.insert e, x⟩ =
      live ++ (BindingRecord.ofAnswer e x).handle.toList.map (e.id, ·) := by
  cases x with
  | ok b => rfl
  | error err => exact (List.append_nil live).symm

theorem lease_of_not_binding (live : Leases) {x : Exchange} (hx : x.request.isBinding = false) :
    lease live x = live := by
  obtain ⟨q, answer⟩ := x
  cases q with
  | insert e | remove handle => cases hx
  | _ => rfl

theorem leases_of_not_binding (live : Leases) {xs : List Exchange}
    (hxs : ∀ x ∈ xs, x.request.isBinding = false) : leases live xs = live := by
  induction xs generalizing live with
  | nil => rfl
  | cons x rest ih =>
      change leases (lease live x) rest = live
      rw [lease_of_not_binding live (hxs x List.mem_cons_self)]
      exact ih live fun y hy => hxs y (List.mem_cons_of_mem x hy)

theorem mem_lease {live : Leases} {x : Exchange} {p : BreakEventId × BindingHandle}
    (hp : p ∈ lease live x) : p ∈ live ∨ issued x = some p.2 := by
  obtain ⟨q, answer⟩ := x
  cases q with
  | insert e =>
      cases answer with
      | ok b =>
          rcases List.mem_append.mp hp with hp | hp
          · exact .inl hp
          · rw [List.mem_singleton.mp hp]
            exact .inr rfl
      | error err => exact .inl hp
  | remove handle => exact .inl (List.mem_filter.mp hp).1
  | _ => exact .inl hp

/-- What is out was out before or has been given out since. -/
theorem mem_leases {live : Leases} {xs : List Exchange} {p : BreakEventId × BindingHandle}
    (hp : p ∈ leases live xs) : p ∈ live ∨ p.2 ∈ xs.filterMap issued := by
  induction xs generalizing live with
  | nil => exact .inl hp
  | cons x rest ih =>
      rcases ih hp with hp | hp
      · rcases mem_lease hp with hp | hissued
        · exact .inl hp
        · exact .inr (List.mem_filterMap.mpr ⟨x, List.mem_cons_self, hissued⟩)
      · obtain ⟨y, hy, hissued⟩ := List.mem_filterMap.mp hp
        exact .inr (List.mem_filterMap.mpr ⟨y, List.mem_cons_of_mem x hy, hissued⟩)

end Exchange

open Exchange

namespace BindingTable

variable (t : BindingTable)

def handleOf (id : BreakEventId) : Option BindingHandle := (t.get? id).bind (·.handle)

theorem handleOf_insert (r : BindingRecord) (id : BreakEventId) :
    (t.insert r).handleOf id = if id = r.id then r.handle else t.handleOf id := by
  simp only [handleOf, get?_insert]
  split <;> rfl

theorem handleOf_remove (id id' : BreakEventId) :
    (t.remove id).handleOf id' = if id' = id then none else t.handleOf id' := by
  simp only [handleOf, get?_remove]
  split <;> rfl

theorem handleOf_setStatus (handle : BindingHandle) (status : BindingStatus)
    (message : Option String) (id : BreakEventId) :
    (t.setStatus handle status message).handleOf id = t.handleOf id := by
  simp only [handleOf, get?_setStatus]
  cases t.get? id with
  | none => rfl
  | some r =>
      change (if _ then _ else _ : BindingRecord).handle = r.handle
      split <;> rfl

/-- A record that follows its event keeps its handle. -/
theorem handleOf_follow {r : BindingRecord} {e : BreakEvent} (hr : t.get? e.id = some r)
    (id : BreakEventId) : (t.insert { r with breakEvent := e }).handleOf id = t.handleOf id := by
  rw [handleOf_insert]
  split
  · rename_i hid
    simp only [handleOf, hid, BindingRecord.id, hr]
    rfl
  · rfl

end BindingTable

namespace Standing

variable {s : SessionId} {t : Thread} {st : StoreId} {v v' v'' : Standing} {live : Leases}
variable {past : List Exchange}

def leases (live : Leases) (v v' : Standing) : Leases :=
  Exchange.leases live (v'.since v.exchanges)

def Leased (live : Leases) (v : Standing) : Prop :=
  ∀ p ∈ live, v.bindings.handleOf p.1 = some p.2

theorem since_append {added : List Exchange} (hadded : v'.exchanges = v.exchanges ++ added) :
    v'.since v.exchanges = added := by
  rw [since, hadded, List.drop_left]

theorem since_self (v : Standing) : v.since v.exchanges = [] := List.drop_length

theorem since_trans (hv : past <+: v.exchanges) (hv' : v.exchanges <+: v'.exchanges) :
    v'.since past = v.since past ++ v'.since v.exchanges := by
  obtain ⟨added, hadded⟩ := hv
  obtain ⟨added', hadded'⟩ := hv'
  rw [since_append hadded'.symm, since, since, ← hadded', ← hadded, List.append_assoc, List.drop_left,
    List.drop_left]

theorem leases_trans (hv : v.exchanges <+: v'.exchanges) (hv' : v'.exchanges <+: v''.exchanges) :
    leases live v v'' = leases (leases live v v') v' v'' := by
  rw [leases, since_trans hv hv']
  exact List.foldl_append

theorem leases_of_same (hexchanges : v'.exchanges = v.exchanges) : leases live v v' = live := by
  rw [leases, ← hexchanges, since_self]
  rfl

def Accepted (v v' : Standing) : Prop :=
  ∀ x ∈ v'.since v.exchanges, x.refusesRemoval = false

theorem Accepted.split (haccepted : Accepted v v'') (hv : v.exchanges <+: v'.exchanges)
    (hv' : v'.exchanges <+: v''.exchanges) : Accepted v v' ∧ Accepted v' v'' := by
  simp only [Accepted, since_trans hv hv', List.mem_append] at haccepted
  exact ⟨fun x hx => haccepted x (.inl hx), fun x hx => haccepted x (.inr hx)⟩

theorem leases_bound (e : BreakEvent) (m : Mood) (v : Standing) :
    leases live v (v.bound e m) =
      live ++ (BindingRecord.ofAnswer e (m (.insert e))).handle.toList.map (e.id, ·) := by
  have hsince : (v.bound e m).since v.exchanges = [⟨.insert e, m (.insert e)⟩] := since_append rfl
  rw [leases, hsince]
  exact lease_insert live e (m (.insert e))

theorem handleOf_bound (e : BreakEvent) (m : Mood) (v : Standing) (id : BreakEventId) :
    (v.bound e m).bindings.handleOf id =
      if id = e.id then (BindingRecord.ofAnswer e (m (.insert e))).handle
      else v.bindings.handleOf id := by
  change (v.bindings.insert _).handleOf id = _
  rw [BindingTable.handleOf_insert, BindingRecord.id, BindingRecord.ofAnswer_breakEvent]

theorem leases_unbound (id : BreakEventId) (m : Mood) (v : Standing) :
    leases live v (v.unbound id m) =
      match v.bindings.handleOf id with
      | none => live
      | some handle => live.filter (·.2 != handle) := by
  simp only [unbound, BindingTable.handleOf]
  cases hr : v.bindings.get? id with
  | none => exact leases_of_same rfl
  | some r =>
      obtain ⟨e, handle, status, message⟩ := r
      cases handle with
      | none => exact leases_of_same rfl
      | some handle =>
          have hsince : (v.complied (.remove handle) m (v.bindings.remove id)).since v.exchanges =
              [⟨.remove handle, m (.remove handle)⟩] := by
            apply since_append
            simp only [complied]
            split <;> rfl
          change Exchange.leases live (since _ _) = _
          rw [hsince]
          rfl

theorem unbound_bindings {id : BreakEventId} {m : Mood} (haccepted : Accepted v (v.unbound id m)) :
    (v.unbound id m).bindings = v.bindings.remove id := by
  cases hr : v.bindings.get? id with
  | none => simp only [unbound, hr, BindingTable.remove]
  | some r =>
      obtain ⟨e, handle, status, message⟩ := r
      cases handle with
      | none => simp only [unbound, hr, rebind]
      | some handle =>
          simp only [unbound, hr, complied] at haccepted ⊢
          cases hm : m (.remove handle) with
          | ok _ => rfl
          | error err =>
              rw [hm] at haccepted
              have hsince : (v.asked (.remove handle) (.error err)).since v.exchanges =
                  [⟨.remove handle, .error err⟩] := since_append rfl
              have hrefused := haccepted ⟨.remove handle, .error err⟩
                (hsince ▸ List.mem_singleton.mpr rfl)
              cases hrefused

theorem handleOf_unbound {id : BreakEventId} {m : Mood} (haccepted : Accepted v (v.unbound id m))
    (id' : BreakEventId) :
    (v.unbound id m).bindings.handleOf id' =
      if id' = id then none else v.bindings.handleOf id' := by
  rw [unbound_bindings haccepted, BindingTable.handleOf_remove]

theorem leases_changed {id : BreakEventId} {change : BindingHandle → EngineRequest}
    {f : BreakEvent → BreakEvent} {m : Mood}
    (hchange : ∀ live handle x, lease live ⟨change handle, x⟩ = live) :
    leases live v (v.changed id change f m) = live := by
  simp only [changed]
  cases v.bindings.get? id with
  | none => exact leases_of_same rfl
  | some r =>
      obtain ⟨e, handle, status, message⟩ := r
      cases handle with
      | none => exact leases_of_same rfl
      | some handle =>
          have hsince : (v.complied (change handle) m (v.bindings.insert
              { breakEvent := f e, handle := some handle, status, statusMessage := message })).since
                v.exchanges = [⟨change handle, m (change handle)⟩] := by
            apply since_append
            simp only [complied]
            split <;> rfl
          change Exchange.leases live (since _ _) = _
          rw [hsince]
          exact hchange live handle _

theorem handleOf_changed {id : BreakEventId} {change : BindingHandle → EngineRequest}
    {f : BreakEvent → BreakEvent} {m : Mood} (hf : ∀ e, e.id = id → (f e).id = id)
    (id' : BreakEventId) :
    (v.changed id change f m).bindings.handleOf id' = v.bindings.handleOf id' := by
  simp only [changed]
  cases hr : v.bindings.get? id with
  | none => rfl
  | some r =>
      cases hhandle : r.handle with
      | none => simp only [hhandle]
      | some handle =>
          have hid := hf _ (BindingTable.id_of_get? hr)
          simp only [hhandle, complied]
          split
          · rw [← hhandle]
            exact BindingTable.handleOf_follow v.bindings (hid ▸ hr) id'
          · rfl

/-- Unbinding of events ends the leases of their records. -/
theorem UnboundAll.mem_leases {es : List BreakEvent} (hunbound : UnboundAll es v v')
    (haccepted : Accepted v v') {p : BreakEventId × BindingHandle} :
    p ∈ leases live v v' ↔
      p ∈ live ∧ ∀ e ∈ es, v.bindings.handleOf e.id ≠ some p.2 := by
  simp only [UnboundAll] at hunbound
  induction hunbound generalizing live with
  | nil v => simp [leases_of_same rfl]
  | @cons e rest v v' v'' hx hrest ih =>
      obtain ⟨m, rfl⟩ := hx
      have hgrown := (Dealt.unbound e.id m v).grown
      have hgrown' := (UnboundAll.dealt hrest).grown
      obtain ⟨hfirst, hlast⟩ := haccepted.split hgrown hgrown'
      rw [leases_trans hgrown hgrown', ih hlast, leases_unbound]
      simp only [handleOf_unbound hfirst, List.forall_mem_cons]
      cases hhandle : v.bindings.handleOf e.id with
      | none =>
          refine and_congr_right fun _ => ?_
          constructor
          · intro hothers
            refine ⟨by simp, fun e' he' heq => ?_⟩
            by_cases hid : e'.id = e.id
            · rw [hid, hhandle] at heq
              cases heq
            · exact hothers e' he' (by rwa [if_neg hid])
          · rintro ⟨-, hothers⟩ e' he'
            split
            · simp
            · exact hothers e' he'
      | some handle =>
          simp only [List.mem_filter, and_assoc]
          refine and_congr_right fun _ => ?_
          constructor
          · rintro ⟨hne, hothers⟩
            have hne' : handle ≠ p.2 := by
              rintro rfl
              simp at hne
            refine ⟨fun heq => hne' (Option.some.inj heq), fun e' he' heq => ?_⟩
            by_cases hid : e'.id = e.id
            · rw [hid, hhandle] at heq
              exact hne' (Option.some.inj heq)
            · exact hothers e' he' (by rwa [if_neg hid])
          · rintro ⟨hne, hothers⟩
            refine ⟨?_, fun e' he' => ?_⟩
            · simpa using fun heq : p.2 = handle => hne (by rw [heq])
            · split
              · simp
              · exact hothers e' he'

theorem BoundAll.requests {es : List BreakEvent} (hbound : BoundAll es v v') :
    (v'.since v.exchanges).map (·.request) = es.map .insert := by
  simp only [BoundAll] at hbound
  induction hbound with
  | nil v => rw [since_self, List.map_nil, List.map_nil]
  | @cons e rest v v' v'' hx hrest ih =>
      obtain ⟨m, rfl⟩ := hx
      have hsince : (v.bound e m).since v.exchanges = [⟨.insert e, m (.insert e)⟩] := since_append rfl
      rw [since_trans (Dealt.bound e m v).grown (BoundAll.dealt hrest).grown, hsince, List.map_append, ih]
      rfl

theorem UnboundAll.get? {es : List BreakEvent} (hunbound : UnboundAll es v v')
    (haccepted : Accepted v v') (id : BreakEventId) :
    v'.bindings.get? id = if id ∈ es.map (·.id) then none else v.bindings.get? id := by
  simp only [UnboundAll] at hunbound
  induction hunbound with
  | nil v => simp
  | @cons e rest v v' v'' hx hrest ih =>
      obtain ⟨m, rfl⟩ := hx
      obtain ⟨hfirst, hlast⟩ :=
        haccepted.split (Dealt.unbound e.id m v).grown (UnboundAll.dealt hrest).grown
      rw [ih hlast, unbound_bindings hfirst, BindingTable.get?_remove]
      by_cases hid : id = e.id
      · simp [hid]
      · simp [hid]

structure Handed (es : List BreakEvent) (live : Leases) (v v' : Standing) : Prop where
  others : ∀ id, id ∉ es.map (·.id) → v'.bindings.handleOf id = v.bindings.handleOf id
  given : ∀ id ∈ es.map (·.id), ∀ handle, v'.bindings.handleOf id = some handle →
    handle ∈ (v'.since v.exchanges).filterMap issued
  added : ∃ added, leases live v v' = live ++ added ∧
    ∀ p ∈ added, v'.bindings.handleOf p.1 = some p.2 ∧ p.1 ∈ es.map (·.id)

theorem BoundAll.handed {es : List BreakEvent} (hbound : BoundAll es v v')
    (hdistinct : (es.map (·.id)).Nodup) : Handed es live v v' := by
  simp only [BoundAll] at hbound
  induction hbound generalizing live with
  | nil v => exact ⟨fun _ _ => rfl, by simp, [], by simp [leases_of_same rfl], by simp⟩
  | @cons e rest v v' v'' hx hrest ih =>
      obtain ⟨m, rfl⟩ := hx
      rw [List.map_cons, List.nodup_cons] at hdistinct
      obtain ⟨hothers, hgiven, added, hadded, hadded'⟩ :=
        @ih (leases live v (v.bound e m)) hdistinct.2
      have hself : v''.bindings.handleOf e.id =
          (BindingRecord.ofAnswer e (m (.insert e))).handle := by
        rw [hothers e.id hdistinct.1, handleOf_bound, if_pos rfl]
      have hgrown := (Dealt.bound e m v).grown
      have hgrown' := (BoundAll.dealt hrest).grown
      have hsince : v''.since v.exchanges =
          [⟨.insert e, m (.insert e)⟩] ++ v''.since (v.bound e m).exchanges := by
        rw [since_trans hgrown hgrown']
        exact congrArg (· ++ _) (since_append rfl)
      refine ⟨fun id hid => ?_, fun id hid handle hhandle => ?_, ?_⟩
      · rw [List.map_cons, List.mem_cons, not_or] at hid
        rw [hothers id hid.2, handleOf_bound, if_neg hid.1]
      · rw [hsince, List.filterMap_append, filterMap_insert, List.mem_append]
        by_cases hmem : id ∈ rest.map (·.id)
        · exact .inr (hgiven id hmem handle hhandle)
        · have hid' : id = e.id := by
            rw [List.map_cons, List.mem_cons] at hid
            exact hid.resolve_right hmem
          rw [hid', hself] at hhandle
          exact .inl (by simp [hhandle])
      · refine ⟨(BindingRecord.ofAnswer e (m (.insert e))).handle.toList.map (e.id, ·) ++ added,
          ?_, ?_⟩
        · rw [leases_trans hgrown hgrown', hadded, leases_bound, List.append_assoc]
        · intro p hp
          rcases List.mem_append.mp hp with hp | hp
          · obtain ⟨handle, hhandle, rfl⟩ := List.mem_map.mp hp
            refine ⟨?_, List.mem_cons_self⟩
            rw [hself]
            exact Option.mem_toList.mp hhandle
          · exact ⟨(hadded' p hp).1, List.mem_cons_of_mem _ (hadded' p hp).2⟩

structure Tracked (past : List Exchange) (live : Leases) (v : Standing) : Prop where
  grown : past <+: v.exchanges
  issued : ∀ p ∈ live, p.2 ∈ (v.since past).filterMap issued

theorem Tracked.leases (htracked : Tracked past live v) (hgrown : v.exchanges <+: v'.exchanges) :
    Tracked past (leases live v v') v' := by
  refine ⟨htracked.grown.trans hgrown, fun p hp => ?_⟩
  rw [since_trans htracked.grown hgrown, List.filterMap_append, List.mem_append]
  rcases Exchange.mem_leases hp with hp | hp
  · exact .inl (htracked.issued p hp)
  · exact .inr hp

theorem Tracked.fresh (htracked : Tracked past live v) (hgrown : v.exchanges <+: v'.exchanges)
    (horderly : Orderly (v'.since past)) {p : BreakEventId × BindingHandle} (hp : p ∈ live) :
    p.2 ∉ (v'.since v.exchanges).filterMap Exchange.issued := by
  have hfresh := horderly.fresh
  rw [since_trans htracked.grown hgrown, List.filterMap_append, List.nodup_append] at hfresh
  exact fun hissued => hfresh.2.2 p.2 (htracked.issued p hp) p.2 hissued rfl

theorem Tracked.accepted (htracked : Tracked past live v) (hgrown : v.exchanges <+: v'.exchanges)
    (horderly : Orderly (v'.since past)) : Accepted v v' := by
  intro x hx
  apply horderly.removed x
  rw [since_trans htracked.grown hgrown]
  exact List.mem_append_right _ hx

/-- Binding is harmless just as long as it is of events that are not bound. -/
theorem BoundAll.leased_iff {es : List BreakEvent} (hbound : BoundAll es v v')
    (hdistinct : (es.map (·.id)).Nodup) (htracked : Tracked past live v)
    (horderly : Orderly (v'.since past)) (hleased : Leased live v) :
    Leased (leases live v v') v' ↔ ¬ ∃ e ∈ es, ∃ handle, (e.id, handle) ∈ live := by
  have hgrown := (BoundAll.dealt hbound).grown
  obtain ⟨hothers, hgiven, added, hadded, hadded'⟩ : Handed es live v v' := hbound.handed hdistinct
  rw [hadded]
  constructor
  · rintro hleased' ⟨e, he, handle, hlive⟩
    have hself := hleased' (e.id, handle) (List.mem_append_left _ hlive)
    have hissued := hgiven e.id (List.mem_map_of_mem he) handle hself
    exact htracked.fresh hgrown horderly hlive hissued
  · rintro hnone p hp
    rcases List.mem_append.mp hp with hp | hp
    · rw [hothers p.1, hleased p hp]
      intro hmem
      obtain ⟨e, he, hid⟩ := List.mem_map.mp hmem
      exact hnone ⟨e, he, p.2, hid ▸ hp⟩
    · exact (hadded' p hp).1

end Standing

end DebugSession
