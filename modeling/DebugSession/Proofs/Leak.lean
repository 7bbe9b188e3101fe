import DebugSession.Proofs.Lease

namespace DebugSession

open Exchange

namespace Standing

variable {s : SessionId} {t : Thread} {st : StoreId} {v v' v'' : Standing} {live : Leases}
variable {past : List Exchange}

structure Harmless (v v' : Standing) : Prop where
  grown : v.exchanges <+: v'.exchanges
  leased : ∀ live, Leased live v → Leased (leases live v v') v'

namespace Harmless

theorem of_same (hhandles : ∀ id, v'.bindings.handleOf id = v.bindings.handleOf id)
    (hgrown : v.exchanges <+: v'.exchanges) (hleases : ∀ live, leases live v v' = live) :
    Harmless v v' := by
  refine ⟨hgrown, fun live hleased => ?_⟩
  rw [hleases]
  intro p hp
  rw [hhandles]
  exact hleased p hp

theorem of_eq (hbindings : v'.bindings = v.bindings) (hexchanges : v'.exchanges = v.exchanges) :
    Harmless v v' :=
  of_same (fun id => by rw [hbindings]) (hexchanges ▸ List.prefix_refl _)
    (fun _ => leases_of_same hexchanges)

theorem refl (v : Standing) : Harmless v v := of_eq rfl rfl

theorem trans (hv : Harmless v v') (hv' : Harmless v' v'') : Harmless v v'' := by
  refine ⟨hv.grown.trans hv'.grown, fun live hleased => ?_⟩
  rw [leases_trans hv.grown hv'.grown]
  exact hv'.leased _ (hv.leased live hleased)

theorem chain {α : Type} {f : α → Standing → Standing → Prop} {xs : List α}
    (hchain : Chain f xs v v') (haccepted : Accepted v v')
    (hdealt : ∀ x v v', f x v v' → Dealt v v')
    (hf : ∀ x ∈ xs, ∀ v v', f x v v' → Accepted v v' → Harmless v v') : Harmless v v' := by
  induction hchain with
  | nil v => exact refl v
  | @cons x rest v v' v'' hx hrest ih =>
      obtain ⟨hfirst, hlast⟩ :=
        haccepted.split (hdealt x v v' hx).grown (Chain.dealt hrest hdealt).grown
      have hharmless := hf x List.mem_cons_self v v' hx hfirst
      exact hharmless.trans (ih hlast fun y hy => hf y (List.mem_cons_of_mem x hy))

theorem spared (hspared : Spared v v') : Harmless v v' := by
  obtain ⟨added, hadded, hbinding⟩ := hspared.exchanges
  refine of_same (fun id => by rw [hspared.bindings]) hspared.grown fun live => ?_
  rw [leases, since_append hadded]
  exact leases_of_not_binding live hbinding

theorem unbound {id : BreakEventId} {m : Mood} (haccepted : Accepted v (v.unbound id m)) :
    Harmless v (v.unbound id m) := by
  refine ⟨(Dealt.unbound id m v).grown, fun live hleased p hp => ?_⟩
  rw [leases_unbound] at hp
  rw [handleOf_unbound haccepted]
  cases hhandle : v.bindings.handleOf id with
  | none =>
      rw [hhandle] at hp
      have hself := hleased p hp
      rw [if_neg, hself]
      rintro hid
      rw [hid, hhandle] at hself
      cases hself
  | some handle =>
      rw [hhandle] at hp
      obtain ⟨hp, hne⟩ := List.mem_filter.mp hp
      have hself := hleased p hp
      rw [if_neg, hself]
      rintro hid
      rw [hid, hhandle] at hself
      cases hself
      simp at hne

theorem changed {id : BreakEventId} {change : BindingHandle → EngineRequest}
    {f : BreakEvent → BreakEvent} {m : Mood}
    (hchange : ∀ live handle x, lease live ⟨change handle, x⟩ = live)
    (hf : ∀ e, e.id = id → (f e).id = id) : Harmless v (v.changed id change f m) :=
  of_same (handleOf_changed hf) (Dealt.changed id change f m v).grown
    (fun _ => leases_changed hchange)

theorem moved (e : BreakEvent) (v : Standing) : Harmless v (v.moved e) := by
  simp only [Standing.moved]
  cases hr : v.bindings.get? e.id with
  | none => exact refl v
  | some r =>
      refine of_same (BindingTable.handleOf_follow v.bindings hr) (List.prefix_refl _) ?_
      exact fun _ => leases_of_same rfl

theorem followed {a : Announcement} {m : Mood} (ha : a.change ≠ .added)
    (haccepted : Accepted v (v.followed t a m)) : Harmless v (v.followed t a m) := by
  obtain ⟨change, e⟩ := a
  by_cases hstarted : v.started = true
  · simp only [Standing.followed, if_pos hstarted] at haccepted ⊢
    cases change with
    | added => exact absurd rfl ha
    | removed =>
        by_cases hediting : v.bindings.isEditing t = true
        · simp only [if_pos hediting]
          exact refl v
        · simp only [if_neg hediting] at haccepted ⊢
          exact unbound haccepted
    | modified => exact changed (fun _ _ _ => rfl) (fun _ _ => rfl)
    | enableChanged => exact changed (fun _ _ _ => rfl) (fun _ hid => hid)
    | statusChanged => exact refl v
  · simp only [Standing.followed, if_neg hstarted]
    exact refl v

/-- Nothing is lost as long as no event is added. -/
theorem edited {x : BreakpointStore Listener × List Announcement} (hedited : Edited s t st x v v')
    (hx : ∀ a ∈ x.2, a.change ≠ .added) (haccepted : Accepted v v') : Harmless v v' := by
  have hput : Harmless v (v.putStore st x.1) := of_eq rfl rfl
  refine hput.trans (chain hedited haccepted (fun _ _ _ h => h.dealt) fun a ha w w' hw haccepted => ?_)
  simp only [Announced] at hw
  split at hw
  · exact hw ▸ refl w
  · obtain ⟨m, rfl⟩ := hw
    exact followed (hx a ha) haccepted

theorem revisions (hrevisions : Revisions s t st true v v') (haccepted : Accepted v v') :
    Harmless v v' := by
  induction hrevisions with
  | refl => exact refl v
  | tail hfirst hlast ih =>
      obtain ⟨haccepted₁, haccepted₂⟩ :=
        haccepted.split (Tended.revisions hfirst).grown (Tended.revised hlast).grown
      obtain ⟨x, hx, hedited⟩ := hlast
      refine (ih haccepted₁).trans (edited hedited (fun a ha hadded => ?_) haccepted₂)
      have hplace := hx.inPlace a ha
      rw [hadded] at hplace
      cases hplace

theorem letGo (hv : Hooked s v) (hletgo : LetGo s t v v') (haccepted : Accepted v v') :
    Harmless v v' := by
  obtain ⟨u, hunbound, hbindings, hexchanges⟩ := hletgo.unbound hv
  have haccepted' : Accepted v.detached u := by
    simp only [Accepted, since] at haccepted ⊢
    rwa [← hexchanges]
  have hdetached : Harmless v v.detached := of_eq rfl rfl
  refine (hdetached.trans ?_).trans (of_eq hbindings hexchanges)
  apply chain hunbound haccepted'
  · rintro e w _ ⟨m, rfl⟩
    exact Dealt.unbound e.id m w
  · rintro e - w _ ⟨m, rfl⟩ haccepted
    exact unbound haccepted

theorem dispatched (hv : Sound s v) (hdispatched : Dispatched s t v v')
    (haccepted : Accepted v v') : Harmless v v' := by
  rcases hdispatched with hspared | ⟨v₁, v₂, hspared, hswapped, hspared'⟩
  · exact spared hspared
  · have hfirst := spared hspared
    have hlast := spared hspared'
    have hgrown := (Tended.swapped hswapped).grown
    have haccepted' := (haccepted.split hfirst.grown (hgrown.trans hlast.grown)).2
    obtain ⟨v₃, hletgo, rfl⟩ := hswapped
    have hletgo' := letGo (hv.of_spared hspared).toHooked hletgo (haccepted'.split hgrown hlast.grown).1
    have hpointed : Harmless v₃ (v₃.pointedAt none) := of_eq rfl rfl
    exact (hfirst.trans (hletgo'.trans hpointed)).trans hlast

end Harmless

theorem Announced.ignored {a : Announcement} (hv : Announced s t st a v v')
    (hdeaf : hooks s (v.store st) = [] ∨ v.started = false) : v' = v := by
  simp only [Announced] at hv
  split at hv
  · exact hv
  · rename_i hhooks
    obtain ⟨m, rfl⟩ := hv
    have hstarted := hdeaf.resolve_left hhooks
    simp [followed, hstarted]

theorem followed_added {e : BreakEvent} {m : Mood} (hstarted : v.started = true)
    (hidle : v.bindings.isEditing t = false) : v.followed t ⟨.added, e⟩ m = v.bound e m := by
  simp [followed, hstarted, hidle]

theorem followed_removed {e : BreakEvent} {m : Mood} (hstarted : v.started = true)
    (hidle : v.bindings.isEditing t = false) :
    v.followed t ⟨.removed, e⟩ m = v.unbound e.id m := by
  simp [followed, hstarted, hidle]

/-- An addition that is heard of binds the event, whether it is bound or not. -/
theorem Announced.added {e : BreakEvent} (hv : Announced s t st ⟨.added, e⟩ v v')
    (hidle : v.bindings.isEditing t = false) :
    v' = v ∨ BoundAll [e] v v' ∧ v'.since v.exchanges ≠ [] := by
  simp only [Announced] at hv
  split at hv
  · exact .inl hv
  · obtain ⟨m, rfl⟩ := hv
    by_cases hstarted : v.started = true
    · rw [followed_added hstarted hidle]
      refine .inr ⟨.cons ⟨m, rfl⟩ (.nil _), ?_⟩
      have hsince : (v.bound e m).since v.exchanges = [⟨.insert e, m (.insert e)⟩] := since_append rfl
      rw [hsince]
      exact List.cons_ne_nil _ _
    · exact .inl (by simp [followed, hstarted])

theorem Leased.not_mem_unbound (hleased : Leased live v) (id : BreakEventId) (m : Mood)
    (handle : BindingHandle) : (id, handle) ∉ leases live v (v.unbound id m) := by
  rw [leases_unbound]
  intro hmem
  cases hhandle : v.bindings.handleOf id with
  | none =>
      rw [hhandle] at hmem
      cases hhandle.symm.trans (hleased (id, handle) hmem)
  | some handle' =>
      rw [hhandle] at hmem
      obtain ⟨hmem, hne⟩ := List.mem_filter.mp hmem
      cases hhandle.symm.trans (hleased (id, handle) hmem)
      simp at hne

/-- An event that is moved by its removal and addition is unbound before it is bound again. -/
theorem Leased.readded {old new : BreakEvent} {v₁ : Standing}
    (hremoved : Announced s t st ⟨.removed, old⟩ v v₁) (hadded : Announced s t st ⟨.added, new⟩ v₁ v')
    (hid : new.id = old.id) (hidle : v.bindings.isEditing t = false) (htracked : Tracked past live v)
    (horderly : Orderly (v'.since past)) (hleased : Leased live v) :
    Leased (leases live v v') v' := by
  have hdealt := hremoved.dealt
  have hdealt' := hadded.dealt
  by_cases hdeaf : hooks s (v.store st) = [] ∨ v.started = false
  · obtain rfl := hremoved.ignored hdeaf
    obtain rfl := hadded.ignored hdeaf
    exact (Harmless.refl v').leased live hleased
  · rw [not_or] at hdeaf
    have hstarted : v.started = true := by simpa using hdeaf.2
    rw [Announced, if_neg hdeaf.1] at hremoved
    obtain ⟨m, rfl⟩ := hremoved
    rw [followed_removed hstarted hidle] at hadded hdealt hdealt'
    have hidle' : (v.unbound old.id m).bindings.isEditing t = false := by
      rwa [BindingTable.isEditing, hdealt.openEdits]
    have haccepted := htracked.accepted (hdealt.grown.trans hdealt'.grown) horderly
    have hleased' : Leased (leases live v (v.unbound old.id m)) (v.unbound old.id m) :=
      (Harmless.unbound (haccepted.split hdealt.grown hdealt'.grown).1).leased live hleased
    have htracked' := htracked.leases hdealt.grown
    rw [leases_trans hdealt.grown hdealt'.grown]
    rcases hadded.added hidle' with rfl | ⟨hbound, -⟩
    · rwa [leases_of_same rfl]
    · apply (hbound.leased_iff (by simp) htracked' horderly hleased').mpr
      rintro ⟨e, he, handle, hmem⟩
      rw [List.mem_singleton.mp he, hid] at hmem
      exact hleased.not_mem_unbound old.id m handle hmem

def leasesAfter (turn : Turn) (live : Leases) (v v' : Standing) : Leases :=
  match turn with
  | .perform _ (.fileUnloaded _) =>
    (leases live v v').filter fun p =>
      !(v.bindings.handleOf p.1 == some p.2 && (v'.bindings.get? p.1).isNone)
  | _ => leases live v v'

def Rebound (live : Leases) (v v' : Standing) : Turn → Prop
  | .perform _ (.edit _ (.add e)) =>
    v'.since v.exchanges ≠ [] ∧ ∃ handle, (e.id, handle) ∈ live
  | .perform _ (.started _) => ∃ e ∈ v'.attachedEvents, ∃ handle, (e.id, handle) ∈ live
  | .perform _ (.fileLoaded file) =>
    v.session.config.autoRetry = true ∧ ∃ r ∈ v.waiting file, ∃ handle, (r.id, handle) ∈ live
  | .perform _ (.attach _) =>
    v.started = true ∧ ∃ e ∈ v'.attachedEvents, ∃ handle, (e.id, handle) ∈ live ∧
      ∀ old ∈ v.attachedEvents, v.bindings.handleOf old.id ≠ some handle
  | _ => False

theorem attachedEvents_of_dealt (hdealt : Dealt v v') : v'.attachedEvents = v.attachedEvents := by
  have hstore : v'.session.store = v.session.store := by rw [hdealt.session]
  simp only [attachedEvents, hstore, hdealt.store]

theorem Leased.of_started (hleased : Leased live v) (hv : Sound s v) (hstarted : Started s t v v')
    (htracked : Tracked past live v) (horderly : Orderly (v'.since past)) :
    Leased (leases live v v') v' ↔
      ¬ ∃ e ∈ v'.attachedEvents, ∃ handle, (e.id, handle) ∈ live := by
  obtain ⟨v₁, st, v₂, hspared, hprovided, hbound⟩ := hstarted
  obtain ⟨hbindings, hexchanges⟩ : v₂.bindings = v₁.bindings ∧ v₂.exchanges = v₁.exchanges :=
    hprovided.idle
  have hspared' : Harmless v v₁ := .spared hspared
  have hprovided' : Harmless v₁ v₂ := .of_eq hbindings hexchanges
  have hsame : leases live v v₂ = live := by
    rw [leases_trans hspared'.grown hprovided'.grown, leases_of_same hexchanges]
    obtain ⟨added, hadded, hbinding⟩ := hspared.exchanges
    rw [leases, since_append hadded]
    exact leases_of_not_binding live hbinding
  have hharmless := hspared'.trans hprovided'
  have hleased₂ : Leased live v₂ := hsame ▸ hharmless.leased live hleased
  have htracked₂ : Tracked past live v₂ := hsame ▸ htracked.leases hharmless.grown
  have hunique := ((hv.of_spared hspared).initialized.provided hprovided).unique st
  rw [leases_trans hharmless.grown (BoundAll.dealt hbound).grown, hsame,
    attachedEvents_of_dealt (BoundAll.dealt hbound), hprovided.attachedEvents]
  exact hbound.leased_iff hunique htracked₂ horderly hleased₂

theorem attachedEvents_subscribed (hstore : v.session.store = some st) :
    (v.subscribed s st).attachedEvents = (v.store st).events := by
  have hstore' : (v.subscribed s st).session.store = some st := hstore
  simp only [attachedEvents, hstore', store_subscribed]
  split <;> rfl

/-- Letting go of a store ends the leases of all that it holds. -/
theorem LetGo.mem_leases (hv : Hooked s v) (hletgo : LetGo s t v v') (haccepted : Accepted v v')
    {p : BreakEventId × BindingHandle} :
    p ∈ leases live v v' ↔
      p ∈ live ∧ ∀ old ∈ v.attachedEvents, v.bindings.handleOf old.id ≠ some p.2 := by
  obtain ⟨u, hunbound, -, hexchanges⟩ := hletgo.unbound hv
  have hsince : v'.since v.exchanges = u.since v.detached.exchanges := by
    rw [since, hexchanges]
    rfl
  rw [Accepted, hsince] at haccepted
  rw [leases, hsince]
  exact hunbound.mem_leases haccepted

theorem Leased.swapped {new : Option StoreId} (hleased : Leased live v) (hv : Sound s v)
    (hswapped : Swapped s t new v v') (htracked : Tracked past live v)
    (horderly : Orderly (v'.since past)) :
    Leased (leases live v v') v' ↔
      ¬ (v.started = true ∧ ∃ e ∈ v'.attachedEvents, ∃ handle, (e.id, handle) ∈ live ∧
        ∀ old ∈ v.attachedEvents, v.bindings.handleOf old.id ≠ some handle) := by
  have hgrown := (Tended.swapped hswapped).grown
  have haccepted := htracked.accepted hgrown horderly
  obtain ⟨v₁, hletgo, hattach⟩ := hswapped
  have htended := Tended.letGo hletgo
  have hunique := (hletgo.clear hv.toHooked).2.2.2 hv.unique
  cases new with
  | none =>
      subst hattach
      have hharmless := Harmless.letGo hv.toHooked hletgo haccepted
      apply iff_of_true (hharmless.leased live hleased)
      rintro ⟨-, e, he, -⟩
      cases he
  | some st =>
      obtain ⟨v₂, hbound, rfl⟩ := hattach
      have hdealt := hbound.dealt
      have hharmless :=
        Harmless.letGo hv.toHooked hletgo (haccepted.split htended.grown hdealt.grown).1
      have hleased₁ : Leased (leases live v v₁) (v₁.pointedAt (some st)) :=
        hharmless.leased live hleased
      have hsplit : leases live v (v₂.subscribed s st) =
          leases (leases live v v₁) (v₁.pointedAt (some st)) v₂ :=
        leases_trans htended.grown hdealt.grown
      change Leased _ v₂ ↔ _
      rw [hsplit]
      by_cases hstarted : v.started = true
      · have hstarted₁ : (v₁.pointedAt (some st)).started = true := htended.started.trans hstarted
        rw [BoundIfStarted, if_pos hstarted₁] at hbound
        have htracked₁ := htracked.leases htended.grown
        have htracked₂ : Tracked past (leases live v v₁) (v₁.pointedAt (some st)) :=
          ⟨htracked₁.grown, htracked₁.issued⟩
        apply (hbound.leased_iff (hunique st) htracked₂ horderly hleased₁).trans
        have hstore₂ : v₂.session.store = some st := by
          rw [hdealt.session]
          rfl
        have hevents : (v₂.subscribed s st).attachedEvents = (v₁.store st).events := by
          rw [attachedEvents_subscribed hstore₂, hdealt.store]
          rfl
        have haccepted₁ := (haccepted.split htended.grown hdealt.grown).1
        rw [hevents, and_iff_right hstarted]
        simp only [hletgo.mem_leases hv.toHooked haccepted₁]
        rfl
      · have hstarted₁ : ¬ (v₁.pointedAt (some st)).started = true := by
          rwa [show (v₁.pointedAt (some st)).started = v.started from htended.started]
        rw [BoundIfStarted, if_neg hstarted₁] at hbound
        subst hbound
        rw [leases_of_same rfl]
        exact iff_of_true hleased₁ fun h => hstarted h.1

theorem Leased.edited {e : Edit} {x : BreakpointStore Listener × List Announcement}
    (hleased : Leased live v) (hv : Sound s v) (happly : (v.store st).apply e = .ok x)
    (hedited : Edited s t st x v v') (htracked : Tracked past live v)
    (horderly : Orderly (v'.since past)) :
    Leased (leases live v v') v' ↔ ¬ Rebound live v v' (.perform t (.edit st e)) := by
  have hgrown : v.exchanges <+: v'.exchanges := hedited.dealt.grown
  have haccepted := htracked.accepted hgrown horderly
  have hharmless (he : ∀ e', e ≠ .add e') : Leased (leases live v v') v' := by
    refine (Harmless.edited hedited (fun a ha hadded => ?_) haccepted).leased live hleased
    exact he _ (BreakpointStore.added_of_apply happly ha hadded)
  cases e with
  | add e =>
      cases happly
      cases hedited with
      | @cons _ _ _ v₁ _ hadded hnil =>
          cases hnil
          rcases hadded.added (hv.isEditing t) with rfl | ⟨hbound, hasked⟩
          · apply iff_of_true ((Harmless.of_eq rfl rfl).leased live hleased)
            rintro ⟨hasked, -⟩
            exact hasked (since_self _)
          · refine (hbound.leased_iff (by simp) ⟨htracked.grown, htracked.issued⟩ horderly
              hleased).trans (not_congr ?_)
            constructor
            · rintro ⟨e', he', hlive⟩
              obtain rfl := List.mem_singleton.mp he'
              exact ⟨hasked, hlive⟩
            · rintro ⟨-, hlive⟩
              exact ⟨e, List.mem_singleton.mpr rfl, hlive⟩
  | remove _ | clear | enable _ _ | condition _ _ | move _ _ =>
      refine iff_of_true (hharmless ?_) fun h => h
      intro e' he
      cases he

theorem Forgotten.get? {rs : List BindingRecord} (hforgotten : Forgotten rs v v')
    (id : BreakEventId) : v'.bindings.get? id =
      if id ∈ rs.map (·.id) then none else v.bindings.get? id := by
  simp only [Forgotten] at hforgotten
  induction hforgotten with
  | nil v => simp
  | @cons r rest v v' v'' hx hrest ih =>
      subst hx
      have hremoved : (v.rebind (v.bindings.remove r.id)).bindings.get? id =
          if id = r.id then none else v.bindings.get? id := BindingTable.get?_remove v.bindings r.id id
      rw [ih, hremoved]
      by_cases hid : id = r.id
      · simp [hid]
      · simp [hid]

theorem Forgotten.exchanges {rs : List BindingRecord} (hforgotten : Forgotten rs v v') :
    v'.exchanges = v.exchanges := by
  simp only [Forgotten] at hforgotten
  induction hforgotten with
  | nil v => rfl
  | cons hx _ ih =>
      subst hx
      exact ih

theorem Leased.forgotten {rs : List BindingRecord} (hleased : Leased live v)
    (hforgotten : Forgotten rs v v') :
    Leased (live.filter fun p =>
      !(v.bindings.handleOf p.1 == some p.2 && (v'.bindings.get? p.1).isNone)) v' := by
  intro p hp
  obtain ⟨hp, hkept⟩ := List.mem_filter.mp hp
  have hself := hleased p hp
  have hsome : v'.bindings.get? p.1 ≠ none := by
    intro hnone
    simp [hself, hnone] at hkept
  rw [hforgotten.get?] at hsome
  have hget := hforgotten.get? p.1
  split at hsome
  · exact absurd rfl hsome
  · rename_i hmem
    rw [BindingTable.handleOf, hget, if_neg hmem]
    exact hself

/-- A file is loaded and its records are bound again. -/
theorem Leased.retried {file : String} (hleased : Leased live v) (hv : Sound s v)
    (hbound : BoundAll ((v.waiting file).map (·.breakEvent)) v v') (htracked : Tracked past live v)
    (horderly : Orderly (v'.since past)) :
    Leased (leases live v v') v' ↔ ¬ ∃ r ∈ v.waiting file, ∃ handle, (r.id, handle) ∈ live := by
  have hids : (((v.waiting file).map (·.breakEvent)).map (·.id)).Nodup := by
    rw [List.map_map]
    exact hv.distinct.sublist (List.filter_sublist.map _)
  refine (hbound.leased_iff hids htracked horderly hleased).trans (not_congr ?_)
  constructor
  · rintro ⟨e, he, hlive⟩
    obtain ⟨r, hr, rfl⟩ := List.mem_map.mp he
    exact ⟨r, hr, hlive⟩
  · rintro ⟨r, hr, hlive⟩
    exact ⟨r.breakEvent, List.mem_map_of_mem hr, hlive⟩

/-- An event is moved by a call of its store. -/
theorem Leased.adjusted {x y : BreakpointStore Listener} {a : LineAdjustment} {id : BreakEventId}
    {line : Nat} (hleased : Leased live v) (hv : Sound s v)
    (hadjust : x.adjust id line = .ok (y, some a))
    (hedited : Chain (Announced s t st) a.announcements (v.putStore st y) v')
    (htracked : Tracked past live v) (horderly : Orderly (v'.since past)) :
    Leased (leases live v v') v' := by
  rcases BreakpointStore.adjust_cases hadjust with ⟨-, hnone⟩ | ⟨e, before, -, -, -, -, ha⟩
  · cases hnone
  · cases ha
    cases hedited with
    | cons hremoved hrest =>
        cases hrest with
        | cons hadded hnil =>
            cases hnil
            have htracked' : Tracked past live (v.putStore st y) :=
              ⟨htracked.grown, htracked.issued⟩
            exact Leased.readded (v := v.putStore st y) hremoved hadded
              (e.withLine_id line) (hv.isEditing t) htracked' horderly hleased

/-- It is just the turns that bind an event twice that lose a handle. -/
theorem Leased.turn_iff {turn : Turn} (hleased : Leased live v) (hv : Sound s v)
    (hturn : TurnEffect s v turn v') (htracked : Tracked past live v)
    (horderly : Orderly (v'.since past)) :
    Leased (leasesAfter turn live v v') v' ↔ ¬ Rebound live v v' turn := by
  have haccepted := htracked.accepted (Lasting.turn hturn).grown horderly
  have hharmless (h : Harmless v v') : Leased (leases live v v') v' ↔ ¬ False :=
    iff_of_true (h.leased live hleased) fun h => h
  cases turn with
  | work => exact hharmless (.dispatched hv hturn haccepted)
  | choose m hm => exact hharmless (.spared hturn)
  | perform t o =>
      have heffect : Effect s t v o v' := hturn
      cases o with
      | command k => exact hharmless (.dispatched hv heffect haccepted)
      | started thread => exact hleased.of_started hv heffect htracked horderly
      | fileLoaded file =>
          simp only [Effect] at heffect
          split at heffect
          · rename_i hretry
            exact (hleased.retried hv heffect htracked horderly).trans
              (not_congr (and_iff_right hretry).symm)
          · rename_i hretry
            subst heffect
            apply iff_of_true ((Harmless.refl v').leased live hleased)
            exact fun h => hretry h.1
      | fileUnloaded file =>
          refine iff_of_true ?_ fun h => h
          simp only [Effect] at heffect
          split at heffect
          · simp only [leasesAfter, leases_of_same heffect.exchanges]
            exact hleased.forgotten heffect
          · subst heffect
            simp only [leasesAfter, leases_of_same rfl]
            exact fun p hp => hleased p (List.mem_filter.mp hp).1
      | setStatus handle status message =>
          obtain rfl : v' = _ := heffect
          refine hharmless (.of_same (fun id => ?_) (List.prefix_refl _) fun _ => leases_of_same rfl)
          exact BindingTable.handleOf_setStatus v.bindings handle status message id
      | adjust id line =>
          apply hharmless
          simp only [Effect] at heffect
          split at heffect
          · exact heffect ▸ .refl v
          · rename_i hstore
            rcases heffect.moved hstore with rfl | ⟨e, x, -, rfl, -⟩
            · exact .refl v'
            · exact (Harmless.moved e v).trans (.of_eq rfl rfl)
      | attach new => exact hleased.swapped hv heffect htracked horderly
      | breakpoints =>
          obtain ⟨st, hprovided⟩ := heffect
          exact hharmless (.of_eq hprovided.idle.1 hprovided.idle.2)
      | edit st e =>
          rcases heffect with rfl | ⟨x, happly, hedited⟩
          · apply iff_of_true ((Harmless.refl v').leased live hleased)
            cases e with
            | add e => exact fun h => h.1 (since_self v')
            | _ => exact fun h => h
          · exact hleased.edited hv happly hedited htracked horderly
      | adjustLine st id line =>
          refine iff_of_true ?_ fun h => h
          rcases heffect with rfl | ⟨x, a, hadjust, hedited⟩
          · exact (Harmless.refl v').leased live hleased
          · exact hleased.adjusted hv hadjust hedited htracked horderly
      | resetAdjusted st => exact hharmless (.revisions heffect haccepted)
      | _ => exact hharmless (.spared heffect)

end Standing

def World.attachedEvents {σ : Type} (w : World σ) (s : SessionId) : List BreakEvent :=
  match (w.session s).store with
  | none => []
  | some st => (w.store st).events

structure Lending (σ : Type) where
  world : World σ
  live : Leases := []

namespace Lending

variable {σ : Type} (h : Host σ) (L : Ledger σ)

/-- A handle is out from when the engine gives it out until its removal is asked for, or its record
is dropped with a file that is unloaded. -/
def after (x : Lending σ) (turn : Turn) : Lending σ where
  world := turn.after h L.session x.world
  live :=
    let live := Exchange.leases x.live (turn.asked h L x.world)
    match turn with
    | .perform _ (.fileUnloaded _) => live.filter fun p =>
      !((x.world.session L.session).bindings.handleOf p.1 == some p.2 &&
        (((turn.after h L.session x.world).session L.session).bindings.get? p.1).isNone)
    | _ => live

def afterAll (x : Lending σ) (turns : List Turn) : Lending σ := turns.foldl (after h L) x

def asked (x y : Lending σ) : List Exchange :=
  (L.entries y.world.host).drop (L.entries x.world.host).length

/-- No event has two handles that are out, and each is the one in the record. -/
def Single (s : SessionId) (x : Lending σ) : Prop :=
  ∀ p ∈ x.live, (x.world.session s).bindings.handleOf p.1 = some p.2

def Out (x : Lending σ) (id : BreakEventId) : Prop := ∃ handle, (id, handle) ∈ x.live

/-- An event is bound that is bound already: it is added again, the engine starts again, a file is
loaded while the event waits with a handle, or another store is attached that has it too. -/
def Rebinds (x : Lending σ) (turn : Turn) : Prop :=
  match turn with
  | .perform _ (.edit _ (.add e)) => turn.asked h L x.world ≠ [] ∧ x.Out e.id
  | .perform _ (.started _) =>
    ∃ e ∈ (turn.after h L.session x.world).attachedEvents L.session, x.Out e.id
  | .perform _ (.fileLoaded file) =>
    (x.world.session L.session).config.autoRetry = true ∧
      ∃ r ∈ x.world.waiting L.session file, x.Out r.id
  | .perform _ (.attach _) =>
    (x.world.session L.session).lifecycle.started = true ∧
      ∃ e ∈ (turn.after h L.session x.world).attachedEvents L.session,
        ∃ handle, (e.id, handle) ∈ x.live ∧ ∀ old ∈ x.world.attachedEvents L.session,
          (x.world.session L.session).bindings.handleOf old.id ≠ some handle
  | _ => False

end Lending

namespace Ledger

variable {σ : Type} {L : Ledger σ} {h : Host σ} {w : World σ} {v v' : Standing}

theorem Shows.attachedEvents (hw : L.Shows w v) : w.attachedEvents L.session = v.attachedEvents := by
  simp only [World.attachedEvents, hw.world_session, Standing.attachedEvents]
  cases v.session.store with
  | none => rfl
  | some st => simp only [hw.world_store]

theorem Shows.asked (hw : L.Shows w v) {turn : Turn} (hw' : L.Shows (turn.after h L.session w) v') :
    turn.asked h L w = v'.since v.exchanges := by
  rw [Turn.asked, hw'.exchanges, hw.exchanges]
  rfl

theorem Shows.leasesAfter {x : Lending σ} (hw : L.Shows x.world v) {turn : Turn}
    (hw' : L.Shows (turn.after h L.session x.world) v') :
    (x.after h L turn).live = Standing.leasesAfter turn x.live v v' := by
  simp only [Lending.after, Standing.leasesAfter, hw.asked hw', hw.world_session, hw'.world_session]
  rfl

theorem Shows.rebinds_iff {x : Lending σ} (hw : L.Shows x.world v) {turn : Turn}
    (hw' : L.Shows (turn.after h L.session x.world) v') :
    x.Rebinds h L turn ↔ Standing.Rebound x.live v v' turn := by
  have hattached := hw.attachedEvents
  have hattached' := hw'.attachedEvents
  cases turn with
  | work | choose m hm => exact Iff.rfl
  | perform t o =>
      cases o with
      | edit st e =>
          cases e with
          | add e =>
              simp only [Lending.Rebinds, Standing.Rebound, hw.asked hw']
              exact Iff.rfl
          | _ => exact Iff.rfl
      | started thread =>
          simp only [Lending.Rebinds, Standing.Rebound, hattached']
          exact Iff.rfl
      | fileLoaded file =>
          simp only [Lending.Rebinds, Standing.Rebound, hw.world_session, hw.waiting]
          exact Iff.rfl
      | attach new =>
          simp only [Lending.Rebinds, Standing.Rebound, hw.world_session, hattached, hattached']
      | _ => exact Iff.rfl

structure Lends (L : Ledger σ) (config : SessionConfig) (past : List Exchange) (x : Lending σ)
    (v : Standing) : Prop extends L.Knows config x.world v where
  tracked : Standing.Tracked past x.live v

theorem Lends.turn {config : SessionConfig} {past : List Exchange} {x : Lending σ}
    (quiet : L.Quiet h) (hx : L.Lends config past x v) (turn : Turn) :
    ∃ v', L.Lends config past (x.after h L turn) v' ∧ Standing.TurnEffect L.session v turn v' := by
  obtain ⟨v', hv', hturn⟩ := hx.toKnows.turn quiet turn
  have htracked := hx.tracked.leases (Standing.Lasting.turn hturn).grown
  refine ⟨v', ⟨hv', htracked.grown, fun p hp => htracked.issued p ?_⟩, hturn⟩
  rw [hx.seen.leasesAfter hv'.seen] at hp
  simp only [Standing.leasesAfter] at hp
  split at hp
  · exact (List.mem_filter.mp hp).1
  · exact hp

/-- Whatever happens to a session, as long as its engine ends bindings when it is asked to and gives
no handle out twice: each event has at most one handle that is out, and that is the one in its
record, just if no turn binds an event that is bound. -/
theorem single_iff_nothing_rebound (quiet : L.Quiet h) {config : SessionConfig}
    (hopened : w.Opened L.session config) (before turns : List Turn)
    (horderly : Orderly (Lending.asked L ⟨Turn.afterAll h L.session w before, []⟩
      (Lending.afterAll h L ⟨Turn.afterAll h L.session w before, []⟩ turns))) :
    Throughout (Lending.after h L) (Lending.Single L.session)
        ⟨Turn.afterAll h L.session w before, []⟩ turns ↔
      Nowhere (Lending.after h L) (Lending.Rebinds h L)
        ⟨Turn.afterAll h L.session w before, []⟩ turns := by
  obtain ⟨v₀, output, hv₀, -⟩ := knows_of_opened hopened
  obtain ⟨v, hv⟩ := hv₀.afterAll quiet before
  have hexchanges := hv.seen.exchanges
  refine throughout_iff_nowhere (I := fun x => ∃ v', L.Lends config v.exchanges x v')
    (C := fun x => Orderly ((L.entries x.world.host).drop v.exchanges.length)) ?_ ?_ ?_
    ⟨v, hv, List.prefix_refl _, by simp⟩ (hexchanges ▸ horderly) (by simp [Lending.Single])
  · rintro x turn ⟨v, hx⟩
    obtain ⟨v', hx', -⟩ := hx.turn quiet turn
    exact ⟨v', hx'⟩
  · rintro x turn ⟨v, hx⟩ horderly'
    obtain ⟨v', hx', hturn⟩ := hx.turn quiet turn
    rw [hx'.seen.exchanges] at horderly'
    rw [hx.seen.exchanges]
    exact horderly'.of_lead (Standing.since_prefix (Standing.Lasting.turn hturn).grown hx.tracked.grown)
  · rintro x turn ⟨v, hx⟩ horderly' hsingle
    obtain ⟨v', hx', hturn⟩ := hx.turn quiet turn
    rw [hx'.seen.exchanges] at horderly'
    rw [hx.seen.rebinds_iff hx'.seen]
    have hleased : Standing.Leased x.live v := by
      simp only [Lending.Single, hx.seen.world_session] at hsingle
      exact hsingle
    have hiff := hleased.turn_iff hx.sound hturn hx.tracked horderly'
    rw [← hiff, ← hx.seen.leasesAfter hx'.seen]
    simp only [Lending.Single, hx'.seen.world_session]
    exact Iff.rfl

def breakpointBefore : World Scripted.State :=
  Turn.afterAll (Scripted.host Scripted.willing) Scripted.self (Scripted.opened {}) <|
    Scripted.calls [.breakpoints, .edit ⟨0⟩ (.add (Scripted.breakpoint 1 10))]

theorem single_while_edited :
    (Lending.afterAll (Scripted.host Scripted.willing) Scripted.ledger ⟨breakpointBefore, []⟩
      (Scripted.calls [.started none, .edit ⟨0⟩ (.add (Scripted.breakpoint 2 20)),
        .edit ⟨0⟩ (.remove ⟨1⟩)])).live =
      [(⟨2⟩, ⟨1⟩)] ∧
    (Throughout (Lending.after (Scripted.host Scripted.willing) Scripted.ledger)
        (Lending.Single Scripted.self) ⟨breakpointBefore, []⟩ (Scripted.calls
          [.started none, .edit ⟨0⟩ (.add (Scripted.breakpoint 2 20)), .edit ⟨0⟩ (.remove ⟨1⟩)]) ↔
      Nowhere (Lending.after (Scripted.host Scripted.willing) Scripted.ledger)
        (Lending.Rebinds (Scripted.host Scripted.willing) Scripted.ledger) ⟨breakpointBefore, []⟩
        (Scripted.calls
          [.started none, .edit ⟨0⟩ (.add (Scripted.breakpoint 2 20)), .edit ⟨0⟩ (.remove ⟨1⟩)])) :=
  ⟨by decide +kernel,
    single_iff_nothing_rebound (Scripted.quiet Scripted.willing) (Scripted.opened_self {})
      (Scripted.calls [.breakpoints, .edit ⟨0⟩ (.add (Scripted.breakpoint 1 10))]) _
      ⟨by decide +kernel, by decide +kernel⟩⟩

/-- The engine starts twice, and the breakpoint is bound twice. -/
theorem not_single_after_second_start :
    ¬ (Lending.afterAll (Scripted.host Scripted.willing) Scripted.ledger ⟨breakpointBefore, []⟩
      (Scripted.calls [.started none, .started none])).Single Scripted.self := by
  intro hsingle
  have hfirst := hsingle (⟨1⟩, ⟨0⟩) (by decide +kernel)
  revert hfirst
  decide +kernel

end Ledger

end DebugSession
