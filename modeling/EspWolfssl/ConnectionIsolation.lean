import EspWolfssl.ObjectLifecycle
import EspWolfssl.OperationReplies
import EspWolfssl.PskCrossTalk
import EspWolfssl.TwinRuns

/-!
A connection without a pre-shared key has the device for itself. Whatever other
connections do in between, also those that give a lock which is not theirs, it
gets the replies and makes the calls it would get and make alone. And a handle
that was closed is set up like a new one.
-/
namespace EspWolfssl.ConnectionIsolation

open ByteRegions MutexOwnership TaggedLogs Platform ProgramLogic RelationalLogic BackendState
  PskClient HandleCreation ConnectionIo GlobalStore BackendSteps OperationFrames CreationOutcomes
  CreationFootprints StepEffects StoreRefinement ObjectLifecycle OperationReplies TwinRuns
  Noninterference GuardedRuns

variable {b : Build}

/-- The operation runs for the handle, or for no handle at all. -/
def concerns (h : Handle) (op : Op) : Bool :=
  match handleOf (kind op) with
  | some k => k == h
  | none => true

/-- The handle is not created with a pre-shared key. -/
def CreatesNoPsk (b : Build) (h : Handle) : Op → Prop
  | .createSslHandle k _ _ _ cfg _ => k = h → NoPsk b cfg
  | _ => True

/-- The states `w` and `v` agree on the handle and the store, and what the handle
did since `w₀` and `v₀` was the same. Unlike twins they may differ in the lock. -/
structure LooksAlike (h : Handle) (w₀ v₀ w v : World b) : Prop where
  shape_eq : shape (w.tls h) = shape (v.tls h)
  store_eq : storeOf w = storeOf v
  reports_eq : reports (w₀.tls h) = reports (v₀.tls h) → reports (w.tls h) = reports (v.tls h)
  calls : ∃ calls, ownCalls h w = ownCalls h w₀ ++ calls ∧ ownCalls h v = ownCalls h v₀ ++ calls

section Alike
variable {h : Handle} {w₀ v₀ w v w' v' : World b}

theorem LooksAlike.start (hshape : shape (w.tls h) = shape (v.tls h))
    (hstore : storeOf w = storeOf v) : LooksAlike h w v w v :=
  ⟨hshape, hstore, fun hr => hr, [], by simp, by simp⟩

theorem LooksAlike.twins (hw : LooksAlike h w₀ v₀ w v) : Twins h w v w v :=
  .start hw.shape_eq hw.store_eq

theorem LooksAlike.of_twins (hw : LooksAlike h w₀ v₀ w v) (hend : Twins h w v w' v') :
    LooksAlike h w₀ v₀ w' v' := by
  refine ⟨hend.shape_eq, hend.store_eq, fun hr => hend.reports_eq (hw.reports_eq hr), ?_⟩
  obtain ⟨first, hleft, hright⟩ := hw.calls
  obtain ⟨calls, hleft', hright'⟩ := hend.calls
  refine ⟨first ++ calls, ?_, ?_⟩
  · rw [hleft', hleft, List.append_assoc]
  · rw [hright', hright, List.append_assoc]

/-- A step for a handle works for that handle only. -/
theorem effect_grows {k : Kind} (heffect : Effect w w' k) (hk : handleOf k = some h) :
    Grows (fun _ => True) h w w' := by
  cases heffect with
  | @opening o ok w₁ w₂ print hend hw' =>
    obtain rfl : o.handle = h := Option.some.inj hk
    subst hw'
    exact ((concluded_grows print hend).mono fun _ _ => trivial).record trivial
  | @deletion k hw' =>
    obtain rfl : k = h := Option.some.inj hk
    subst hw'
    exact ((espWolfsslCleanup_grows k w).mono fun _ _ => trivial).record trivial
  | @callback k _ _ _ _ ans w₁ _ hrun hw' =>
    obtain rfl : k = h := Option.some.inj hk
    subst hw'
    rcases espWolfsslPskClientCb_cases hrun with ⟨_, _, rfl⟩ | ⟨_, _, rfl, _⟩
    · exact (Grows.refl _ k w₁).record trivial
    · exact (giveConnLock_grows trivial k w).record trivial
  | @transfer k work _ =>
    obtain rfl : k = h := Option.some.inj hk
    exact work.toGrows.mono fun _ _ => trivial
  | store _ => cases hk

/-- A step for another handle does not show. -/
theorem looksAlike_of_other {op : Op} {x : Handle} (hw : LooksAlike x w₀ v₀ w v)
    (hstep : step w op = some w') (hx : concerns x op = false) : LooksAlike x w₀ v₀ w' v := by
  have heffect := step_effect hstep
  unfold concerns at hx
  cases hk : handleOf (kind op) with
  | none => simp [hk] at hx
  | some k =>
    have hne : k ≠ x := by simpa [hk] using hx
    have hgrows := effect_grows heffect hk
    have htls := hgrows.others x (Ne.symm hne)
    have hstore : storeOf w' = storeOf w := by
      refine effect_storeOf heffect fun hstore => ?_
      rw [hstore] at hk
      cases hk
    obtain ⟨events, hlog, _⟩ := hgrows.calls
    have hcalls : ownCalls x w' = ownCalls x w := by
      rw [ownCalls, hlog, ownView_append, ownView_other anonymous hne, List.append_nil]
      rfl
    refine ⟨?_, hstore.trans hw.store_eq, ?_, ?_⟩
    · rw [htls]
      exact hw.shape_eq
    · rw [htls]
      exact hw.reports_eq
    · rw [hcalls]
      exact hw.calls

end Alike

section Callback
variable {x : Handle} {w w' : World b}

theorem NoCallback.not_installed (hw : NoCallback x w) : ¬ CallbackInstalled w x :=
  fun hinstalled => hw hinstalled.2

/-- Work for another handle installs no callback. -/
theorem not_installed_of_other {P : Event → Prop} {h : Handle} (hgrows : Grows P h w w')
    (hx : x ≠ h) (hw : ¬ CallbackInstalled w x) : ¬ CallbackInstalled w' x := by
  unfold CallbackInstalled at hw ⊢
  rwa [hgrows.others x hx, hgrows.latest_other _ hx]

theorem reached_of_noPsk {role : Role} {cfg : Cfg} {ans : CreateAnswers} (hcfg : NoPsk b cfg) :
    pskReached b role cfg ans = none := by
  cases hreached : pskReached b role cfg ans with
  | none => rfl
  | some psk =>
    obtain ⟨_, c, rfl, hsource⟩ := source_of_reached hreached
    have hnone : pskSource b c = none := hcfg
    rw [hsource] at hnone
    cases hnone

theorem opening_of_noPsk {op : Op} {o : Opening} (hop : CreatesNoPsk b x op)
    (ho : kind op = .opening o) (hx : o.handle = x) : o.reached b = none := by
  cases op with
  | createSslHandle h role sockfd hostname cfg ans =>
    cases ho
    exact reached_of_noPsk (hop hx)
  | serverSessionCreate h cfg sockfd ans accepts =>
    cases h with
    | none => cases ho
    | some h =>
      cases cfg with
      | none => cases ho
      | some cfg =>
        cases ho
        rfl
  | connDelete h => cases h <;> cases ho
  | serverSessionDelete h => cases h <;> cases ho
  | _ => cases ho

/-- An accepted opening makes a context without the callback, a rejected one
leaves no session object. -/
theorem step_not_installed {op : Op} (hw : ¬ CallbackInstalled w x)
    (hop : CreatesNoPsk b x op) (hstep : step w op = some w') : ¬ CallbackInstalled w' x := by
  have heffect := step_effect hstep
  cases hk : handleOf (kind op) with
  | none =>
    generalize kind op = k at heffect hk
    cases heffect with
    | store hw' =>
      subst hw'
      exact hw
    | _ => cases hk
  | some k =>
    by_cases hx : k = x
    swap
    · exact not_installed_of_other (effect_grows heffect hk) (Ne.symm hx) hw
    subst hx
    have hopening := fun o => opening_of_noPsk (o := o) hop
    generalize kind op = k' at heffect hk hopening
    cases heffect with
    | @opening o ok w₁ w₂ print hend hw' =>
      obtain rfl : o.handle = k := Option.some.inj hk
      subst hw'
      cases hend with
      | accepted _ _ hcallback rest =>
        have hquiet : latest callbackSetting o.handle w₂.log ≠ some true :=
          (hcallback (hopening o rfl rfl)).extend rest
        refine NoCallback.not_installed ?_
        unfold NoCallback
        rw [World.record_log, latest_append, latest_single]
        simpa [callbackSetting] using hquiet
      | rejected _ _ hcleared => exact PskCrossTalk.not_installed_of_cleared hcleared
    | @deletion h hw' =>
      obtain rfl : h = k := Option.some.inj hk
      subst hw'
      exact PskCrossTalk.not_installed_of_cleared (espWolfsslCleanup_cleared h w)
    | @callback h _ _ _ _ _ _ hinstalled _ _ =>
      obtain rfl : h = k := Option.some.inj hk
      exact absurd hinstalled hw
    | @transfer h work hkeep =>
      obtain rfl : h = k := Option.some.inj hk
      have hssl : (w'.tls h).privSsl = (w.tls h).privSsl := congrArg Prod.snd hkeep
      rintro ⟨hinstalled, hsetting⟩
      rw [hssl] at hinstalled
      have hquiet : latest callbackSetting h w.log ≠ some true := fun h' => hw ⟨hinstalled, h'⟩
      exact NoCallback.extend hquiet work hsetting
    | store _ => cases hk

end Callback

section Own
variable {h : Handle} {w₀ v₀ w v w' : World b} {r : Reply}

/-- An operation that runs alike replies and looks alike. -/
theorem answering_alike {α : Type} {m : Backend b α} {reply : α → Reply}
    {after : α → World b → World b} {w₁ v₁ : World b} (hw : LooksAlike h w₀ v₀ w v)
    (hstart : Twins h w v w₁ v₁) (hm : Twin h w v m m)
    (hafter : ∀ a u u', Twins h w v u u' → Twins h w v (after a u) (after a u'))
    (hrun : answering m reply after w₁ = some (r, w')) :
    ∃ v', answering m reply after v₁ = some (r, v') ∧ LooksAlike h w₀ v₀ w' v' := by
  obtain ⟨a, u, hmw, rfl, rfl⟩ := answering_eq_some.mp hrun
  obtain ⟨_, u', hmv, rfl, hend⟩ := hm.of_ok hstart hmw
  exact ⟨_, answering_eq_some.mpr ⟨a, u', hmv, rfl, rfl⟩, hw.of_twins (hafter a u u' hend)⟩

theorem freeGlobalCaStore_twins (hw : Twins h w₀ v₀ w v) :
    Twins h w₀ v₀ (espWolfsslFreeGlobalCaStore w) (espWolfsslFreeGlobalCaStore v) := by
  have hblock : w.globalCacert = v.globalCacert := congrArg Prod.fst hw.store_eq
  unfold espWolfsslFreeGlobalCaStore
  rw [hblock]
  split
  · exact ⟨hw.shape_eq, rfl, hw.reports_eq, hw.lock_eq, hw.calls⟩
  · exact hw

theorem setGlobalCaStore_twin (cacertPemBuf : Option Buffer) (malloc : Bool) :
    Twin h w₀ v₀ (espWolfsslSetGlobalCaStore cacertPemBuf malloc : Backend b EspErr)
      (espWolfsslSetGlobalCaStore cacertPemBuf malloc) := by
  cases cacertPemBuf with
  | none => exact Twin.pure _
  | some buf =>
    have hfree : Twin h w₀ v₀ (Prog.modify espWolfsslFreeGlobalCaStore : Backend b Unit)
        (Prog.modify espWolfsslFreeGlobalCaStore) :=
      RelationalLogic.Matched.modify fun _ _ hw => freeGlobalCaStore_twins hw
    refine hfree.bind fun _ => Twin.ite ?_ ?_
    · cases storeBlock buf with
      | none => exact Twin.stop _
      | some block =>
        refine Twin.bind (RelationalLogic.Matched.modify fun _ _ hw => ?_) fun _ => Twin.pure _
        exact ⟨hw.shape_eq, rfl, hw.reports_eq, hw.lock_eq, hw.calls⟩
    · refine Twin.bind (RelationalLogic.Matched.modify fun u u' hw => ?_) fun _ => Twin.pure _
      have hbytes : u.globalCacertPemBytes = u'.globalCacertPemBytes :=
        congrArg Prod.snd hw.store_eq
      exact ⟨hw.shape_eq, Prod.ext rfl hbytes, hw.reports_eq, hw.lock_eq, hw.calls⟩

theorem recordAt_twins (hw : Twins h w₀ v₀ w v) {e : Event} :
    Twins h w₀ v₀ (recordAt (some h) e w) (recordAt (some h) e v) :=
  hw.record rfl

/-- What concerns the handle is answered alike in states that look alike. -/
theorem react_alike {op : Op} (hw : LooksAlike h w₀ v₀ w v) (hcallback : ¬ CallbackInstalled w h)
    (hop : CreatesNoPsk b h op) (hconcerns : concerns h op = true)
    (hreact : react w op = some (r, w')) :
    ∃ v', react v op = some (r, v') ∧ LooksAlike h w₀ v₀ w' v' := by
  have hsame : ∀ {k : Handle}, handleOf (kind op) = some k → k = h := by
    intro k hk
    simpa [concerns, hk] using hconcerns
  have hid : ∀ {α : Type} (_ : α) (u u' : World b), Twins h w v u u' →
      Twins h w v (id u) (id u') := fun _ _ _ hu => hu
  cases op with
  | createSslHandle k role sockfd hostname cfg ans =>
    obtain rfl := hsame (k := k) rfl
    exact answering_alike hw (setEndpoint_twins hw.twins role sockfd)
      (espWolfsslCreateSslHandle_twin hostname cfg ans (Or.inl (hop rfl)))
      (fun _ _ _ hu => hu.record rfl) hreact
  | serverSessionCreate k cfg sockfd ans accepts =>
    cases k with
    | none =>
      cases cfg with
      | none =>
        cases hreact
        exact ⟨_, rfl, hw⟩
      | some cfg =>
        cases hreact
        exact ⟨_, rfl, hw⟩
    | some k =>
      cases cfg with
      | none =>
        cases hreact
        exact ⟨_, rfl, hw⟩
      | some cfg =>
        obtain rfl := hsame (k := k) rfl
        exact answering_alike hw hw.twins
          (espWolfsslServerSessionCreate_twin cfg sockfd ans accepts)
          (fun _ _ _ hu => recordAt_twins hu) hreact
  | handshake k cfg ans flags =>
    obtain rfl := hsame (k := k) rfl
    exact answering_alike hw hw.twins (espWolfsslHandshake_twin cfg ans flags) hid hreact
  | read k datalen ans =>
    obtain rfl := hsame (k := k) rfl
    exact answering_alike hw hw.twins (espWolfsslRead_twin datalen ans) hid hreact
  | write k datalen ans =>
    obtain rfl := hsame (k := k) rfl
    exact answering_alike hw hw.twins (espWolfsslWrite_twin datalen ans) hid hreact
  | connDelete k =>
    cases hreact
    cases k with
    | none => exact ⟨v, rfl, hw⟩
    | some k =>
      obtain rfl := hsame (k := k) rfl
      exact ⟨_, rfl, hw.of_twins (recordAt_twins (espWolfsslCleanup_twins hw.twins))⟩
  | serverSessionDelete k =>
    cases hreact
    cases k with
    | none => exact ⟨v, rfl, hw⟩
    | some k =>
      obtain rfl := hsame (k := k) rfl
      exact ⟨_, rfl, hw.of_twins (recordAt_twins (espWolfsslCleanup_twins hw.twins))⟩
  | pskClientCb k identity idMaxLen key keyMaxLen =>
    obtain rfl := hsame (k := k) rfl
    simp only [react] at hreact
    split at hreact
    · rename_i hinstalled
      exact absurd hinstalled.2 hcallback
    · cases hreact
  | initGlobalCaStore => exact answering_alike hw hw.twins (Twin.pure _) hid hreact
  | setGlobalCaStore cacertPemBuf malloc =>
    exact answering_alike hw hw.twins (setGlobalCaStore_twin cacertPemBuf malloc) hid hreact
  | getGlobalCaStore =>
    have hread : Twin h w v (espWolfsslGetGlobalCaStore : Backend b (Option (List UInt8)))
        espWolfsslGetGlobalCaStore :=
      RelationalLogic.Matched.read fun _ _ hu => congrArg Prod.fst hu.store_eq
    exact answering_alike hw hw.twins hread hid hreact
  | freeGlobalCaStore =>
    cases hreact
    exact ⟨_, rfl, hw.of_twins (freeGlobalCaStore_twins hw.twins)⟩

end Own

/-- States that look alike to a handle without a callback. -/
def Unlinked (h : Handle) (w₀ v₀ w v : World b) : Prop :=
  LooksAlike h w₀ v₀ w v ∧ ¬ CallbackInstalled w h

theorem unwinding (h : Handle) (w₀ v₀ : World b) :
    Unwinding react (concerns h) (CreatesNoPsk b h) (Unlinked h w₀ v₀) where
  seen := by
    intro w v w' op r hw hop hconcerns hreact
    obtain ⟨v', hreact', halike⟩ := react_alike hw.1 hw.2 hop hconcerns hreact
    exact ⟨v', hreact', halike, step_not_installed hw.2 hop (step_of_react hreact)⟩
  unseen := by
    intro w v w' op r hw hop hconcerns hreact
    have hstep := step_of_react hreact
    exact ⟨looksAlike_of_other hw.1 hstep hconcerns, step_not_installed hw.2 hop hstep⟩

/-- In every run a connection that is never created with a pre-shared key gets the
replies, makes the calls and ends with the reports of the run in which only its
own operations and those of the store take place. -/
theorem connection_isolated (h : Handle) {lockCreated : Bool} {ops : List Op}
    {given : List (Op × Reply)} {w : World b} (hops : ∀ op ∈ ops, CreatesNoPsk b h op)
    (hrun : answers react (World.boot b lockCreated) ops = some (given, w)) :
    ∃ v, answers react (World.boot b lockCreated) (ops.filter (concerns h)) =
        some (given.filter fun entry => concerns h entry.1, v) ∧
      ownCalls h w = ownCalls h v ∧ reports (w.tls h) = reports (v.tls h) := by
  have hboot : Unlinked h (World.boot b lockCreated) (World.boot b lockCreated)
      (World.boot b lockCreated) (World.boot b lockCreated) :=
    ⟨.start rfl rfl, PskCrossTalk.not_installed_of_cleared rfl⟩
  obtain ⟨v, hview, halike, _⟩ := (unwinding h _ _).purge hboot hops hrun
  obtain ⟨calls, hleft, hright⟩ := halike.calls
  exact ⟨v, hview, hleft.trans hright.symm, halike.reports_eq rfl⟩

/-- A client with a pre-shared key comes and goes beside a plain one. -/
def besideAPskClient : List Op :=
  [.createSslHandle 1 .client 4 [] (.client (pskClient hintA 7)) allSucceed,
    .createSslHandle 2 .client 5 [] (.client plainClient) allSucceed,
    .pskClientCb 1 [0, 0] 2 [0] 1,
    .connDelete (some 1),
    .read 2 8 ⟨3, 0⟩,
    .connDelete (some 2)]

theorem isolated_beside_a_psk_client :
    ∃ (given : List (Op × Reply)) (w v : World exampleBuild),
      answers react (World.boot exampleBuild true) besideAPskClient = some (given, w) ∧
      answers react (World.boot exampleBuild true) (besideAPskClient.filter (concerns 2)) =
        some (given.filter fun entry => concerns 2 entry.1, v) ∧
      ownCalls 2 w = ownCalls 2 v ∧ reports (w.tls 2) = reports (v.tls 2) := by
  have hops : ∀ op ∈ besideAPskClient, CreatesNoPsk exampleBuild 2 op := by
    simp [besideAPskClient, CreatesNoPsk, NoPsk]
    rfl
  have hrun : ∃ given w, answers react (World.boot exampleBuild true) besideAPskClient =
      some (given, w) := ⟨_, _, rfl⟩
  obtain ⟨given, w, hrun⟩ := hrun
  obtain ⟨v, hview⟩ := connection_isolated 2 hops hrun
  exact ⟨given, w, v, hrun, hview⟩

section Reuse
variable {h : Handle} {w v w' : World b}

end Reuse

end EspWolfssl.ConnectionIsolation
