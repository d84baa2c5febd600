import EspWolfssl.CreationFootprints

/-!
What a step can do. Operations that open a connection leave the footprint of
their creation and clean up when they are not accepted, deletions clean up, a
callback may give the lock, and the rest keeps the statics of pre-shared keys.
-/
namespace EspWolfssl.StepEffects

open ByteRegions MutexOwnership TaggedLogs Platform ProgramLogic BackendState PskClient
  HandleCreation ConnectionIo GlobalStore BackendSteps OperationFrames CreationOutcomes
  CreationFootprints

variable {b : Build}

/-- The inputs of an operation that opens a connection. -/
structure Opening where
  handle : Handle
  role : Role
  cfg : Cfg
  ans : CreateAnswers

namespace Opening

def reached (b : Build) (o : Opening) : Option PskHintKey := pskReached b o.role o.cfg o.ans

/-- The branch of the pre-shared key is reached and the lock is free. -/
def takes (o : Opening) (w : World b) : Bool := takesLock (o.reached b) w.tlsConnLock

/-- The creation returns `ESP_OK`. -/
def accepted (o : Opening) (w : World b) : Bool := createAccepted o.role o.cfg o.ans w

end Opening

/-- The operations by what they may do to the shared state. -/
inductive Kind
  | opening (o : Opening)
  | deletion (h : Handle)
  | callback (h : Handle) (identity : List UInt8) (idMaxLen : UInt32) (key : List UInt8)
      (keyMaxLen : UInt32)
  | transfer (h : Handle)
  | store

def kind : Op → Kind
  | .createSslHandle h role _ _ cfg ans => .opening ⟨h, role, cfg, ans⟩
  | .serverSessionCreate (some h) (some cfg) _ ans _ => .opening ⟨h, .server, .server cfg, ans⟩
  | .connDelete (some h) | .serverSessionDelete (some h) => .deletion h
  | .pskClientCb h identity idMaxLen key keyMaxLen =>
      .callback h identity idMaxLen key keyMaxLen
  | .handshake h _ _ _ | .read h _ _ | .write h _ _ => .transfer h
  | .serverSessionCreate _ _ _ _ _ | .connDelete none | .serverSessionDelete none
  | .initGlobalCaStore | .setGlobalCaStore _ _ | .getGlobalCaStore | .freeGlobalCaStore => .store

/-- How the work of an opening ends, given the state `w₁` its creation left: a
rejected one cleans up and has failed; an accepted server session may still
fail, without a cleanup. -/
inductive Concluded (o : Opening) (w w₁ w₂ : World b) : Bool → Prop
  | accepted {ok : Bool} (haccept : o.accepted w = true) (hok : o.role = .client → ok = true)
      (hcallback : o.reached b = none → NoCallback o.handle w₁)
      (rest : Extends o.handle w₁ w₂) : Concluded o w w₁ w₂ ok
  | rejected (hreject : o.accepted w = false)
      (rest : Extends o.handle (espWolfsslCleanup o.handle w₁) w₂)
      (hcleared : objects w₂ o.handle = (none, none)) : Concluded o w w₁ w₂ false

theorem concluded_grows {o : Opening} {ok : Bool} {w₁ w₂ : World b}
    (print : Footprint o.handle (o.reached b) w w₁) (hend : Concluded o w w₁ w₂ ok) :
    Grows Inner o.handle w w₂ := by
  cases hend with
  | accepted _ _ _ rest => exact print.grows.trans (rest.toGrows.mono fun _ => Quiet.inner)
  | rejected _ rest _ =>
    exact (print.grows.trans (espWolfsslCleanup_grows _ _)).trans
      (rest.toGrows.mono fun _ => Quiet.inner)

/-- What a step of each kind does. -/
inductive Effect (w w' : World b) : Kind → Prop
  | opening {o : Opening} {ok : Bool} {w₁ w₂ : World b}
      (print : Footprint o.handle (o.reached b) w w₁) (hend : Concluded o w w₁ w₂ ok)
      (hw' : w' = w₂.record o.handle (.opened o.cfg ok)) : Effect w w' (.opening o)
  | deletion {h : Handle} (hw' : w' = (espWolfsslCleanup h w).record h .deleted) :
      Effect w w' (.deletion h)
  | callback {h : Handle} {identity key : List UInt8} {idMaxLen keyMaxLen : UInt32}
      {ans : PskAnswer} {w₁ : World b} (hinstalled : CallbackInstalled w h)
      (hrun : espWolfsslPskClientCb h identity idMaxLen key keyMaxLen w = (.ok ans, w₁))
      (hw' : w' = w₁.record h (.pskAnswered ans.len ans.identity ans.key)) :
      Effect w w' (.callback h identity idMaxLen key keyMaxLen)
  | transfer {h : Handle} (work : Extends h w w') (hkeep : objects w' h = objects w h) :
      Effect w w' (.transfer h)
  | store {block : Option (List UInt8)} {bytes : UInt32}
      (hw' : w' = { w with globalCacert := block, globalCacertPemBytes := bytes }) :
      Effect w w' .store

theorem createSslHandle_effect {h : Handle} {role : Role} {sockfd : Int32}
    {hostname : List UInt8} {cfg : Cfg} {ans : CreateAnswers} {w w₁ : World b} {e : EspErr}
    (hrun : espWolfsslCreateSslHandle h hostname cfg ans (w.setEndpoint h role sockfd) =
      (.ok e, w₁)) :
    Effect w (w₁.record h (.opened cfg (e == .ok))) (.opening ⟨h, role, cfg, ans⟩) := by
  have hstart : Extends h w (w.setEndpoint h role sockfd) := (Extends.refl h w).setEndpoint _ _
  obtain ⟨w₂, hprint, hend⟩ := createSslHandle_cases hrun
  rw [World.setEndpoint_role, createAccepted_congr hstart.statics] at hend
  rw [World.setEndpoint_role] at hprint
  refine .opening (Footprint.after hstart hprint) ?_ rfl
  rcases hend with ⟨rfl, haccept, rfl, hcallback⟩ | ⟨hrefused, hreject, rfl⟩
  · exact .accepted haccept (fun _ => rfl) hcallback (Extends.refl h _)
  · have hne : (e == .ok) = false := by
      rw [beq_eq_false_iff_ne]
      exact fun he => hrefused.1 (he ▸ rfl)
    rw [hne]
    exact .rejected hreject (Extends.refl h _) (espWolfsslCleanup_cleared h w₂)

theorem serverSessionCreate_effect {h : Handle} {cfg : ServerCfg} {sockfd : Int32}
    {ans : CreateAnswers} {accepts : List CallAnswer} {w w₁ : World b} {ret : Int32}
    (hrun : espWolfsslServerSessionCreate (some h) (some cfg) sockfd ans accepts w =
      (.ok ret, w₁)) :
    Effect w (w₁.record h (.opened (.server cfg) (ret == 0)))
      (.opening ⟨h, .server, .server cfg, ans⟩) := by
  obtain ⟨w₂, hwork, hend⟩ := serverSessionCreate_cases hrun
  refine .opening (.quiet rfl hwork) ?_ rfl
  rcases hend with ⟨haccept, hcallback, hrest⟩ | ⟨hreject, rfl, hrest, hcleared⟩
  · exact .accepted haccept (by simp) (fun _ => hcallback) hrest
  · exact .rejected hreject hrest hcleared

theorem freeGlobalCaStore_eq (w : World b) :
    ∃ block bytes, espWolfsslFreeGlobalCaStore w =
      { w with globalCacert := block, globalCacertPemBytes := bytes } := by
  unfold espWolfsslFreeGlobalCaStore
  split
  · exact ⟨none, 0, rfl⟩
  · exact ⟨w.globalCacert, w.globalCacertPemBytes, rfl⟩

theorem setGlobalCaStore_effect {cacertPemBuf : Option Buffer} {malloc : Bool}
    {w w' : World b} {e : EspErr}
    (hrun : espWolfsslSetGlobalCaStore cacertPemBuf malloc w = (.ok e, w')) :
    Effect w w' .store := by
  cases cacertPemBuf with
  | none =>
    cases hrun
    exact .store rfl
  | some buf =>
    obtain ⟨block, bytes, hfree⟩ := freeGlobalCaStore_eq w
    simp only [espWolfsslSetGlobalCaStore, Prog.bind_apply, Prog.modify_apply, hfree] at hrun
    cases malloc with
    | false =>
      cases hrun
      exact .store rfl
    | true =>
      cases hblock : storeBlock buf with
      | none => simp [hblock] at hrun
      | some stored =>
        simp only [hblock, if_true, Prog.bind_apply, Prog.modify_apply, Prog.pure_apply,
          Prod.mk.injEq] at hrun
        exact .store hrun.2.symm

/-- One step has the effect of its kind. -/
theorem step_effect {w w' : World b} {op : Op} (hstep : step w op = some w') :
    Effect w w' (kind op) := by
  cases op with
  | createSslHandle h role sockfd hostname cfg ans =>
    obtain ⟨e, w₁, hrun, rfl⟩ := returning_eq_some.mp hstep
    exact createSslHandle_effect hrun
  | serverSessionCreate h cfg sockfd ans accepts =>
    obtain ⟨ret, w₁, hrun, rfl⟩ := returning_eq_some.mp hstep
    cases h with
    | none =>
      cases hrun
      cases cfg <;> exact .store rfl
    | some h =>
      cases cfg with
      | none =>
        cases hrun
        exact .store rfl
      | some cfg => exact serverSessionCreate_effect hrun
  | handshake h cfg ans flags =>
    obtain ⟨_, w₁, hrun, rfl⟩ := returning_eq_some.mp hstep
    exact .transfer ((espWolfsslHandshake_quiet h cfg ans flags).of_ok hrun)
      ((espWolfsslHandshake_keepsObjects h cfg ans flags).of_ok hrun)
  | read h datalen ans =>
    obtain ⟨_, w₁, hrun, rfl⟩ := returning_eq_some.mp hstep
    exact .transfer ((espWolfsslRead_quiet h datalen ans).of_ok hrun)
      ((espWolfsslRead_keepsObjects h datalen ans).of_ok hrun)
  | write h datalen ans =>
    obtain ⟨_, w₁, hrun, rfl⟩ := returning_eq_some.mp hstep
    exact .transfer ((espWolfsslWrite_quiet h datalen ans).of_ok hrun)
      ((espWolfsslWrite_keepsObjects h datalen ans).of_ok hrun)
  | connDelete h =>
    cases hstep
    cases h with
    | none => exact .store rfl
    | some h => exact .deletion rfl
  | serverSessionDelete h =>
    cases hstep
    cases h with
    | none => exact .store rfl
    | some h => exact .deletion rfl
  | pskClientCb h identity idMaxLen key keyMaxLen =>
    simp only [step] at hstep
    split at hstep
    · rename_i hinstalled
      obtain ⟨_, w₁, hrun, rfl⟩ := returning_eq_some.mp hstep
      exact .callback hinstalled.2 hrun rfl
    · cases hstep
  | initGlobalCaStore =>
    cases hstep
    exact .store rfl
  | setGlobalCaStore cacertPemBuf malloc =>
    obtain ⟨_, w₁, hrun, rfl⟩ := returning_eq_some.mp hstep
    exact setGlobalCaStore_effect hrun
  | getGlobalCaStore =>
    cases hstep
    exact .store rfl
  | freeGlobalCaStore =>
    cases hstep
    obtain ⟨block, bytes, hfree⟩ := freeGlobalCaStore_eq w
    exact .store hfree

end EspWolfssl.StepEffects
