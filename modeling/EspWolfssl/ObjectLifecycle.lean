import EspWolfssl.LifecycleStages
import EspWolfssl.StepEffects

/-!
The life of the objects over whole runs. Every operation that returns leads from
a tidy state to a tidy state, if creations are issued on handles without objects
only. What the ledger then says of every run is spelled out for its log.
-/
namespace EspWolfssl.ObjectLifecycle

open TaggedLogs ResourceLedger Platform ProgramLogic BackendState PskClient HandleCreation
  ConnectionIo BackendSteps OperationFrames CreationFootprints StepEffects GuardedRuns
  ObjectLedger LifecycleStages

variable {b : Build}

/-- A creation is issued on a handle whose `priv_ctx` and `priv_ssl` are NULL. -/
def OnNull (w : World b) : Op → Prop
  | .createSslHandle h _ _ _ _ _ => objects w h = (none, none)
  | .serverSessionCreate (some h) _ _ _ _ => objects w h = (none, none)
  | _ => True

theorem record_tidy {w : World b} (hw : Tidy w) (h : Handle) {e : Event}
    (he : e.action = none) : Tidy (w.record h e) :=
  ((At.mk hw rfl).record (usesOwn_of_none he)).tidy

theorem setEndpoint_at {h : Handle} {ctx ssl : Option ℕ} {w : World b} (hw : At h ctx ssl w)
    (role : Role) (sockfd : Int32) : At h ctx ssl (w.setEndpoint h role sockfd) :=
  hw.updateTls ⟨hw.privCtx, hw.privSsl⟩

/-- A server session leaves a tidy state, also while it waits for its client. -/
theorem espWolfsslServerSessionCreate_sound (h : Handle) (cfg : ServerCfg) (sockfd : Int32)
    (ans : CreateAnswers) (accepts : List CallAnswer) :
    Sound (At h none none)
      (espWolfsslServerSessionCreate (some h) (some cfg) sockfd ans accepts : Backend b Int32)
      Tidy := by
  have hset : Sound (At h none none)
      (Prog.modify (·.setEndpoint h .server sockfd) : Backend b Unit) (At h none none) :=
    Prog.Triple.modify fun _ hw => setEndpoint_at hw _ _
  refine hset.bind fun _ => ?_
  refine Prog.Triple.bind (espWolfsslCreateSslHandle_sound [] (.server cfg) ans) fun e => ?_
  by_cases he : e = .ok
  · simp only [he, ↓reduceIte]
    refine Sound.bind (opened_of_stays fun _ _ => Stays.updateTls fun _ => ⟨rfl, rfl⟩) fun _ => ?_
    refine (opened_of_stays fun _ _ => acceptLoop_stays accepts).mono ?_
    rintro w ⟨ctx, ssl, hw⟩
    exact hw.tidy
  · simp only [he, ↓reduceIte]
    exact ((setConnState_stays .fail).bind fun _ => .pure (-1)).mono fun _ hw => hw.tidy

/-- A transfer may run on any handle. -/
theorem tidy_of_transfer {α : Type} {h : Handle} {m : Backend b α}
    (hm : ∀ ctx ssl, Stays h ctx ssl m) {w w' : World b} (hw : Tidy w)
    (hstep : returning m (fun _ => id) w = some w') : Tidy w' := by
  obtain ⟨a, w₁, hrun, hend⟩ := returning_eq_some.mp hstep
  have hstays := Prog.Triple.of_ok (hm _ _) (At.mk hw rfl) hrun
  exact hend ▸ hstays.tidy

theorem tidy_of_deletion {w w' : World b} {h : Handle} (hw : Tidy w)
    (heffect : Effect w w' (.deletion h)) : Tidy w' := by
  cases heffect with
  | deletion hw' =>
    subst hw'
    exact record_tidy (espWolfsslCleanup_at hw).tidy h rfl

theorem tidy_of_store {w w' : World b} (hw : Tidy w) (heffect : Effect w w' .store) :
    Tidy w' := by
  cases heffect with
  | store hw' =>
    subst hw'
    exact hw.congr rfl (fun _ => rfl) rfl

theorem tidy_of_callback {w w' : World b} {h : Handle} {identity key : List UInt8}
    {idMaxLen keyMaxLen : UInt32} (hw : Tidy w)
    (heffect : Effect w w' (.callback h identity idMaxLen key keyMaxLen)) : Tidy w' := by
  cases heffect with
  | callback _ hrun hw' =>
    subst hw'
    apply record_tidy _ h rfl
    rcases espWolfsslPskClientCb_cases hrun with ⟨_, _, rfl⟩ | ⟨_, _, rfl, _⟩
    · exact hw
    · exact (record_tidy hw h (e := .semGive) rfl).congr rfl (fun _ => rfl) rfl

/-- One step leads from a tidy state to a tidy state. -/
theorem step_tidy {w w' : World b} {op : Op} (hw : Tidy w) (hnull : OnNull w op)
    (hstep : step w op = some w') : Tidy w' := by
  have heffect := step_effect hstep
  cases op with
  | createSslHandle h role sockfd hostname cfg ans =>
    obtain ⟨e, w₁, hrun, rfl⟩ := returning_eq_some.mp hstep
    have hstart := setEndpoint_at ⟨hw, hnull⟩ role sockfd
    have hend := Prog.Triple.of_ok (espWolfsslCreateSslHandle_sound hostname cfg ans) hstart hrun
    apply record_tidy _ h rfl
    split at hend
    · obtain ⟨ctx, ssl, hopened⟩ := hend
      exact hopened.tidy
    · exact hend.tidy
  | serverSessionCreate h cfg sockfd ans accepts =>
    cases h with
    | none => exact tidy_of_store hw heffect
    | some h =>
      cases cfg with
      | none => exact tidy_of_store hw heffect
      | some cfg =>
        obtain ⟨ret, w₁, hrun, rfl⟩ := returning_eq_some.mp hstep
        have hend := Prog.Triple.of_ok
          (espWolfsslServerSessionCreate_sound h cfg sockfd ans accepts) ⟨hw, hnull⟩ hrun
        exact record_tidy hend h rfl
  | handshake h cfg ans flags =>
    exact tidy_of_transfer (fun _ _ => espWolfsslHandshake_stays cfg ans flags) hw hstep
  | read h datalen ans =>
    exact tidy_of_transfer (fun _ _ => espWolfsslRead_stays datalen ans) hw hstep
  | write h datalen ans =>
    exact tidy_of_transfer (fun _ _ => espWolfsslWrite_stays datalen ans) hw hstep
  | connDelete h =>
    cases h with
    | none => exact tidy_of_store hw heffect
    | some h => exact tidy_of_deletion hw heffect
  | serverSessionDelete h =>
    cases h with
    | none => exact tidy_of_store hw heffect
    | some h => exact tidy_of_deletion hw heffect
  | pskClientCb h identity idMaxLen key keyMaxLen => exact tidy_of_callback hw heffect
  | initGlobalCaStore => exact tidy_of_store hw heffect
  | setGlobalCaStore cacertPemBuf malloc => exact tidy_of_store hw heffect
  | getGlobalCaStore => exact tidy_of_store hw heffect
  | freeGlobalCaStore => exact tidy_of_store hw heffect

theorem run_tidy {lockCreated : Bool} {ops : List Op} {w : World b}
    (hrun : Run step OnNull (World.boot b lockCreated) ops w) : Tidy w :=
  hrun.invariant (boot_tidy b lockCreated) fun _ _ _ hw hnull hstep => step_tidy hw hnull hstep

/-- The live contexts and session objects are those in `priv_ctx` and `priv_ssl`
of the handles they were made for, and nothing else is live. -/
structure Accounted (w : World b) : Prop where
  ctx_live : ∀ x id,
    (∃ parent, ledgerOf w id = .live .ctx x parent) ↔ (w.tls x).privCtx = some id
  ssl_live : ∀ x id,
    (∃ parent, ledgerOf w id = .live .ssl x parent) ↔ (w.tls x).privSsl = some id
  no_buffer : ∀ x id parent,
    ledgerOf w id ≠ .live .hostString x parent ∧ ledgerOf w id ≠ .live .certBuffer x parent
  unshared : ∀ x y id, ((w.tls x).privCtx = some id ∨ (w.tls x).privSsl = some id) →
    ((w.tls y).privCtx = some id ∨ (w.tls y).privSsl = some id) → x = y
  ctx_of_ssl : ∀ x, (w.tls x).privSsl ≠ none → (w.tls x).privCtx ≠ none

/-- What every entry of a log of object actions respects. -/
structure Disciplined (log : List (Handle × Action ObjKind)) : Prop where
  never_after_free : ∀ pre mid post x y id a,
    log = pre ++ (x, .free id) :: mid ++ (y, a) :: post → ¬ a.Mentions id
  ssl_before_ctx : ∀ pre mid post x y ssl ctx,
    log = pre ++ (x, .alloc ssl .ssl (some ctx)) :: mid ++ (y, .free ctx) :: post →
      ∃ z, (z, .free ssl) ∈ mid
  own_only : ∀ pre mid post x y id kind parent a,
    log = pre ++ (x, .alloc id kind parent) :: mid ++ (y, a) :: post → a.Mentions id → y = x

theorem disciplined_of_safe {log : List (Handle × Action ObjKind)}
    (hsafe : Ledger.empty.Safe log) : Disciplined log where
  never_after_free := by
    rintro pre mid post x y id a rfl
    exact Ledger.not_after_free hsafe
  ssl_before_ctx := by
    rintro pre mid post x y ssl ctx rfl
    exact Ledger.freed_before_parent hsafe
  own_only := by
    rintro pre mid post x y id kind parent a rfl
    exact Ledger.named_by_owner hsafe

theorem named_of_field {w : World b} {x : Handle} {id : ℕ}
    (hfield : (w.tls x).privCtx = some id ∨ (w.tls x).privSsl = some id) :
    ∃ kind parent, Named w x id kind parent := by
  rcases hfield with hctx | hssl
  · exact ⟨.ctx, none, rfl, hctx⟩
  · exact ⟨.ssl, (w.tls x).privCtx, rfl, hssl⟩

theorem accounted_of_tidy {w : World b} (hw : Tidy w) : Accounted w where
  ctx_live := by
    intro x id
    simp [hw.live_iff, Named]
  ssl_live := by
    intro x id
    simp [hw.live_iff, Named]
  no_buffer := by
    intro x id parent
    simp [hw.live_iff, Named]
  unshared := by
    intro x y id hx hy
    obtain ⟨kind, parent, hx⟩ := named_of_field hx
    obtain ⟨kind', parent', hy⟩ := named_of_field hy
    exact (hw.named_unique hx hy).1
  ctx_of_ssl := by
    intro x hssl
    obtain ⟨ssl, hssl⟩ := Option.ne_none_iff_exists'.mp hssl
    obtain ⟨ctx, hctx⟩ := hw.ctx_of_ssl x ssl hssl
    simp [hctx]

/-- The handle that an operation works for. -/
def handleOf : Kind → Option Handle
  | .opening o => some o.handle
  | .deletion h | .callback h _ _ _ _ | .transfer h => some h
  | .store => none

/-- A step changes the fields of its own handle only. -/
theorem step_others {w w' : World b} {k : Kind} (heffect : Effect w w' k) {x : Handle}
    (hx : handleOf k ≠ some x) : w'.tls x = w.tls x := by
  cases heffect with
  | @opening o ok w₁ w₂ print hend hw' =>
    subst hw'
    exact (concluded_grows print hend).others x (Ne.symm (by simpa [handleOf] using hx))
  | @deletion h hw' =>
    subst hw'
    exact (espWolfsslCleanup_grows h w).others x (Ne.symm (by simpa [handleOf] using hx))
  | callback _ hrun hw' =>
    subst hw'
    rcases espWolfsslPskClientCb_cases hrun with ⟨_, _, rfl⟩ | ⟨_, _, rfl, _⟩ <;> rfl
  | @transfer h work _ =>
    exact work.others x (Ne.symm (by simpa [handleOf] using hx))
  | store hw' =>
    subst hw'
    rfl

/-- So the objects of the other handles stay live. -/
theorem others_live {w w' : World b} (hw : Tidy w) (hw' : Tidy w') {x : Handle}
    (hsame : w'.tls x = w.tls x) {id : ℕ} {kind : ObjKind} {parent : Option ℕ}
    (hlive : ledgerOf w id = .live kind x parent) : ledgerOf w' id = .live kind x parent := by
  have hobj : objects w' x = objects w x := by simp only [objects, hsame]
  rw [hw'.live_iff, named_congr hobj, ← hw.live_iff]
  exact hlive

/-- In every run whose creations are issued on handles without objects, with any
answers of the libraries, the objects are accounted for and handled with
discipline; the next operation leaves the objects of other handles alone; a
creation that fails and every deletion leave none behind. -/
theorem objects_accounted {lockCreated : Bool} {ops : List Op} {w : World b}
    (hrun : Run step OnNull (World.boot b lockCreated) ops w) :
    (Accounted w ∧ Disciplined (actions w)) ∧
    (∀ op w' x, OnNull w op → step w op = some w' → handleOf (kind op) ≠ some x →
      ∀ id k parent, ledgerOf w id = .live k x parent → ledgerOf w' id = .live k x parent) ∧
    (∀ h role sockfd hostname cfg ans e w',
      espWolfsslCreateSslHandle h hostname cfg ans (w.setEndpoint h role sockfd) = (.ok e, w') →
        e ≠ .ok → objects w' h = (none, none)) ∧
    (∀ h, objects (espWolfsslConnDelete (some h) w) h = (none, none) ∧
      objects (espWolfsslServerSessionDelete (some h) w) h = (none, none)) ∧
    (∀ h cfg sockfd ans accepts w', objects w h = (none, none) →
      espWolfsslServerSessionCreate (some h) (some cfg) sockfd ans accepts w =
        (.error .waiting, w') → Accounted w' ∧ Disciplined (actions w')) := by
  have hw := run_tidy hrun
  refine ⟨⟨accounted_of_tidy hw, disciplined_of_safe hw.safe⟩, ?_, ?_, ?_, ?_⟩
  · intro op w' x hnull hstep hx id k parent hlive
    have hw' := step_tidy hw hnull hstep
    exact others_live hw hw' (step_others (step_effect hstep) hx) hlive
  · intro h role sockfd hostname cfg ans e w' hcreate hfail
    obtain ⟨w₁, _, ⟨rfl, _⟩ | ⟨_, _, rfl⟩⟩ := createSslHandle_cases hcreate
    · exact absurd rfl hfail
    · exact espWolfsslCleanup_cleared h w₁
  · intro h
    exact ⟨espWolfsslCleanup_cleared h w, espWolfsslCleanup_cleared h w⟩
  · intro h cfg sockfd ans accepts w' hnull hwait
    rcases Prog.Triple.of_error (espWolfsslServerSessionCreate_sound h cfg sockfd ans accepts)
      ⟨hw, hnull⟩ hwait with ⟨f, hf⟩ | hw'
    · cases hf
    · exact ⟨accounted_of_tidy hw', disciplined_of_safe hw'.safe⟩

/-- A client connects beside another one and is deleted twice. -/
def deletedTwice : List Op :=
  [.createSslHandle 0 .client 3 [] (.client plainClient) allSucceed,
    .createSslHandle 1 .client 4 [] (.client plainClient) allSucceed,
    .connDelete (some 0), .connDelete (some 0)]

theorem objects_accounted_of_deletedTwice :
    ∃ w : World exampleBuild, Accounted w ∧ Disciplined (actions w) := by
  have hrun : ∃ w : World exampleBuild,
      Run step OnNull (World.boot exampleBuild true) deletedTwice w :=
    ⟨_, .cons rfl rfl (.cons rfl rfl (.cons trivial rfl (.single trivial rfl)))⟩
  obtain ⟨w, hrun⟩ := hrun
  exact ⟨w, (objects_accounted hrun).1⟩

end EspWolfssl.ObjectLifecycle
