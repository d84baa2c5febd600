import EspWolfssl.CreationFootprints
import EspWolfssl.CreationTraces

/-!
A creation that returns `ESP_OK` has authenticated. Its calls are all on the
context and the object of its own handle: one source of trust is set up on the
context, certificate and key are loaded together, and only then the object is
created and bound to the name of the server.
-/
namespace EspWolfssl.FailClosed

open ByteRegions MutexOwnership TaggedLogs Platform ProgramLogic BackendState
  CertificateLoading PskClient HandleCreation BackendSteps OperationFrames CreationOutcomes
  CreationTraces

variable {b : Build}

/-- The calls that decide whom the handle trusts. -/
def SetsTrust : Event → Prop
  | .loadVerifyBuffer _ _ _ _ _ _ | .setVerify _ _ | .semTake | .pskStored _ _
  | .setPskClientCallback _ | .setCipherList _ _ _ => True
  | _ => False

/-- The calls of a client that was created with the context `ctx` and the object
`ssl`, in order. -/
structure ClientSetUp (h : Handle) (hostname : List UInt8) (cfg : ClientCfg) (w w' : World b)
    (ctx ssl : ℕ) (trust pair name extras : List Event) : Prop where
  objects : objects w' h = (some ctx, some ssl)
  noBundle : cfg.crtBundleAttach = false
  log : w'.log = w.log ++ tag h
    ([.wolfsslInit wolfsslSuccess, .ctxNew (some ctx)] ++ trust ++ pair ++
      [.sslNew (some ctx) (some ssl)] ++ name ++ extras)
  trusts : Trusts b (w.globalCacert, w.globalCacertPemBytes) cfg (some ctx) trust
  pairLoaded : PairLoaded (some ctx) cfg.clientcertBuf cfg.clientkeyBuf pair
  nameChecked : NameChecked cfg (hostName hostname cfg) (some ssl) name
  extra : ∀ e ∈ extras, Extra (some ctx) (some ssl) e
  trustOnce : ∀ e ∈ pair ++ name ++ extras, ¬ SetsTrust e

/-- The calls by which a server decides whether it asks for certificates. -/
inductive Demands (cfg : ServerCfg) (ctx : Option ℕ) : List Event → Prop
  | certificate {buf : Buffer} {load : List Event} (hbuf : cfg.cacertBuf = some buf)
      (hload : CaLoaded ctx buf.bytes buf.len load) :
      Demands cfg ctx (load ++ [.setVerify ctx .peerFailIfNoPeerCert])
  | nothing (hbuf : cfg.cacertBuf = none) : Demands cfg ctx [.setVerify ctx .none]

/-- The calls of a server that was created. -/
structure ServerSetUp (h : Handle) (cfg : ServerCfg) (w w' : World b) (ctx ssl : ℕ)
    (demand pair extras : List Event) : Prop where
  objects : objects w' h = (some ctx, some ssl)
  log : w'.log = w.log ++ tag h
    ([.wolfsslInit wolfsslSuccess, .ctxNew (some ctx)] ++ demand ++ pair ++
      [.sslNew (some ctx) (some ssl)] ++ extras)
  demands : Demands cfg (some ctx) demand
  given : cfg.servercertBuf.isSome = true ∧ cfg.serverkeyBuf.isSome = true
  pairLoaded : PairLoaded (some ctx) cfg.servercertBuf cfg.serverkeyBuf pair
  extra : ∀ e ∈ extras, Extra (some ctx) (some ssl) e
  trustOnce : ∀ e ∈ pair ++ extras, ¬ SetsTrust e

theorem pairLoaded_trust {ctx : Option ℕ} {cert key : Option Buffer} {events : List Event}
    (hpair : PairLoaded ctx cert key events) : ∀ e ∈ events, ¬ SetsTrust e := by
  cases hpair with
  | neither => simp
  | both => simp [SetsTrust]

theorem nameChecked_trust {cfg : ClientCfg} {name : CString} {ssl : Option ℕ}
    {events : List Event} (hname : NameChecked cfg name ssl events) :
    ∀ e ∈ events, ¬ SetsTrust e := by
  cases hname with
  | skipped => simp
  | checked => simp [SetsTrust]

theorem extra_trust {ctx ssl : Option ℕ} {e : Event} (he : Extra ctx ssl e) : ¬ SetsTrust e := by
  cases e <;> first | exact he.elim | exact id

section Runs
variable {h : Handle} {hostname : List UInt8} {ans : CreateAnswers} {w w' : World b} {u : Unit}

theorem newCtx_emits {succeeds : Bool} (hrun : newCtx h succeeds w = (.ok u, w')) :
    ∃ ctx, (w'.tls h).privCtx = some ctx ∧ w'.log = w.log ++ tag h [.ctxNew (some ctx)] ∧
      (w'.globalCacert, w'.globalCacertPemBytes) =
        (w.globalCacert, w.globalCacertPemBytes) := by
  cases succeeds with
  | false => cases hrun
  | true =>
    cases hrun
    exact ⟨w.nextObj, by simp, rfl, rfl⟩

theorem newSsl_emits {succeeds : Bool} (hrun : newSsl h succeeds w = (.ok u, w')) :
    ∃ ssl, (w'.tls h).privSsl = some ssl ∧ (w'.tls h).privCtx = (w.tls h).privCtx ∧
      w'.log = w.log ++ tag h [.sslNew (w.tls h).privCtx (some ssl)] := by
  cases succeeds with
  | false => cases hrun
  | true =>
    cases hrun
    exact ⟨w.nextObj, by simp, by simp, rfl⟩

theorem setClientConfig_setUp {cfg : ClientCfg} {w₀ : World b}
    (hstart : w.log = w₀.log ++ tag h [.wolfsslInit wolfsslSuccess])
    (hstore : (w.globalCacert, w.globalCacertPemBytes) =
      (w₀.globalCacert, w₀.globalCacertPemBytes))
    (hrun : setClientConfig h hostname cfg ans w = (.ok u, w')) :
    ∃ ctx ssl trust pair name extras,
      ClientSetUp h hostname cfg w₀ w' ctx ssl trust pair name extras := by
  rw [setClientConfig_split] at hrun
  obtain ⟨_, w₄, hcontext, hrun⟩ := Prog.bind_ok_iff.mp hrun
  obtain ⟨_, w₅, hssl, hobject⟩ := Prog.bind_ok_iff.mp hrun
  obtain ⟨_, w₁, hctx, hcontext⟩ := Prog.bind_ok_iff.mp hcontext
  obtain ⟨_, w₂, hstop, hcontext⟩ := Prog.bind_ok_iff.mp hcontext
  obtain ⟨_, w₃, htrust, hpair⟩ := Prog.bind_ok_iff.mp hcontext
  obtain ⟨hbundle, rfl⟩ := Prog.stopIf_ok_iff.mp hstop
  obtain ⟨ctx, hctx, hctxLog, hctxStore⟩ := newCtx_emits hctx
  obtain ⟨trust, htrust, htrusts⟩ := clientVerification_emits htrust
  obtain ⟨pair, hpair, hloaded⟩ := clientCertificate_emits hpair
  obtain ⟨ssl, hssl, hsslCtx, hsslLog⟩ := newSsl_emits hssl
  obtain ⟨name, extras, hobject, hname, hextra⟩ := objectSetup_emits hobject
  have hctx₄ : (w₄.tls h).privCtx = some ctx := by
    rw [hpair.privCtx_eq, htrust.privCtx_eq, hctx]
  rw [hctx, hctxStore, hstore] at htrusts
  rw [htrust.privCtx_eq, hctx] at hloaded
  rw [hssl] at hname
  rw [hsslCtx, hctx₄, hssl] at hextra
  refine ⟨ctx, ssl, trust, pair, name, extras, ?_, hbundle, ?_, htrusts, hloaded, hname, hextra, ?_⟩
  · rw [hobject.objects]
    exact Prod.ext (hsslCtx.trans hctx₄) hssl
  · rw [hobject.log, hsslLog, hpair.log, htrust.log, hctxLog, hstart, hctx₄]
    simp only [tag_append, List.append_assoc]
    rfl
  · intro e he
    rcases List.mem_append.mp he with he | he
    · rcases List.mem_append.mp he with he | he
      · exact pairLoaded_trust hloaded e he
      · exact nameChecked_trust hname e he
    · exact extra_trust (hextra e he)

theorem serverVerification_emits {cfg : ServerCfg}
    (hrun : serverVerification h cfg ans w = (.ok u, w')) :
    ∃ events, Emits h w w' events ∧ Demands cfg (w.tls h).privCtx events := by
  unfold serverVerification at hrun
  cases hbuf : cfg.cacertBuf with
  | some buf =>
    simp only [hbuf] at hrun
    obtain ⟨load, hload, hemits⟩ := loadAndVerify_emits hrun
    exact ⟨_, hemits, .certificate hbuf hload⟩
  | none =>
    simp only [hbuf] at hrun
    exact ⟨_, setVerify_emits hrun, .nothing hbuf⟩

theorem setServerConfig_setUp {cfg : ServerCfg} {w₀ : World b}
    (hstart : w.log = w₀.log ++ tag h [.wolfsslInit wolfsslSuccess])
    (hrun : setServerConfig h cfg ans w = (.ok u, w')) :
    ∃ ctx ssl demand pair extras, ServerSetUp h cfg w₀ w' ctx ssl demand pair extras := by
  obtain ⟨_, w₁, hctx, hrun⟩ := Prog.bind_ok_iff.mp hrun
  obtain ⟨_, w₂, hdemand, hrun⟩ := Prog.bind_ok_iff.mp hrun
  obtain ⟨_, w₃, hpair, hrun⟩ := Prog.bind_ok_iff.mp hrun
  obtain ⟨_, w₄, hssl, hfd⟩ := Prog.bind_ok_iff.mp hrun
  obtain ⟨ctx, hctx, hctxLog, _⟩ := newCtx_emits hctx
  obtain ⟨demand, hdemand, hdemands⟩ := serverVerification_emits hdemand
  obtain ⟨cert, key, pair, hcert, hkey, hpair, hloaded⟩ := serverCertificate_emits hpair
  obtain ⟨ssl, hssl, hsslCtx, hsslLog⟩ := newSsl_emits hssl
  obtain ⟨extras, hfd, hextra⟩ := setFd_emits hfd (some ctx)
  have hctx₃ : (w₃.tls h).privCtx = some ctx := by
    rw [hpair.privCtx_eq, hdemand.privCtx_eq, hctx]
  rw [hctx] at hdemands
  rw [hdemand.privCtx_eq, hctx] at hloaded
  rw [hssl] at hextra
  refine ⟨ctx, ssl, demand, pair, extras, ?_, ?_, hdemands, ?_, ?_, hextra, ?_⟩
  · rw [hfd.objects]
    exact Prod.ext (hsslCtx.trans hctx₃) hssl
  · rw [hfd.log, hsslLog, hpair.log, hdemand.log, hctxLog, hstart, hctx₃]
    simp only [tag_append, List.append_assoc]
    rfl
  · simp [hcert, hkey]
  · rw [hcert, hkey]
    exact hloaded
  · intro e he
    rcases List.mem_append.mp he with he | he
    · exact pairLoaded_trust hloaded e he
    · exact extra_trust (hextra e he)

/-- The body of a creation that returned `ESP_OK` ran to its end. -/
theorem createBody_of_ok {cfg : Cfg}
    (hrun : espWolfsslCreateSslHandle h hostname cfg ans w = (.ok .ok, w')) :
    createBody h hostname cfg ans w = (.ok (), w') := by
  have houtcome := CreationFootprints.createBody_outcome h hostname cfg ans w
  unfold espWolfsslCreateSslHandle at hrun
  rcases hbody : createBody h hostname cfg ans w with ⟨r, w₁⟩
  rw [hbody] at hrun houtcome
  cases r with
  | ok u =>
    cases hrun
    rfl
  | error x =>
    cases x with
    | ret e =>
      obtain ⟨he, _⟩ := Prod.mk.inj hrun
      obtain rfl := Except.ok.inj he
      exact absurd rfl houtcome.1.1
    | fault f => cases hrun
    | waiting => cases hrun

end Runs

/-- A creation that returns `ESP_OK`, from any state and whatever the libraries
answered, set its client or its server up. -/
theorem created_set_up {h : Handle} {hostname : List UInt8} {cfg : Cfg} {ans : CreateAnswers}
    {w w' : World b} (hrun : espWolfsslCreateSslHandle h hostname cfg ans w = (.ok .ok, w')) :
    (∃ c ctx ssl trust pair name extras, (w.tls h).role = .client ∧ cfg = .client c ∧
      ClientSetUp h hostname c w w' ctx ssl trust pair name extras) ∨
    (∃ c ctx ssl demand pair extras, (w.tls h).role = .server ∧ cfg = .server c ∧
      ServerSetUp h c w w' ctx ssl demand pair extras) := by
  have hbody := createBody_of_ok hrun
  by_cases hinit : ans.wolfsslInit = wolfsslSuccess
  · rw [createBody_init hinit, hinit] at hbody
    have hstart : (w.record h (.wolfsslInit wolfsslSuccess)).log =
        w.log ++ tag h [.wolfsslInit wolfsslSuccess] := rfl
    cases hrole : (w.tls h).role with
    | client =>
      rw [hrole] at hbody
      cases cfg with
      | client c =>
        obtain ⟨ctx, ssl, trust, pair, name, extras, hset⟩ :=
          setClientConfig_setUp hstart rfl hbody
        exact Or.inl ⟨c, ctx, ssl, trust, pair, name, extras, rfl, rfl, hset⟩
      | server c => cases hbody
    | server =>
      rw [hrole] at hbody
      cases cfg with
      | client c => cases hbody
      | server c =>
        obtain ⟨ctx, ssl, demand, pair, extras, hset⟩ := setServerConfig_setUp hstart hbody
        exact Or.inr ⟨c, ctx, ssl, demand, pair, extras, rfl, rfl, hset⟩
    | invalid =>
      rw [hrole] at hbody
      cases hbody
  · rw [createBody_noInit hinit] at hbody
    cases hbody

/-- A client that trusts one certificate and checks the name of its server. -/
def verifyingClient : ClientCfg :=
  { plainClient with cacertBuf := some derBuffer, skipCommonName := false }

theorem created_set_up_of_verifyingClient :
    ∃ w' : World exampleBuild, ∃ ctx ssl trust pair name extras,
      ClientSetUp 0 [97] verifyingClient ((World.boot exampleBuild true).setEndpoint 0 .client 3)
        w' ctx ssl trust pair name extras := by
  have hopen : ∃ w' : World exampleBuild,
      espWolfsslCreateSslHandle 0 [97] (.client verifyingClient) allSucceed
        ((World.boot exampleBuild true).setEndpoint 0 .client 3) = (.ok .ok, w') := ⟨_, rfl⟩
  obtain ⟨w', hrun⟩ := hopen
  rcases created_set_up hrun with ⟨c, ctx, ssl, trust, pair, name, extras, _, hcfg, hset⟩ |
    ⟨c, _, _, _, _, _, _, hcfg, _⟩
  · cases hcfg
    exact ⟨w', ctx, ssl, trust, pair, name, extras, hset⟩
  · cases hcfg

end EspWolfssl.FailClosed
