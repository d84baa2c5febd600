import EspWolfssl.CreationOutcomes

/-!
The order in which a client offers its protocols. Each registration puts its
names in front of those the session object already has, and the loop registers
the list from its first name on, so the offer is the list backwards.
-/
namespace EspWolfssl.AlpnOrder

open ByteRegions TaggedLogs Platform ProgramLogic BackendState CertificateLoading PskClient
  HandleCreation BackendSteps OperationFrames CreationOutcomes

variable {b : Build}

/-- The names in the string of one registration. -/
def protocolNames (protocol : CString) : List (List UInt8) := protocol.chars.splitOn 44

/-- What `wolfSSL_UseALPN` does with the names an object offers: it puts those of
the new string, in their order, in front. -/
def PutsInFront (useAlpn : List (List UInt8) → CString → List (List UInt8)) : Prop :=
  ∀ offered protocol, useAlpn offered protocol = protocolNames protocol ++ offered

/-- The calls that change what an object offers. -/
inductive AlpnStep
  | created (ssl : ℕ)
  | registered (ssl : Option ℕ) (protocol : CString) (ok : Bool)
deriving DecidableEq

def alpnStep : Event → Option AlpnStep
  | .sslNew _ (some ssl) => some (.created ssl)
  | .useAlpn ssl protocol ret => some (.registered ssl protocol (ret == wolfsslSuccess))
  | _ => none

section Offers
variable (useAlpn : List (List UInt8) → CString → List (List UInt8))

/-- A new object offers nothing. -/
def offerAfter (ssl : ℕ) (offered : List (List UInt8)) : AlpnStep → List (List UInt8)
  | .created new => if new = ssl then [] else offered
  | .registered target protocol ok =>
      if target = some ssl ∧ ok = true then useAlpn offered protocol else offered

/-- The names an object offers after the calls of a log, the preferred first. -/
def offered (ssl : ℕ) (log : List (Handle × Event)) : List (List UInt8) :=
  (view alpnStep log).foldl (fun names entry => offerAfter useAlpn ssl names entry.2) []

/-- Registered one after the other, single names end up backwards. -/
theorem foldl_registered (hlib : PutsInFront useAlpn) (h : Handle) (ssl : ℕ)
    (protocols : List CString) (hnames : ∀ p ∈ protocols, 44 ∉ p.chars)
    (before : List (List UInt8)) :
    (tag h (protocols.map fun p => AlpnStep.registered (some ssl) p true)).foldl
        (fun names entry => offerAfter useAlpn ssl names entry.2) before =
      (protocols.map CString.chars).reverse ++ before := by
  induction protocols generalizing before with
  | nil => rfl
  | cons p rest ih =>
    have hsingle : protocolNames p = [p.chars] := by
      apply List.splitOnP_eq_singleton
      intro x hx
      have hne : x ≠ 44 := fun heq => hnames p List.mem_cons_self (heq ▸ hx)
      simpa using hne
    have hfirst : offerAfter useAlpn ssl before (.registered (some ssl) p true) =
        p.chars :: before := by
      simp only [offerAfter, and_self, if_true, hlib before p, hsingle, List.cons_append,
        List.nil_append]
    rw [List.map_cons, tag_cons, List.foldl_cons, hfirst,
      ih fun q hq => hnames q (List.mem_cons_of_mem p hq)]
    simp only [List.map_cons, List.reverse_cons, List.append_assoc, List.cons_append,
      List.nil_append]

end Offers

/-- The program changes no offer and keeps the objects of the handle. -/
def KeepsOffers (h : Handle) {α : Type} (m : Backend b α) : Prop :=
  Prog.Keeps (fun w => (view alpnStep w.log, objects w h)) m

section Stretches
variable {h : Handle}

theorem call_keepsOffers {e : Event} (he : alpnStep e = none) :
    KeepsOffers h (call h e : Backend b Unit) :=
  .modify fun w => by
    rw [World.record_log, view_snoc_of_none alpnStep h w.log he, objects_record]

theorem allocate_keepsOffers {e : Option ℕ → Event} (succeeds : Bool)
    (he : ∀ obj, alpnStep (e obj) = none) :
    KeepsOffers h (allocate h succeeds e : Backend b (Option ℕ)) := by
  have hnew : KeepsOffers h (newObject : Backend b ℕ) := fun _ _ hw => hw
  exact .ite (hnew.bind fun obj => (call_keepsOffers (he (some obj))).bind fun _ => .pure _)
    ((call_keepsOffers (he none)).bind fun _ => .pure _)

theorem newCtx_keepsView (h : Handle) (succeeds : Bool) :
    Prog.Keeps (fun w => view alpnStep w.log) (newCtx h succeeds : Backend b Unit) := by
  apply Prog.Keeps.of_apply
  intro w
  cases succeeds with
  | false => simp [newCtx_false, view, alpnStep]
  | true => simp [newCtx_true, view, alpnStep]

theorem loadOrExit_keepsOffers (mem : List UInt8) (len : UInt32) (type : X509FileType)
    (ans : LoadAnswers) :
    KeepsOffers h (loadOrExit h mem len type ans : Backend b Unit) := by
  have hfree : ∀ temp, KeepsOffers h (freeTemp h temp : Backend b Unit) := by
    intro temp
    cases temp with
    | none => exact .pure ()
    | some buf => exact call_keepsOffers rfl
  have hhandover : ∀ format,
      KeepsOffers h (caHandover h mem len format ans.malloc : Backend b (Option Handover)) := by
    intro format
    cases format with
    | asn1 => exact .pure _
    | pem =>
      refine (Prog.Keeps.liftExcept _).bind fun _ => .ite (.pure _) ?_
      refine (allocate_keepsOffers _ fun _ => rfl).bind fun buf => ?_
      cases buf with
      | none => exact .pure none
      | some temp => exact (Prog.Keeps.liftExcept _).bind fun _ => .pure _
  have hload : KeepsOffers h
      (espLoadWolfsslVerifyBuffer h mem len type ans : Backend b (EspErr × Int32)) := by
    cases type with
    | selfKey =>
      exact (Prog.Keeps.liftExcept _).bind fun _ => (Prog.Keeps.read _).bind fun _ =>
        (call_keepsOffers rfl).bind fun _ => .pure _
    | selfCert =>
      exact (Prog.Keeps.liftExcept _).bind fun _ => (Prog.Keeps.read _).bind fun _ =>
        (call_keepsOffers rfl).bind fun _ => .pure _
    | caCert =>
      refine (Prog.Keeps.liftExcept _).bind fun pem => (Prog.Keeps.read _).bind fun _ =>
        (hhandover (formatOf pem)).bind fun handover => ?_
      cases handover with
      | none => exact .pure _
      | some r =>
        exact (call_keepsOffers rfl).bind fun _ => (hfree r.temp).bind fun _ => .pure _
  exact hload.bind fun _ => Prog.Keeps.stopIf _ _

theorem setVerify_keepsOffers (mode : VerifyMode) :
    KeepsOffers h (setVerify h mode : Backend b Unit) :=
  (Prog.Keeps.read _).bind fun _ => call_keepsOffers rfl

theorem configurePsk_keepsOffers (psk : PskHintKey) (ret : Int32) :
    KeepsOffers h (configurePsk h psk ret : Backend b Unit) := by
  apply Prog.Keeps.of_apply
  intro w
  cases hcred : credentials psk with
  | none => rw [configurePsk_incomplete hcred]
  | some c =>
    obtain ⟨hint, key⟩ := c
    by_cases hlock : w.tlsConnLock = .free
    · by_cases hfit : CredentialsFit b hint key
      · rw [configurePsk_fit hcred hlock hfit]
        simp [stored, holding, view, alpnStep, objects]
      · rw [configurePsk_tooLong hcred hlock hfit]
        simp [holding, view, alpnStep, objects]
    · rw [configurePsk_busy hcred hlock]

theorem clientVerification_keepsOffers (cfg : ClientCfg) (ans : CreateAnswers) :
    KeepsOffers h (clientVerification h cfg ans : Backend b Unit) := by
  have hload : ∀ (mem : List UInt8) (len : UInt32),
      KeepsOffers h (do loadOrExit h mem len .caCert ans.loadCa; setVerify h .peer :
        Backend b Unit) := fun mem len =>
    (loadOrExit_keepsOffers mem len .caCert ans.loadCa).bind fun _ => setVerify_keepsOffers .peer
  unfold clientVerification
  refine .ite ((Prog.Keeps.read _).bind fun store => ?_) ?_
  · cases store.1 with
    | none => exact .stop _
    | some mem => exact hload mem store.2
  · cases cfg.cacertBuf with
    | some buf => exact hload buf.bytes buf.len
    | none =>
      cases (if b.pskVerification then cfg.pskHintKey else none) with
      | some psk => exact configurePsk_keepsOffers psk _
      | none => exact .ite (setVerify_keepsOffers _) (.stop _)

theorem clientCertificate_keepsOffers (cfg : ClientCfg) (ans : CreateAnswers) :
    KeepsOffers h (clientCertificate h cfg ans : Backend b Unit) := by
  unfold clientCertificate
  split
  · exact (loadOrExit_keepsOffers _ _ _ _).bind fun _ => loadOrExit_keepsOffers _ _ _ _
  · exact .pure ()
  · exact .stop _

theorem clientHostname_keepsOffers (hostname : List UInt8) (cfg : ClientCfg)
    (ans : CreateAnswers) :
    KeepsOffers h (clientHostname h hostname cfg ans : Backend b Unit) := by
  refine .ite (.pure ()) ((allocate_keepsOffers _ fun _ => rfl).bind fun host => ?_)
  cases host with
  | none => exact .stop _
  | some host =>
    refine (Prog.Keeps.read _).bind fun _ => (call_keepsOffers rfl).bind fun _ => .ite ?_ ?_
    · exact (call_keepsOffers rfl).bind fun _ => (call_keepsOffers rfl).bind fun _ =>
        .stopIf _ _
    · exact (call_keepsOffers rfl).bind fun _ => .stop _

theorem clientOcsp_keepsOffers (ans : CreateAnswers) :
    KeepsOffers h (clientOcsp h ans : Backend b Unit) := by
  refine .ite ((Prog.Keeps.read _).bind fun _ => (Prog.Keeps.read _).bind fun _ => ?_) (.pure ())
  exact (call_keepsOffers rfl).bind fun _ => (Prog.Keeps.stopIf _ _).bind fun _ =>
    (call_keepsOffers rfl).bind fun _ => (Prog.Keeps.stopIf _ _).bind fun _ =>
    (call_keepsOffers rfl).bind fun _ => .stopIf _ _

theorem setFd_keepsOffers : KeepsOffers h (setFd h : Backend b Unit) :=
  (Prog.Keeps.read _).bind fun _ => call_keepsOffers rfl

end Stretches

/-- The steps an object is created and given a list of names by. -/
def registrations (ssl : ℕ) (protocols : List CString) : List AlpnStep :=
  protocols.map fun p => .registered (some ssl) p true

/-- The loop registers every name in order, or stops with its error. -/
theorem registerAlpn_steps (h : Handle) (answers : ℕ → Int32) (i : ℕ) (protocols : List CString)
    {ssl : ℕ} {w : World b} (hssl : (w.tls h).privSsl = some ssl) :
    (∃ w', registerAlpn h answers i protocols w = (.ok (), w') ∧
      view alpnStep w'.log = view alpnStep w.log ++ tag h (registrations ssl protocols) ∧
      objects w' h = objects w h) ∨
    ∃ w', registerAlpn h answers i protocols w =
      (.error (.ret .wolfsslSslConfAlpnProtocolsFailed), w') := by
  induction protocols generalizing i w with
  | nil => exact Or.inl ⟨w, rfl, by simp [registrations], rfl⟩
  | cons p rest ih =>
    by_cases hans : answers i = wolfsslSuccess
    · have hfirst : registerAlpn h answers i (p :: rest) w =
          registerAlpn h answers (i + 1) rest
            (w.record h (.useAlpn (some ssl) p (answers i))) := by
        simp [registerAlpn, Prog.bind_apply, call, Prog.stopIf, hans, hssl]
      rw [hfirst]
      rcases ih (i + 1) (w := w.record h (.useAlpn (some ssl) p (answers i))) hssl with
        ⟨w', hrun, hview, hobjects⟩ | ⟨w', hrun⟩
      · refine Or.inl ⟨w', hrun, ?_, hobjects⟩
        rw [hview]
        simp [view, alpnStep, hans, registrations]
      · exact Or.inr ⟨w', hrun⟩
    · exact Or.inr ⟨w.record h (.useAlpn (some ssl) p (answers i)), by
        simp [registerAlpn, Prog.bind_apply, call, Prog.stopIf, hans, hssl]⟩

/-- What is set up on the new object: without the error of the loop either
nothing was registered, or every name, and every name on success. -/
theorem objectSetup_steps {h : Handle} {hostname : List UInt8} {cfg : ClientCfg}
    {ans : CreateAnswers} {protocols : List CString} {ssl : ℕ} {w w' : World b}
    {r : Except Exit Unit} (hbuild : b.haveAlpn = true)
    (hprotos : cfg.alpnProtos = some protocols) (hssl : (w.tls h).privSsl = some ssl)
    (hrun : objectSetup h hostname cfg ans w = (r, w')) :
    r = .error (.ret .wolfsslSslConfAlpnProtocolsFailed) ∨
      ∃ seen, view alpnStep w'.log = view alpnStep w.log ++ tag h seen ∧
        (seen = [] ∨ seen = registrations ssl protocols) ∧
        (r = .ok () → (w'.tls h).privSsl = some ssl ∧ seen = registrations ssl protocols) := by
  rcases (clientHostname_keepsOffers hostname cfg ans).bind_cases hrun with
    ⟨x, rfl, hkeep⟩ | ⟨_, w₁, _, hkeep, hrun⟩
  · exact Or.inr ⟨[], by simpa using (Prod.mk.inj hkeep).1, Or.inl rfl, by simp⟩
  obtain ⟨hview₁, hobjects₁⟩ := Prod.mk.inj hkeep
  have hssl₁ : (w₁.tls h).privSsl = some ssl := (congrArg Prod.snd hobjects₁).trans hssl
  have halpn : (clientAlpn h cfg ans : Backend b Unit) =
      registerAlpn h ans.useAlpn 0 protocols := by
    simp only [clientAlpn, hprotos, hbuild, if_true]
  rw [halpn] at hrun
  rcases registerAlpn_steps h ans.useAlpn 0 protocols hssl₁ with
    ⟨w₂, hloop, hview₂, hobjects₂⟩ | ⟨w₂, hloop⟩
  · rw [Prog.bind_of_ok hloop] at hrun
    have hseen : view alpnStep w₂.log =
        view alpnStep w.log ++ tag h (registrations ssl protocols) := hview₁ ▸ hview₂
    have hssl₂ : (w₂.tls h).privSsl = some ssl := (congrArg Prod.snd hobjects₂).trans hssl₁
    have hrest : KeepsOffers h (clientOcsp h ans >>= fun _ => setFd h : Backend b Unit) :=
      (clientOcsp_keepsOffers ans).bind fun _ => setFd_keepsOffers
    have hkeep := hrest.apply w₂
    rw [hrun] at hkeep
    obtain ⟨hview₃, hobjects₃⟩ := Prod.mk.inj hkeep
    exact Or.inr ⟨_, hview₃.trans hseen, Or.inr rfl,
      fun _ => ⟨(congrArg Prod.snd hobjects₃).trans hssl₂, rfl⟩⟩
  · rw [Prog.bind_of_error hloop] at hrun
    cases hrun
    exact Or.inl rfl

/-- How the configuration of a client with a list of names ends: with the error of
the loop, or before a registration failed; and when it succeeds the object was
created and every name registered. -/
theorem setClientConfig_steps {h : Handle} {hostname : List UInt8} {cfg : ClientCfg}
    {ans : CreateAnswers} {protocols : List CString} {w w' : World b} {r : Except Exit Unit}
    (hbuild : b.haveAlpn = true) (hprotos : cfg.alpnProtos = some protocols)
    (hrun : setClientConfig h hostname cfg ans w = (r, w')) :
    r = .error (.ret .wolfsslSslConfAlpnProtocolsFailed) ∨
      ∃ seen, view alpnStep w'.log = view alpnStep w.log ++ tag h seen ∧
        (∀ ssl p, .registered ssl p false ∉ seen) ∧
        (r = .ok () → ∃ ssl, (w'.tls h).privSsl = some ssl ∧
          seen = .created ssl :: registrations ssl protocols) := by
  have hcontext : Prog.Keeps (fun w => view alpnStep w.log)
      (contextSetup h cfg ans : Backend b Unit) :=
    (newCtx_keepsView h _).bind fun _ => (Prog.Keeps.stopIf _ _).bind fun _ =>
      ((clientVerification_keepsOffers cfg ans).map Prod.fst).bind fun _ =>
      (clientCertificate_keepsOffers cfg ans).map Prod.fst
  rw [setClientConfig_split] at hrun
  rcases hcontext.bind_cases hrun with ⟨x, rfl, hview⟩ | ⟨_, w₁, _, hview₁, hrun⟩
  · exact Or.inr ⟨[], by simpa using hview, by simp, by simp⟩
  cases hnew : ans.sslNew with
  | false =>
    rw [hnew, Prog.bind_of_error (newSsl_false h w₁)] at hrun
    cases hrun
    refine Or.inr ⟨[], ?_, by simp, by simp⟩
    simpa [view, alpnStep] using hview₁
  | true =>
    have hcreate : ∃ w₂, newSsl h true w₁ = (.ok (), w₂) ∧
        (w₂.tls h).privSsl = some w₁.nextObj ∧
        view alpnStep w₂.log = view alpnStep w₁.log ++ tag h [.created w₁.nextObj] :=
      ⟨_, newSsl_true h w₁, by simp, by simp [view, alpnStep]⟩
    obtain ⟨w₂, hcreate, hssl, hview₂⟩ := hcreate
    rw [hnew, Prog.bind_of_ok hcreate] at hrun
    rcases objectSetup_steps hbuild hprotos hssl hrun with
      hfailed | ⟨seen, hview, hseen, hok⟩
    · exact Or.inl hfailed
    refine Or.inr ⟨.created w₁.nextObj :: seen, ?_, ?_, ?_⟩
    · rw [hview, hview₂, hview₁, List.append_assoc, ← tag_append]
      rfl
    · intro ssl p hmem
      rcases hseen with rfl | rfl <;> simp [registrations] at hmem
    · intro hr
      obtain ⟨hssl, rfl⟩ := hok hr
      exact ⟨w₁.nextObj, hssl, rfl⟩

/-- A client with a list of names without commas offers it in its own order exactly
when that order is also the reverse one, and a registration that fails gives the
error for protocols. -/
theorem alpn_order_kept_iff {useAlpn : List (List UInt8) → CString → List (List UInt8)}
    (hlib : PutsInFront useAlpn) (hbuild : b.haveAlpn = true) {h : Handle}
    {hostname : List UInt8} {cfg : ClientCfg} {ans : CreateAnswers}
    {protocols : List CString} {w w' : World b} {r : Except Exit Unit}
    (hprotos : cfg.alpnProtos = some protocols)
    (hnames : ∀ p ∈ protocols, p.chars ≠ [] ∧ 44 ∉ p.chars)
    (hrun : setClientConfig h hostname cfg ans w = (r, w')) :
    (r = .ok () → ∃ ssl, (w'.tls h).privSsl = some ssl ∧
      (offered useAlpn ssl w'.log = protocols.map CString.chars ↔
        protocols.reverse = protocols)) ∧
    ∀ events, w'.log = w.log ++ tag h events →
      (∃ ssl p ret, .useAlpn ssl p ret ∈ events ∧ ret ≠ wolfsslSuccess) →
        r = .error (.ret .wolfsslSslConfAlpnProtocolsFailed) := by
  have hsteps := setClientConfig_steps hbuild hprotos hrun
  constructor
  · rintro rfl
    rcases hsteps with hfailed | ⟨seen, hview, _, hok⟩
    · cases hfailed
    obtain ⟨ssl, hssl, rfl⟩ := hok rfl
    refine ⟨ssl, hssl, ?_⟩
    have hoffered : offered useAlpn ssl w'.log = (protocols.map CString.chars).reverse := by
      have hnew : ∀ names, offerAfter useAlpn ssl names (.created ssl) = [] :=
        fun _ => if_pos rfl
      unfold offered
      rw [hview, List.foldl_append, tag_cons, List.foldl_cons, hnew, registrations,
        foldl_registered useAlpn hlib h ssl protocols fun p hp => (hnames p hp).2, List.append_nil]
    rw [hoffered, ← List.map_reverse]
    exact (List.map_injective_iff.mpr CString.chars_injective).eq_iff
  · rintro events hlog ⟨ssl, p, ret, hmem, hret⟩
    rcases hsteps with hfailed | ⟨seen, hview, hseen, _⟩
    · exact hfailed
    rw [hlog, view_append] at hview
    have hevents : events.filterMap alpnStep = seen := by
      have htagged := List.append_cancel_left hview
      rw [view_tag] at htagged
      exact tag_injective h htagged
    have hrefused : .registered ssl p false ∈ events.filterMap alpnStep :=
      List.mem_filterMap.mpr ⟨_, hmem, by simp [alpnStep, hret]⟩
    exact absurd (hevents ▸ hrefused) (hseen ssl p)

/-- The library as it is documented. -/
def prependNames (offered : List (List UInt8)) (protocol : CString) : List (List UInt8) :=
  protocolNames protocol ++ offered

def alpnH2 : CString := ⟨[104, 50], by simp⟩

def alpnHttp11 : CString := ⟨[104, 116, 116, 112, 47, 49, 46, 49], by simp⟩

/-- A list of several names that is its own reverse. -/
theorem alpn_order_of_palindrome :
    ∃ w' : World exampleBuild, ∃ ssl, (w'.tls 0).privSsl = some ssl ∧
      offered prependNames ssl w'.log =
        [alpnH2, alpnHttp11, alpnH2].map CString.chars := by
  have hrun : ∃ w' : World exampleBuild, setClientConfig 0 []
      { plainClient with alpnProtos := some [alpnH2, alpnHttp11, alpnH2] } allSucceed
      (World.boot exampleBuild true) = (.ok (), w') := ⟨_, rfl⟩
  obtain ⟨w', hrun⟩ := hrun
  obtain ⟨ssl, hssl, horder⟩ :=
    (alpn_order_kept_iff (fun _ _ => rfl) rfl rfl (by simp [alpnH2, alpnHttp11]) hrun).1 rfl
  exact ⟨w', ssl, hssl, horder.mpr rfl⟩

/-- "h2" before "http/1.1" is offered the other way round. -/
theorem alpn_order_fails :
    ¬ ∀ (useAlpn : List (List UInt8) → CString → List (List UInt8)) (b : Build) (h : Handle)
      (hostname : List UInt8) (cfg : ClientCfg) (ans : CreateAnswers)
      (protocols : List CString) (w w' : World b), PutsInFront useAlpn → b.haveAlpn = true →
        cfg.alpnProtos = some protocols → (∀ p ∈ protocols, p.chars ≠ [] ∧ 44 ∉ p.chars) →
        setClientConfig h hostname cfg ans w = (.ok (), w') →
          ∃ ssl, (w'.tls h).privSsl = some ssl ∧
            offered useAlpn ssl w'.log = protocols.map CString.chars := by
  intro horder
  obtain ⟨ssl, hssl, hoffered⟩ := horder prependNames exampleBuild 0 []
    { plainClient with alpnProtos := some [alpnH2, alpnHttp11] } allSucceed
    [alpnH2, alpnHttp11] (World.boot exampleBuild true) _ (fun _ _ => rfl) rfl rfl
    (by simp [alpnH2, alpnHttp11]) rfl
  cases hssl
  have hreversed : [alpnHttp11.chars, alpnH2.chars] = [alpnH2.chars, alpnHttp11.chars] :=
    hoffered
  simp [alpnH2, alpnHttp11] at hreversed

end EspWolfssl.AlpnOrder
