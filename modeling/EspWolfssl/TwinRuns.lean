import EspWolfssl.RelationalLogic
import EspWolfssl.StoreRefinement

/-!
One operation in two states. States look alike to a handle when its own fields
and the store agree, whatever its objects are called and whatever the other
handles did. An operation of the handle then makes the same calls in both,
returns the same result and leaves states that look alike again.
-/
namespace EspWolfssl.TwinRuns

open ByteRegions MutexOwnership TaggedLogs Platform ProgramLogic RelationalLogic BackendState
  PemSearch CertificateLoading PskClient HandleCreation ConnectionIo OperationFrames
  CreationOutcomes StoreRefinement

variable {b : Build}

/-- Whether a pointer is NULL. -/
def nameless (obj : Option ℕ) : Option ℕ := obj.map fun _ => 0

/-- An event without the names of its objects. A give of the lock is no call that
the connection is concerned with. -/
@[simp] def anonymous : Event → Option Event
  | .semGive => none
  | .ctxNew ctx => some (.ctxNew (nameless ctx))
  | .malloc buf size => some (.malloc (nameless buf) size)
  | .loadVerifyBuffer ctx temp bytes len format ret =>
      some (.loadVerifyBuffer (nameless ctx) (nameless temp) bytes len format ret)
  | .useCertificateChainBuffer ctx bytes len format ret =>
      some (.useCertificateChainBuffer (nameless ctx) bytes len format ret)
  | .usePrivateKeyBuffer ctx bytes len format ret =>
      some (.usePrivateKeyBuffer (nameless ctx) bytes len format ret)
  | .setVerify ctx mode => some (.setVerify (nameless ctx) mode)
  | .setPskClientCallback ctx => some (.setPskClientCallback (nameless ctx))
  | .setCipherList ctx list ret => some (.setCipherList (nameless ctx) list ret)
  | .sslNew ctx ssl => some (.sslNew (nameless ctx) (nameless ssl))
  | .strdup host => some (.strdup (nameless host))
  | .checkDomainName ssl _ name ret => some (.checkDomainName (nameless ssl) 0 name ret)
  | .useSni ssl _ name ret => some (.useSni (nameless ssl) 0 name ret)
  | .free _ => some (.free 0)
  | .useAlpn ssl protocol ret => some (.useAlpn (nameless ssl) protocol ret)
  | .ctxEnableOcsp ctx checkall ret => some (.ctxEnableOcsp (nameless ctx) checkall ret)
  | .ctxEnableOcspStapling ctx ret => some (.ctxEnableOcspStapling (nameless ctx) ret)
  | .useOcspStapling ssl ret => some (.useOcspStapling (nameless ssl) ret)
  | .setFd ssl fd => some (.setFd (nameless ssl) fd)
  | .connect ssl ret => some (.connect (nameless ssl) ret)
  | .accept ssl ret => some (.accept (nameless ssl) ret)
  | .read ssl size ret => some (.read (nameless ssl) size ret)
  | .write ssl size ret => some (.write (nameless ssl) size ret)
  | .getError ssl err => some (.getError (nameless ssl) err)
  | .getVerifyResult ssl flags => some (.getVerifyResult (nameless ssl) flags)
  | .shutdown _ => some (.shutdown 0)
  | .sslFree _ => some (.sslFree 0)
  | .ctxFree _ => some (.ctxFree 0)
  | e => some e

/-- What the code reads of a handle. -/
def shape (t : Tls) : Role × Int32 × Option ℕ × Option ℕ :=
  (t.role, t.sockfd, nameless t.privCtx, nameless t.privSsl)

/-- What the code leaves in a handle for its owner. -/
def reports (t : Tls) : ConnState × List Capture × Bool :=
  (t.connState, t.errorHandle, t.customStackIo)

def lockOf (w : World b) : Mutex × Bool := (w.tlsConnLock, w.tlsConnLockHeld)

/-- The calls of a handle, without the names of its objects. -/
def ownCalls (h : Handle) (w : World b) : List Event := ownView anonymous h w.log

/-- The states `w` and `v` look alike to the handle, and what it did since `w₀` and
`v₀` was the same. Its reports and the lock agree if they did then. -/
structure Twins (h : Handle) (w₀ v₀ w v : World b) : Prop where
  shape_eq : shape (w.tls h) = shape (v.tls h)
  store_eq : storeOf w = storeOf v
  reports_eq : reports (w₀.tls h) = reports (v₀.tls h) → reports (w.tls h) = reports (v.tls h)
  lock_eq : lockOf w₀ = lockOf v₀ → lockOf w = lockOf v
  calls : ∃ calls, ownCalls h w = ownCalls h w₀ ++ calls ∧ ownCalls h v = ownCalls h v₀ ++ calls

theorem ownCalls_record (h : Handle) (w : World b) (e : Event) :
    ownCalls h (w.record h e) = ownCalls h w ++ (anonymous e).toList := by
  rw [ownCalls, World.record_log, ownView_append, ownView_self]
  rfl

theorem present_iff {c c' : Option ℕ} (hc : nameless c = nameless c') :
    c = none ∧ c' = none ∨ ∃ n n', c = some n ∧ c' = some n' := by
  cases c <;> cases c' <;> simp_all [nameless]

namespace Twins

variable {h : Handle} {w₀ v₀ w v : World b}

theorem start (hshape : shape (w.tls h) = shape (v.tls h)) (hstore : storeOf w = storeOf v) :
    Twins h w v w v :=
  ⟨hshape, hstore, fun hr => hr, fun hl => hl, [], by simp, by simp⟩

theorem ctx_eq (hw : Twins h w₀ v₀ w v) :
    nameless (w.tls h).privCtx = nameless (v.tls h).privCtx :=
  congrArg (fun s => s.2.2.1) hw.shape_eq

theorem ssl_eq (hw : Twins h w₀ v₀ w v) :
    nameless (w.tls h).privSsl = nameless (v.tls h).privSsl :=
  congrArg (fun s => s.2.2.2) hw.shape_eq

theorem record {e e' : Event} (hw : Twins h w₀ v₀ w v) (he : anonymous e = anonymous e') :
    Twins h w₀ v₀ (w.record h e) (v.record h e') := by
  obtain ⟨calls, hleft, hright⟩ := hw.calls
  refine ⟨hw.shape_eq, hw.store_eq, hw.reports_eq, hw.lock_eq,
    calls ++ (anonymous e).toList, ?_, ?_⟩
  · rw [ownCalls_record, hleft, List.append_assoc]
  · rw [ownCalls_record, hright, he, List.append_assoc]

theorem updateTls {f g : Tls → Tls} (hw : Twins h w₀ v₀ w v)
    (hshape : shape (f (w.tls h)) = shape (g (v.tls h)))
    (hreports : reports (w.tls h) = reports (v.tls h) →
      reports (f (w.tls h)) = reports (g (v.tls h))) :
    Twins h w₀ v₀ (w.updateTls h f) (v.updateTls h g) := by
  refine ⟨?_, hw.store_eq, ?_, hw.lock_eq, hw.calls⟩
  · simpa using hshape
  · intro hr
    simpa using hreports (hw.reports_eq hr)

/-- Names and the statics of pre-shared keys do not show. -/
theorem congr {w' v' : World b} (hw : Twins h w₀ v₀ w v) (htls : w'.tls = w.tls)
    (htls' : v'.tls = v.tls) (hstore : storeOf w' = storeOf w) (hstore' : storeOf v' = storeOf v)
    (hlock : lockOf w = lockOf v → lockOf w' = lockOf v') (hcalls : ownCalls h w' = ownCalls h w)
    (hcalls' : ownCalls h v' = ownCalls h v) : Twins h w₀ v₀ w' v' := by
  refine ⟨?_, ?_, ?_, fun hl => hlock (hw.lock_eq hl), ?_⟩
  · rw [htls, htls']
    exact hw.shape_eq
  · rw [hstore, hstore']
    exact hw.store_eq
  · rw [htls, htls']
    exact hw.reports_eq
  · rw [hcalls, hcalls']
    exact hw.calls

end Twins

/-- The programs run alike in states that look alike. -/
def Twin (h : Handle) (w₀ v₀ : World b) {α : Type} (m n : Backend b α) : Prop :=
  Matched (Twins h w₀ v₀) Eq m n

namespace Twin

variable {h : Handle} {w₀ v₀ : World b} {α β : Type}

theorem pure (a : α) : Twin h w₀ v₀ (pure a) (pure a) := Matched.pure rfl

theorem stop (x : Exit) : Twin h w₀ v₀ (Prog.stop x : Backend b α) (Prog.stop x) :=
  Matched.stop x

theorem bind {m n : Backend b α} {f g : α → Backend b β} (hm : Twin h w₀ v₀ m n)
    (hf : ∀ a, Twin h w₀ v₀ (f a) (g a)) : Twin h w₀ v₀ (m >>= f) (n >>= g) :=
  Matched.bind_eq hm hf

theorem ite {c : Prop} [Decidable c] {m m' n n' : Backend b α} (hm : Twin h w₀ v₀ m n)
    (hm' : Twin h w₀ v₀ m' n') :
    Twin h w₀ v₀ (if c then m else m') (if c then n else n') :=
  Matched.ite hm hm'

theorem stopIf (c : Bool) (x : Exit) :
    Twin h w₀ v₀ (Prog.stopIf c x : Backend b Unit) (Prog.stopIf c x) :=
  Matched.stopIf c x

theorem stopIf_then {c : Bool} {x : Exit} {f g : Unit → Backend b β}
    (hf : Twin h w₀ v₀ (f ()) (g ())) :
    Twin h w₀ v₀ (Prog.stopIf c x >>= f) (Prog.stopIf c x >>= g) :=
  (stopIf c x).bind fun _ => hf

theorem liftFault_then {r : Except Fault α} {f g : α → Backend b β}
    (hf : ∀ a, Twin h w₀ v₀ (f a) (g a)) :
    Twin h w₀ v₀ (Prog.liftExcept (r.mapError .fault) >>= f)
      (Prog.liftExcept (r.mapError .fault) >>= g) :=
  Matched.bind_eq (Matched.liftExcept _) hf

theorem call {e e' : Event} (he : anonymous e = anonymous e') :
    Twin h w₀ v₀ (call h e : Backend b Unit) (call h e') :=
  Matched.modify fun _ _ hw => hw.record he

theorem call_then {e e' : Event} {f g : Unit → Backend b β} (he : anonymous e = anonymous e')
    (hf : Twin h w₀ v₀ (f ()) (g ())) :
    Twin h w₀ v₀ (BackendState.call h e >>= f) (BackendState.call h e' >>= g) :=
  (call he).bind fun _ => hf

/-- Changes of a handle that keep its shape, or change it in the same way. -/
theorem updateTls {f g : Tls → Tls}
    (hshape : ∀ t t' : Tls, shape t = shape t' → shape (f t) = shape (g t'))
    (hreports : ∀ t t' : Tls, reports t = reports t' → reports (f t) = reports (g t')) :
    Twin h w₀ v₀ (Prog.modify (·.updateTls h f) : Backend b Unit)
      (Prog.modify (·.updateTls h g)) :=
  Matched.modify fun _ _ hw => hw.updateTls (hshape _ _ hw.shape_eq) (hreports _ _)

theorem readCtx_then {f g : Option ℕ → Backend b β}
    (hf : ∀ c c', nameless c = nameless c' → Twin h w₀ v₀ (f c) (g c')) :
    Twin h w₀ v₀ ((Prog.read fun w => (w.tls h).privCtx) >>= f)
      ((Prog.read fun w => (w.tls h).privCtx) >>= g) :=
  Matched.bind (Matched.read fun _ _ hw => hw.ctx_eq) hf

theorem readSsl_then {f g : Option ℕ → Backend b β}
    (hf : ∀ c c', nameless c = nameless c' → Twin h w₀ v₀ (f c) (g c')) :
    Twin h w₀ v₀ ((Prog.read fun w => (w.tls h).privSsl) >>= f)
      ((Prog.read fun w => (w.tls h).privSsl) >>= g) :=
  Matched.bind (Matched.read fun _ _ hw => hw.ssl_eq) hf

/-- An allocation succeeds in both runs or in neither. -/
theorem allocate {succeeds : Bool} {e e' : Option ℕ → Event}
    (he : ∀ c c', nameless c = nameless c' → anonymous (e c) = anonymous (e' c')) :
    Matched (Twins h w₀ v₀) (fun c c' => nameless c = nameless c')
      (allocate h succeeds e) (allocate h succeeds e') := by
  cases succeeds with
  | false => exact Matched.bind_eq (call (he none none rfl)) fun _ => Matched.pure rfl
  | true =>
    have hnew : Matched (Twins h w₀ v₀) (fun _ _ => True) (newObject : Backend b ℕ) newObject :=
      fun w v hw => .ok trivial (hw.congr rfl rfl rfl rfl (fun hl => hl) rfl rfl)
    exact Matched.bind hnew fun obj obj' _ =>
      Matched.bind_eq (call (he (some obj) (some obj') rfl)) fun _ => Matched.pure rfl

theorem allocate_then {succeeds : Bool} {e e' : Option ℕ → Event} {f g : Option ℕ → Backend b β}
    (he : ∀ c c', nameless c = nameless c' → anonymous (e c) = anonymous (e' c'))
    (hf : ∀ c c', nameless c = nameless c' → Twin h w₀ v₀ (f c) (g c')) :
    Twin h w₀ v₀ (BackendState.allocate h succeeds e >>= f)
      (BackendState.allocate h succeeds e' >>= g) :=
  Matched.bind (allocate he) hf

end Twin

section Stretches
variable {h : Handle} {w₀ v₀ : World b}

theorem shape_privCtx {t t' : Tls} {c c' : Option ℕ} (ht : shape t = shape t')
    (hc : nameless c = nameless c') :
    shape { t with privCtx := c } = shape { t' with privCtx := c' } := by
  simp_all [shape]

theorem shape_privSsl {t t' : Tls} {c c' : Option ℕ} (ht : shape t = shape t')
    (hc : nameless c = nameless c') :
    shape { t with privSsl := c } = shape { t' with privSsl := c' } := by
  simp_all [shape]

theorem isNone_eq {c c' : Option ℕ} (hc : nameless c = nameless c') : c.isNone = c'.isNone := by
  rcases present_iff hc with ⟨rfl, rfl⟩ | ⟨n, n', rfl, rfl⟩
  · rfl
  · rfl

theorem newCtx_twin (succeeds : Bool) :
    Twin h w₀ v₀ (newCtx h succeeds : Backend b Unit) (newCtx h succeeds) := by
  refine Twin.allocate_then (fun c c' hc => by simp [hc]) fun c c' hc => ?_
  refine Twin.bind (Twin.updateTls (fun _ _ ht => shape_privCtx ht hc) fun _ _ ht => ht) fun _ => ?_
  rw [isNone_eq hc]
  exact Twin.stopIf _ _

theorem newSsl_twin (succeeds : Bool) :
    Twin h w₀ v₀ (newSsl h succeeds : Backend b Unit) (newSsl h succeeds) := by
  refine Twin.readCtx_then fun ctx ctx' hctx => ?_
  refine Twin.allocate_then (fun c c' hc => by simp [hctx, hc]) fun c c' hc => ?_
  refine Twin.bind (Twin.updateTls (fun _ _ ht => shape_privSsl ht hc) fun _ _ ht => ht) fun _ => ?_
  rw [isNone_eq hc]
  exact Twin.stopIf _ _

theorem setVerify_twin (mode : VerifyMode) :
    Twin h w₀ v₀ (setVerify h mode : Backend b Unit) (setVerify h mode) :=
  Twin.readCtx_then fun _ _ hc => Twin.call (by simp [hc])

/-- The regions of a load, but for the name of the copy. -/
def SameRegion (r r' : Option Handover) : Prop :=
  r = none ∧ r' = none ∨ ∃ temp temp' mem len, nameless temp = nameless temp' ∧
    r = some ⟨temp, mem, len⟩ ∧ r' = some ⟨temp', mem, len⟩

theorem caHandover_twin (mem : List UInt8) (len : UInt32) (format : FileFormat) (malloc : Bool) :
    Matched (Twins h w₀ v₀) SameRegion
      (caHandover h mem len format malloc : Backend b (Option Handover))
      (caHandover h mem len format malloc) := by
  cases format with
  | asn1 => exact Matched.pure (Or.inr ⟨none, none, mem, len, rfl, rfl, rfl⟩)
  | pem =>
    refine Matched.bind_eq (Matched.liftExcept _) fun terminated => ?_
    refine Matched.ite (Matched.pure (Or.inr ⟨none, none, mem, len - 1, rfl, rfl, rfl⟩)) ?_
    refine Matched.bind (Twin.allocate fun c c' hc => by simp [hc]) fun c c' hc => ?_
    rcases present_iff hc with ⟨rfl, rfl⟩ | ⟨temp, temp', rfl, rfl⟩
    · exact Matched.pure (Or.inl ⟨rfl, rfl⟩)
    · refine Matched.bind_eq (Matched.liftExcept _) fun copy => ?_
      exact Matched.pure (Or.inr ⟨some temp, some temp', copy, len, rfl, rfl, rfl⟩)

theorem freeTemp_twin {temp temp' : Option ℕ} (htemp : nameless temp = nameless temp') :
    Twin h w₀ v₀ (freeTemp h temp : Backend b Unit) (freeTemp h temp') := by
  rcases present_iff htemp with ⟨rfl, rfl⟩ | ⟨n, n', rfl, rfl⟩
  · exact Twin.pure ()
  · exact Twin.call rfl

theorem loadCaCert_twin (mem : List UInt8) (len : UInt32) (format : FileFormat)
    (ans : LoadAnswers) :
    Twin h w₀ v₀ (loadCaCert h mem len format ans : Backend b (EspErr × Int32))
      (loadCaCert h mem len format ans) := by
  refine Twin.readCtx_then fun ctx ctx' hctx => ?_
  refine Matched.bind (caHandover_twin mem len format ans.malloc) fun r r' hr => ?_
  rcases hr with ⟨rfl, rfl⟩ | ⟨temp, temp', region, n, htemp, rfl, rfl⟩
  · exact Twin.pure _
  · refine Twin.call_then (by simp [hctx, htemp]) ?_
    exact (freeTemp_twin htemp).bind fun _ => .pure _

theorem loadOrExit_twin (mem : List UInt8) (len : UInt32) (type : X509FileType)
    (ans : LoadAnswers) :
    Twin h w₀ v₀ (loadOrExit h mem len type ans : Backend b Unit)
      (loadOrExit h mem len type ans) := by
  have hload : Twin h w₀ v₀
      (espLoadWolfsslVerifyBuffer h mem len type ans : Backend b (EspErr × Int32))
      (espLoadWolfsslVerifyBuffer h mem len type ans) := by
    cases type with
    | caCert => exact Twin.liftFault_then fun pem => loadCaCert_twin mem len (formatOf pem) ans
    | selfCert =>
      exact Twin.liftFault_then fun _ => .readCtx_then fun _ _ hc =>
        .call_then (by simp [hc]) <| .pure _
    | selfKey =>
      exact Twin.liftFault_then fun _ => .readCtx_then fun _ _ hc =>
        .call_then (by simp [hc]) <| .pure _
  exact hload.bind fun _ => .stopIf _ _

theorem loadCertAndKey_twin (cert key : Buffer) (ans : CreateAnswers) :
    Twin h w₀ v₀ (loadCertAndKey h cert key ans : Backend b Unit)
      (loadCertAndKey h cert key ans) :=
  (loadOrExit_twin _ _ _ _).bind fun _ => loadOrExit_twin _ _ _ _

theorem clientCertificate_twin (cfg : ClientCfg) (ans : CreateAnswers) :
    Twin h w₀ v₀ (clientCertificate h cfg ans : Backend b Unit)
      (clientCertificate h cfg ans) := by
  unfold clientCertificate
  split
  · exact loadCertAndKey_twin _ _ ans
  · exact .pure ()
  · exact .stop _

theorem serverCertificate_twin (cfg : ServerCfg) (ans : CreateAnswers) :
    Twin h w₀ v₀ (serverCertificate h cfg ans : Backend b Unit)
      (serverCertificate h cfg ans) := by
  unfold serverCertificate
  split
  · exact loadCertAndKey_twin _ _ ans
  · exact .stop _

theorem serverVerification_twin (cfg : ServerCfg) (ans : CreateAnswers) :
    Twin h w₀ v₀ (serverVerification h cfg ans : Backend b Unit)
      (serverVerification h cfg ans) := by
  unfold serverVerification
  split
  · exact (loadOrExit_twin _ _ _ _).bind fun _ => setVerify_twin _
  · exact setVerify_twin _

/-- Stores to the statics do not show, and fault on the same credentials. -/
theorem storePsk_twin (key : List UInt8) (keySize : ℕ) (hint : CString) :
    Twin h w₀ v₀ (storePsk h key keySize hint : Backend b Unit)
      (storePsk h key keySize hint) := by
  intro w v hw
  unfold storePsk
  dsimp only
  split
  · refine .ok rfl ?_
    exact (hw.record (e := .pskStored hint key) rfl).congr rfl rfl rfl rfl (fun hl => hl) rfl rfl
  · exact .error hw

theorem takeConnLock_twin (hlock : lockOf w₀ = lockOf v₀) :
    Twin h w₀ v₀ (takeConnLock h : Backend b Unit) (takeConnLock h) := by
  have htake : Twin h w₀ v₀ (xSemaphoreTake h : Backend b Bool) (xSemaphoreTake h) := by
    intro w v hw
    have hmutex : w.tlsConnLock = v.tlsConnLock := congrArg Prod.fst (hw.lock_eq hlock)
    have hflag : w.tlsConnLockHeld = v.tlsConnLockHeld := congrArg Prod.snd (hw.lock_eq hlock)
    unfold xSemaphoreTake
    rw [hmutex]
    cases v.tlsConnLock with
    | null => exact .error hw
    | taken => exact .ok rfl hw
    | free =>
      refine .ok rfl ((hw.record (e := .semTake) rfl).congr rfl rfl rfl rfl ?_ rfl rfl)
      intro _
      exact Prod.ext rfl hflag
  have hread : Twin h w₀ v₀ (Prog.read (·.tlsConnLock) : Backend b Mutex)
      (Prog.read (·.tlsConnLock)) :=
    Matched.read fun _ _ hw => congrArg Prod.fst (hw.lock_eq hlock)
  refine hread.bind fun lock => Twin.stopIf_then <| htake.bind fun taken => Twin.stopIf_then ?_
  refine Matched.modify fun w v hw => hw.congr rfl rfl rfl rfl (fun hl => ?_) rfl rfl
  have hmutex : w.tlsConnLock = v.tlsConnLock := congrArg Prod.fst hl
  exact Prod.ext hmutex rfl

theorem configurePsk_twin (hlock : lockOf w₀ = lockOf v₀) (psk : PskHintKey) (ret : Int32) :
    Twin h w₀ v₀ (configurePsk h psk ret : Backend b Unit) (configurePsk h psk ret) := by
  unfold configurePsk
  split
  · refine Twin.stopIf_then <| (takeConnLock_twin hlock).bind fun _ => ?_
    refine Twin.stopIf_then <| (storePsk_twin _ _ _).bind fun _ => ?_
    refine Twin.readCtx_then fun _ _ hc => .call_then (by simp [hc]) ?_
    have hlist : Twin h w₀ v₀ (espWolfsslSetCipherList h ret : Backend b EspErr)
        (espWolfsslSetCipherList h ret) :=
      Twin.readCtx_then fun _ _ hc => .call_then (by simp [hc]) <| .pure _
    exact hlist.bind fun _ => .stopIf _ _
  · exact .stop _

/-- A client that selects a pre-shared key sees the lock, any other does not. -/
theorem clientVerification_twin (cfg : ClientCfg) (ans : CreateAnswers)
    (hpsk : pskSource b cfg = none ∨ lockOf w₀ = lockOf v₀) :
    Twin h w₀ v₀ (clientVerification h cfg ans : Backend b Unit)
      (clientVerification h cfg ans) := by
  unfold clientVerification
  split
  · have hread : Twin h w₀ v₀
        (Prog.read fun w => (w.globalCacert, w.globalCacertPemBytes) :
          Backend b (Option (List UInt8) × UInt32))
        (Prog.read fun w => (w.globalCacert, w.globalCacertPemBytes)) :=
      Matched.read fun _ _ hw => hw.store_eq
    refine hread.bind fun store => ?_
    split
    · exact .stop _
    · exact (loadOrExit_twin _ _ _ _).bind fun _ => setVerify_twin _
  · rename_i hstore
    split
    · exact (loadOrExit_twin _ _ _ _).bind fun _ => setVerify_twin _
    · rename_i hbuf
      split
      · rename_i psk hsome
        have hsource : pskSource b cfg = some psk := by
          simpa [pskSource, hstore, hbuf] using hsome
        rcases hpsk with hnone | hlock
        · rw [hsource] at hnone
          cases hnone
        · exact configurePsk_twin hlock psk _
      · exact .ite (setVerify_twin _) (.stop _)

theorem clientHostname_twin (hostname : List UInt8) (cfg : ClientCfg) (ans : CreateAnswers) :
    Twin h w₀ v₀ (clientHostname h hostname cfg ans : Backend b Unit)
      (clientHostname h hostname cfg ans) := by
  refine .ite (.pure ()) <| .allocate_then (fun c c' hc => by simp [hc]) ?_
  intro host host' hhost
  rcases present_iff hhost with ⟨rfl, rfl⟩ | ⟨n, n', rfl, rfl⟩
  · exact .stop _
  · refine Twin.readSsl_then fun _ _ hc => .call_then (by simp [hc]) ?_
    refine .ite ?_ (.call_then rfl <| .stop _)
    exact .call_then (by simp [hc]) <| .call_then rfl <| .stopIf _ _

theorem registerAlpn_twin (answers : ℕ → Int32) (i : ℕ) (protocols : List CString) :
    Twin h w₀ v₀ (registerAlpn h answers i protocols : Backend b Unit)
      (registerAlpn h answers i protocols) := by
  induction protocols generalizing i with
  | nil => exact .pure ()
  | cons protocol rest ih =>
    exact Twin.readSsl_then fun _ _ hc => .call_then (by simp [hc]) <|
      .stopIf_then <| ih (i + 1)

theorem clientAlpn_twin (cfg : ClientCfg) (ans : CreateAnswers) :
    Twin h w₀ v₀ (clientAlpn h cfg ans : Backend b Unit) (clientAlpn h cfg ans) := by
  unfold clientAlpn
  split
  · exact .pure ()
  · exact .ite (registerAlpn_twin _ 0 _) (.stop _)

theorem clientOcsp_twin (ans : CreateAnswers) :
    Twin h w₀ v₀ (clientOcsp h ans : Backend b Unit) (clientOcsp h ans) := by
  refine .ite (.readCtx_then fun _ _ hctx => .readSsl_then fun _ _ hssl => ?_) (.pure ())
  refine .call_then (by simp [hctx]) <| .stopIf_then ?_
  refine .call_then (by simp [hctx]) <| .stopIf_then ?_
  exact .call_then (by simp [hssl]) <| .stopIf _ _

theorem setFd_twin : Twin h w₀ v₀ (setFd h : Backend b Unit) (setFd h) := by
  refine Matched.bind (V := fun t t' => shape t = shape t')
    (Matched.read fun _ _ hw => hw.shape_eq) fun t t' ht => Twin.call ?_
  simp only [shape, Prod.mk.injEq] at ht
  simp [ht]

theorem setClientConfig_twin (hostname : List UInt8) (cfg : ClientCfg) (ans : CreateAnswers)
    (hpsk : pskSource b cfg = none ∨ lockOf w₀ = lockOf v₀) :
    Twin h w₀ v₀ (setClientConfig h hostname cfg ans : Backend b Unit)
      (setClientConfig h hostname cfg ans) := by
  refine (newCtx_twin _).bind fun _ => .stopIf_then ?_
  refine (clientVerification_twin cfg ans hpsk).bind fun _ => ?_
  refine (clientCertificate_twin cfg ans).bind fun _ => (newSsl_twin _).bind fun _ => ?_
  refine (clientHostname_twin hostname cfg ans).bind fun _ => ?_
  exact (clientAlpn_twin cfg ans).bind fun _ => (clientOcsp_twin ans).bind fun _ => setFd_twin

theorem setServerConfig_twin (cfg : ServerCfg) (ans : CreateAnswers) :
    Twin h w₀ v₀ (setServerConfig h cfg ans : Backend b Unit) (setServerConfig h cfg ans) := by
  refine (newCtx_twin _).bind fun _ => (serverVerification_twin cfg ans).bind fun _ => ?_
  exact (serverCertificate_twin cfg ans).bind fun _ => (newSsl_twin _).bind fun _ => setFd_twin

end Stretches

/-- The configuration selects no pre-shared key. -/
def NoPsk (b : Build) : Cfg → Prop
  | .client cfg => pskSource b cfg = none
  | .server _ => True

section Operations
variable {h : Handle} {w₀ v₀ w v : World b}

/-- What the cleanup does for the lock does not show. -/
theorem releaseConnLock_unseen (h : Handle) (w : World b) :
    (releaseConnLock h w).tls = w.tls ∧ storeOf (releaseConnLock h w) = storeOf w ∧
      ownCalls h (releaseConnLock h w) = ownCalls h w := by
  unfold releaseConnLock
  split
  · refine ⟨rfl, rfl, (ownCalls_record h w .semGive).trans ?_⟩
    simp
  · exact ⟨rfl, rfl, rfl⟩

theorem releaseConnLock_lock {h : Handle} {w v : World b} (hl : lockOf w = lockOf v) :
    lockOf (releaseConnLock h w) = lockOf (releaseConnLock h v) := by
  have hmutex : w.tlsConnLock = v.tlsConnLock := congrArg Prod.fst hl
  have hflag : w.tlsConnLockHeld = v.tlsConnLockHeld := congrArg Prod.snd hl
  unfold releaseConnLock
  rw [hflag]
  split
  · simp only [lockOf, giveConnLock, hmutex]
  · exact hl

theorem releaseConnLock_twins (hw : Twins h w₀ v₀ w v) :
    Twins h w₀ v₀ (releaseConnLock h w) (releaseConnLock h v) := by
  obtain ⟨htls, hstore, hcalls⟩ := releaseConnLock_unseen h w
  obtain ⟨htls', hstore', hcalls'⟩ := releaseConnLock_unseen h v
  exact hw.congr htls htls' hstore hstore' releaseConnLock_lock hcalls hcalls'

theorem freeSsl_twins (hw : Twins h w₀ v₀ w v) :
    Twins h w₀ v₀ (freeSsl h w) (freeSsl h v) := by
  unfold freeSsl
  rcases present_iff hw.ssl_eq with ⟨hnone, hnone'⟩ | ⟨n, n', hsome, hsome'⟩
  · rw [hnone, hnone']
    exact hw
  · rw [hsome, hsome']
    have hshutdown : anonymous (.shutdown n) = anonymous (.shutdown n') := rfl
    have hfree : anonymous (.sslFree n) = anonymous (.sslFree n') := rfl
    have hfreed := (hw.record hshutdown).record hfree
    exact hfreed.updateTls (shape_privSsl hfreed.shape_eq rfl) fun hr => hr

theorem freeCtx_twins (hw : Twins h w₀ v₀ w v) :
    Twins h w₀ v₀ (freeCtx h w) (freeCtx h v) := by
  unfold freeCtx
  rcases present_iff hw.ctx_eq with ⟨hnone, hnone'⟩ | ⟨n, n', hsome, hsome'⟩
  · rw [hnone, hnone']
    exact hw
  · rw [hsome, hsome']
    have hfree : anonymous (.ctxFree n) = anonymous (.ctxFree n') := rfl
    have hfreed := hw.record hfree
    exact hfreed.updateTls (shape_privCtx hfreed.shape_eq rfl) fun hr => hr

theorem espWolfsslCleanup_twins (hw : Twins h w₀ v₀ w v) :
    Twins h w₀ v₀ (espWolfsslCleanup h w) (espWolfsslCleanup h v) :=
  freeCtx_twins (freeSsl_twins (releaseConnLock_twins hw))

theorem createBody_twin (hostname : List UInt8) (cfg : Cfg) (ans : CreateAnswers)
    (hpsk : NoPsk b cfg ∨ lockOf w₀ = lockOf v₀) :
    Twin h w₀ v₀ (createBody h hostname cfg ans : Backend b Unit)
      (createBody h hostname cfg ans) := by
  have hrole : Twin h w₀ v₀ (Prog.read fun w => (w.tls h).role : Backend b Role)
      (Prog.read fun w => (w.tls h).role) :=
    Matched.read fun _ _ hw => congrArg Prod.fst hw.shape_eq
  refine Twin.call_then rfl <| .stopIf_then <| hrole.bind fun role => ?_
  unfold setRoleConfig
  split
  · exact setClientConfig_twin hostname _ ans hpsk
  · exact setServerConfig_twin _ ans
  · exact .stop _
  · exact .stop _
  · exact .stop _

theorem espWolfsslCreateSslHandle_twin (hostname : List UInt8) (cfg : Cfg) (ans : CreateAnswers)
    (hpsk : NoPsk b cfg ∨ lockOf w₀ = lockOf v₀) :
    Twin h w₀ v₀ (espWolfsslCreateSslHandle h hostname cfg ans : Backend b EspErr)
      (espWolfsslCreateSslHandle h hostname cfg ans) := by
  intro w v hw
  have hbody := createBody_twin hostname cfg ans hpsk w v hw
  unfold espWolfsslCreateSslHandle
  generalize createBody h hostname cfg ans w = x at hbody
  generalize createBody h hostname cfg ans v = y at hbody
  cases hbody with
  | ok _ hend => exact .ok rfl hend
  | @error e _ _ hend =>
    cases e with
    | ret e => exact .ok rfl (espWolfsslCleanup_twins hend)
    | fault f => exact .error hend
    | waiting => exact .error hend

/-- Changes of what a handle reports, by the same function in both runs. -/
theorem report_twin {f : Tls → Tls} (hshape : ∀ t, shape (f t) = shape t)
    (hreports : ∀ t t' : Tls, reports t = reports t' → reports (f t) = reports (f t')) :
    Twin h w₀ v₀ (Prog.modify (·.updateTls h f) : Backend b Unit)
      (Prog.modify (·.updateTls h f)) :=
  Twin.updateTls (fun t t' ht => by rw [hshape, hshape, ht]) hreports

theorem capture_twin (entry : Capture) :
    Twin h w₀ v₀ (capture h entry : Backend b Unit) (capture h entry) :=
  report_twin (fun _ => rfl) fun t t' ht => by simp_all [reports]

theorem setConnState_twin (state : ConnState) :
    Twin h w₀ v₀ (setConnState h state : Backend b Unit) (setConnState h state) :=
  report_twin (fun _ => rfl) fun t t' ht => by simp_all [reports]

theorem espWolfsslHandshake_twin (cfg : ClientCfg) (ans : CallAnswer) (flags : Int32) :
    Twin h w₀ v₀ (espWolfsslHandshake h cfg ans flags : Backend b Int32)
      (espWolfsslHandshake h cfg ans flags) := by
  have hflags : Twin h w₀ v₀ (captureVerifyResult h cfg flags : Backend b Unit)
      (captureVerifyResult h cfg flags) :=
    .ite (.readSsl_then fun _ _ hc => .call_then (by simp [hc]) <|
      .ite (.pure ()) (capture_twin _)) (.pure ())
  refine Twin.readSsl_then fun _ _ hc => .call_then (by simp [hc]) <| .ite ?_ ?_
  · exact (setConnState_twin _).bind fun _ => .pure _
  · refine .call_then (by simp [hc]) <| .ite (.pure _) ?_
    exact (capture_twin _).bind fun _ => (capture_twin _).bind fun _ =>
      hflags.bind fun _ => (setConnState_twin _).bind fun _ => .pure _

theorem captureUnlessRetry_twin (err : Int32) :
    Twin h w₀ v₀ (captureUnlessRetry h err : Backend b Unit) (captureUnlessRetry h err) :=
  .ite (.pure ()) (capture_twin _)

theorem espWolfsslRead_twin (datalen : UInt32) (ans : CallAnswer) :
    Twin h w₀ v₀ (espWolfsslRead h datalen ans : Backend b Int32)
      (espWolfsslRead h datalen ans) := by
  refine Twin.readSsl_then fun _ _ hc => .call_then (by simp [hc]) <|
    .ite ?_ (.pure _)
  refine .call_then (by simp [hc]) <| .ite (.pure _) ?_
  exact (captureUnlessRetry_twin ans.err).bind fun _ => .pure _

theorem espWolfsslWrite_twin (datalen : UInt32) (ans : CallAnswer) :
    Twin h w₀ v₀ (espWolfsslWrite h datalen ans : Backend b Int32)
      (espWolfsslWrite h datalen ans) := by
  refine Twin.readSsl_then fun _ _ hc => .call_then (by simp [hc]) <|
    .ite ?_ (.pure _)
  exact .call_then (by simp [hc]) <|
    (captureUnlessRetry_twin ans.err).bind fun _ => .pure _

theorem acceptLoop_twin (answers : List CallAnswer) :
    Twin h w₀ v₀ (acceptLoop h answers : Backend b Int32) (acceptLoop h answers) := by
  induction answers with
  | nil => exact .stop _
  | cons ans rest ih =>
    refine Twin.readSsl_then fun _ _ hc => .call_then (by simp [hc]) <|
      .ite (.pure _) ?_
    refine .call_then (by simp [hc]) <| .ite ih ?_
    exact (setConnState_twin _).bind fun _ => .pure _

theorem setEndpoint_twins {w₀ v₀ w v : World b} (hw : Twins h w₀ v₀ w v) (role : Role)
    (sockfd : Int32) : Twins h w₀ v₀ (w.setEndpoint h role sockfd) (v.setEndpoint h role sockfd) :=
  hw.updateTls (by simpa [shape] using ⟨hw.ctx_eq, hw.ssl_eq⟩) fun hr => hr

theorem espWolfsslServerSessionCreate_twin (cfg : ServerCfg) (sockfd : Int32)
    (ans : CreateAnswers) (accepts : List CallAnswer) :
    Twin h w₀ v₀
      (espWolfsslServerSessionCreate (some h) (some cfg) sockfd ans accepts : Backend b Int32)
      (espWolfsslServerSessionCreate (some h) (some cfg) sockfd ans accepts) := by
  have hset : Twin h w₀ v₀ (Prog.modify (·.setEndpoint h .server sockfd) : Backend b Unit)
      (Prog.modify (·.setEndpoint h .server sockfd)) :=
    Matched.modify fun _ _ hw => setEndpoint_twins hw _ _
  refine hset.bind fun _ => ?_
  refine (espWolfsslCreateSslHandle_twin [] (.server cfg) ans (Or.inl trivial)).bind fun e => ?_
  refine .ite ?_ ((setConnState_twin _).bind fun _ => .pure _)
  have hio : Twin h w₀ v₀
      (Prog.modify (·.updateTls h fun t => { t with customStackIo := true }) : Backend b Unit)
      (Prog.modify (·.updateTls h fun t => { t with customStackIo := true })) :=
    report_twin (fun _ => rfl) fun t t' ht => by simp_all [reports]
  exact hio.bind fun _ => acceptLoop_twin accepts

end Operations
end EspWolfssl.TwinRuns
