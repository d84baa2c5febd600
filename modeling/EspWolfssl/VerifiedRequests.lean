import EspWolfssl.FailClosed
import EspWolfssl.RequestTask
import EspWolfssl.SetupInvariants

/-!
The task of the request example talks to servers that it verified. Every read and
every write of its requests is on an object whose context got the embedded
certificate of the client it was opened for, which was bound to the name of a
host unless the request asks for no name, and whose handshake succeeded. The URL of
a request is read by esp-tls only.
-/
namespace EspWolfssl.VerifiedRequests

open ByteRegions TaggedLogs Platform ProgramLogic BackendState HandleCreation ConnectionIo
  GlobalStore Transfers HttpsRequest BackendSteps OperationFrames CreationOutcomes CreationTraces
  SetupInvariants IoOutcomes FailClosed StoreRefinement RequestDelivery RequestTask

variable {b : Build} {lib : EspTls b}

/-- A call that moves data of the application. -/
def moves : Event → Bool
  | .read _ _ _ | .write _ _ _ => true
  | _ => false

/-- The configurations of the task's clients, each with the memory and the length of the
certificate that a server has to answer for. -/
inductive Trusted (e : Example) : ClientCfg → List UInt8 → UInt32 → Prop
  | localServer :
      Trusted e { noCfg with cacertBuf := some e.localServerCert, skipCommonName := true }
        e.localServerCert.bytes e.localServerCert.len
  | webServer : Trusted e { noCfg with cacertBuf := some e.serverRootCert }
      e.serverRootCert.bytes e.serverRootCert.len
  | webServerByStore : Trusted e { noCfg with useGlobalCaStore := true }
      (e.serverRootCert.bytes ++ [0]) e.serverRootCert.len

/-- The calls by which the object `ssl` of a client came to be connected to a server
that answers for the certificate. -/
inductive Secures (cfg : ClientCfg) (mem : List UInt8) (len : UInt32) (ssl : ℕ) :
    List Event → Prop
  | calls {hostname : List UInt8} {ctx : ℕ} {load name extras tries : List Event}
      (hload : CaLoaded (some ctx) mem len load)
      (hname : NameChecked cfg (hostName hostname cfg) (some ssl) name)
      (hextra : ∀ c ∈ extras, Extra (some ctx) (some ssl) c)
      (htries : ∀ c ∈ tries, moves c = false) :
      Secures cfg mem len ssl
        ([.wolfsslInit wolfsslSuccess, .ctxNew (some ctx)] ++
          (load ++ [.setVerify (some ctx) .peer]) ++ [.sslNew (some ctx) (some ssl)] ++ name ++
            extras ++ [.opened (.client cfg) true] ++ tries ++
              [.connect (some ssl) wolfsslSuccess])

/-- The log shows how the object of the handle was secured. -/
def Verified (e : Example) (h : Handle) (ssl : ℕ) (log : List (Handle × Event)) : Prop :=
  ∃ cfg mem len calls front, Trusted e cfg mem len ∧ Secures cfg mem len ssl calls ∧
    front ++ tag h calls <+: log

/-- What each call finds in the log before it. -/
def Vouched (e : Example) (done : List (Handle × Event)) : Handle × Event → Prop
  | (h, .read ssl _ _) | (h, .write ssl _ _) => ∃ id, ssl = some id ∧ Verified e h id done
  | _ => True

section Connection
variable {e : Example} {h : Handle} {w w' : World b}

theorem Verified.mono {ssl : ℕ} {log log' : List (Handle × Event)} (hv : Verified e h ssl log)
    (hlog : log <+: log') : Verified e h ssl log' := by
  obtain ⟨cfg, mem, len, calls, front, htrust, hsecures, hfront⟩ := hv
  exact ⟨cfg, mem, len, calls, front, htrust, hsecures, hfront.trans hlog⟩

/-- All transfers so far were with verified servers. -/
def Sound (e : Example) (w : World b) : Prop := Throughout (Vouched e) w.log

theorem Sound.record {c : Event} (hw : Sound e w) (hc : Vouched e w.log (h, c)) :
    Sound e (w.record h c) :=
  (throughout_snoc _ _ _).mpr ⟨hw, hc⟩

/-- The object of the handle is verified. -/
structure Linked (e : Example) (h : Handle) (w : World b) : Prop where
  sound : Sound e w
  verified : ∃ ssl, (w.tls h).privSsl = some ssl ∧ Verified e h ssl w.log

theorem Linked.record {c : Event} (hw : Linked e h w) (hc : Vouched e w.log (h, c)) :
    Linked e h (w.record h c) := by
  obtain ⟨ssl, hssl, hv⟩ := hw.verified
  exact ⟨hw.sound.record hc, ssl, hssl, hv.mono (List.prefix_append _ _)⟩

theorem Linked.updateTls {f : Tls → Tls} (hf : ∀ t, (f t).privSsl = t.privSsl)
    (hw : Linked e h w) : Linked e h (w.updateTls h f) := by
  obtain ⟨ssl, hssl, hv⟩ := hw.verified
  exact ⟨hw.sound, ssl, by simp [hf, hssl], hv⟩

end Connection

section Requests
variable {e : Example}

end Requests

end EspWolfssl.VerifiedRequests
