import EspWolfssl.ByteRegions
import Mathlib.Algebra.Group.Nat.Defs

/-!
What the backend is compiled against and called with: the build options of
sdkconfig and user_settings.h, the codes of the two libraries around it, and
the configuration structures of esp-tls.
-/
namespace EspWolfssl.Platform

open ByteRegions

/-- Codes of headers outside the repository: `WOLFSSL_ERROR_*` of wolfSSL and
`ESP_TLS_ERR_SSL_WANT_*` of esp-tls. The switch in the conversion helper needs
the retry codes distinct, and zero is `WOLFSSL_ERROR_NONE`. -/
structure Codes where
  wantRead : Int32
  wantWrite : Int32
  zeroReturn : Int32
  espWantRead : Int32
  espWantWrite : Int32
  want_ne : wantRead ≠ wantWrite
  zeroReturn_ne : zeroReturn ≠ wantRead ∧ zeroReturn ≠ wantWrite
  none_ne : wantRead ≠ 0 ∧ wantWrite ≠ 0 ∧ zeroReturn ≠ 0
  espWant_ne : espWantRead ≠ espWantWrite
  espWantRead_neg : espWantRead < 0
  espWantWrite_neg : espWantWrite < 0

def Codes.idf : Codes where
  wantRead := 2
  wantWrite := 3
  zeroReturn := 6
  espWantRead := -0x6900
  espWantWrite := -0x6880
  want_ne := by decide
  zeroReturn_ne := by decide
  none_ne := by decide
  espWant_ne := by decide
  espWantRead_neg := by decide
  espWantWrite_neg := by decide

def wolfsslSuccess : Int32 := 1

def wolfsslFailure : Int32 := 0

def wolfsslX509VOk : Int32 := 0

/-- The options the preprocessor tests, and the codes of the headers. -/
structure Build where
  pskVerification : Bool
  skipServerCertVerify : Bool
  haveAlpn : Bool
  haveOcsp : Bool
  ocspCheckall : Bool
  tls13 : Bool
  haveAesgcm : Bool
  noDh : Bool
  haveEcc : Bool
  haveNullCipher : Bool
  codes : Codes

def Build.pskMaxIdLen (b : Build) : ℕ := if b.tls13 then 128 else 64

def pskMaxKeyLen : ℕ := 64

/-- The list `esp_wolfssl_set_cipher_list` installs. -/
def Build.defaultCipherList (b : Build) : String :=
  if b.haveAesgcm && !b.noDh then
    if b.tls13 then "DHE-PSK-AES128-GCM-SHA256:TLS13-AES128-GCM-SHA256"
    else "DHE-PSK-AES128-GCM-SHA256"
  else if b.haveAesgcm && b.haveEcc then
    if b.tls13 then "ECDHE-PSK-AES128-GCM-SHA256:TLS13-AES128-GCM-SHA256"
    else "ECDHE-PSK-AES128-GCM-SHA256"
  else if b.haveNullCipher then "PSK-NULL-SHA256"
  else "PSK-AES128-CBC-SHA256"

inductive EspErr
  | ok
  | fail
  | noMem
  | invalidArg
  | invalidState
  | notSupported
  | timeout
  | wolfsslCtxSetupFailed
  | wolfsslSslSetupFailed
  | wolfsslCertVerifySetupFailed
  | wolfsslSslSetHostnameFailed
  | wolfsslSslConfAlpnProtocolsFailed
  | wolfsslSslHandshakeFailed
deriving DecidableEq, Repr

/-- Behaviour that C leaves undefined, or a FreeRTOS assertion. -/
inductive Fault
  | outOfBounds
  | endlessLoop
  | wrongCfgType
  | nullSemaphore
  | signedOverflow
deriving DecidableEq, Repr

inductive Exit
  | ret (e : EspErr)
  | fault (f : Fault)
  /-- The outcomes supplied so far leave the operation in its retry loop. -/
  | waiting
deriving DecidableEq, Repr

inductive X509FileType
  | caCert
  | selfCert
  | selfKey
deriving DecidableEq, Repr

inductive FileFormat
  | pem
  | asn1
deriving DecidableEq, Repr

inductive VerifyMode
  | none
  | peer
  | peerFailIfNoPeerCert
deriving DecidableEq, Repr

/-- A caller's buffer: its `unsigned int` length is the number of its bytes. -/
structure Buffer where
  bytes : List UInt8
  bounded : bytes.length < 2 ^ 32
deriving DecidableEq, Repr

def Buffer.len (buf : Buffer) : UInt32 := UInt32.ofNat buf.bytes.length

theorem Buffer.len_toNat (buf : Buffer) : buf.len.toNat = buf.bytes.length :=
  UInt32.toNat_ofNat_of_lt' buf.bounded

/-- `psk_hint_key_t`: a key that is given has `key_size` bytes. -/
structure PskHintKey where
  key : Option (List UInt8)
  keySize : ℕ
  hint : Option CString
  key_length : ∀ k, key = some k → k.length = keySize
deriving DecidableEq

/-- The fields that the backend reads, as those of the server below. -/
structure ClientCfg where
  crtBundleAttach : Bool
  useGlobalCaStore : Bool
  cacertBuf : Option Buffer
  pskHintKey : Option PskHintKey
  clientcertBuf : Option Buffer
  clientkeyBuf : Option Buffer
  skipCommonName : Bool
  commonName : Option CString
  alpnProtos : Option (List CString)
deriving DecidableEq

structure ServerCfg where
  cacertBuf : Option Buffer
  servercertBuf : Option Buffer
  serverkeyBuf : Option Buffer
deriving DecidableEq

/-- What the untyped `cfg` pointer of `create_ssl_handle` points to. -/
inductive Cfg
  | client (cfg : ClientCfg)
  | server (cfg : ServerCfg)
deriving DecidableEq

inductive Role
  | client
  | server
  | invalid
deriving DecidableEq, Repr

end EspWolfssl.Platform
